import KvFlowSim.Policy.Oblivious
import KvFlowSim.Serving.AnyTrace
import KvFlowSim.Serving.Timeline
import KvFlowSim.Transfer.Fifo
import KvFlowSim.Transfer.Table

/-!
# The fetches of a run

The transfer model of the cache-aware runner is called for the fetches that arrivals make, and for
nothing else (`step_asks`): placements score tiers without a trace, and completions leave it alone.

* `fetches_complete`: with any of the three models, each fetch is done when its estimate says, and
  what is done in a run are the fetches of the run.
* `fetches_share_nic`: behind the NIC of the queued model the remote fetches of a run go one at a
  time, in the order of their arrivals, and none waits longer than those before it take on the wire.
-/

theorem List.filterMap_concat {α β : Type} (f : α → Option β) (l : List α) (a : α) :
    (l ++ [a]).filterMap f = l.filterMap f ++ (f a).toList := by
  rw [List.filterMap_append]
  cases h : f a <;> simp [h]

namespace KvFlowSim

open ServingState

namespace ServingEvent

def fetch : ServingEvent → Option UInt64
  | fetchDone id => some id
  | _ => none

end ServingEvent

namespace ServingState

/-- The fetches that are under way, with the times at which they are done. -/
def fetches (s : ServingState) : List (UInt64 × UInt64) := s.sim.timesOf ServingEvent.fetch

variable {now id : UInt64} {x y : ServingState × Held} {s s' : ServingState} {stage : Stage}

/-- No move of a runner that does not fetch changes them. -/
theorem Move.fetches (h : Move False now x y) : y.1.fetches = x.1.fetches := by
  cases h with
  | @start s id budget stage n i done cluster r r' =>
    have hnone : ServingEvent.fetch (stage.doneEvent id n i) = none := by cases stage <;> rfl
    show (s.sim.schedule done (stage.doneEvent id n i)).timesOf ServingEvent.fetch = _
    rw [timesOf_schedule, hnone]
    exact List.append_nil _
  | enqueue => rw [ServingState.fetches, sim_setQueue, ServingState.fetches]
  | dequeue => rw [ServingState.fetches, sim_setQueue, ServingState.fetches]
  | fetch hfetching => exact hfetching.elim
  | finish => rw [ServingState.fetches, sim_finish, ServingState.fetches]
  | drop => rfl
  | note => rfl

theorem Moves.fetches (h : Moves False now x y) : y.1.fetches = x.1.fetches :=
  h.invariant (I := fun z => z.1.fetches = x.1.fetches) (fun _ _ hz hm => hm.fetches.trans hz) rfl

theorem fetches_releaseGpu {n : NodeId} {i : ℕ} (h : s.releaseGpu n i now = .ok s') :
    s'.fetches = s.fetches := by
  obtain ⟨cluster, -, h⟩ := Except.bind_eq_ok.1 h
  obtain rfl := Except.ok.inj h
  rfl

section

variable {C : Type} [ComputeModel C] {compute : C} {config : ServingConfig}

theorem fetches_startOrQueue (h : s.startOrQueue compute config stage id now = .ok s') :
    s'.fetches = s.fetches := by
  have hmoves : Moves False now (s, some (id, stage.weight)) (s', none) :=
    startOrQueue_moves h le_rfl
  exact hmoves.fetches

theorem fetches_startOrQueueDecode (h : s.startOrQueueDecode compute config id now = .ok s') :
    s'.fetches = s.fetches := by
  have hmoves : Moves False now (s, some (id, 1)) (s', none) := startOrQueueDecode_moves h le_rfl
  exact hmoves.fetches

theorem fetches_tryAssign (h : s.tryAssign compute config stage now = .ok s') :
    s'.fetches = s.fetches := by
  have hmoves : Moves False now (s, none) (s', none) := (tryAssign_moves h).1
  exact hmoves.fetches

end

/-- The next event is taken out. -/
theorem fetches_pop {kind : ServingEvent} {sim : Simulator ServingEvent}
    (hnext : s.sim.step = some (now, kind, sim)) (htimely : ∀ p ∈ s.fetches, s.sim.nowNs ≤ p.2) :
    s.fetches.Perm ((kind.fetch.map fun id =>
      (id, now)).toList ++ ({ s with sim } : ServingState).fetches) ∧
      ∀ p ∈ ({ s with sim } : ServingState).fetches, now ≤ p.2 := by
  obtain ⟨ev, rfl, hperm, hnow, -, hfirst⟩ := Simulator.step_spec hnext
  have hfetches : s.fetches.Perm ((ev.kind.fetch.map fun id => (id, ev.timeNs)).toList ++
      ({ s with sim } : ServingState).fetches) := by
    refine (hperm.filterMap _).trans (List.Perm.of_eq ?_)
    rw [List.filterMap_cons]
    cases ev.kind.fetch <;> rfl
  have hsub : ∀ p ∈ ({ s with sim } : ServingState).fetches, p ∈ s.fetches := fun p hp =>
    hfetches.mem_iff.2 (List.mem_append_right _ hp)
  refine ⟨?_, fun p hp => ?_⟩
  · cases hkind : ev.kind.fetch with
    | none =>
      rw [hkind] at hfetches
      exact hfetches
    | some id =>
      rw [hkind] at hfetches
      have hlate : s.sim.nowNs ≤ ev.timeNs :=
        htimely (id, ev.timeNs) (hfetches.mem_iff.2 List.mem_cons_self)
      rw [hnow, max_eq_right hlate]
      exact hfetches
  · rw [hnow]
    refine max_le (htimely p (hsub p hp)) ?_
    obtain ⟨ev', hev', hp'⟩ := List.mem_filterMap.1 hp
    obtain ⟨id, -, rfl⟩ := Option.map_eq_some_iff.1 hp'
    exact hfirst ev' hev'

end ServingState

/-! ## What a step asks of the transfer model -/

namespace TransferModel

variable {T : Type} [TransferModel T]

/-- The answer to a call. -/
def answer (m : T) (call : EstimateCall) : Except KvFlowError TransferEstimate :=
  (estimate m call.nowNs call.path call.bytes).1

/-- The model after a call. -/
def after (m : T) (call : EstimateCall) : T := (estimate m call.nowNs call.path call.bytes).2

end TransferModel

namespace Happening

variable {C P T : Type}

/-- The fetch that an arrival asks for. -/
def call (e : Happening C P T) : Option EstimateCall :=
  e.found.bind fun kv => (CacheAwareRunner.fetchPath kv.location).map fun path =>
    ⟨e.nowNs, path, kv.bytes⟩

variable [TransferModel T]

/-- The fetch that an arrival begins, with its estimate. -/
def begun (e : Happening C P T) : Option (EstimateCall × TransferEstimate) :=
  e.call.bind fun call => (TransferModel.answer e.before.transfer call).toOption.map
  fun est => (call, est)

/-- What an event has to do with the transfer model. -/
structure Asks (e : Happening C P T) (s : ServingState) : Prop where
  transfer : e.after.transfer = e.call.elim e.before.transfer
    (TransferModel.after e.before.transfer)
  fetches : e.after.fetches =
    s.fetches ++ (e.begun.map fun f => (e.event.requestId, f.2.finishNs)).toList
  fetchedBytes : e.after.fetchedBytes = e.before.fetchedBytes + e.begun.elim 0 fun f => f.1.bytes

end Happening

namespace CacheAwareRunner

variable {C P T : Type} {r r' r'' : CacheAwareRunner C P T} {now id : UInt64}
  {inflight : InFlightRequest} {event : ServingEvent} {sim : Simulator ServingEvent}

/-- The transfer model is left alone, and so are the fetches. -/
structure Quiet (r r' : CacheAwareRunner C P T) : Prop where
  transfer : r'.transfer = r.transfer
  fetches : r'.fetches = r.fetches
  fetchedBytes : r'.fetchedBytes = r.fetchedBytes

theorem Quiet.trans (h : Quiet r r') (h' : Quiet r' r'') : Quiet r r'' :=
  ⟨h'.transfer.trans h.transfer, h'.fetches.trans h.fetches, h'.fetchedBytes.trans h.fetchedBytes⟩

theorem onState_quiet {f : ServingState → Except Panic ServingState} (h : r.onState f = .ok r')
    (hf : ∀ s, f r.toServingState = .ok s → s.fetches = r.fetches) : Quiet r r' := by
  obtain ⟨s, hs, rfl⟩ := onState_eq_ok.1 h
  exact ⟨rfl, hf s hs, rfl⟩

theorem takeFetch_quiet (r : CacheAwareRunner C P T) (id : UInt64) : Quiet r (r.takeFetch id) := by
  unfold takeFetch
  split
  · exact ⟨rfl, rfl, rfl⟩
  · split <;> exact ⟨rfl, rfl, rfl⟩

/-- An event that asks for no fetch. -/
theorem Quiet.asks [TransferModel T] (h : Quiet { r with sim } r')
    (hcall : (Happening.mk r now event r').call = none) :
    (Happening.mk r now event r').Asks { r.toServingState with sim } := by
  have hbegun : (Happening.mk r now event r').begun = none := by
    rw [Happening.begun, hcall, Option.bind_none]
  refine ⟨?_, ?_, ?_⟩
  · rw [hcall]
    exact h.transfer
  · rw [hbegun]
    exact h.fetches.trans (List.append_nil _).symm
  · rw [hbegun]
    exact h.fetchedBytes.trans (UInt64.add_zero _).symm

variable [ComputeModel C]

theorem tryAssign_quiet {stage : Stage}
    (h : r.onState (·.tryAssign r.compute r.config stage now) = .ok r') : Quiet r r' :=
  onState_quiet h fun _ => fetches_tryAssign

theorem startOrQueueRemainingPrefill_quiet (h : r.startOrQueueRemainingPrefill now id = .ok r') :
    Quiet r r' := by
  unfold startOrQueueRemainingPrefill at h
  split at h
  · obtain rfl := Except.ok.inj h
    exact ⟨rfl, rfl, rfl⟩
  · dsimp only at h
    split_ifs at h
    · exact onState_quiet h fun _ => fetches_startOrQueue
    · have hquiet := onState_quiet h fun _ => fetches_startOrQueue
      exact ⟨hquiet.transfer, hquiet.fetches, hquiet.fetchedBytes⟩

theorem degradeToMiss_quiet (h : r.degradeToMiss now id = .ok r') : Quiet r r' := by
  unfold degradeToMiss at h
  dsimp only at h
  split at h
  · obtain rfl := Except.ok.inj h
    exact ⟨rfl, rfl, rfl⟩
  · have hquiet := onState_quiet h fun _ => fetches_startOrQueue
    exact ⟨hquiet.transfer, hquiet.fetches, hquiet.fetchedBytes⟩

theorem missOnArrival_quiet (h : r.missOnArrival now inflight = .ok r') : Quiet r r' := by
  unfold missOnArrival at h
  dsimp only at h
  have hquiet := onState_quiet h fun _ => fetches_startOrQueue
  exact ⟨hquiet.transfer, hquiet.fetches, hquiet.fetchedBytes⟩

theorem hitOnArrival_quiet {kv : KvObject} (h : r.hitOnArrival now inflight kv = .ok r') :
    Quiet r r' := by
  unfold hitOnArrival at h
  dsimp only at h
  have hquiet := startOrQueueRemainingPrefill_quiet h
  exact ⟨hquiet.transfer, hquiet.fetches, hquiet.fetchedBytes⟩

theorem onDecodeDone_quiet {n : NodeId} {i : ℕ} (h : r.onDecodeDone now id n i = .ok r') :
    Quiet r r' := by
  obtain ⟨r₁, h₁, h⟩ := Except.bind_eq_ok.1 h
  obtain ⟨r₂, h₂, h⟩ := Except.bind_eq_ok.1 h
  obtain ⟨r₃, h₃, h₄⟩ := Except.bind_eq_ok.1 h
  have hrelease : Quiet r r₁ := onState_quiet h₁ fun _ => fetches_releaseGpu
  have hfinish : Quiet r₁ r₂ := onState_quiet h₂ fun s hs => by
    obtain rfl := Except.ok.inj hs
    rw [fetches, sim_finish, fetches]
  exact (hrelease.trans hfinish).trans ((tryAssign_quiet h₃).trans (tryAssign_quiet h₄))

theorem onFetchDone_quiet (h : r.onFetchDone now id = .ok r') : Quiet r r' := by
  obtain ⟨r₁, h₁, h⟩ := Except.bind_eq_ok.1 h
  obtain ⟨r₂, h₂, h₃⟩ := Except.bind_eq_ok.1 h
  have hremaining := (takeFetch_quiet r id).trans (startOrQueueRemainingPrefill_quiet h₁)
  exact hremaining.trans ((tryAssign_quiet h₂).trans (tryAssign_quiet h₃))

variable [TransferModel T]

theorem fetchOnArrival_asks {kv : KvObject} {path : TransferPath} {tier : TierKind}
    (hfound : (Happening.mk r now (.requestArrival inflight.id) r').found = some kv)
    (hpath : fetchPath kv.location = some path)
    (h : ({ r with sim } : CacheAwareRunner C P T).fetchOnArrival now inflight tier kv = .ok r') :
    (Happening.mk r now (.requestArrival inflight.id) r').Asks { r.toServingState with sim } := by
  have hcall : (Happening.mk r now (.requestArrival inflight.id) r').call =
      some ⟨now, path, kv.bytes⟩ := by
    rw [Happening.call, hfound, Option.bind_some, hpath, Option.map_some]
  unfold fetchOnArrival handleFetch at h
  simp only [hpath] at h
  cases hanswer : TransferModel.answer r.transfer ⟨now, path, kv.bytes⟩ with
  | error e =>
    have hbegun : (Happening.mk r now (.requestArrival inflight.id) r').begun = none := by
      rw [Happening.begun, hcall, Option.bind_some]
      show Option.map _ (TransferModel.answer r.transfer ⟨now, path, kv.bytes⟩).toOption = _
      rw [hanswer]
      rfl
    have hestimate : (TransferModel.estimate r.transfer now path kv.bytes).1 = .error e := hanswer
    simp only [setInFlight, hestimate] at h
    have hquiet := degradeToMiss_quiet h
    refine ⟨?_, ?_, ?_⟩
    · rw [hcall]
      exact hquiet.transfer
    · rw [hbegun]
      exact hquiet.fetches.trans (List.append_nil _).symm
    · rw [hbegun]
      exact hquiet.fetchedBytes.trans (UInt64.add_zero _).symm
  | ok est =>
    have hbegun : (Happening.mk r now (.requestArrival inflight.id) r').begun =
        some (⟨now, path, kv.bytes⟩, est) := by
      rw [Happening.begun, hcall, Option.bind_some]
      show Option.map _ (TransferModel.answer r.transfer ⟨now, path, kv.bytes⟩).toOption = _
      rw [hanswer]
      rfl
    have hestimate : (TransferModel.estimate r.transfer now path kv.bytes).1 = .ok est := hanswer
    simp only [setInFlight, hestimate] at h
    obtain rfl := Except.ok.inj h
    refine ⟨?_, ?_, ?_⟩
    · rw [hcall]
      rfl
    · rw [hbegun]
      exact timesOf_schedule _ _ _ _
    · rw [hbegun]
      rfl

theorem onArrival_asks (h : ({ r with sim } : CacheAwareRunner C P T).onArrival now id = .ok r') :
    (Happening.mk r now (.requestArrival id) r').Asks { r.toServingState with sim } := by
  unfold onArrival at h
  dsimp only at h
  cases hin : r.inFlight.get id with
  | none =>
    simp only [hin] at h
    obtain rfl := Except.ok.inj h
    have hquiet : Quiet ({ r with sim } : CacheAwareRunner C P T) { r with sim } := ⟨rfl, rfl, rfl⟩
    refine hquiet.asks ?_
    simp [Happening.call, Happening.found, hin]
  | some inflight =>
    obtain rfl : inflight.id = id := KeyedMap.key_of_get hin
    have hfound : (Happening.mk r now (.requestArrival inflight.id) r').found =
        r.reusableKv inflight := by
      simp [Happening.found, hin]
    simp only [hin] at h
    cases hkv : r.reusableKv inflight with
    | none =>
      have hnone : ({ r with sim } : CacheAwareRunner C P T).reusableKv inflight = none := hkv
      simp only [hnone] at h
      refine (missOnArrival_quiet h).asks ?_
      rw [Happening.call, hfound, hkv, Option.bind_none]
    | some kv =>
      have hsome : ({ r with sim } : CacheAwareRunner C P T).reusableKv inflight = some kv := hkv
      simp only [hsome] at h
      have hnot : fetchPath kv.location = none →
          (Happening.mk r now (.requestArrival inflight.id) r').call = none := fun hpath => by
        rw [Happening.call, hfound, hkv, Option.bind_some, hpath, Option.map_none]
      cases hloc : kv.location with
      | gpu =>
        simp only [hloc] at h
        exact (hitOnArrival_quiet h).asks (hnot (by rw [hloc]; rfl))
      | cpu =>
        simp only [hloc] at h
        exact fetchOnArrival_asks (hfound.trans hkv) (by rw [hloc]; rfl) h
      | remoteMemory =>
        simp only [hloc] at h
        exact fetchOnArrival_asks (hfound.trans hkv) (by rw [hloc]; rfl) h
      | remoteSsd =>
        simp only [hloc] at h
        exact fetchOnArrival_asks (hfound.trans hkv) (by rw [hloc]; rfl) h
      | localSsd =>
        simp only [hloc] at h
        exact (missOnArrival_quiet h).asks (hnot (by rw [hloc]; rfl))
      | missing =>
        simp only [hloc] at h
        exact (missOnArrival_quiet h).asks (hnot (by rw [hloc]; rfl))

variable [PlacementPolicy P]

/-- A placement leaves the transfer model as it is. -/
theorem storeKv_quiet [QuietPolicy P] (r : CacheAwareRunner C P T) (now id : UInt64) :
    Quiet r (r.storeKv now id) := by
  cases hin : r.inFlight.get id with
  | none => rw [storeKv_of_none hin]; exact ⟨rfl, rfl, rfl⟩
  | some inflight =>
    by_cases hpos : 0 < inflight.request.promptTokens
    · rw [storeKv_of_get hin hpos, accept]
      have htransfer : (r.placed now inflight.request).transfer = r.transfer :=
        QuietPolicy.place_transfer ..
      dsimp only
      split <;> exact ⟨htransfer, rfl, rfl⟩
    · rw [storeKv_of_zero hin (by simpa [UInt32.pos_iff_ne_zero] using hpos)]
      exact ⟨rfl, rfl, rfl⟩

theorem onPrefillDone_quiet [QuietPolicy P] {n : NodeId} {i : ℕ}
    (h : r.onPrefillDone now id n i = .ok r') : Quiet r r' := by
  obtain ⟨r₁, h₁, h⟩ := Except.bind_eq_ok.1 h
  obtain ⟨r₂, h₂, h⟩ := Except.bind_eq_ok.1 h
  obtain ⟨r₃, h₃, h₄⟩ := Except.bind_eq_ok.1 h
  have hrelease : Quiet r r₁ := onState_quiet h₁ fun _ => fetches_releaseGpu
  have hdecode : Quiet (r₁.storeKv now id) r₂ :=
    onState_quiet h₂ fun _ => fetches_startOrQueueDecode
  have hstored := hrelease.trans ((storeKv_quiet r₁ now id).trans hdecode)
  exact hstored.trans ((tryAssign_quiet h₃).trans (tryAssign_quiet h₄))

/-- An event calls the transfer model for the fetch that it begins, and for nothing else. -/
theorem step_asks [QuietPolicy P] (hnext : r.sim.step = some (now, event, sim))
    (hstep : EventLoop.Step step r r') :
    (Happening.mk r now event r').Asks { r.toServingState with sim } := by
  have h := handleEvent_of_step hnext hstep
  cases event with
  | requestArrival id => exact onArrival_asks h
  | prefillDone id n i => exact (onPrefillDone_quiet h).asks rfl
  | fetchDone id => exact (onFetchDone_quiet h).asks rfl
  | decodeDone id n i => exact (onDecodeDone_quiet h).asks rfl

end CacheAwareRunner

/-! ## Every fetch is done on time -/

/-- A model whose estimates end no earlier than they are asked for. -/
class PromptTransferModel (T : Type) [TransferModel T] : Prop where
  le_finishNs (m : T) (call : EstimateCall) {est : TransferEstimate} :
    TransferModel.answer m call = .ok est → call.nowNs ≤ est.finishNs

theorem AnalyticalTransferModel.le_finishNs {m : AnalyticalTransferModel} {nowNs bytes : UInt64}
    {path : TransferPath} {est : TransferEstimate} (h : m.estimate nowNs path bytes = .ok est) :
    nowNs ≤ est.finishNs := by
  obtain ⟨p, -, h⟩ := Except.bind_eq_ok.1 h
  obtain rfl := Except.ok.inj h
  exact (UInt64.le_satAdd _ _).trans (UInt64.le_satAdd _ _)

instance : PromptTransferModel AnalyticalTransferModel where
  le_finishNs _ _ _ h := AnalyticalTransferModel.le_finishNs h

instance : PromptTransferModel QueuedTransferModel where
  le_finishNs m call est h := by
    have hle : call.nowNs ≤ m.startFor call.nowNs call.path := by
      unfold QueuedTransferModel.startFor
      split_ifs
      · exact le_max_left _ _
      · exact le_rfl
    have hanswer := (m.estimate_fst call.nowNs call.path call.bytes).symm.trans h
    exact hle.trans (AnalyticalTransferModel.le_finishNs hanswer)

instance : PromptTransferModel TableCalibratedTransferModel where
  le_finishNs m call est h := by
    have h : m.estimate call.nowNs call.path call.bytes = .ok est := h
    unfold TableCalibratedTransferModel.estimate at h
    split at h
    · obtain rfl := Except.ok.inj h
      exact UInt64.le_satAdd _ _
    · exact AnalyticalTransferModel.le_finishNs h

namespace CacheAwareRunner

variable {C P T : Type} [TransferModel T] {past pre post : List (Happening C P T)}
  {e : Happening C P T}

/-- The fetches that have been begun, with the times at which they are to be done. -/
def begun (past : List (Happening C P T)) : List (UInt64 × UInt64) :=
  past.filterMap fun e => e.begun.map fun f => (e.event.requestId, f.2.finishNs)

/-- The fetches that have been done, with their times. -/
def done (past : List (Happening C P T)) : List (UInt64 × UInt64) :=
  past.filterMap fun e => e.event.fetch.map fun id => (id, e.nowNs)

/-- The bytes of the fetches that have been begun. -/
def begunBytes (past : List (Happening C P T)) : ℕ :=
  ((past.filterMap Happening.begun).map fun f => f.1.bytes.toNat).sum

/-- The fetches of a run up to a state, which were asked of the model `m`. -/
structure Transfers (m : T) (past : List (Happening C P T))
    (s : CacheAwareRunner C P T) : Prop where
  timely : ∀ p ∈ s.fetches, s.sim.nowNs ≤ p.2
  /-- A fetch is under way from its begin until it is done. -/
  conserved : (begun past).Perm (done past ++ s.fetches)
  transfer : s.transfer = (past.filterMap Happening.call).foldl TransferModel.after m
  fetchedBytes : begunBytes past < 2 ^ 64 → s.fetchedBytes.toNat = begunBytes past

variable [ComputeModel C] [PlacementPolicy P] {r s s' : CacheAwareRunner C P T}
  {requests : List LlmRequest}

/-- What was handled before an event. -/
theorem Past.before {start : CacheAwareRunner C P T}
    (hpast : Past start (pre ++ e :: post) s) : Past start pre e.before := by
  induction post using List.reverseRecOn generalizing s with
  | nil => exact hpast.last.1
  | append_singleton post x ih =>
    rw [← List.cons_append, ← List.append_assoc] at hpast
    exact ih hpast.last.1

variable [QuietPolicy P]

theorem fetches_start (cluster : ClusterTopology) (l : List LlmRequest) :
    ((ServingState.new cluster).enterAll l).fetches = [] := by
  refine List.filterMap_eq_nil_iff.2 fun ev hev => ?_
  obtain ⟨q, -, hkind⟩ := kind_of_mem_start hev
  rw [hkind]
  rfl

theorem Past.transfers [PromptTransferModel T] (hpast : Past (r.start requests) past s) :
    Transfers r.transfer past s := by
  induction hpast with
  | nil =>
    have hnone : (r.start requests).fetches = [] := fetches_start r.cluster _
    refine ⟨fun p hp => ?_, ?_, rfl, fun _ => rfl⟩
    · rw [hnone] at hp
      exact absurd hp List.not_mem_nil
    · rw [hnone]
      exact .refl _
  | @step past s s' now event sim _ hnext hstep ih =>
    have hasks := step_asks hnext hstep
    obtain ⟨hpop, htimely⟩ := fetches_pop hnext ih.timely
    obtain ⟨-, hclock⟩ := step_clock hnext hstep
    refine ⟨fun p hp => ?_, ?_, ?_, fun hfits => ?_⟩
    · rw [hclock]
      rw [show s'.fetches = _ from hasks.fetches] at hp
      rcases List.mem_append.1 hp with hp | hp
      · exact htimely p hp
      · obtain ⟨f, hf, rfl⟩ := Option.map_eq_some_iff.1 (Option.mem_toList.1 hp)
        obtain ⟨call, hcall, hf⟩ := Option.bind_eq_some_iff.1 hf
        obtain ⟨est, hest, rfl⟩ := Option.map_eq_some_iff.1 hf
        obtain ⟨kv, -, hkv⟩ := Option.bind_eq_some_iff.1 hcall
        obtain ⟨path, -, rfl⟩ := Option.map_eq_some_iff.1 hkv
        exact PromptTransferModel.le_finishNs _ _ (Except.toOption_eq_some.1 hest)
    · rw [begun, List.filterMap_concat, done, List.filterMap_concat,
        show s'.fetches = _ from hasks.fetches, List.append_assoc,
            ← List.append_assoc _ _ (Option.toList _), ← List.append_assoc (List.filterMap _ past)]
      exact (ih.conserved.trans (hpop.append_left _)).append_right _
    · rw [List.filterMap_concat, List.foldl_append, ← ih.transfer]
      refine hasks.transfer.trans ?_
      cases (Happening.mk s now event s').call <;> rfl
    · have hbytes : begunBytes (past ++ [⟨s, now, event, s'⟩]) = begunBytes past +
          (Happening.mk s now event s').begun.elim 0 fun f => f.1.bytes.toNat := by
        rw [begunBytes, List.filterMap_concat, List.map_append, List.sum_append, begunBytes]
        cases (Happening.mk s now event s').begun <;> simp
      rw [hbytes] at hfits ⊢
      rw [show s'.fetchedBytes = _ from hasks.fetchedBytes]
      have hbefore := ih.fetchedBytes (lt_of_le_of_lt (Nat.le_add_right _ _) hfits)
      rw [← hbefore] at hfits ⊢
      cases hbegun : (Happening.mk s now event s').begun with
      | none => simp
      | some f =>
        simp only [hbegun, Option.elim_some] at hfits ⊢
        rw [UInt64.toNat_add, Nat.mod_eq_of_lt hfits]

end CacheAwareRunner

/-! ## One at a time -/

/-- The end of the time on the wire. -/
def TransferEstimate.wireEnd (est : TransferEstimate) : UInt64 :=
  est.startNs.satAdd est.serializationNs

theorem TransferEstimate.disjoint_window {a b : TransferEstimate} (h : a.wireEnd ≤ b.startNs) :
    Disjoint a.window b.window :=
  Set.disjoint_left.2 fun _ ha hb => absurd (ha.2.trans_le h) (not_lt.2 hb.1)

/-- Until when a NIC is busy after the transfers. -/
def nicAfter (nicBusyUntilNs : UInt64) (wire : List TransferEstimate) : UInt64 :=
  (wire.getLast?.map TransferEstimate.wireEnd).getD nicBusyUntilNs

/-- The time of the transfers on the wire. -/
def wireNs (wire : List TransferEstimate) : ℕ := (wire.map fun est => est.serializationNs.toNat).sum

theorem nicAfter_concat (nicBusyUntilNs : UInt64) (wire : List TransferEstimate)
    (est : TransferEstimate) : nicAfter nicBusyUntilNs (wire ++ [est]) = est.wireEnd := by
  rw [nicAfter, List.getLast?_concat]
  rfl

namespace Happening

variable {C P : Type}

/-- The estimate of the remote fetch that an arrival begins. -/
def onWire {T : Type} [TransferModel T] (e : Happening C P T) : Option TransferEstimate :=
  (e.begun.filter fun f => isRemote f.1.path).map Prod.snd

/-- The NIC is left alone, or a remote fetch is begun when it is free and keeps it busy. -/
theorem Asks.onWire {e : Happening C P QueuedTransferModel} {s : ServingState} (h : e.Asks s) :
    (e.onWire = none ∧ e.after.transfer = e.before.transfer) ∨
      ∃ est, e.onWire = some est ∧ est.startNs = max e.nowNs e.before.transfer.nicBusyUntilNs ∧
        e.after.transfer = { e.before.transfer with nicBusyUntilNs := est.wireEnd } := by
  have htransfer := h.transfer
  cases hcall : e.call with
  | none =>
    rw [hcall] at htransfer
    refine .inl ⟨?_, htransfer⟩
    rw [Happening.onWire, Happening.begun, hcall]
    rfl
  | some call =>
    have hnow : call.nowNs = e.nowNs := by
      obtain ⟨kv, -, hkv⟩ := Option.bind_eq_some_iff.1 hcall
      obtain ⟨path, -, rfl⟩ := Option.map_eq_some_iff.1 hkv
      rfl
    rw [hcall] at htransfer
    have hbegun : e.begun = (TransferModel.answer e.before.transfer call).toOption.map
        fun est => (call, est) := by
      rw [Happening.begun, hcall, Option.bind_some]
    rcases e.before.transfer.estimate_snd call.nowNs call.path call.bytes with
      ⟨hsame, hnone⟩ | ⟨hremote, est, hok, hstart, hsome⟩
    · refine .inl ⟨?_, htransfer.trans hsame⟩
      rw [Happening.onWire, hbegun]
      rcases hnone with hlocal | ⟨err, herr⟩
      · cases (TransferModel.answer e.before.transfer call).toOption <;> simp [hlocal]
      · rw [show TransferModel.answer e.before.transfer call = .error err from herr]
        rfl
    · refine .inr ⟨est, ?_, hnow ▸ hstart, htransfer.trans hsome⟩
      rw [Happening.onWire, hbegun, show TransferModel.answer e.before.transfer call =
        .ok est from hok]
      simp [Except.toOption, hremote]

end Happening

namespace CacheAwareRunner

variable {C P : Type} [ComputeModel C] [PlacementPolicy P] [QuietPolicy P]
  {r s s' : CacheAwareRunner C P QueuedTransferModel}
  {past pre post : List (Happening C P QueuedTransferModel)} {e : Happening C P QueuedTransferModel}
  {requests : List LlmRequest}

/-- The remote fetches so far, in the order of their arrivals. -/
def wire {T : Type} [TransferModel T] (past : List (Happening C P T)) : List TransferEstimate :=
  past.filterMap Happening.onWire

/-- The NIC of the model `m` after the remote fetches so far, which went one at a time. -/
structure OneAtATime (m : QueuedTransferModel) (past : List (Happening C P QueuedTransferModel))
    (s : CacheAwareRunner C P QueuedTransferModel) : Prop where
  transfer : s.transfer = { m with nicBusyUntilNs := nicAfter m.nicBusyUntilNs (wire past) }
  ended : ∀ w ∈ wire past, w.wireEnd ≤ s.transfer.nicBusyUntilNs
  inTurn : (wire past).Pairwise fun a b => a.wireEnd ≤ b.startNs
  /-- The NIC is no longer busy than the fetches have made it. -/
  backlog : ∀ t : UInt64, s.sim.nowNs ≤ t → s.transfer.nicBusyUntilNs.toNat - t.toNat ≤
    (m.nicBusyUntilNs.toNat - t.toNat) + wireNs (wire past)

theorem Past.oneAtATime (hpast : Past (r.start requests) past s) :
    OneAtATime r.transfer past s := by
  induction hpast with
  | nil => exact ⟨rfl, fun w hw => absurd hw List.not_mem_nil, .nil, fun t _ =>
    Nat.le_add_right _ _⟩
  | @step past s s' now event sim _ hnext hstep ih =>
    obtain ⟨hle, hclock⟩ := step_clock hnext hstep
    rcases (step_asks hnext hstep).onWire with ⟨hnone, hsame⟩ | ⟨est, hsome, hstart, hafter⟩
    · have hwire : wire (past ++ [⟨s, now, event, s'⟩]) = wire past := by
        rw [wire, List.filterMap_concat, hnone, Option.toList_none, List.append_nil, wire]
      have hsame : s'.transfer = s.transfer := hsame
      refine ⟨?_, ?_, ?_, fun t ht => ?_⟩
      · rw [hwire, hsame, ih.transfer]
      · rw [hwire, hsame]
        exact ih.ended
      · rw [hwire]
        exact ih.inTurn
      · rw [hwire, hsame]
        exact ih.backlog t (hle.trans (hclock ▸ ht))
    · have hwire : wire (past ++ [⟨s, now, event, s'⟩]) = wire past ++ [est] := by
        rw [wire, List.filterMap_concat, hsome, Option.toList_some, wire]
      have hafter : s'.transfer = { s.transfer with nicBusyUntilNs := est.wireEnd } := hafter
      have hstart : est.startNs = max now s.transfer.nicBusyUntilNs := hstart
      have hfree : s.transfer.nicBusyUntilNs ≤ est.startNs := hstart ▸ le_max_right _ _
      refine ⟨?_, fun w hw => ?_, ?_, fun t ht => ?_⟩
      · rw [hwire, hafter, ih.transfer, nicAfter_concat]
      · rw [hafter]
        rw [hwire] at hw
        rcases List.mem_append.1 hw with hw | hw
        · exact ((ih.ended w hw).trans hfree).trans (UInt64.le_satAdd _ _)
        · obtain rfl := List.mem_singleton.1 hw
          exact le_rfl
      · rw [hwire, List.pairwise_append]
        refine ⟨ih.inTurn, List.pairwise_singleton _ _, fun w hw w' hw' => ?_⟩
        obtain rfl := List.mem_singleton.1 hw'
        exact (ih.ended w hw).trans hfree
      · rw [hwire, hafter]
        rw [hclock] at ht
        have hbacklog := ih.backlog t (hle.trans ht)
        have hnow := UInt64.le_iff_toNat_le.1 ht
        have hsum : wireNs (wire past ++ [est]) =
            wireNs (wire past) + est.serializationNs.toNat := by
          rw [wireNs, List.map_append, List.sum_append, wireNs]
          rfl
        have hmax : est.startNs.toNat = max now.toNat s.transfer.nicBusyUntilNs.toNat := by
          rw [hstart]
          exact UInt64.toNat_max _ _
        dsimp only
        rw [hsum, TransferEstimate.wireEnd, UInt64.toNat_satAdd, hmax]
        omega

/-- When a remote fetch starts, and how long it has waited for the NIC. -/
structure InTurn (m : QueuedTransferModel) (pre : List (Happening C P QueuedTransferModel))
    (e : Happening C P QueuedTransferModel) (est : TransferEstimate) : Prop where
  starts : est.startNs = max e.nowNs (nicAfter m.nicBusyUntilNs (wire pre))
  waits : est.startNs.toNat - e.nowNs.toNat ≤
    (m.nicBusyUntilNs.toNat - e.nowNs.toNat) + wireNs (wire pre)

theorem Past.inTurn (hpast : Past (r.start requests) (pre ++ e :: post) s) {est : TransferEstimate}
    (hwire : e.onWire = some est) : InTurn r.transfer pre e est := by
  have hbefore : Past (r.start requests) pre e.before := hpast.before
  obtain ⟨_, sim, _, hnext, hstep⟩ := hpast.of_mem (List.mem_append_right _ List.mem_cons_self)
  have hone := hbefore.oneAtATime
  rcases (step_asks hnext hstep).onWire with ⟨hnone, -⟩ | ⟨est', hsome, hstart, -⟩
  · cases hnone.symm.trans hwire
  · obtain rfl := Option.some.inj (hsome.symm.trans hwire)
    have hnic : e.before.transfer.nicBusyUntilNs = nicAfter r.transfer.nicBusyUntilNs (wire pre) :=
      congrArg QueuedTransferModel.nicBusyUntilNs hone.transfer
    have hstart : est'.startNs = max e.nowNs e.before.transfer.nicBusyUntilNs := hstart
    have hbacklog := hone.backlog e.nowNs (step_clock hnext hstep).1
    have hmax : est'.startNs.toNat = max e.nowNs.toNat e.before.transfer.nicBusyUntilNs.toNat := by
      rw [hstart]
      exact UInt64.toNat_max _ _
    refine ⟨by rw [hstart, hnic], ?_⟩
    rw [hmax]
    omega

end CacheAwareRunner

/-! ## Whole runs -/

namespace CacheAwareRunner

variable {C P T : Type} [ComputeModel C] [PlacementPolicy P] [TransferModel T]
  (requests : List LlmRequest)

/-- A run, with its events. -/
theorem exists_pastRun (r : CacheAwareRunner C P T) (hnodes : r.cluster.DistinctNodeIds) :
    ∃ results past s, r.run requests = .ok (results, s.delivered) ∧ Past (r.start requests) past s ∧
      s.sim.pending = [] := by
  obtain ⟨s, hs, hend, -⟩ :=
    servingLoop.exists_registered step_isOk (r.start requests) hnodes requests
    rfl
  obtain ⟨past, hpast⟩ := exists_past (EventLoop.run_reach hs)
  exact ⟨_, past, s, by rw [run, hs]; rfl, hpast, hend⟩

variable [QuietPolicy P]

/-- **Each fetch is done on time.** With any of the transfer models, for any trace and whatever the
runner did before: the fetches that the events of a run begin are those that are done in it, each at
the time that its estimate says. The transfer model has been called for them, and for those that
failed, in the order of the events, and `fetched_bytes` is their sum, if that fits the word. -/
theorem fetches_complete [PromptTransferModel T] (r : CacheAwareRunner C P T)
    (hnodes : r.cluster.DistinctNodeIds) : ∃ results past s,
      r.run requests = .ok (results, s.delivered) ∧ Past (r.start requests) past s ∧
      s.sim.pending = [] ∧ (begun past).Perm (done past) ∧
      s.delivered.transfer = (past.filterMap Happening.call).foldl TransferModel.after r.transfer ∧
      (∀ pre e post, past = pre ++ e :: post →
        e.before.transfer = (pre.filterMap Happening.call).foldl TransferModel.after r.transfer) ∧
      (begunBytes past < 2 ^ 64 → s.delivered.fetchedBytes.toNat = begunBytes past) := by
  obtain ⟨results, past, s, hrun, hpast, hend⟩ := r.exists_pastRun requests hnodes
  have htransfers := hpast.transfers
  have hnone : s.fetches = [] := by
    rw [fetches, Simulator.timesOf, hend, List.filterMap_nil]
  refine ⟨results, past, s, hrun, hpast, hend, ?_, htransfers.transfer, ?_, htransfers.fetchedBytes⟩
  · have hconserved := htransfers.conserved
    rwa [hnone, List.append_nil] at hconserved
  · rintro pre e post rfl
    exact hpast.before.transfers.transfer

/-- Two requests of one session, the second of which fetches the KV of the first. -/
theorem fetches_complete_pair :
    let r : CacheAwareRunner LinearComputeModel RemoteLru AnalyticalTransferModel :=
      .new .ascending ⟨1, 1, 1⟩ (.singleNode 1 1) .conservative8b .rdma400g .llama8bBf16Gqa (.mk 0)
    ∃ results past s, r.run (modelTrace "a") = .ok (results, s.delivered) ∧
      Past (r.start (modelTrace "a")) past s ∧ s.sim.pending = [] ∧
      (begun past).Perm (done past) ∧
      s.delivered.transfer = (past.filterMap Happening.call).foldl TransferModel.after r.transfer ∧
      (∀ pre e post, past = pre ++ e :: post →
        e.before.transfer = (pre.filterMap Happening.call).foldl TransferModel.after r.transfer) ∧
      (begunBytes past < 2 ^ 64 → s.delivered.fetchedBytes.toNat = begunBytes past) :=
  fetches_complete (modelTrace "a") (.new .ascending ⟨1, 1, 1⟩ (.singleNode 1 1)
    LinearComputeModel.conservative8b AnalyticalTransferModel.rdma400g .llama8bBf16Gqa
    (RemoteLru.mk 0))
    (by decide)

/-- **The NIC serves one remote fetch at a time.** With the queued model, for any trace and whatever
the runner did before: the remote fetches of a run are on the wire in disjoint windows, in the order
of their arrivals. Each starts as soon as it has arrived and the one before it is off the wire, and
waits no longer than those before it take, if the NIC is free at first. Nothing else touches
the model. -/
theorem fetches_share_nic (r : CacheAwareRunner C P QueuedTransferModel)
    (hnodes : r.cluster.DistinctNodeIds) : ∃ results past s,
      r.run requests = .ok (results, s.delivered) ∧ Past (r.start requests) past s ∧
      s.sim.pending = [] ∧
      (wire past).Pairwise (fun a b => a.wireEnd ≤ b.startNs ∧ Disjoint a.window b.window) ∧
      (∀ pre e post est, past = pre ++ e :: post → e.onWire = some est →
        InTurn r.transfer pre e est) ∧
      s.delivered.transfer = { r.transfer with
        nicBusyUntilNs := nicAfter r.transfer.nicBusyUntilNs (wire past) } := by
  obtain ⟨results, past, s, hrun, hpast, hend⟩ := r.exists_pastRun requests hnodes
  have hone := hpast.oneAtATime
  refine ⟨results, past, s, hrun, hpast, hend, ?_, ?_, hone.transfer⟩
  · exact hone.inTurn.imp fun hle => ⟨hle, TransferEstimate.disjoint_window hle⟩
  · rintro pre e post est rfl hwire
    exact hpast.inTurn hwire

/-- The same trace, with a NIC. -/
theorem fetches_share_nic_pair :
    let r : CacheAwareRunner LinearComputeModel RemoteLru QueuedTransferModel :=
      .new .ascending ⟨1, 1, 1⟩ (.singleNode 1 1) .conservative8b .rdma400g .llama8bBf16Gqa (.mk 0)
    ∃ results past s, r.run (modelTrace "a") = .ok (results, s.delivered) ∧
      Past (r.start (modelTrace "a")) past s ∧ s.sim.pending = [] ∧
      (wire past).Pairwise (fun a b => a.wireEnd ≤ b.startNs ∧ Disjoint a.window b.window) ∧
      (∀ pre e post est, past = pre ++ e :: post → e.onWire = some est →
        InTurn r.transfer pre e est) ∧
      s.delivered.transfer = { r.transfer with
        nicBusyUntilNs := nicAfter r.transfer.nicBusyUntilNs (wire past) } :=
  fetches_share_nic (modelTrace "a") (.new .ascending ⟨1, 1, 1⟩ (.singleNode 1 1)
    LinearComputeModel.conservative8b QueuedTransferModel.rdma400g .llama8bBf16Gqa (RemoteLru.mk 0))
    (by decide)

end CacheAwareRunner

end KvFlowSim
