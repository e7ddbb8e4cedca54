import KvFlowSim.Policy.Durations
import KvFlowSim.Serving.Fetches

/-!
# Interchangeable transfer models

The cache-aware runner is generic in the transfer model, so that models can be swapped without a
change of its code. It reads of a model the durations, for placements, and of an estimate whether it
fails and when it is done (`step_withTransfer`). So the models of the source are interchangeable as
long as they agree on these, whatever their types:

* `runs_by_duration`: analytical and calibrated models of the same durations give the same runs;
* `queued_of_local`: behind a policy that keeps every KV on its node, the queued model is the
  analytical model of the same parameters;
* `queued_of_oneByOne`: so it is, behind any policy, if the remote fetches of the analytical run do
  not overlap.
-/

namespace KvFlowSim

open ServingState

namespace TransferModel

variable {T : Type} [TransferModel T]

/-- When a call is done. -/
def doneAt (m : T) (call : EstimateCall) : Option UInt64 :=
  (answer m call).toOption.map TransferEstimate.finishNs

end TransferModel

namespace CacheAwareRunner

variable {C P T T' : Type} {r : CacheAwareRunner C P T} {transfer : T'} {now id : UInt64}
  {inflight : InFlightRequest}

/-- The same runner, with another transfer model. -/
def withTransfer (r : CacheAwareRunner C P T) (transfer : T') : CacheAwareRunner C P T' :=
  { r with transfer }

@[simp] theorem toServingState_withTransfer :
    (r.withTransfer transfer).toServingState = r.toServingState := rfl

theorem onState_withTransfer {r' : CacheAwareRunner C P T'} (h : r' = r.withTransfer transfer)
    (f : ServingState → Except Panic ServingState) :
    r'.onState f = (·.withTransfer transfer) <$> r.onState f := by
  unfold onState
  rw [h, toServingState_withTransfer]
  cases f r.toServingState <;> rfl

theorem takeFetch_withTransfer :
    (r.withTransfer transfer).takeFetch id = (r.takeFetch id).withTransfer transfer := by
  unfold takeFetch
  rw [toServingState_withTransfer]
  cases r.inFlight.get id with
  | none => rfl
  | some inflight =>
    dsimp only
    cases inflight.pendingFetchTier <;> rfl

theorem bind_withTransfer {x : Except Panic (CacheAwareRunner C P T)}
    {f : CacheAwareRunner C P T → Except Panic (CacheAwareRunner C P T)}
    {f' : CacheAwareRunner C P T' → Except Panic (CacheAwareRunner C P T')}
    (hf : ∀ r, x = .ok r → f' (r.withTransfer transfer) = (·.withTransfer transfer) <$> f r) :
    ((·.withTransfer transfer) <$> x) >>= f' = (·.withTransfer transfer) <$> (x >>= f) := by
  cases x with
  | error e => rfl
  | ok r => exact hf r rfl

variable [ComputeModel C]

theorem startOrQueueRemainingPrefill_withTransfer :
    (r.withTransfer transfer).startOrQueueRemainingPrefill now id =
      (·.withTransfer transfer) <$> r.startOrQueueRemainingPrefill now id := by
  unfold startOrQueueRemainingPrefill
  rw [toServingState_withTransfer]
  cases r.inFlight.get id with
  | none => rfl
  | some inflight =>
    dsimp only
    split_ifs <;> exact onState_withTransfer (by rfl) _

theorem degradeToMiss_withTransfer {r' : CacheAwareRunner C P T'}
    (h : r' = r.withTransfer transfer) :
    r'.degradeToMiss now id = (·.withTransfer transfer) <$> r.degradeToMiss now id := by
  subst h
  unfold degradeToMiss
  cases hin : r.inFlight.get id with
  | none =>
    simp only [toServingState_withTransfer, hin]
    rfl
  | some inflight =>
    simp only [toServingState_withTransfer, hin]
    exact onState_withTransfer (by rfl) _

theorem missOnArrival_withTransfer : (r.withTransfer transfer).missOnArrival now inflight =
    (·.withTransfer transfer) <$> r.missOnArrival now inflight := by
  unfold missOnArrival
  exact onState_withTransfer (by rfl) _

theorem hitOnArrival_withTransfer (kv : KvObject) :
    (r.withTransfer transfer).hitOnArrival now inflight kv =
      (·.withTransfer transfer) <$> r.hitOnArrival now inflight kv := by
  unfold hitOnArrival
  exact startOrQueueRemainingPrefill_withTransfer (r := { r with
    hits := { r.hits with hitsGpu := r.hits.hitsGpu + 1 }
    cache := r.cache.updateAccess kv.kvId now })

theorem tryAssign_withTransfer (r : CacheAwareRunner C P T) (first second : Stage) :
    ((r.withTransfer transfer).onState
        (·.tryAssign (r.withTransfer transfer).compute
          (r.withTransfer transfer).config first now) >>=
      fun r => r.onState (·.tryAssign r.compute r.config second now)) =
      (·.withTransfer transfer) <$> (r.onState (·.tryAssign r.compute r.config first now) >>=
        fun r => r.onState (·.tryAssign r.compute r.config second now)) := by
  rw [onState_withTransfer rfl]
  exact bind_withTransfer fun r _ => onState_withTransfer rfl _

theorem onFetchDone_withTransfer : (r.withTransfer transfer).onFetchDone now id =
    (·.withTransfer transfer) <$> r.onFetchDone now id := by
  unfold onFetchDone
  simp only [takeFetch_withTransfer, startOrQueueRemainingPrefill_withTransfer]
  exact bind_withTransfer fun r _ => tryAssign_withTransfer r .decode .prefill

theorem onDecodeDone_withTransfer (n : NodeId) (i : ℕ) :
    (r.withTransfer transfer).onDecodeDone now id n i =
      (·.withTransfer transfer) <$> r.onDecodeDone now id n i := by
  unfold onDecodeDone
  rw [onState_withTransfer rfl]
  refine bind_withTransfer fun r _ => ?_
  rw [onState_withTransfer rfl]
  exact bind_withTransfer fun r _ => tryAssign_withTransfer r .decode .prefill

variable [TransferModel T] [TransferModel T']

/-- The fetch that the next event asks for. -/
def nextCall (r : CacheAwareRunner C P T) : Option EstimateCall :=
  r.sim.step.bind fun next => (Happening.mk r next.1 next.2.1 r).call

/-- The model after the fetch of the next event. -/
def afterNext (r : CacheAwareRunner C P T) (transfer : T') : T' :=
  r.nextCall.elim transfer (TransferModel.after transfer)

theorem fetchOnArrival_withTransfer {kv : KvObject} {path : TransferPath} {tier : TierKind}
    (hpath : fetchPath kv.location = some path)
    (hdone : TransferModel.doneAt transfer ⟨now, path, kv.bytes⟩ =
      TransferModel.doneAt r.transfer ⟨now, path, kv.bytes⟩) :
    (r.withTransfer transfer).fetchOnArrival now inflight tier kv =
      (·.withTransfer (TransferModel.after transfer ⟨now, path, kv.bytes⟩)) <$>
        r.fetchOnArrival now inflight tier kv := by
  unfold fetchOnArrival handleFetch
  simp only [hpath]
  unfold TransferModel.doneAt TransferModel.answer at hdone
  dsimp only [setInFlight, withTransfer] at hdone ⊢
  generalize hx : (TransferModel.estimate transfer now path kv.bytes).1 = x at hdone ⊢
  generalize hy : (TransferModel.estimate r.transfer now path kv.bytes).1 = y at hdone ⊢
  cases x with
  | error e =>
    cases y with
    | error e' =>
      dsimp only
      exact degradeToMiss_withTransfer (by rfl)
    | ok est' => simp [Except.toOption] at hdone
  | ok est =>
    cases y with
    | error e' => simp [Except.toOption] at hdone
    | ok est' =>
      have hfinish : est.finishNs = est'.finishNs := by simpa [Except.toOption] using hdone
      dsimp only
      rw [hfinish]
      rfl

theorem onArrival_withTransfer
    (hdone : ∀ call ∈ (Happening.mk r now (.requestArrival id) r).call,
      TransferModel.doneAt transfer call = TransferModel.doneAt r.transfer call) :
    (r.withTransfer transfer).onArrival now id =
      (·.withTransfer ((Happening.mk r now (.requestArrival id) r).call.elim transfer
        (TransferModel.after transfer))) <$> r.onArrival now id := by
  unfold onArrival
  rw [toServingState_withTransfer]
  cases hin : r.inFlight.get id with
  | none =>
    simp only [Happening.call, Happening.found, hin]
    rfl
  | some inflight =>
    have hcall : (Happening.mk r now (.requestArrival id) r).call = (r.reusableKv inflight).bind
        fun kv => (fetchPath kv.location).map fun path => ⟨now, path, kv.bytes⟩ := by
      simp only [Happening.call, Happening.found, hin, Option.bind_some]
    have hreuse : (r.withTransfer transfer).reusableKv inflight = r.reusableKv inflight := rfl
    rw [hcall] at hdone ⊢
    dsimp only
    rw [hreuse]
    cases hkv : r.reusableKv inflight with
    | none => exact missOnArrival_withTransfer
    | some kv =>
      rw [hkv] at hdone
      dsimp only [Option.bind_some] at hdone ⊢
      have hfetch : ∀ {path tier}, fetchPath kv.location = some path →
          (r.withTransfer transfer).fetchOnArrival now inflight tier kv =
            (·.withTransfer (((fetchPath kv.location).map fun path => ⟨now, path, kv.bytes⟩).elim
              transfer (TransferModel.after transfer))) <$>
                r.fetchOnArrival now inflight tier kv := by
        intro path tier hpath
        rw [hpath] at hdone ⊢
        exact fetchOnArrival_withTransfer hpath (hdone _ rfl)
      cases hloc : kv.location with
      | gpu => exact hitOnArrival_withTransfer kv
      | localSsd | missing => exact missOnArrival_withTransfer
      | cpu | remoteMemory | remoteSsd =>
        rw [hloc] at hfetch
        exact hfetch rfl

variable [PlacementPolicy P] [DurationPolicy P]

theorem storeKv_withTransfer
    (hduration : TransferModel.estimateDuration transfer =
      TransferModel.estimateDuration r.transfer) :
    (r.withTransfer transfer).storeKv now id = (r.storeKv now id).withTransfer transfer := by
  unfold storeKv
  rw [toServingState_withTransfer]
  cases r.inFlight.get id with
  | none => rfl
  | some inflight =>
    dsimp only [withTransfer]
    split_ifs
    · rw [DurationPolicy.place_withTransfer _ _ _ _ _ _ _ _ _ hduration]
      dsimp only [Placed.withTransfer]
      split <;> rfl
    · rfl

theorem onPrefillDone_withTransfer (n : NodeId) (i : ℕ)
    (hduration : TransferModel.estimateDuration transfer =
      TransferModel.estimateDuration r.transfer) :
    (r.withTransfer transfer).onPrefillDone now id n i =
      (·.withTransfer transfer) <$> r.onPrefillDone now id n i := by
  unfold onPrefillDone
  rw [onState_withTransfer rfl]
  refine bind_withTransfer fun r₁ h₁ => ?_
  have hkept : r₁.transfer = r.transfer := by
    obtain ⟨s, -, rfl⟩ := onState_eq_ok.1 h₁
    rfl
  dsimp only
  rw [storeKv_withTransfer (hkept ▸ hduration), onState_withTransfer rfl]
  exact bind_withTransfer fun r _ => tryAssign_withTransfer r .prefill .decode

/-- **One event.** A model of the same durations that has the fetch of the event done at the same
time makes no difference. -/
theorem step_withTransfer
    (hduration : TransferModel.estimateDuration transfer =
      TransferModel.estimateDuration r.transfer)
    (hdone : ∀ call ∈ r.nextCall,
      TransferModel.doneAt transfer call = TransferModel.doneAt r.transfer call) :
    (r.withTransfer transfer).step =
      Option.map (·.withTransfer (r.afterNext transfer)) <$> r.step := by
  unfold step afterNext
  rw [toServingState_withTransfer]
  unfold nextCall at hdone ⊢
  cases hnext : r.sim.step with
  | none => rfl
  | some p =>
    obtain ⟨now, event, sim⟩ := p
    rw [hnext] at hdone
    dsimp only [Option.bind_some] at hdone ⊢
    have hsome : ∀ {t : T'} {x : Except Panic (CacheAwareRunner C P T)}
        {y : Except Panic (CacheAwareRunner C P T')}, y = (·.withTransfer t) <$> x →
        some <$> y = Option.map (·.withTransfer t) <$> some <$> x := by
      rintro t x y rfl
      cases x <;> rfl
    refine hsome ?_
    cases event with
    | requestArrival id => exact onArrival_withTransfer (r := { r with sim }) hdone
    | prefillDone id n i => exact onPrefillDone_withTransfer (r := { r with sim }) n i hduration
    | fetchDone id => exact onFetchDone_withTransfer (r := { r with sim })
    | decodeDone id n i => exact onDecodeDone_withTransfer (r := { r with sim }) n i

/-- **A whole run**, with a model that stays in a relation to the states of the run which makes no
event differ. -/
theorem run_withTransfer (transfer : T') {requests : List LlmRequest}
    {R : CacheAwareRunner C P T → T' → Prop} (hR : R (r.start requests) transfer)
    (hduration : ∀ s t, R s t →
      TransferModel.estimateDuration t = TransferModel.estimateDuration s.transfer)
    (hdone : ∀ s t, R s t → ∀ call ∈ s.nextCall,
      TransferModel.doneAt t call = TransferModel.doneAt s.transfer call)
    (hstep : ∀ s t s', R s t → EventLoop.Step CacheAwareRunner.step s s' → R s' (s.afterNext t)) :
    Except.Related (fun p p' => ∃ s t, R s t ∧ p.2 = s.delivered ∧ p' = (p.1, p.2.withTransfer t))
      (r.run requests) ((r.withTransfer transfer).run requests) := by
  have hstart : (r.withTransfer transfer).start requests =
      (r.start requests).withTransfer transfer := rfl
  have hloop : Except.Related (fun s s' => ∃ t, R s t ∧ s' = s.withTransfer t)
      (EventLoop.run CacheAwareRunner.step (4 * requests.length) (r.start requests))
      (EventLoop.run CacheAwareRunner.step (4 * requests.length)
        ((r.start requests).withTransfer transfer)) := by
    refine EventLoop.run_related ?_ ⟨transfer, hR, rfl⟩
    rintro s _ - - ⟨t, hst, rfl⟩
    rw [step_withTransfer (hduration s t hst) (hdone s t hst)]
    cases hnext : s.step with
    | error e => exact .error e
    | ok o =>
      cases o with
      | none => exact .ok .none
      | some s' => exact .ok (.some ⟨_, hstep s t s' hst hnext, rfl⟩)
  unfold run
  rw [hstart]
  refine hloop.bind fun s s' _ hs => ?_
  obtain ⟨t, hst, rfl⟩ := hs
  exact .ok ⟨s, t, hst, rfl, rfl⟩

end CacheAwareRunner

/-! ## Models without a queue -/

/-- A model whose estimates take their duration from when they are asked for, and leave it as
it is. -/
class UnqueuedTransferModel (T : Type) [TransferModel T] : Prop where
  after_eq (m : T) (call : EstimateCall) : TransferModel.after m call = m
  doneAt_eq (m : T) (call : EstimateCall) : TransferModel.doneAt m call =
    (TransferModel.estimateDuration m call.path call.bytes).toOption.map call.nowNs.satAdd

instance : UnqueuedTransferModel AnalyticalTransferModel where
  after_eq _ _ := rfl
  doneAt_eq m call := by
    simp only [TransferModel.doneAt, TransferModel.answer, TransferModel.estimate,
      TransferModel.estimateDuration, AnalyticalTransferModel.estimate,
      AnalyticalTransferModel.estimateDuration]
    cases m.bandwidthAndLatency call.path with
    | error e => rfl
    | ok p => exact congrArg some (UInt64.satAdd_assoc _ _ _)

instance : UnqueuedTransferModel TableCalibratedTransferModel where
  after_eq _ _ := rfl
  doneAt_eq m call := by
    have hfallback := UnqueuedTransferModel.doneAt_eq m.fallback call
    cases hentry : m.table.lookup (call.path, call.bytes) with
    | none =>
      simpa only [TransferModel.doneAt, TransferModel.answer, TransferModel.estimate,
        TransferModel.estimateDuration, TableCalibratedTransferModel.estimate,
        TableCalibratedTransferModel.estimateDuration, hentry] using hfallback
    | some latencyNs =>
      simp only [TransferModel.doneAt, TransferModel.answer, TransferModel.estimate,
        TransferModel.estimateDuration, TableCalibratedTransferModel.estimate,
        TableCalibratedTransferModel.estimateDuration, hentry]
      rfl

/-- A table that says nothing new changes no duration. -/
theorem TableCalibratedTransferModel.estimateDuration_eq_fallback (m : TableCalibratedTransferModel)
    (htable : ∀ path bytes latencyNs, m.table.lookup (path, bytes) = some latencyNs →
      m.fallback.estimateDuration path bytes = .ok latencyNs) :
    TransferModel.estimateDuration m = TransferModel.estimateDuration m.fallback := by
  funext path bytes
  show m.estimateDuration path bytes = m.fallback.estimateDuration path bytes
  unfold estimateDuration
  cases hentry : m.table.lookup (path, bytes) with
  | none => rfl
  | some latencyNs => exact (htable path bytes latencyNs hentry).symm

/-- Three turns of a session. -/
def sessionTrace (gapNs : UInt64) : List LlmRequest :=
  [.cold 0 0 8 2, { LlmRequest.cold 1 gapNs 12 2 with sessionId := 0, newPromptTokens := 4 },
    { LlmRequest.cold 2 (2 * gapNs) 16 2 with sessionId := 0, newPromptTokens := 4 }]

namespace CacheAwareRunner

variable {C P T T' : Type} [ComputeModel C] [TransferModel T] [TransferModel T'] [PlacementPolicy P]
  [DurationPolicy P]

/-- The next event calls the model for `nextCall`. -/
theorem transfer_of_step {s s' : CacheAwareRunner C P T}
    (hstep : EventLoop.Step CacheAwareRunner.step s s') : s'.transfer = s.afterNext s.transfer := by
  obtain ⟨now, event, sim, hnext, -⟩ := step_advance hstep
  have hasks := step_asks hnext hstep
  rw [afterNext, nextCall, hnext]
  exact hasks.transfer

/-- **Runs depend on durations only.** Models without a queue, analytical or calibrated, that agree
on the durations of transfers are interchangeable: a run with the one gives the results of the run
with the other, panics included, and leaves the same runner. -/
theorem runs_by_duration [UnqueuedTransferModel T] [UnqueuedTransferModel T']
    (r : CacheAwareRunner C P T) (transfer : T') (requests : List LlmRequest)
    (hduration : TransferModel.estimateDuration transfer =
      TransferModel.estimateDuration r.transfer) :
    (r.withTransfer transfer).run requests =
      (fun p => (p.1, p.2.withTransfer transfer)) <$> r.run requests := by
  have hsame : ∀ {U : Type} [TransferModel U] [UnqueuedTransferModel U] {s : CacheAwareRunner C P T}
      (u : U), s.afterNext u = u := fun {U} _ _ {s} u => by
    unfold afterNext
    cases s.nextCall with
    | none => rfl
    | some call => exact UnqueuedTransferModel.after_eq u call
  refine (run_withTransfer transfer (R := fun s t => s.transfer = r.transfer ∧
    t = transfer) ⟨rfl, rfl⟩
    ?_ ?_ ?_).eq_map ?_
  · rintro s _ ⟨hkept, rfl⟩
    rw [hkept, hduration]
  · rintro s _ ⟨hkept, rfl⟩ call -
    rw [UnqueuedTransferModel.doneAt_eq, UnqueuedTransferModel.doneAt_eq, hkept, hduration]
  · rintro s _ s' ⟨hkept, rfl⟩ hstep
    exact ⟨(transfer_of_step hstep).trans ((hsame _).trans hkept), hsame _⟩
  · rintro p _ ⟨s, _, ⟨-, rfl⟩, -, rfl⟩
    rfl

/-- A table with the size of the KV that the second turn fetches. -/
theorem runs_by_duration_calibrated :
    let r : CacheAwareRunner LinearComputeModel RemoteLru AnalyticalTransferModel :=
      .new .ascending ⟨1, 1, 1⟩ (.singleNode 1 1) .conservative8b .rdma400g .llama8bBf16Gqa (.mk 0)
    let calibrated := (TableCalibratedTransferModel.new .rdma400g).addEntry
      .remoteMemoryToGpu 1048576
      28971
    (r.withTransfer calibrated).run (sessionTrace 30000000) =
      (fun p => (p.1, p.2.withTransfer calibrated)) <$> r.run (sessionTrace 30000000) := by
  intro r calibrated
  refine runs_by_duration r calibrated (sessionTrace 30000000) ?_
  refine TableCalibratedTransferModel.estimateDuration_eq_fallback _
    fun path bytes latencyNs h => ?_
  have hentry : calibrated.table.lookup (path, bytes) =
      if (path, bytes) = (.remoteMemoryToGpu, 1048576) then some 28971 else none :=
    Finmap.lookup_insert_eq _ _ _ _
  rw [hentry] at h
  split_ifs at h with hkey
  obtain ⟨rfl, rfl⟩ := Prod.mk.inj hkey
  obtain rfl := Option.some.inj h
  show AnalyticalTransferModel.rdma400g.estimateDuration .remoteMemoryToGpu 1048576 = .ok 28971
  decide +kernel

end CacheAwareRunner

/-! ## The queued model without contention -/

namespace QueuedTransferModel

variable {m : QueuedTransferModel} {call : EstimateCall}

theorem estimateDuration_analytical (m : QueuedTransferModel) :
    TransferModel.estimateDuration m = TransferModel.estimateDuration m.analytical := by
  funext path bytes
  have hpath : m.analytical.bandwidthAndLatency path =
      if (m.bandwidthAndLatency path).1 = 0 then
        .error (.invalidTransferModel "bandwidth must be positive")
      else .ok (m.bandwidthAndLatency path) := by
    cases path <;> rfl
  show m.estimateDuration path bytes = m.analytical.estimateDuration path bytes
  rw [estimateDuration, AnalyticalTransferModel.estimateDuration, hpath]
  generalize m.bandwidthAndLatency path = p
  obtain ⟨bandwidthBps, base⟩ := p
  dsimp only
  split_ifs <;> rfl

/-- A transfer that need not wait is answered as by the analytical model. -/
theorem answer_analytical (hfree : ∀ est, TransferModel.answer m.analytical call = .ok est →
      isRemote call.path = true → m.nicBusyUntilNs ≤ call.nowNs) :
    TransferModel.answer m call = TransferModel.answer m.analytical call := by
  have hanswer : TransferModel.answer m call =
      m.analytical.estimate (m.startFor call.nowNs call.path) call.path call.bytes :=
    m.estimate_fst call.nowNs call.path call.bytes
  cases hest : TransferModel.answer m.analytical call with
  | error e => rw [hanswer, m.analytical_error _ _ hest]
  | ok est =>
    have hstart : m.startFor call.nowNs call.path = call.nowNs := by
      unfold startFor
      split_ifs with hremote
      · exact max_eq_left (hfree est hest hremote)
      · rfl
    rw [hanswer, hstart]
    exact hest

theorem after_of_local (hlocal : isRemote call.path = false) : TransferModel.after m call = m :=
  ((m.estimate_refines call).atOnce hlocal).2

end QueuedTransferModel

/-- Every KV is on a GPU or in the memory of a CPU. -/
def CacheState.Local (c : CacheState) : Prop := ∀ k o, c.objects.get k = some o → o.location.Local

namespace CacheAwareRunner

variable {C P T : Type} {r r' : CacheAwareRunner C P T}

/-- Where a fetch of the next event is made from. -/
theorem exists_of_nextCall {call : EstimateCall} (h : call ∈ r.nextCall) :
    ∃ kv, r.cache.objects.get kv.kvId = some kv ∧ fetchPath kv.location = some call.path := by
  obtain ⟨next, -, hcall⟩ := Option.bind_eq_some_iff.1 h
  obtain ⟨kv, hfound, hkv⟩ := Option.bind_eq_some_iff.1 hcall
  obtain ⟨path, hpath, rfl⟩ := Option.map_eq_some_iff.1 hkv
  refine ⟨kv, ?_, hpath⟩
  unfold Happening.found at hfound
  split at hfound
  · obtain ⟨inflight, -, hkv⟩ := Option.bind_eq_some_iff.1 hfound
    exact get_of_reusableKv hkv
  · cases hfound

theorem isRemote_of_local (h : r.cache.Local) {call : EstimateCall} (hcall : call ∈ r.nextCall) :
    isRemote call.path = false := by
  obtain ⟨kv, hget, hpath⟩ := exists_of_nextCall hcall
  have hlocal := h _ kv hget
  cases hloc : kv.location with
  | gpu | localSsd | missing =>
    rw [hloc] at hpath
    cases hpath
  | cpu =>
    rw [hloc] at hpath
    rw [← Option.some.inj hpath]
    rfl
  | remoteMemory | remoteSsd =>
    rw [hloc] at hlocal
    simp [CacheLocation.Local, CacheLocation.tier] at hlocal

variable [ComputeModel C] [TransferModel T] [PlacementPolicy P]

theorem storeKv_local [Placing P] [LocalPolicy P] (h : r.cache.Local) (now id : UInt64) :
    (r.storeKv now id).cache.Local := by
  cases hin : r.inFlight.get id with
  | none =>
    rw [storeKv_of_none hin]
    exact h
  | some inflight =>
    by_cases hpos : 0 < inflight.request.promptTokens
    · have hplaces := Placing.places r.placement r.cache.allocKvId.1 inflight.request.sessionId
        inflight.request.promptTokens
        (r.profile.kvBytes inflight.request.promptTokens) now r.cluster
        r.cache.allocKvId.2 r.compute r.transfer
      have hplace := @LocalPolicy.place_local P _ _ C T _ _ r.placement r.cache.allocKvId.1
        inflight.request.sessionId inflight.request.promptTokens
        (r.profile.kvBytes inflight.request.promptTokens) now r.cluster
        r.cache.allocKvId.2 r.compute
        r.transfer
      have hcache : (r.storeKv now id).cache = (r.placed now inflight.request).cache := by
        rw [storeKv_of_get hin hpos, accept]
        dsimp only
        split <;> rfl
      rw [hcache]
      change Places r.cache.allocKvId.2 _ ((r.placed now inflight.request).result,
        (r.placed now inflight.request).cache) at hplaces
      change ∀ {loc evicted}, (r.placed now inflight.request).result = _ → _ at hplace
      generalize (r.placed now inflight.request).result = result at hplaces hplace
      generalize (r.placed now inflight.request).cache = cache at hplaces
      have hkept : ∀ ev : List EvictedKv, (r.cache.allocKvId.2.removeAll ev).Local := by
        intro ev k o hget
        rw [CacheState.get_removeAll] at hget
        split_ifs at hget
        exact h k o hget
      cases hplaces with
      | stored hvictims hslot hroom =>
        intro k o hget
        rw [CacheState.get_store] at hget
        split_ifs at hget
        · obtain rfl := Option.some.inj hget
          exact hplace rfl
        · exact hkept _ k o hget
      | failed hvictims => exact hkept _
    · rw [storeKv_of_zero hin (by simpa [UInt32.pos_iff_ne_zero] using hpos)]
      exact h

theorem step_local [Placing P] [LocalPolicy P] (h : r.cache.Local)
    (hstep : EventLoop.Step CacheAwareRunner.step r r') : r'.cache.Local := by
  obtain ⟨now, event, sim, hnext, -⟩ := step_advance hstep
  have hcases := step_cases hnext hstep
  cases hcases.cache with
  | same hcache =>
    rw [hcache]
    exact h
  | @touched inflight kv _ _ hfound _ _ hcache =>
    rw [hcache]
    intro k o hget
    have hkv := get_of_reusableKv hfound
    rw [CacheState.get_updateAccess hkv] at hget
    split_ifs at hget
    · obtain rfl := Option.some.inj hget
      exact h _ kv hkv
    · exact h k o hget
  | @placed inflight n i hevent =>
    subst hevent
    generalize inflight.id = id at hcases
    cases hcases with
    | absent _ _ hrest =>
      rw [show r'.cache = r.cache from congrArg Rest.cache hrest]
      exact h
    | @prefilled inflight n i s₁ s₂ _ _ _ _ hrest =>
      rw [show r'.cache = _ from congrArg Rest.cache hrest]
      exact storeKv_local (r := { r with toServingState := s₁ }) h now inflight.id

end CacheAwareRunner

namespace CacheAwareRunner

variable {C P : Type} [ComputeModel C] [PlacementPolicy P] [DurationPolicy P]

/-- **Local policies never queue.** With a policy that keeps every KV on its node, and no KV
elsewhere at first, a run with the queued model is a run with the analytical model of the same
parameters: no fetch waits, and the NIC is not taken. -/
theorem queued_of_local [Placing P] [LocalPolicy P] (r : CacheAwareRunner C P QueuedTransferModel)
    (requests : List LlmRequest) (hlocal : r.cache.Local) :
    r.run requests = (fun p => (p.1, p.2.withTransfer r.transfer)) <$>
      (r.withTransfer r.transfer.analytical).run requests := by
  refine (run_withTransfer r.transfer (r := r.withTransfer r.transfer.analytical)
    (R := fun s t => s.cache.Local ∧ s.transfer = r.transfer.analytical ∧ t = r.transfer)
    ⟨hlocal, rfl, rfl⟩ ?_ ?_ ?_).eq_map ?_
  · rintro s _ ⟨-, hkept, rfl⟩
    rw [hkept]
    exact r.transfer.estimateDuration_analytical
  · rintro s _ ⟨hlocal, hkept, rfl⟩ call hcall
    rw [hkept]
    rw [TransferModel.doneAt, QueuedTransferModel.answer_analytical, TransferModel.doneAt]
    intro est _ hremote
    rw [isRemote_of_local hlocal hcall] at hremote
    cases hremote
  · rintro s _ s' ⟨hlocal, hkept, rfl⟩ hstep
    refine ⟨step_local hlocal hstep, ?_, ?_⟩
    · rw [transfer_of_step hstep, afterNext, hkept]
      cases s.nextCall <;> rfl
    · unfold afterNext
      cases hcall : s.nextCall with
      | none => rfl
      | some call => exact QueuedTransferModel.after_of_local (isRemote_of_local hlocal hcall)
  · rintro p _ ⟨s, _, ⟨-, -, rfl⟩, -, rfl⟩
    rfl

/-- The second and the third turn fetch from the memory of the CPU. -/
theorem queued_of_local_turns :
    let r : CacheAwareRunner LinearComputeModel SizeAware QueuedTransferModel :=
      .new .ascending ⟨1, 1, 1⟩ (.singleNode 1 1) .conservative8b .rdma400g .llama8bBf16Gqa
        (.mk 0 0)
    r.run (sessionTrace 30000000) = (fun p => (p.1, p.2.withTransfer r.transfer)) <$>
      (r.withTransfer r.transfer.analytical).run (sessionTrace 30000000) :=
  queued_of_local _ (sessionTrace 30000000) fun k o h => by cases h

end CacheAwareRunner

theorem Happening.onWire_of_call {C P T : Type} [TransferModel T] {e : Happening C P T}
    {call : EstimateCall} (h : e.call = some call) : e.onWire =
      if isRemote call.path then (TransferModel.answer e.before.transfer
        call).toOption else none := by
  rw [Happening.onWire, Happening.begun, h, Option.bind_some]
  cases (TransferModel.answer e.before.transfer call).toOption with
  | none => simp
  | some est => split_ifs with hremote <;> simp [hremote]

theorem AnalyticalTransferModel.startNs_of_answer {m : AnalyticalTransferModel}
    {call : EstimateCall} {est : TransferEstimate} (h : TransferModel.answer m call = .ok est) :
    est.startNs = call.nowNs := by
  obtain ⟨p, -, h⟩ := Except.bind_eq_ok.1 h
  obtain rfl := Except.ok.inj h
  rfl

/-- The transfers go one at a time, once the NIC is free. -/
def OneByOne (nicBusyUntilNs : UInt64) (wire : List TransferEstimate) : Prop :=
  (∀ w ∈ wire, nicBusyUntilNs ≤ w.startNs) ∧ wire.Pairwise fun a b => a.wireEnd ≤ b.startNs

instance (nicBusyUntilNs : UInt64) (wire : List TransferEstimate) :
    Decidable (OneByOne nicBusyUntilNs wire) := inferInstanceAs (Decidable (_ ∧ _))

theorem nicAfter_append (nicBusyUntilNs : UInt64) (wire wire' : List TransferEstimate) :
    nicAfter nicBusyUntilNs (wire ++ wire') = nicAfter (nicAfter nicBusyUntilNs wire) wire' := by
  induction wire' using List.reverseRecOn with
  | nil => rw [List.append_nil]; rfl
  | append_singleton wire' est => rw [← List.append_assoc, nicAfter_concat, nicAfter_concat]

theorem OneByOne.init {nicBusyUntilNs : UInt64} {wire : List TransferEstimate}
    {est : TransferEstimate} (h : OneByOne nicBusyUntilNs (wire ++ [est])) :
    OneByOne nicBusyUntilNs wire :=
  ⟨fun w hw => h.1 w (List.mem_append_left _ hw), (List.pairwise_append.1 h.2).1⟩

theorem OneByOne.nicAfter_le {nicBusyUntilNs : UInt64} {wire : List TransferEstimate}
    {est : TransferEstimate} (h : OneByOne nicBusyUntilNs (wire ++ [est])) :
    nicAfter nicBusyUntilNs wire ≤ est.startNs := by
  unfold nicAfter
  cases hlast : wire.getLast? with
  | none => exact h.1 est (List.mem_append_right _ List.mem_cons_self)
  | some w =>
    exact (List.pairwise_append.1 h.2).2.2 w (List.mem_of_getLast? hlast) est List.mem_cons_self

namespace CacheAwareRunner

/-- What a run returns when its loop has ended. -/
theorem run_of_loop {C P T : Type} [ComputeModel C] [PlacementPolicy P] [TransferModel T]
    {r s : CacheAwareRunner C P T} {requests : List LlmRequest}
    (h : EventLoop.run step (4 * requests.length) (r.start requests) = .ok s) :
    r.run requests = .ok (s.takeResults.1, s.delivered) := by
  rw [run, h]
  rfl

variable {C P : Type} [ComputeModel C] [PlacementPolicy P] [DurationPolicy P]

/-- The event of the queued runner that goes with an event of the analytical one. -/
theorem step_queued {s s' : CacheAwareRunner C P AnalyticalTransferModel} {m : QueuedTransferModel}
    {now : UInt64} {event : ServingEvent} {sim : Simulator ServingEvent}
    (hm : s.transfer = m.analytical) (hnext : s.sim.step = some (now, event, sim))
    (hstep : EventLoop.Step step s s')
    (hfree : ∀ est, (Happening.mk s now event s').onWire = some est →
      m.nicBusyUntilNs ≤ est.startNs) :
    EventLoop.Step step (s.withTransfer m) (s'.withTransfer { m with
      nicBusyUntilNs := nicAfter m.nicBusyUntilNs
        (Happening.mk s now event s').onWire.toList }) := by
  have hcall : s.nextCall = (Happening.mk s now event s').call := by
    rw [nextCall, hnext]
    rfl
  have hanswer : ∀ call ∈ s.nextCall,
      TransferModel.answer m call = TransferModel.answer s.transfer call := by
    intro call hmem
    rw [hm]
    refine QueuedTransferModel.answer_analytical fun est hest hremote => ?_
    rw [← AnalyticalTransferModel.startNs_of_answer hest]
    refine hfree est ?_
    rw [Happening.onWire_of_call (hcall ▸ hmem), if_pos hremote]
    show (TransferModel.answer s.transfer call).toOption = some est
    rw [hm, hest]
    rfl
  have hstep' : EventLoop.Step step (s.withTransfer m) (s'.withTransfer (s.afterNext m)) := by
    have hstep : s.step = .ok (some s') := hstep
    rw [EventLoop.Step, step_withTransfer, hstep]
    · rfl
    · rw [hm]
      exact m.estimateDuration_analytical
    · intro call hmem
      rw [TransferModel.doneAt, hanswer call hmem, TransferModel.doneAt]
  convert hstep' using 2
  unfold afterNext
  cases hnone : s.nextCall with
  | none =>
    have honWire : (Happening.mk s now event s').onWire = none := by
      rw [Happening.onWire, Happening.begun, ← hcall, hnone]
      rfl
    rw [honWire]
    rfl
  | some call =>
    rw [Happening.onWire_of_call (hcall ▸ hnone)]
    show _ = TransferModel.after m call
    have hsame : TransferModel.answer s.transfer call = TransferModel.answer m call :=
      (hanswer call hnone).symm
    dsimp only
    rw [hsame]
    rcases m.estimate_snd call.nowNs call.path call.bytes with
      ⟨hkept, hlocal | ⟨e, herror⟩⟩ | ⟨hremote, est, hok, -, hafter⟩
    · rw [hlocal]
      exact hkept.symm
    · rw [show TransferModel.answer m call = .error e from herror]
      split_ifs <;> exact hkept.symm
    · rw [show TransferModel.answer m call = .ok est from hok, if_pos hremote]
      exact hafter.symm

theorem run_queued {a s : CacheAwareRunner C P AnalyticalTransferModel}
    {m : QueuedTransferModel} {n : ℕ} (ha : a.transfer = m.analytical)
    (hrun : EventLoop.run step n a = .ok s)
    (hone : OneByOne m.nicBusyUntilNs (wire (a.replay n).1)) :
    s.transfer = m.analytical ∧ EventLoop.run step n (a.withTransfer m) = .ok (s.withTransfer
      { m with nicBusyUntilNs := nicAfter m.nicBusyUntilNs (wire (a.replay n).1) }) := by
  induction n generalizing s with
  | zero =>
    obtain rfl := Except.ok.inj hrun
    exact ⟨ha, rfl⟩
  | succ n ih =>
    obtain ⟨s₁, hs₁, ⟨hstop, rfl⟩ | hstep⟩ := EventLoop.run_succ_eq_ok.1 hrun
    · rw [replay_of_stop (replay_of_run hs₁) hstop] at hone ⊢
      obtain ⟨hkept, hqueued⟩ := ih hs₁ hone
      have hstop' : ∀ t : QueuedTransferModel, (s.withTransfer t).step = .ok none := fun t =>
        (servingLoop.halted _).2 ((servingLoop.halted s).1 hstop)
      exact ⟨hkept, EventLoop.run_succ_eq_ok.2 ⟨_, hqueued, .inl ⟨hstop' _, rfl⟩⟩⟩
    · obtain ⟨now, event, sim, hnext, -⟩ := step_advance hstep
      have hpast := replay_of_step (replay_of_run hs₁) hnext hstep
      have hwire : wire (a.replay (n + 1)).1 =
          wire (a.replay n).1 ++ (Happening.mk s₁ now event s).onWire.toList := by
        rw [hpast, wire, List.filterMap_concat, wire]
      have hinit : OneByOne m.nicBusyUntilNs (wire (a.replay n).1) := by
        cases hon : (Happening.mk s₁ now event s).onWire with
        | none =>
          rw [hwire, hon, Option.toList_none, List.append_nil] at hone
          exact hone
        | some est =>
          rw [hwire, hon, Option.toList_some] at hone
          exact hone.init
      obtain ⟨hkept, hqueued⟩ := ih hs₁ hinit
      have hstep' := step_queued (m := { m with
        nicBusyUntilNs := nicAfter m.nicBusyUntilNs (wire (a.replay n).1) }) hkept hnext hstep
        fun est hon => by
          rw [hwire, hon, Option.toList_some] at hone
          exact hone.nicAfter_le
      have hkept' : s.transfer = m.analytical := by
        rw [transfer_of_step hstep, afterNext, hkept]
        cases s₁.nextCall <;> rfl
      refine ⟨hkept', EventLoop.run_succ_eq_ok.2 ⟨_, hqueued, .inr ?_⟩⟩
      rw [hwire, nicAfter_append]
      exact hstep'

/-- **A NIC that no fetch waits for.** If the remote fetches of a run with the analytical model are
on the wire one at a time, and not before the NIC is free, then the run with the queued model of the
same parameters gives the same results and the same runner. Only the NIC is taken, until the last of
them is off the wire. -/
theorem queued_of_oneByOne (r : CacheAwareRunner C P QueuedTransferModel)
    (requests : List LlmRequest) (hnodes : r.cluster.DistinctNodeIds)
    (hone : OneByOne r.transfer.nicBusyUntilNs (wire (((r.withTransfer r.transfer.analytical).start
      requests).replay (4 * requests.length)).1)) :
    ∃ results s, (r.withTransfer r.transfer.analytical).run requests = .ok (results, s) ∧
      r.run requests = .ok (results, s.withTransfer { r.transfer with
        nicBusyUntilNs := nicAfter r.transfer.nicBusyUntilNs
          (wire (((r.withTransfer r.transfer.analytical).start requests).replay
            (4 * requests.length)).1) }) := by
  obtain ⟨s, hs, -⟩ := servingLoop.exists_registered step_isOk
    ((r.withTransfer r.transfer.analytical).start requests) hnodes requests rfl
  have hqueued := (run_queued (m := r.transfer) rfl hs hone).2
  exact ⟨_, s.delivered, run_of_loop hs, run_of_loop hqueued⟩

/-- Three turns of a session, of which the second and the third fetch the KV of the one before. -/
theorem queued_of_oneByOne_turns :
    let r : CacheAwareRunner LinearComputeModel RemoteLru QueuedTransferModel :=
      .new .ascending ⟨1, 1, 1⟩ (.singleNode 1 1) .conservative8b .rdma400g .llama8bBf16Gqa (.mk 0)
    ∃ results s, (r.withTransfer r.transfer.analytical).run (sessionTrace 30000000) =
      .ok (results, s) ∧
      r.run (sessionTrace 30000000) = .ok (results, s.withTransfer { r.transfer with
        nicBusyUntilNs := nicAfter r.transfer.nicBusyUntilNs
          (wire (((r.withTransfer r.transfer.analytical).start
            (sessionTrace 30000000)).replay 12).1) }) :=
  queued_of_oneByOne _ (sessionTrace 30000000) (by decide) (by decide +kernel)

end CacheAwareRunner

end KvFlowSim
