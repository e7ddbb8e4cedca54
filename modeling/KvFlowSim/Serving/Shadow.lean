import KvFlowSim.Core.Horizon
import KvFlowSim.Serving.AnyTrace
import KvFlowSim.Serving.Effects

/-!
# What a run reads of a trace before a horizon

Two states stand in the relation `Shadows` if they look alike to everything that happens before a
horizon: the clock, the cluster, the queues, the results and the events before the horizon are the
same, and so are the records of the requests that these concern, up to the model and the objectives
of the request, which are never read. Every operation of the shared state and every handler of
either runner takes such states to such states. What is pending from the horizon on, and the records
of requests that come then, do not matter.
-/

namespace KvFlowSim

open Except

/-- A request without the fields that no runner reads. -/
def LlmRequest.work (q : LlmRequest) : LlmRequest :=
  { q with modelId := "", sloTtftNs := none, sloTbtNs := none }

/-- What the runners read of a request. -/
structure LlmRequest.SameWork (q q' : LlmRequest) : Prop where
  requestId : q'.requestId = q.requestId
  sessionId : q'.sessionId = q.sessionId
  turnId : q'.turnId = q.turnId
  arrivalNs : q'.arrivalNs = q.arrivalNs
  promptTokens : q'.promptTokens = q.promptTokens
  newPromptTokens : q'.newPromptTokens = q.newPromptTokens
  outputTokens : q'.outputTokens = q.outputTokens

theorem LlmRequest.sameWork_of_work {q q' : LlmRequest} (h : q'.work = q.work) : q.SameWork q' := by
  have hfield : ∀ {β : Type} (f : LlmRequest → β), f q'.work = f q.work := fun f => congrArg f h
  exact ⟨hfield (·.requestId), hfield (·.sessionId), hfield (·.turnId), hfield (·.arrivalNs),
    hfield (·.promptTokens), hfield (·.newPromptTokens), hfield (·.outputTokens)⟩

/-- The records differ at most in what no runner reads of the request. -/
def InFlightRequest.Same (r r' : InFlightRequest) : Prop :=
  ∃ q, r' = { r with request := q } ∧ r.request.SameWork q

namespace InFlightRequest.Same

variable {r r' : InFlightRequest}

theorem request (h : r.Same r') : r.request.SameWork r'.request := by
  obtain ⟨q, rfl, hq⟩ := h
  exact hq

theorem id_eq (h : r.Same r') : r'.id = r.id := h.request.requestId

theorem intoResult_eq (h : r.Same r') : r'.intoResult = r.intoResult := by
  obtain ⟨q, rfl, hq⟩ := h
  simp only [InFlightRequest.intoResult, hq.requestId, hq.sessionId, hq.turnId, hq.arrivalNs,
    hq.promptTokens, hq.outputTokens]

/-- A note is made on both. -/
theorem note (h : r.Same r') (tokens : UInt32) (tier : Option TierKind) :
    ({ r with prefillTokens := tokens, pendingFetchTier := tier } : InFlightRequest).Same
      { r' with prefillTokens := tokens, pendingFetchTier := tier } := by
  obtain ⟨q, rfl, hq⟩ := h
  exact ⟨q, rfl, hq⟩

end InFlightRequest.Same

namespace ServingState

/-- The states look alike to what happens before the horizon, which concerns the requests
`ids` only. -/
structure Shadows (horizon : ℕ) (ids : Set UInt64) (s s' : ServingState) : Prop where
  sim : s.sim.SameBefore horizon s'.sim
  cluster : s'.cluster = s.cluster
  queue : ∀ stage, s'.queue stage = s.queue stage
  results : s'.results = s.results
  records : ∀ id ∈ ids, Option.Rel InFlightRequest.Same (s.inFlight.get id) (s'.inFlight.get id)
  events : ∀ p ∈ s.sim.early horizon, p.2.requestId ∈ ids
  queued : ∀ stage, ∀ id ∈ s.queue stage, id ∈ ids

variable {horizon : ℕ} {ids : Set UInt64} {s s' : ServingState} {stage : Stage} {now id : UInt64}

/-- Updates of the parts that have to be the same. -/
theorem Shadows.setQueue (h : s.Shadows horizon ids s') (stage : Stage) {q : List UInt64}
    (hq : ∀ id ∈ q, id ∈ ids) : (s.setQueue stage q).Shadows horizon ids (s'.setQueue stage q) where
  sim := by simpa using h.sim
  cluster := by simpa using h.cluster
  queue other := by rw [queue_setQueue, queue_setQueue, h.queue]
  results := by simpa using h.results
  records := by simpa using h.records
  events := by simpa using h.events
  queued other id hid := by
    rw [queue_setQueue] at hid
    split_ifs at hid
    · exact hq id hid
    · exact h.queued other id hid

theorem Shadows.withCluster (h : s.Shadows horizon ids s') (cluster : ClusterTopology) :
    ({ s with cluster := cluster } : ServingState).Shadows horizon ids
      { s' with cluster := cluster } where
  sim := h.sim
  cluster := rfl
  queue := Stage.forall_iff.2 ⟨h.queue .prefill, h.queue .decode⟩
  results := h.results
  records := h.records
  events := h.events
  queued := Stage.forall_iff.2 ⟨h.queued .prefill, h.queued .decode⟩

theorem Shadows.schedule (h : s.Shadows horizon ids s') (t : UInt64) {kind : ServingEvent}
    (hkind : kind.requestId ∈ ids) :
    ({ s with sim := s.sim.schedule t kind } : ServingState).Shadows horizon ids
      { s' with sim := s'.sim.schedule t kind } where
  sim := h.sim.schedule t kind
  cluster := h.cluster
  queue := Stage.forall_iff.2 ⟨h.queue .prefill, h.queue .decode⟩
  results := h.results
  records := h.records
  events p hp := by
    rw [Simulator.early_schedule] at hp
    rcases List.mem_append.1 hp with hp | hp
    · exact h.events p hp
    · split_ifs at hp
      · obtain rfl := List.mem_singleton.1 hp
        exact hkind
      · exact absurd hp List.not_mem_nil
  queued := Stage.forall_iff.2 ⟨h.queued .prefill, h.queued .decode⟩

theorem Shadows.insert (h : s.Shadows horizon ids s') {r r' : InFlightRequest} (hr : r.Same r') :
    ({ s with inFlight := s.inFlight.insert r } : ServingState).Shadows horizon ids
      { s' with inFlight := s'.inFlight.insert r' } where
  sim := h.sim
  cluster := h.cluster
  queue := Stage.forall_iff.2 ⟨h.queue .prefill, h.queue .decode⟩
  results := h.results
  records id hid := by
    simp only [KeyedMap.get_insert, hr.id_eq]
    split_ifs
    · exact .some hr
    · exact h.records id hid
  events := h.events
  queued := Stage.forall_iff.2 ⟨h.queued .prefill, h.queued .decode⟩

/-- An event has been taken out of both. -/
theorem Shadows.pop (h : s.Shadows horizon ids s') {sim sim' : Simulator ServingEvent}
    (hsim : sim.SameBefore horizon sim') (hsub : sim.early horizon ⊆ s.sim.early horizon) :
    ({ s with sim := sim } : ServingState).Shadows horizon ids { s' with sim := sim' } where
  sim := hsim
  cluster := h.cluster
  queue := Stage.forall_iff.2 ⟨h.queue .prefill, h.queue .decode⟩
  results := h.results
  records := h.records
  events p hp := h.events p (hsub hp)
  queued := Stage.forall_iff.2 ⟨h.queued .prefill, h.queued .decode⟩

theorem Shadows.finish (h : s.Shadows horizon ids s') (hid : id ∈ ids) :
    (s.finish id).Shadows horizon ids (s'.finish id) := by
  have hrecord := h.records id hid
  unfold ServingState.finish
  cases hr : s.inFlight.get id with
  | none =>
    rw [hr] at hrecord
    cases hr' : s'.inFlight.get id with
    | none => exact h
    | some r' => simp [hr'] at hrecord
  | some r =>
    rw [hr] at hrecord
    cases hr' : s'.inFlight.get id with
    | none => simp [hr'] at hrecord
    | some r' =>
      rw [hr'] at hrecord
      obtain ⟨hsame⟩ := hrecord
      refine ⟨h.sim, h.cluster, Stage.forall_iff.2 ⟨h.queue .prefill, h.queue .decode⟩, ?_,
        fun id' hid' => ?_, h.events, Stage.forall_iff.2 ⟨h.queued .prefill, h.queued .decode⟩⟩
      · dsimp only
        rw [h.results, hsame.intoResult_eq]
      · simp only [KeyedMap.get_remove]
        split_ifs
        · exact .none
        · exact h.records id' hid'

theorem Shadows.releaseGpu (h : s.Shadows horizon ids s') (n : NodeId) (i : ℕ) (now : UInt64) :
    Related (Shadows horizon ids) (s.releaseGpu n i now) (s'.releaseGpu n i now) := by
  unfold ServingState.releaseGpu
  rw [h.cluster]
  refine (Related.refl (fun _ => rfl) (s.cluster.setBusyUntil n i now)).bind ?_
  rintro cluster _ - rfl
  exact .ok (h.withCluster cluster)

variable {C : Type} [ComputeModel C] {compute : C} {config : ServingConfig}

/-- Starting a stage reads nothing else of the request. -/
theorem Stage.start_same {r r' : InFlightRequest} (hr : r.Same r') (n : NodeId) (i : ℕ)
    (cluster : ClusterTopology) (sim sim' : Simulator ServingEvent) :
    Related (fun p p' => ∃ done, p.1 = sim.schedule done (stage.doneEvent r.id n i) ∧
        p'.1 = sim'.schedule done (stage.doneEvent r.id n i) ∧ p'.2.1 = p.2.1 ∧ p.2.2.Same p'.2.2)
      (stage.start sim cluster compute config r n i now)
      (stage.start sim' cluster compute config r' n i now) := by
  obtain ⟨q, rfl, hq⟩ := hr
  cases stage with
  | prefill =>
    simp only [Stage.start, startPrefill, hq.promptTokens, hq.requestId]
    refine (Related.refl (fun _ => rfl) (cluster.setBusyUntil n i _)).bind ?_
    rintro c _ - rfl
    exact .ok ⟨_, rfl, rfl, rfl, q, rfl, hq⟩
  | decode =>
    simp only [Stage.start, startDecode, hq.promptTokens, hq.outputTokens, hq.requestId]
    refine (Related.refl (fun _ => rfl) (cluster.setBusyUntil n i _)).bind ?_
    rintro c _ - rfl
    exact .ok ⟨_, rfl, rfl, rfl, q, rfl, hq⟩

theorem Shadows.start (h : s.Shadows horizon ids s') (hid : id ∈ ids) (gpu : NodeId × ℕ) :
    Related (Shadows horizon ids) (s.start compute config stage id gpu now)
      (s'.start compute config stage id gpu now) := by
  have hrecord := h.records id hid
  unfold ServingState.start
  generalize hr : s.inFlight.get id = o at hrecord
  generalize s'.inFlight.get id = o' at hrecord
  cases hrecord with
  | none => exact .ok h
  | @some r r' hsame =>
    dsimp only
    rw [h.cluster]
    have hkey : r.id = id := KeyedMap.key_of_get hr
    refine (Stage.start_same hsame gpu.1 gpu.2 s.cluster s.sim s'.sim).bind ?_
    rintro ⟨_, c, r₁⟩ ⟨_, c', r₁'⟩ - ⟨done, rfl, rfl, hc, hsame₁⟩
    obtain rfl : c' = c := hc
    have hkind : (stage.doneEvent r.id gpu.1 gpu.2).requestId ∈ ids := by simpa [hkey] using hid
    have hscheduled := h.schedule done hkind
    exact .ok ((hscheduled.withCluster c').insert hsame₁)

theorem Shadows.startOrQueue (h : s.Shadows horizon ids s') (hid : id ∈ ids) (stage : Stage) :
    Related (Shadows horizon ids) (s.startOrQueue compute config stage id now)
      (s'.startOrQueue compute config stage id now) := by
  unfold ServingState.startOrQueue
  rw [h.cluster]
  refine (Related.refl (fun _ => rfl) (s.cluster.findIdleGpuFor now stage.role)).bind ?_
  rintro gpu _ - rfl
  cases gpu with
  | some gpu => exact h.start hid gpu
  | none =>
    rw [h.queue]
    refine .ok (h.setQueue stage fun id' hid' => ?_)
    rcases List.mem_append.1 hid' with hid' | hid'
    · exact h.queued stage id' hid'
    · exact List.mem_singleton.1 hid' ▸ hid

theorem Shadows.startOrQueueDecode (h : s.Shadows horizon ids s') (hid : id ∈ ids) :
    Related (Shadows horizon ids) (s.startOrQueueDecode compute config id now)
      (s'.startOrQueueDecode compute config id now) := by
  have hrecord := h.records id hid
  unfold ServingState.startOrQueueDecode
  generalize s.inFlight.get id = o at hrecord
  generalize s'.inFlight.get id = o' at hrecord
  cases hrecord with
  | none => exact .ok h
  | some hsame => exact h.startOrQueue hid .decode

theorem Shadows.assign (h : s.Shadows horizon ids s') {q : List UInt64} (hq : ∀ id ∈ q, id ∈ ids) :
    Related (Shadows horizon ids) (assign compute config stage now q s)
      (assign compute config stage now q s') := by
  induction q generalizing s s' with
  | nil => exact .ok h
  | cons id rest ih =>
    have hrest : ∀ id ∈ rest, id ∈ ids := fun id hid => hq id (List.mem_cons_of_mem _ hid)
    rw [ServingState.assign, ServingState.assign, h.cluster]
    refine (Related.refl (fun _ => rfl) (s.cluster.findIdleGpuFor now stage.role)).bind ?_
    rintro gpu _ - rfl
    cases gpu with
    | none => exact .ok h
    | some gpu =>
      refine ((h.setQueue stage hrest).start (hq id List.mem_cons_self) gpu).bind ?_
      exact fun _ _ _ h₁ => ih h₁ hrest

theorem Shadows.tryAssign (h : s.Shadows horizon ids s') (stage : Stage) :
    Related (Shadows horizon ids) (s.tryAssign compute config stage now)
      (s'.tryAssign compute config stage now) := by
  unfold ServingState.tryAssign
  rw [h.queue]
  exact h.assign (h.queued stage)

end ServingState

/-! ## The event-driven runner -/

namespace EventDrivenRunner

variable {C : Type}

/-- The runners look alike to what happens before the horizon. -/
structure Shadows (horizon : ℕ) (ids : Set UInt64) (r r' : EventDrivenRunner C) : Prop where
  state : r.toServingState.Shadows horizon ids r'.toServingState
  compute : r'.compute = r.compute
  config : r'.config = r.config

variable {horizon : ℕ} {ids : Set UInt64} {now id : UInt64} {r r' : EventDrivenRunner C}

theorem Shadows.onState (h : r.Shadows horizon ids r')
    {f f' : ServingState → Except Panic ServingState}
    (hf : Related (ServingState.Shadows horizon ids) (f r.toServingState) (f' r'.toServingState)) :
    Related (Shadows horizon ids) (r.onState f) (r'.onState f') :=
  hf.map fun _ _ hs => ⟨hs, h.compute, h.config⟩

variable [ComputeModel C]

theorem Shadows.tryAssignPrefill (h : r.Shadows horizon ids r') :
    Related (Shadows horizon ids) (r.tryAssignPrefill now) (r'.tryAssignPrefill now) := by
  unfold EventDrivenRunner.tryAssignPrefill
  rw [h.compute, h.config]
  exact h.onState (h.state.tryAssign .prefill)

theorem Shadows.tryAssignDecode (h : r.Shadows horizon ids r') :
    Related (Shadows horizon ids) (r.tryAssignDecode now) (r'.tryAssignDecode now) := by
  unfold EventDrivenRunner.tryAssignDecode
  rw [h.compute, h.config]
  exact h.onState (h.state.tryAssign .decode)

theorem Shadows.handleEvent (h : r.Shadows horizon ids r') {kind : ServingEvent}
    (hkind : kind.requestId ∈ ids) :
    Related (Shadows horizon ids) (r.handleEvent now kind) (r'.handleEvent now kind) := by
  cases kind with
  | requestArrival id =>
    unfold EventDrivenRunner.handleEvent onArrival
    rw [h.compute, h.config]
    exact h.onState (h.state.startOrQueue hkind .prefill)
  | fetchDone id => exact .error _
  | prefillDone id n i =>
    refine (h.onState (h.state.releaseGpu n i now)).bind fun r₁ r₁' _ h₁ => ?_
    rw [h₁.compute, h₁.config]
    refine (h₁.onState (h₁.state.startOrQueueDecode hkind)).bind fun r₂ r₂' _ h₂ => ?_
    refine h₂.tryAssignPrefill.bind fun r₃ r₃' _ h₃ => ?_
    exact h₃.tryAssignDecode
  | decodeDone id n i =>
    refine (h.onState (h.state.releaseGpu n i now)).bind fun r₁ r₁' _ h₁ => ?_
    have hfinish : Related (Shadows horizon ids) (r₁.onState fun s => .ok (s.finish id))
        (r₁'.onState fun s => .ok (s.finish id)) := h₁.onState (.ok (h₁.state.finish hkind))
    refine hfinish.bind fun r₂ r₂' _ h₂ => ?_
    refine h₂.tryAssignDecode.bind fun r₃ r₃' _ h₃ => ?_
    exact h₃.tryAssignPrefill

/-- While something is pending before the horizon, both handle the same event. -/
theorem Shadows.step (h : r.Shadows horizon ids r') (hearly : r.sim.early horizon ≠ []) :
    Related (Option.Rel (Shadows horizon ids)) r.step r'.step := by
  obtain ⟨now, kind, t, sim, sim', hstep, hstep', hmem, hsub, hsim⟩ := h.state.sim.step hearly
  simp only [EventDrivenRunner.step, hstep, hstep']
  have hpopped : ({ r with sim := sim } : EventDrivenRunner C).Shadows horizon ids
      { r' with sim := sim' } := ⟨h.state.pop hsim hsub, h.compute, h.config⟩
  exact (hpopped.handleEvent (h.state.events _ hmem)).map fun _ _ => .some

end EventDrivenRunner

/-! ## The cache-aware runner -/

namespace CacheAwareRunner

variable {C P T : Type}

/-- The runners look alike to what happens before the horizon, and are the same outside of the
shared state. -/
def Shadows (horizon : ℕ) (ids : Set UInt64) (r r' : CacheAwareRunner C P T) : Prop :=
  ∃ t, r' = { r with toServingState := t } ∧ r.toServingState.Shadows horizon ids t

variable {horizon : ℕ} {ids : Set UInt64} {now id : UInt64} {r r' : CacheAwareRunner C P T}
  {inflight inflight' : InFlightRequest}

theorem Shadows.state (h : r.Shadows horizon ids r') :
    r.toServingState.Shadows horizon ids r'.toServingState := by
  obtain ⟨t, rfl, ht⟩ := h
  exact ht

theorem Shadows.compute (h : r.Shadows horizon ids r') : r'.compute = r.compute := by
  obtain ⟨t, rfl, -⟩ := h
  rfl

theorem Shadows.config (h : r.Shadows horizon ids r') : r'.config = r.config := by
  obtain ⟨t, rfl, -⟩ := h
  rfl

theorem Shadows.onState (h : r.Shadows horizon ids r')
    {f f' : ServingState → Except Panic ServingState}
    (hf : Related (ServingState.Shadows horizon ids) (f r.toServingState) (f' r'.toServingState)) :
    Related (Shadows horizon ids) (r.onState f) (r'.onState f') := by
  obtain ⟨t, rfl, -⟩ := h
  exact hf.map fun s s' hs => ⟨s', rfl, hs⟩

/-- Counting, and what is done to the cache, is the same in both. -/
theorem Shadows.count (h : r.Shadows horizon ids r') (hits : CacheHitStats → CacheHitStats)
    (cache : CacheState → CacheState) (recomputed : UInt64 → UInt64) :
    ({ r with
        hits := hits r.hits, cache := cache r.cache
        recomputedTokens := recomputed r.recomputedTokens } :
      CacheAwareRunner C P T).Shadows horizon ids
      { r' with
        hits := hits r'.hits, cache := cache r'.cache
        recomputedTokens := recomputed r'.recomputedTokens } := by
  obtain ⟨t, rfl, ht⟩ := h
  exact ⟨t, rfl, ht⟩

theorem Shadows.setInFlight (h : r.Shadows horizon ids r') (hsame : inflight.Same inflight') :
    (r.setInFlight inflight).Shadows horizon ids (r'.setInFlight inflight') := by
  obtain ⟨t, rfl, ht⟩ := h
  exact ⟨_, rfl, ht.insert hsame⟩

theorem Shadows.takeFetch (h : r.Shadows horizon ids r') (hid : id ∈ ids) :
    (r.takeFetch id).Shadows horizon ids (r'.takeFetch id) := by
  have hrecord := h.state.records id hid
  unfold CacheAwareRunner.takeFetch
  generalize r.inFlight.get id = o at hrecord
  generalize r'.inFlight.get id = o' at hrecord
  cases hrecord with
  | none => exact h
  | @some inflight inflight' hsame =>
    have hnone := hsame.note inflight.prefillTokens none
    obtain ⟨q, rfl, hq⟩ := hsame
    dsimp only
    split
    · exact h
    next tier _ => exact (h.setInFlight hnone).count (fun hits => creditFetch hits tier) (·) (·)

theorem Shadows.reusableKv (h : r.Shadows horizon ids r') (hsame : inflight.Same inflight') :
    r'.reusableKv inflight' = r.reusableKv inflight := by
  have hreused : inflight'.request.reusedPrefixTokens = inflight.request.reusedPrefixTokens := by
    rw [LlmRequest.reusedPrefixTokens, hsame.request.promptTokens, hsame.request.newPromptTokens]
    rfl
  obtain ⟨t, rfl, -⟩ := h
  unfold CacheAwareRunner.reusableKv
  dsimp only
  rw [hreused, hsame.request.sessionId]

variable [ComputeModel C]

theorem Shadows.startOrQueue (h : r.Shadows horizon ids r') (hid : id ∈ ids) (stage : Stage) :
    Related (Shadows horizon ids) (r.onState (·.startOrQueue r.compute r.config stage id now))
      (r'.onState (·.startOrQueue r'.compute r'.config stage id now)) := by
  rw [h.compute, h.config]
  exact h.onState (h.state.startOrQueue hid stage)

theorem Shadows.tryAssign (h : r.Shadows horizon ids r') (stage : Stage) :
    Related (Shadows horizon ids) (r.onState (·.tryAssign r.compute r.config stage now))
      (r'.onState (·.tryAssign r'.compute r'.config stage now)) := by
  rw [h.compute, h.config]
  exact h.onState (h.state.tryAssign stage)

theorem Shadows.startOrQueueRemainingPrefill (h : r.Shadows horizon ids r') (hid : id ∈ ids) :
    Related (Shadows horizon ids) (r.startOrQueueRemainingPrefill now id)
      (r'.startOrQueueRemainingPrefill now id) := by
  have hrecord := h.state.records id hid
  unfold CacheAwareRunner.startOrQueueRemainingPrefill
  generalize r.inFlight.get id = o at hrecord
  generalize r'.inFlight.get id = o' at hrecord
  cases hrecord with
  | none => exact .ok h
  | @some inflight inflight' hsame =>
    dsimp only
    rw [hsame.request.newPromptTokens]
    have hnote := hsame.note inflight.request.newPromptTokens inflight.pendingFetchTier
    obtain ⟨q, rfl, hq⟩ := hsame
    split_ifs
    · exact h.startOrQueue hid .decode
    · exact ((h.setInFlight hnote).count (·) (·)
        (· + inflight.request.newPromptTokens.toUInt64)).startOrQueue hid .prefill

theorem Shadows.degradeToMiss (h : r.Shadows horizon ids r') (hid : id ∈ ids) :
    Related (Shadows horizon ids) (r.degradeToMiss now id) (r'.degradeToMiss now id) := by
  have hrecord := h.state.records id hid
  unfold CacheAwareRunner.degradeToMiss
  generalize hr : r.inFlight.get id = o at hrecord
  generalize hr' : r'.inFlight.get id = o' at hrecord
  cases hrecord with
  | none =>
    simp only [hr, hr']
    exact .ok (h.count (fun hits => { hits with misses := hits.misses + 1 }) (·) (·))
  | @some inflight inflight' hsame =>
    simp only [hr, hr']
    rw [hsame.request.promptTokens]
    have hnote := hsame.note inflight.request.promptTokens none
    obtain ⟨q, rfl, hq⟩ := hsame
    exact ((h.count (fun hits =>
      let hits := if inflight.pendingFetchTier.isSome then
        { hits with pendingFetches := hits.pendingFetches - 1 } else hits
      { hits with misses := hits.misses + 1 }) (·)
      (·.satAdd inflight.request.promptTokens.toUInt64)).setInFlight hnote).startOrQueue hid
        .prefill

theorem Shadows.missOnArrival (h : r.Shadows horizon ids r') (hsame : inflight.Same inflight')
    (hid : inflight.id ∈ ids) :
    Related (Shadows horizon ids) (r.missOnArrival now inflight)
      (r'.missOnArrival now inflight') := by
  unfold CacheAwareRunner.missOnArrival
  dsimp only
  rw [hsame.request.promptTokens, hsame.id_eq]
  have hnote := hsame.note inflight.request.promptTokens inflight.pendingFetchTier
  obtain ⟨q, rfl, hq⟩ := hsame
  exact ((h.count (fun hits => { hits with misses := hits.misses + 1 }) (·)
    (· + inflight.request.promptTokens.toUInt64)).setInFlight hnote).startOrQueue hid .prefill

theorem Shadows.hitOnArrival (h : r.Shadows horizon ids r') (hsame : inflight.Same inflight')
    (hid : inflight.id ∈ ids) (kv : KvObject) :
    Related (Shadows horizon ids) (r.hitOnArrival now inflight kv)
      (r'.hitOnArrival now inflight' kv) := by
  unfold CacheAwareRunner.hitOnArrival
  rw [hsame.id_eq]
  exact (h.count (fun hits => { hits with hitsGpu := hits.hitsGpu + 1 })
    (·.updateAccess kv.kvId now) (·)).startOrQueueRemainingPrefill hid

theorem Shadows.onFetchDone (h : r.Shadows horizon ids r') (hid : id ∈ ids) :
    Related (Shadows horizon ids) (r.onFetchDone now id) (r'.onFetchDone now id) := by
  unfold CacheAwareRunner.onFetchDone
  refine ((h.takeFetch hid).startOrQueueRemainingPrefill hid).bind fun r₁ r₁' _ h₁ => ?_
  refine (h₁.tryAssign .decode).bind fun r₂ r₂' _ h₂ => ?_
  exact h₂.tryAssign .prefill

theorem Shadows.onDecodeDone (h : r.Shadows horizon ids r') (hid : id ∈ ids) (n : NodeId) (i : ℕ) :
    Related (Shadows horizon ids) (r.onDecodeDone now id n i) (r'.onDecodeDone now id n i) := by
  unfold CacheAwareRunner.onDecodeDone
  refine (h.onState (h.state.releaseGpu n i now)).bind fun r₁ r₁' _ h₁ => ?_
  have hfinish : Related (Shadows horizon ids) (r₁.onState fun s => .ok (s.finish id))
      (r₁'.onState fun s => .ok (s.finish id)) := h₁.onState (.ok (h₁.state.finish hid))
  refine hfinish.bind fun r₂ r₂' _ h₂ => ?_
  refine (h₂.tryAssign .decode).bind fun r₃ r₃' _ h₃ => ?_
  exact h₃.tryAssign .prefill

variable [TransferModel T]

theorem Shadows.handleFetch (h : r.Shadows horizon ids r') (hid : id ∈ ids) (kv : KvObject) :
    Related (Shadows horizon ids) (r.handleFetch now id kv) (r'.handleFetch now id kv) := by
  have hcount : ∀ {r r' : CacheAwareRunner C P T}, r.Shadows horizon ids r' →
      r.countFetchError.Shadows horizon ids r'.countFetchError := fun h =>
    h.count (fun hits => { hits with fetchErrors := hits.fetchErrors + 1 }) (·) (·)
  unfold CacheAwareRunner.handleFetch
  split
  · exact (hcount h).degradeToMiss hid
  next path _ =>
    obtain ⟨t, rfl, ht⟩ := h
    dsimp only
    have h₁ : ({ r with transfer := (TransferModel.estimate r.transfer now path kv.bytes).2 } :
        CacheAwareRunner C P T).Shadows horizon ids
        { r with
          toServingState := t
          transfer := (TransferModel.estimate r.transfer now path kv.bytes).2 } :=
      ⟨t, rfl, ht⟩
    split
    · exact (hcount h₁).degradeToMiss hid
    next e _ => exact .ok ⟨_, rfl, ht.schedule e.finishNs hid⟩

theorem Shadows.fetchOnArrival (h : r.Shadows horizon ids r') (hsame : inflight.Same inflight')
    (hid : inflight.id ∈ ids) (tier : TierKind) (kv : KvObject) :
    Related (Shadows horizon ids) (r.fetchOnArrival now inflight tier kv)
      (r'.fetchOnArrival now inflight' tier kv) := by
  unfold CacheAwareRunner.fetchOnArrival
  dsimp only
  rw [hsame.id_eq]
  have hnote := hsame.note inflight.prefillTokens (some tier)
  obtain ⟨q, rfl, hq⟩ := hsame
  exact ((h.count (fun hits => { hits with pendingFetches := hits.pendingFetches + 1 }) (·)
    (·)).setInFlight hnote).handleFetch hid kv

theorem Shadows.onArrival (h : r.Shadows horizon ids r') (hid : id ∈ ids) :
    Related (Shadows horizon ids) (r.onArrival now id) (r'.onArrival now id) := by
  have hrecord := h.state.records id hid
  unfold CacheAwareRunner.onArrival
  generalize hr : r.inFlight.get id = o at hrecord
  generalize r'.inFlight.get id = o' at hrecord
  cases hrecord with
  | none => exact .ok h
  | @some inflight inflight' hsame =>
    have hkey : inflight.id = id := KeyedMap.key_of_get hr
    have hid' : inflight.id ∈ ids := hkey ▸ hid
    dsimp only
    rw [h.reusableKv hsame]
    split
    · exact h.missOnArrival hsame hid'
    · split
      · exact h.hitOnArrival hsame hid' _
      · exact h.fetchOnArrival hsame hid' _ _
      · exact h.fetchOnArrival hsame hid' _ _
      · exact h.fetchOnArrival hsame hid' _ _
      · exact h.missOnArrival hsame hid'

variable [PlacementPolicy P]

theorem Shadows.storeKv (h : r.Shadows horizon ids r') (hid : id ∈ ids) (now : UInt64) :
    (r.storeKv now id).Shadows horizon ids (r'.storeKv now id) := by
  have hrecord := h.state.records id hid
  have hcluster := h.state.cluster
  unfold CacheAwareRunner.storeKv
  generalize r.inFlight.get id = o at hrecord
  generalize r'.inFlight.get id = o' at hrecord
  cases hrecord with
  | none => exact h
  | @some inflight inflight' hsame =>
    obtain ⟨t, rfl, ht⟩ := h
    dsimp only at hcluster ⊢
    rw [hsame.request.promptTokens, hsame.request.sessionId, hcluster]
    split_ifs
    · split
      · exact ⟨t, rfl, ht⟩
      · exact ⟨t, rfl, ht⟩
    · exact ⟨t, rfl, ht⟩

theorem Shadows.onPrefillDone (h : r.Shadows horizon ids r') (hid : id ∈ ids) (n : NodeId) (i : ℕ) :
    Related (Shadows horizon ids) (r.onPrefillDone now id n i) (r'.onPrefillDone now id n i) := by
  unfold CacheAwareRunner.onPrefillDone
  refine (h.onState (h.state.releaseGpu n i now)).bind fun r₁ r₁' _ h₁ => ?_
  have h₂ := h₁.storeKv hid now
  dsimp only
  rw [h₂.compute, h₂.config]
  refine (h₂.onState (h₂.state.startOrQueueDecode hid)).bind fun r₃ r₃' _ h₃ => ?_
  refine (h₃.tryAssign .prefill).bind fun r₄ r₄' _ h₄ => ?_
  exact h₄.tryAssign .decode

/-- While something is pending before the horizon, both handle the same event. -/
theorem Shadows.step (h : r.Shadows horizon ids r') (hearly : r.sim.early horizon ≠ []) :
    Related (Option.Rel (Shadows horizon ids)) r.step r'.step := by
  obtain ⟨now, kind, t, sim, sim', hstep, hstep', hmem, hsub, hsim⟩ := h.state.sim.step hearly
  have hid := h.state.events _ hmem
  obtain ⟨s, rfl, hs⟩ := h
  simp only [CacheAwareRunner.step, hstep, hstep']
  have hpopped : ({ r with sim := sim } : CacheAwareRunner C P T).Shadows horizon ids
      { r with toServingState := { s with sim := sim' } } := ⟨_, rfl, hs.pop hsim hsub⟩
  refine Related.map (R := Shadows horizon ids) ?_ fun _ _ => .some
  cases kind with
  | requestArrival id => exact hpopped.onArrival hid
  | prefillDone id n i => exact hpopped.onPrefillDone hid n i
  | fetchDone id => exact hpopped.onFetchDone hid
  | decodeDone id n i => exact hpopped.onDecodeDone hid n i

end CacheAwareRunner

end KvFlowSim
