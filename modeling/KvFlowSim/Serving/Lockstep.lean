import KvFlowSim.Policy.Oblivious
import KvFlowSim.Serving.Refinement

/-!
# Runs in lock-step

A runner works on the shared state by a few operations. A relation between states that these keep at
a time (`ServingState.Lockstep`) is kept by the handlers of either runner, whatever else it says of
the clusters and of the GPUs that jobs are on. So two runs whose next events are of one job, due at
one time and find the states related (`ServingState.Pops`) step alike.
-/

namespace KvFlowSim

open Except

/-- What the handlers of a runner read of a record: all but the times and the GPUs. -/
structure InFlightRequest.SameNotes (r r' : InFlightRequest) : Prop where
  request : r'.request = r.request
  prefillTokens : r'.prefillTokens = r.prefillTokens
  pendingFetchTier : r'.pendingFetchTier = r.pendingFetchTier

theorem InFlightRequest.SameNotes.refl (r : InFlightRequest) : r.SameNotes r := ⟨rfl, rfl, rfl⟩

theorem InFlightRequest.SameNotes.id_eq {r r' : InFlightRequest} (h : r.SameNotes r') :
    r'.id = r.id :=
  congrArg LlmRequest.requestId h.request

/-- The events are of the same job, on whatever GPUs. -/
inductive ServingEvent.SameJob : ServingEvent → ServingEvent → Prop
  | arrival (id : UInt64) : SameJob (.requestArrival id) (.requestArrival id)
  | fetch (id : UInt64) : SameJob (.fetchDone id) (.fetchDone id)
  | done (stage : Stage) (id : UInt64) (n n' : NodeId) (i i' : ℕ) :
    SameJob (stage.doneEvent id n i) (stage.doneEvent id n' i')

theorem ServingEvent.SameJob.refl (kind : ServingEvent) : kind.SameJob kind := by
  cases kind with
  | requestArrival id => exact .arrival id
  | prefillDone id n i => exact .done .prefill id n n i i
  | fetchDone id => exact .fetch id
  | decodeDone id n i => exact .done .decode id n n i i

namespace ServingState

/-- A relation that the operations at the time `now` keep. -/
structure Lockstep (now : UInt64) (R : ServingState → ServingState → Prop) : Prop where
  shape : ∀ {s t}, R s t → s.cluster.SameShape t.cluster
  record : ∀ {s t}, R s t → ∀ id,
    Option.Rel InFlightRequest.SameNotes (s.inFlight.get id) (t.inFlight.get id)
  note : ∀ {s t id r r'}, R s t → s.inFlight.get id = some r → t.inFlight.get id = some r' →
    ∀ tokens tier,
      R { s with
          inFlight :=
            s.inFlight.insert { r with prefillTokens := tokens, pendingFetchTier := tier } }
        { t with
          inFlight :=
            t.inFlight.insert { r' with prefillTokens := tokens, pendingFetchTier := tier } }
  fetch : ∀ {s t}, R s t → ∀ id doneNs, R { s with sim := s.sim.schedule doneNs (.fetchDone id) }
    { t with sim := t.sim.schedule doneNs (.fetchDone id) }
  finish : ∀ {s t}, R s t → ∀ id, R (s.finish id) (t.finish id)
  startOrQueue : ∀ {C : Type} [ComputeModel C] (compute : C) (config : ServingConfig) {s t},
    R s t → ∀ stage id, Related R (s.startOrQueue compute config stage id now)
      (t.startOrQueue compute config stage id now)
  tryAssign : ∀ {C : Type} [ComputeModel C] (compute : C) (config : ServingConfig) {s t},
    R s t → ∀ stage, Related R (s.tryAssign compute config stage now)
      (t.tryAssign compute config stage now)

/-- The releases that come with completions of one job keep the relation. -/
def ReleasesAlike (now : UInt64) (R : ServingState → ServingState → Prop)
    (kind kind' : ServingEvent) (s t : ServingState) : Prop :=
  ∀ n i n' i', kind.completion = some (n, i) → kind'.completion = some (n', i') →
    Related R (s.releaseGpu n i now) (t.releaseGpu n' i' now)

/-- The next events of two states are of one job and due at one time, and find the states in a
relation that is kept. -/
inductive Pops (R : UInt64 → ServingState → ServingState → Prop) (s t : ServingState) : Prop
  | none (hs : s.sim.step = none) (ht : t.sim.step = none)
  | some {now : UInt64} {kind kind' : ServingEvent} {sim sim' : Simulator ServingEvent}
    (hs : s.sim.step = some (now, kind, sim)) (ht : t.sim.step = some (now, kind', sim'))
    (hkind : kind.SameJob kind') (hlock : Lockstep now (R now))
    (hR : R now { s with sim := sim } { t with sim := sim' })
    (hrelease : ReleasesAlike now (R now) kind kind' { s with sim := sim } { t with sim := sim' })

/-- There are records for a request in both states or in neither. -/
theorem Lockstep.get_cases {now : UInt64} {R : ServingState → ServingState → Prop}
    (hR : Lockstep now R) {s t : ServingState} (h : R s t) (id : UInt64) :
    (s.inFlight.get id = none ∧ t.inFlight.get id = none) ∨
      ∃ r r', s.inFlight.get id = some r ∧ t.inFlight.get id = some r' ∧ r.SameNotes r' := by
  have hrecord := hR.record h id
  generalize s.inFlight.get id = o at hrecord ⊢
  generalize t.inFlight.get id = o' at hrecord ⊢
  cases hrecord with
  | none => exact .inl ⟨rfl, rfl⟩
  | some hsame => exact .inr ⟨_, _, rfl, rfl, hsame⟩

theorem Lockstep.startOrQueueDecode {now : UInt64} {R : ServingState → ServingState → Prop}
    (hR : Lockstep now R) {C : Type} [ComputeModel C] (compute : C) (config : ServingConfig)
    {s t : ServingState} (h : R s t) (id : UInt64) :
    Related R (s.startOrQueueDecode compute config id now)
      (t.startOrQueueDecode compute config id now) := by
  unfold ServingState.startOrQueueDecode
  rcases hR.get_cases h id with ⟨hs, ht⟩ | ⟨r, r', hs, ht, -⟩
  · rw [hs, ht]
    exact .ok h
  · rw [hs, ht]
    exact hR.startOrQueue compute config h .decode id

end ServingState

open ServingState

/-! ## The event-driven runner -/

namespace EventDrivenRunner

variable {C : Type} {R : ServingState → ServingState → Prop} {now : UInt64}
  {r r' : EventDrivenRunner C}

/-- The runners have the same models and states in the relation `R`. -/
def Alike (R : ServingState → ServingState → Prop) (r r' : EventDrivenRunner C) : Prop :=
  ∃ t, r' = { r with toServingState := t } ∧ R r.toServingState t

theorem Alike.state (h : r.Alike R r') : R r.toServingState r'.toServingState := by
  obtain ⟨t, rfl, ht⟩ := h
  exact ht

theorem Alike.compute (h : r.Alike R r') : r'.compute = r.compute := by
  obtain ⟨t, rfl, -⟩ := h
  rfl

theorem Alike.config (h : r.Alike R r') : r'.config = r.config := by
  obtain ⟨t, rfl, -⟩ := h
  rfl

theorem Alike.onState (h : r.Alike R r') {f f' : ServingState → Except Panic ServingState}
    (hf : Related R (f r.toServingState) (f' r'.toServingState)) :
    Related (Alike R) (r.onState f) (r'.onState f') := by
  obtain ⟨t, rfl, -⟩ := h
  exact hf.map fun s' t' h' => ⟨t', rfl, h'⟩

theorem Alike.finish (hR : Lockstep now R) (h : r.Alike R r') (id : UInt64) :
    Related (Alike R) (r.onState fun s => .ok (s.finish id))
      (r'.onState fun s => .ok (s.finish id)) :=
  h.onState (.ok (hR.finish h.state id))

variable [ComputeModel C]

theorem Alike.tryAssignPrefill (hR : Lockstep now R) (h : r.Alike R r') :
    Related (Alike R) (r.tryAssignPrefill now) (r'.tryAssignPrefill now) := by
  unfold EventDrivenRunner.tryAssignPrefill
  rw [h.compute, h.config]
  exact h.onState (hR.tryAssign r.compute r.config h.state .prefill)

theorem Alike.tryAssignDecode (hR : Lockstep now R) (h : r.Alike R r') :
    Related (Alike R) (r.tryAssignDecode now) (r'.tryAssignDecode now) := by
  unfold EventDrivenRunner.tryAssignDecode
  rw [h.compute, h.config]
  exact h.onState (hR.tryAssign r.compute r.config h.state .decode)

theorem Alike.handleEvent (hR : Lockstep now R) (h : r.Alike R r') {kind kind' : ServingEvent}
    (hkind : kind.SameJob kind')
    (hrelease : ReleasesAlike now R kind kind' r.toServingState r'.toServingState) :
    Related (Alike R) (r.handleEvent now kind) (r'.handleEvent now kind') := by
  cases hkind with
  | arrival id =>
    unfold EventDrivenRunner.handleEvent onArrival
    rw [h.compute, h.config]
    exact h.onState (hR.startOrQueue r.compute r.config h.state .prefill id)
  | fetch id => exact .error _
  | done stage id n n' i i' =>
    have hreleased : Related (Alike R) (r.onState (·.releaseGpu n i now))
        (r'.onState (·.releaseGpu n' i' now)) :=
      h.onState (hrelease n i n' i' (by simp) (by simp))
    cases stage with
    | prefill =>
      refine hreleased.bind fun r₁ r₁' _ h₁ => ?_
      rw [h₁.compute, h₁.config]
      refine (h₁.onState (hR.startOrQueueDecode r₁.compute r₁.config h₁.state id)).bind
        fun r₂ r₂' _ h₂ => ?_
      refine (h₂.tryAssignPrefill hR).bind fun r₃ r₃' _ h₃ => ?_
      exact h₃.tryAssignDecode hR
    | decode =>
      refine hreleased.bind fun r₁ r₁' _ h₁ => ?_
      refine (h₁.finish hR id).bind fun r₂ r₂' _ h₂ => ?_
      refine (h₂.tryAssignDecode hR).bind fun r₃ r₃' _ h₃ => ?_
      exact h₃.tryAssignPrefill hR

/-- One event, handled by both. -/
theorem Alike.step {Q : ServingState → ServingState → Prop}
    {R : UInt64 → ServingState → ServingState → Prop} (h : r.Alike Q r')
    (hpops : Pops R r.toServingState r'.toServingState) :
    Related (Option.Rel fun s s' => ∃ now kind sim, r.sim.step = some (now, kind, sim) ∧
      s.Alike (R now) s') r.step r'.step := by
  unfold EventDrivenRunner.step
  cases hpops with
  | none hs ht =>
    rw [hs, ht]
    exact .ok .none
  | @some now kind kind' sim sim' hs ht hkind hlock hR hrelease =>
    rw [hs, ht]
    obtain ⟨t, rfl, -⟩ := h
    have halike : ({ r with sim := sim } : EventDrivenRunner C).Alike (R now)
        { r with toServingState := { t with sim := sim' } } := ⟨_, rfl, hR⟩
    exact (halike.handleEvent hlock hkind hrelease).map fun s s' hs' =>
      .some ⟨now, kind, sim, rfl, hs'⟩

end EventDrivenRunner

/-! ## The cache-aware runner -/

namespace CacheAwareRunner

variable {C P T : Type} [TransferModel T] {R : ServingState → ServingState → Prop}
  {since now requestId : UInt64} {r r' : CacheAwareRunner C P T}
  {inflight inflight' : InFlightRequest}

/-- The runners have states in the relation `R` and transfer models that answer alike from `since`
on, and agree in all else. -/
def Alike (R : ServingState → ServingState → Prop) (since : UInt64)
    (r r' : CacheAwareRunner C P T) : Prop :=
  ∃ t transfer, r' = { r with toServingState := t, transfer := transfer } ∧
    R r.toServingState t ∧ TransferModel.Alike since r.transfer transfer

theorem Alike.state (h : r.Alike R since r') : R r.toServingState r'.toServingState := by
  obtain ⟨t, transfer, rfl, ht, -⟩ := h
  exact ht

theorem Alike.compute (h : r.Alike R since r') : r'.compute = r.compute := by
  obtain ⟨t, transfer, rfl, -⟩ := h
  rfl

theorem Alike.config (h : r.Alike R since r') : r'.config = r.config := by
  obtain ⟨t, transfer, rfl, -⟩ := h
  rfl

theorem Alike.reusableKv (h : r.Alike R since r') (hsame : inflight.SameNotes inflight') :
    r'.reusableKv inflight' = r.reusableKv inflight := by
  obtain ⟨t, transfer, rfl, -⟩ := h
  rw [CacheAwareRunner.reusableKv, hsame.request, CacheAwareRunner.reusableKv]

theorem Alike.onState (h : r.Alike R since r') {f f' : ServingState → Except Panic ServingState}
    (hf : Related R (f r.toServingState) (f' r'.toServingState)) :
    Related (Alike R since) (r.onState f) (r'.onState f') := by
  obtain ⟨t, transfer, rfl, -, htransfer⟩ := h
  exact hf.map fun s' t' h' => ⟨t', transfer, rfl, h', htransfer⟩

theorem Alike.release (h : r.Alike R since r') {n n' : NodeId} {i i' : ℕ}
    (hrelease : Related R (r.releaseGpu n i now) (r'.releaseGpu n' i' now)) :
    Related (Alike R since) (r.onState (·.releaseGpu n i now))
      (r'.onState (·.releaseGpu n' i' now)) :=
  h.onState hrelease

theorem Alike.finish (hR : Lockstep now R) (h : r.Alike R since r') (requestId : UInt64) :
    Related (Alike R since) (r.onState fun s => .ok (s.finish requestId))
      (r'.onState fun s => .ok (s.finish requestId)) :=
  h.onState (.ok (hR.finish h.state requestId))

/-- Counting, and what is done to the cache, is the same in both. -/
theorem Alike.count (h : r.Alike R since r') (hits : CacheHitStats → CacheHitStats)
    (cache : CacheState → CacheState) (recomputed fetched : UInt64 → UInt64) :
    ({ r with
        hits := hits r.hits, cache := cache r.cache
        recomputedTokens := recomputed r.recomputedTokens
        fetchedBytes := fetched r.fetchedBytes } :
      CacheAwareRunner C P T).Alike R since
      { r' with
        hits := hits r'.hits, cache := cache r'.cache
        recomputedTokens := recomputed r'.recomputedTokens
        fetchedBytes := fetched r'.fetchedBytes } := by
  obtain ⟨t, transfer, rfl, ht, htransfer⟩ := h
  exact ⟨t, transfer, rfl, ht, htransfer⟩

/-- A note is made on both records of a request. -/
theorem Alike.note (hR : Lockstep now R) (h : r.Alike R since r')
    (hr : r.inFlight.get requestId = some inflight)
    (hr' : r'.inFlight.get requestId = some inflight') {tokens tokens' : UInt32}
    {tier tier' : Option TierKind} (htokens : tokens' = tokens) (htier : tier' = tier) :
    (r.setInFlight { inflight with prefillTokens := tokens, pendingFetchTier := tier }).Alike R
      since
      (r'.setInFlight { inflight' with prefillTokens := tokens', pendingFetchTier := tier' }) := by
  rw [htokens, htier]
  obtain ⟨t, transfer, rfl, ht, htransfer⟩ := h
  exact ⟨_, transfer, rfl, hR.note ht hr hr' tokens tier, htransfer⟩

theorem Alike.takeFetch (hR : Lockstep now R) (h : r.Alike R since r') (requestId : UInt64) :
    (r.takeFetch requestId).Alike R since (r'.takeFetch requestId) := by
  unfold CacheAwareRunner.takeFetch
  rcases hR.get_cases h.state requestId with ⟨hr, hr'⟩ | ⟨inflight, inflight', hr, hr', hsame⟩
  · rw [hr, hr']
    exact h
  · rw [hr, hr']
    dsimp only
    rw [hsame.pendingFetchTier]
    split
    · exact h
    next tier _ =>
      exact (h.note hR hr hr' hsame.prefillTokens (rfl : none = none)).count
        (fun hits => creditFetch hits tier) id id id

theorem Alike.countFetchError (h : r.Alike R since r') :
    r.countFetchError.Alike R since r'.countFetchError :=
  h.count (fun hits => { hits with fetchErrors := hits.fetchErrors + 1 }) id id id

variable [ComputeModel C]

theorem Alike.startOrQueue (hR : Lockstep now R) (h : r.Alike R since r') (requestId : UInt64)
    (stage : Stage) :
    Related (Alike R since) (r.onState (·.startOrQueue r.compute r.config stage requestId now))
      (r'.onState (·.startOrQueue r'.compute r'.config stage requestId now)) := by
  rw [h.compute, h.config]
  exact h.onState (hR.startOrQueue r.compute r.config h.state stage requestId)

theorem Alike.tryAssign (hR : Lockstep now R) (h : r.Alike R since r') (stage : Stage) :
    Related (Alike R since) (r.onState (·.tryAssign r.compute r.config stage now))
      (r'.onState (·.tryAssign r'.compute r'.config stage now)) := by
  rw [h.compute, h.config]
  exact h.onState (hR.tryAssign r.compute r.config h.state stage)

theorem Alike.startOrQueueRemainingPrefill (hR : Lockstep now R) (h : r.Alike R since r')
    (requestId : UInt64) :
    Related (Alike R since) (r.startOrQueueRemainingPrefill now requestId)
      (r'.startOrQueueRemainingPrefill now requestId) := by
  unfold CacheAwareRunner.startOrQueueRemainingPrefill
  rcases hR.get_cases h.state requestId with ⟨hr, hr'⟩ | ⟨inflight, inflight', hr, hr', hsame⟩
  · rw [hr, hr']
    exact .ok h
  · rw [hr, hr']
    have htokens := congrArg LlmRequest.newPromptTokens hsame.request
    dsimp only
    rw [htokens]
    split_ifs
    · exact h.startOrQueue hR requestId .decode
    · have h₁ := (h.note hR hr hr' (rfl : _ = inflight.request.newPromptTokens)
        hsame.pendingFetchTier).count id id (· + inflight.request.newPromptTokens.toUInt64) id
      exact h₁.startOrQueue hR requestId .prefill

theorem Alike.degradeToMiss (hR : Lockstep now R) (h : r.Alike R since r') (requestId : UInt64) :
    Related (Alike R since) (r.degradeToMiss now requestId) (r'.degradeToMiss now requestId) := by
  unfold CacheAwareRunner.degradeToMiss
  rcases hR.get_cases h.state requestId with ⟨hr, hr'⟩ | ⟨inflight, inflight', hr, hr', hsame⟩
  · simp only [hr, hr']
    exact .ok (h.count (fun hits => { hits with misses := hits.misses + 1 }) id id id)
  · have h₁ := (h.note hR hr hr' (rfl : _ = inflight.request.promptTokens)
      (rfl : none = none)).count
      (fun hits =>
        let hits := if inflight.pendingFetchTier.isSome then
          { hits with pendingFetches := hits.pendingFetches - 1 } else hits
        { hits with misses := hits.misses + 1 }) id
      (·.satAdd inflight.request.promptTokens.toUInt64) id
    have htokens := congrArg LlmRequest.promptTokens hsame.request
    simp only [hr, hr', Option.bind_some, htokens, hsame.pendingFetchTier]
    exact h₁.startOrQueue hR requestId .prefill

theorem Alike.handleFetch (hR : Lockstep now R) (hnow : since ≤ now) (h : r.Alike R since r')
    (requestId : UInt64) (kv : KvObject) :
    Related (Alike R since) (r.handleFetch now requestId kv) (r'.handleFetch now requestId kv) := by
  unfold CacheAwareRunner.handleFetch
  split
  · exact h.countFetchError.degradeToMiss hR requestId
  next path _ =>
    obtain ⟨t, transfer, rfl, ht, htransfer⟩ := h
    obtain ⟨hanswer, htransfer'⟩ := htransfer.estimate hnow path kv.bytes
    have h₁ : ({ r with transfer := (TransferModel.estimate r.transfer now path kv.bytes).2 } :
        CacheAwareRunner C P T).Alike R since
        { r with
          toServingState := t
          transfer := (TransferModel.estimate transfer now path kv.bytes).2 } :=
      ⟨t, _, rfl, ht, htransfer'⟩
    dsimp only
    rw [hanswer]
    split
    · exact h₁.countFetchError.degradeToMiss hR requestId
    next e _ => exact .ok ⟨_, _, rfl, hR.fetch ht requestId e.finishNs, htransfer'⟩

theorem Alike.missOnArrival (hR : Lockstep now R) (h : r.Alike R since r')
    (hr : r.inFlight.get requestId = some inflight)
    (hr' : r'.inFlight.get requestId = some inflight')
    (hsame : inflight.SameNotes inflight') :
    Related (Alike R since) (r.missOnArrival now inflight) (r'.missOnArrival now inflight') := by
  unfold CacheAwareRunner.missOnArrival
  have h₁ := (h.note hR hr hr' (rfl : _ = inflight.request.promptTokens)
    hsame.pendingFetchTier).count (fun hits => { hits with misses := hits.misses + 1 }) id
    (· + inflight.request.promptTokens.toUInt64) id
  have htokens := congrArg LlmRequest.promptTokens hsame.request
  dsimp only
  rw [htokens, hsame.id_eq]
  exact h₁.startOrQueue hR inflight.id .prefill

theorem Alike.fetchOnArrival (hR : Lockstep now R) (hnow : since ≤ now) (h : r.Alike R since r')
    (hr : r.inFlight.get requestId = some inflight)
    (hr' : r'.inFlight.get requestId = some inflight')
    (hsame : inflight.SameNotes inflight') (tier : TierKind) (kv : KvObject) :
    Related (Alike R since) (r.fetchOnArrival now inflight tier kv)
      (r'.fetchOnArrival now inflight' tier kv) := by
  unfold CacheAwareRunner.fetchOnArrival
  have h₁ := (h.note hR hr hr' hsame.prefillTokens (rfl : _ = some tier)).count
    (fun hits => { hits with pendingFetches := hits.pendingFetches + 1 }) id id id
  rw [hsame.id_eq]
  exact h₁.handleFetch hR hnow inflight.id kv

theorem Alike.hitOnArrival (hR : Lockstep now R) (h : r.Alike R since r')
    (hsame : inflight.SameNotes inflight') (kv : KvObject) :
    Related (Alike R since) (r.hitOnArrival now inflight kv)
      (r'.hitOnArrival now inflight' kv) := by
  unfold CacheAwareRunner.hitOnArrival
  have h₁ := h.count (fun hits => { hits with hitsGpu := hits.hitsGpu + 1 })
    (·.updateAccess kv.kvId now) id id
  rw [hsame.id_eq]
  exact h₁.startOrQueueRemainingPrefill hR inflight.id

theorem Alike.onArrival (hR : Lockstep now R) (hnow : since ≤ now) (h : r.Alike R since r')
    (requestId : UInt64) :
    Related (Alike R since) (r.onArrival now requestId) (r'.onArrival now requestId) := by
  unfold CacheAwareRunner.onArrival
  rcases hR.get_cases h.state requestId with ⟨hr, hr'⟩ | ⟨inflight, inflight', hr, hr', hsame⟩
  · rw [hr, hr']
    exact .ok h
  · rw [hr, hr']
    dsimp only
    rw [h.reusableKv hsame]
    split
    · exact h.missOnArrival hR hr hr' hsame
    · split
      · exact h.hitOnArrival hR hsame _
      · exact h.fetchOnArrival hR hnow hr hr' hsame _ _
      · exact h.fetchOnArrival hR hnow hr hr' hsame _ _
      · exact h.fetchOnArrival hR hnow hr hr' hsame _ _
      · exact h.missOnArrival hR hr hr' hsame

theorem Alike.onFetchDone (hR : Lockstep now R) (h : r.Alike R since r') (requestId : UInt64) :
    Related (Alike R since) (r.onFetchDone now requestId) (r'.onFetchDone now requestId) := by
  unfold CacheAwareRunner.onFetchDone
  have htaken := h.takeFetch hR requestId
  refine (htaken.startOrQueueRemainingPrefill hR requestId).bind fun r₁ r₁' _ h₁ => ?_
  refine (h₁.tryAssign hR .decode).bind fun r₂ r₂' _ h₂ => ?_
  exact h₂.tryAssign hR .prefill

theorem Alike.onDecodeDone (hR : Lockstep now R) (h : r.Alike R since r') (requestId : UInt64)
    {n n' : NodeId} {i i' : ℕ}
    (hrelease : Related R (r.releaseGpu n i now) (r'.releaseGpu n' i' now)) :
    Related (Alike R since) (r.onDecodeDone now requestId n i)
      (r'.onDecodeDone now requestId n' i') := by
  unfold CacheAwareRunner.onDecodeDone
  refine (h.release hrelease).bind fun r₁ r₁' _ h₁ => ?_
  refine (h₁.finish hR requestId).bind fun r₂ r₂' _ h₂ => ?_
  refine (h₂.tryAssign hR .decode).bind fun r₃ r₃' _ h₃ => ?_
  exact h₃.tryAssign hR .prefill

variable [PlacementPolicy P] [ObliviousPolicy P]

theorem Alike.storeKv (hR : Lockstep now R) (h : r.Alike R since r') (requestId : UInt64) :
    (r.storeKv now requestId).Alike R since (r'.storeKv now requestId) := by
  unfold CacheAwareRunner.storeKv
  rcases hR.get_cases h.state requestId with ⟨hr, hr'⟩ | ⟨inflight, inflight', hr, hr', hsame⟩
  · rw [hr, hr']
    exact h
  · rw [hr, hr']
    obtain ⟨t, transfer, rfl, ht, htransfer⟩ := h
    dsimp only
    rw [hsame.request]
    split_ifs
    · rw [ObliviousPolicy.place_eq _ _ _ _ _ _ _ _ (hR.shape ht) htransfer.estimateDuration]
      dsimp only
      have htransfer' : TransferModel.Alike since (PlacementPolicy.place r.placement
          r.cache.allocKvId.1 inflight.request.sessionId inflight.request.promptTokens
          (r.profile.kvBytes inflight.request.promptTokens) now r.cluster r.cache.allocKvId.2
          r.compute r.transfer).transfer transfer := by
        rw [QuietPolicy.place_transfer]
        exact htransfer
      split
      · exact ⟨_, transfer, rfl, ht, htransfer'⟩
      · exact ⟨_, transfer, rfl, ht, htransfer'⟩
    · exact ⟨_, transfer, rfl, ht, htransfer⟩

theorem Alike.onPrefillDone (hR : Lockstep now R) (h : r.Alike R since r') (requestId : UInt64)
    {n n' : NodeId} {i i' : ℕ}
    (hrelease : Related R (r.releaseGpu n i now) (r'.releaseGpu n' i' now)) :
    Related (Alike R since) (r.onPrefillDone now requestId n i)
      (r'.onPrefillDone now requestId n' i') := by
  unfold CacheAwareRunner.onPrefillDone
  refine (h.release hrelease).bind fun r₁ r₁' _ h₁ => ?_
  have h₂ := h₁.storeKv hR requestId
  dsimp only
  rw [h₂.compute, h₂.config]
  refine (h₂.onState (hR.startOrQueueDecode _ _ h₂.state requestId)).bind fun r₃ r₃' _ h₃ => ?_
  refine (h₃.tryAssign hR .prefill).bind fun r₄ r₄' _ h₄ => ?_
  exact h₄.tryAssign hR .decode

/-- One event, handled by both. -/
theorem Alike.step {Q : ServingState → ServingState → Prop}
    {R : UInt64 → ServingState → ServingState → Prop} (h : r.Alike Q since r')
    (hpops : Pops R r.toServingState r'.toServingState)
    (hsince : ∀ {now kind sim}, r.sim.step = some (now, kind, sim) → since ≤ now) :
    Related (Option.Rel fun s s' => ∃ now kind sim, r.sim.step = some (now, kind, sim) ∧
      s.Alike (R now) since s') r.step r'.step := by
  unfold CacheAwareRunner.step
  cases hpops with
  | none hs ht =>
    rw [hs, ht]
    exact .ok .none
  | @some now kind kind' sim sim' hs ht hkind hlock hR hrelease =>
    have hnow := hsince hs
    rw [hs, ht]
    obtain ⟨t, transfer, rfl, -, htransfer⟩ := h
    have halike : ({ r with sim := sim } : CacheAwareRunner C P T).Alike (R now) since
        { r with toServingState := { t with sim := sim' }, transfer := transfer } :=
      ⟨_, transfer, rfl, hR, htransfer⟩
    refine Related.map (R := Alike (R now) since) ?_
      fun s s' hs' => .some ⟨now, kind, sim, rfl, hs'⟩
    cases hkind with
    | arrival id => exact halike.onArrival hlock hnow id
    | fetch id => exact halike.onFetchDone hlock id
    | done stage id n n' i i' =>
      have hreleased := hrelease n i n' i' (by simp) (by simp)
      cases stage with
      | prefill => exact halike.onPrefillDone hlock id hreleased
      | decode => exact halike.onDecodeDone hlock id hreleased

end CacheAwareRunner

end KvFlowSim
