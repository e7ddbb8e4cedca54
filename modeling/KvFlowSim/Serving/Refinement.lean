import KvFlowSim.Serving.Moves
import KvFlowSim.Serving.Scheduler
import KvFlowSim.Serving.CacheRunner

/-!
# The runners advance

Every event that `EventDrivenRunner` or `CacheAwareRunner` handles is an `Advance` of the state they
share (`EventDrivenRunner.step_advance`, `CacheAwareRunner.step_advance`). The former never fetches;
the latter may, and whatever its cache, its policy and its transfer model do stays outside of the
shared state.
-/

namespace KvFlowSim

open Relation ServingState

section

variable {C : Type} [ComputeModel C] {compute : C} {config : ServingConfig} {fetching : Prop}
  {now id : UInt64} {budget : ℕ} {s s₁ s₂ : ServingState}

/-- The end of the handlers of all events but an arrival: both queues are served. -/
theorem ServingState.tryAssign_both {first second : Stage} (hne : first ≠ second)
    (h₁ : s.tryAssign compute config first now = .ok s₁)
    (h₂ : s₁.tryAssign compute config second now = .ok s₂) :
    Moves fetching now (s, none) (s₂, none) ∧
      (s.cluster.DistinctNodeIds → ∀ stage, s₂.Drained now stage) := by
  obtain ⟨hm₁, hd₁⟩ : Moves fetching now (s, none) (s₁, none) ∧ _ := tryAssign_moves h₁
  obtain ⟨hm₂, hd₂⟩ : Moves fetching now (s₁, none) (s₂, none) ∧ _ := tryAssign_moves h₂
  refine ⟨hm₁.trans hm₂, fun hd stage => ?_⟩
  have hd' := hm₁.distinctNodeIds hd
  by_cases hst : stage = second
  · exact hst ▸ hd₂ hd'
  · obtain rfl : stage = first := by cases stage <;> cases first <;> cases second <;> simp_all
    exact hm₂.drained hd' (hd₁ hd)

theorem ServingState.finish_moves (s : ServingState) (id : UInt64) (budget : ℕ) :
    Moves fetching now (s, some (id, budget)) (s.finish id, none) := by
  cases hr : s.inFlight.get id with
  | some r => exact .single (.finish hr)
  | none =>
    have hs : s.finish id = s := by simp only [finish, hr]
    rw [hs]
    exact .single (.drop hr)

/-- A handler that moves the held request and then serves both queues. -/
theorem ServingState.handles_of_tryAssign {kind : ServingEvent} {first second : Stage}
    {s s₁ s₂ s₃ s₄ : ServingState} (hne : first ≠ second) (hrel : Released now kind s s₁)
    (hmove : Moves fetching now (s₁, some (kind.requestId, kind.weight - 1)) (s₂, none))
    (h₁ : s₂.tryAssign compute config first now = .ok s₃)
    (h₂ : s₃.tryAssign compute config second now = .ok s₄) : Handles fetching now kind s s₄ := by
  obtain ⟨htail, hdrained⟩ : Moves fetching now (s₂, none) (s₄, none) ∧ _ :=
    tryAssign_both hne h₁ h₂
  exact ⟨s₁, hrel, hmove.trans htail, fun hd _ => hdrained (hmove.distinctNodeIds hd)⟩

/-- A handler of an arrival. -/
theorem ServingState.handles_arrival
    (hmove : Moves fetching now (s, some (id, 3)) (s₁, none)) :
    Handles fetching now (.requestArrival id) s s₁ :=
  ⟨s, rfl, hmove, fun _ hne => absurd rfl (hne id)⟩

end

/-! ## The event-driven runner -/

namespace EventDrivenRunner

variable {C : Type} {r r' : EventDrivenRunner C}

theorem onState_eq_ok {f : ServingState → Except Panic ServingState} :
    r.onState f = .ok r' ↔
      ∃ s, f r.toServingState = .ok s ∧ { r with toServingState := s } = r' :=
  Except.map_eq_ok

variable [ComputeModel C] {now id : UInt64} {n : NodeId} {i : ℕ}

theorem onPrefillDone_ok (h : r.onPrefillDone now id n i = .ok r') : ∃ s₁ s₂ s₃ s₄,
    r.releaseGpu n i now = .ok s₁ ∧
    s₁.startOrQueueDecode r.compute r.config id now = .ok s₂ ∧
    s₂.tryAssign r.compute r.config .prefill now = .ok s₃ ∧
    s₃.tryAssign r.compute r.config .decode now = .ok s₄ ∧
    r' = { r with toServingState := s₄ } := by
  obtain ⟨r₁, h₁, h⟩ := Except.bind_eq_ok.1 h
  obtain ⟨s₁, hs₁, rfl⟩ := onState_eq_ok.1 h₁
  obtain ⟨r₂, h₂, h⟩ := Except.bind_eq_ok.1 h
  obtain ⟨s₂, hs₂, rfl⟩ := onState_eq_ok.1 h₂
  obtain ⟨r₃, h₃, h₄⟩ := Except.bind_eq_ok.1 h
  obtain ⟨s₃, hs₃, rfl⟩ := onState_eq_ok.1 h₃
  obtain ⟨s₄, hs₄, rfl⟩ := onState_eq_ok.1 h₄
  exact ⟨s₁, s₂, s₃, s₄, hs₁, hs₂, hs₃, hs₄, rfl⟩

theorem onDecodeDone_ok (h : r.onDecodeDone now id n i = .ok r') : ∃ s₁ s₂ s₃,
    r.releaseGpu n i now = .ok s₁ ∧
    (s₁.finish id).tryAssign r.compute r.config .decode now = .ok s₂ ∧
    s₂.tryAssign r.compute r.config .prefill now = .ok s₃ ∧
    r' = { r with toServingState := s₃ } := by
  obtain ⟨r₁, h₁, h⟩ := Except.bind_eq_ok.1 h
  obtain ⟨s₁, hs₁, rfl⟩ := onState_eq_ok.1 h₁
  obtain ⟨r₂, h₂, h⟩ := Except.bind_eq_ok.1 h
  obtain ⟨_, hfinish, rfl⟩ := onState_eq_ok.1 h₂
  obtain rfl := Except.ok.inj hfinish
  obtain ⟨r₃, h₃, h₄⟩ := Except.bind_eq_ok.1 h
  obtain ⟨s₂, hs₂, rfl⟩ := onState_eq_ok.1 h₃
  obtain ⟨s₃, hs₃, rfl⟩ := onState_eq_ok.1 h₄
  exact ⟨s₁, s₂, s₃, hs₁, hs₂, hs₃, rfl⟩

/-- A step takes out the next event and handles it. -/
theorem step_ok (h : EventLoop.Step step r r') : ∃ now event sim,
    r.sim.step = some (now, event, sim) ∧
      ({ r with sim } : EventDrivenRunner C).handleEvent now event = .ok r' := by
  unfold EventLoop.Step step at h
  split at h
  next => simp at h
  next now event sim hnext =>
    obtain ⟨r₁, hrun, hsome⟩ := Except.map_eq_ok.1 h
    obtain rfl := Option.some.inj hsome
    exact ⟨now, event, sim, hnext, hrun⟩

theorem onArrival_handles (h : r.onArrival now id = .ok r') :
    Handles False now (.requestArrival id) r.toServingState r'.toServingState := by
  obtain ⟨s, hs, rfl⟩ := onState_eq_ok.1 h
  exact handles_arrival (startOrQueue_moves hs (by decide))

theorem onPrefillDone_handles (h : r.onPrefillDone now id n i = .ok r') :
    Handles False now (.prefillDone id n i) r.toServingState r'.toServingState := by
  obtain ⟨s₁, s₂, s₃, s₄, hrel, hs₂, hs₃, hs₄, rfl⟩ := onPrefillDone_ok h
  exact handles_of_tryAssign (by decide) hrel (startOrQueueDecode_moves hs₂ le_rfl) hs₃ hs₄

theorem onDecodeDone_handles (h : r.onDecodeDone now id n i = .ok r') :
    Handles False now (.decodeDone id n i) r.toServingState r'.toServingState := by
  obtain ⟨s₁, s₂, s₃, hrel, hs₂, hs₃, rfl⟩ := onDecodeDone_ok h
  exact handles_of_tryAssign (by decide) hrel (finish_moves _ _ _) hs₂ hs₃

/-- The event-driven runner advances, and never fetches. -/
theorem step_advance (h : EventLoop.Step step r r') :
    Advance False r.toServingState r'.toServingState := by
  obtain ⟨now, kind, sim, hnext, hrun⟩ := step_ok h
  refine ⟨now, kind, sim, hnext, ?_⟩
  cases kind with
  | requestArrival id => exact onArrival_handles hrun
  | prefillDone id n i => exact onPrefillDone_handles hrun
  | fetchDone id => exact absurd hrun (by simp [handleEvent])
  | decodeDone id n i => exact onDecodeDone_handles hrun

end EventDrivenRunner

/-! ## The cache-aware runner -/

namespace CacheAwareRunner

variable {C P T : Type} {r r' : CacheAwareRunner C P T}

theorem onState_eq_ok {f : ServingState → Except Panic ServingState} :
    r.onState f = .ok r' ↔
      ∃ s, f r.toServingState = .ok s ∧ { r with toServingState := s } = r' :=
  Except.map_eq_ok

/-- A change of the notes on a request is a move. -/
theorem setInFlight_moves {now id : UInt64} {held : Held} {inflight inflight' : InFlightRequest}
    (hin : r.inFlight.get id = some inflight) (hrequest : inflight'.request = inflight.request)
    (hjob : inflight'.job = inflight.job) :
    Moves True now (r.toServingState, held) ((r.setInFlight inflight').toServingState, held) :=
  .single (.note hin hrequest hjob)

/-- The notes are not among the fields that show the jobs. -/
theorem job_note (r : InFlightRequest) (tokens : UInt32) (tier : Option TierKind) :
    ({ r with prefillTokens := tokens, pendingFetchTier := tier } : InFlightRequest).job =
      r.job := by
  funext stage
  cases stage <;> rfl

variable {now id : UInt64} {n : NodeId} {i budget : ℕ}

theorem takeFetch_moves (r : CacheAwareRunner C P T) (now id : UInt64) (held : Held) :
    Moves True now (r.toServingState, held) ((r.takeFetch id).toServingState, held) := by
  unfold takeFetch
  split
  · exact .refl
  next inflight hin =>
    split
    · exact .refl
    · exact setInFlight_moves hin rfl (job_note _ _ _)

variable [ComputeModel C]

theorem startOrQueueRemainingPrefill_moves (h : r.startOrQueueRemainingPrefill now id = .ok r')
    (hbudget : 2 ≤ budget) :
    Moves True now (r.toServingState, some (id, budget)) (r'.toServingState, none) := by
  unfold startOrQueueRemainingPrefill at h
  split at h
  next hnone =>
    obtain rfl := Except.ok.inj h
    exact .single (.drop hnone)
  next inflight hin =>
    dsimp only at h
    split_ifs at h with htokens
    · obtain ⟨s, hs, rfl⟩ := onState_eq_ok.1 h
      exact startOrQueue_moves hs (Nat.le_of_succ_le hbudget)
    · obtain ⟨s, hs, rfl⟩ := onState_eq_ok.1 h
      refine (setInFlight_moves hin ?_ ?_).trans (startOrQueue_moves hs hbudget)
      · rfl
      · exact job_note _ _ _

theorem degradeToMiss_moves (h : r.degradeToMiss now id = .ok r') (hbudget : 2 ≤ budget) :
    Moves True now (r.toServingState, some (id, budget)) (r'.toServingState, none) := by
  unfold degradeToMiss at h
  dsimp only at h
  split at h
  next hnone =>
    obtain rfl := Except.ok.inj h
    exact .single (.drop hnone)
  next inflight hin =>
    obtain ⟨s, hs, rfl⟩ := onState_eq_ok.1 h
    refine (setInFlight_moves hin ?_ ?_).trans (startOrQueue_moves hs hbudget)
    · rfl
    · exact job_note _ _ _

theorem missOnArrival_moves {inflight : InFlightRequest} (hin : r.inFlight.get id = some inflight)
    (h : r.missOnArrival now inflight = .ok r') :
    Moves True now (r.toServingState, some (id, 3)) (r'.toServingState, none) := by
  obtain rfl : inflight.id = id := KeyedMap.key_of_get hin
  obtain ⟨s, hs, rfl⟩ := Except.map_eq_ok.1 h
  refine (setInFlight_moves hin ?_ ?_).trans (startOrQueue_moves hs (by decide))
  · rfl
  · exact job_note _ _ _

theorem hitOnArrival_moves {inflight : InFlightRequest} {kv : KvObject}
    (hin : r.inFlight.get id = some inflight) (h : r.hitOnArrival now inflight kv = .ok r') :
    Moves True now (r.toServingState, some (id, 3)) (r'.toServingState, none) := by
  obtain rfl : inflight.id = id := KeyedMap.key_of_get hin
  unfold hitOnArrival at h
  have hmoves := startOrQueueRemainingPrefill_moves h (Nat.le_succ 2)
  exact hmoves

theorem onFetchDone_handles (h : r.onFetchDone now id = .ok r') :
    Handles True now (.fetchDone id) r.toServingState r'.toServingState := by
  obtain ⟨r₂, h₂, h⟩ := Except.bind_eq_ok.1 h
  obtain ⟨r₃, h₃, h₄⟩ := Except.bind_eq_ok.1 h
  obtain ⟨s₃, hs₃, rfl⟩ := onState_eq_ok.1 h₃
  obtain ⟨s₄, hs₄, rfl⟩ := onState_eq_ok.1 h₄
  refine handles_of_tryAssign (by decide) rfl ?_ hs₃ hs₄
  exact (takeFetch_moves r now id _).trans (startOrQueueRemainingPrefill_moves h₂ le_rfl)

theorem onDecodeDone_ok (h : r.onDecodeDone now id n i = .ok r') : ∃ s₁ s₂ s₃,
    r.releaseGpu n i now = .ok s₁ ∧
    (s₁.finish id).tryAssign r.compute r.config .decode now = .ok s₂ ∧
    s₂.tryAssign r.compute r.config .prefill now = .ok s₃ ∧
    r' = { r with toServingState := s₃ } := by
  obtain ⟨r₁, h₁, h⟩ := Except.bind_eq_ok.1 h
  obtain ⟨s₁, hs₁, rfl⟩ := onState_eq_ok.1 h₁
  obtain ⟨r₂, h₂, h⟩ := Except.bind_eq_ok.1 h
  obtain ⟨_, hfinish, rfl⟩ := onState_eq_ok.1 h₂
  obtain rfl := Except.ok.inj hfinish
  obtain ⟨r₃, h₃, h₄⟩ := Except.bind_eq_ok.1 h
  obtain ⟨s₂, hs₂, rfl⟩ := onState_eq_ok.1 h₃
  obtain ⟨s₃, hs₃, rfl⟩ := onState_eq_ok.1 h₄
  exact ⟨s₁, s₂, s₃, hs₁, hs₂, hs₃, rfl⟩

theorem onDecodeDone_handles (h : r.onDecodeDone now id n i = .ok r') :
    Handles True now (.decodeDone id n i) r.toServingState r'.toServingState := by
  obtain ⟨s₁, s₂, s₃, hrel, hs₂, hs₃, rfl⟩ := onDecodeDone_ok h
  exact handles_of_tryAssign (by decide) hrel (finish_moves _ _ _) hs₂ hs₃

variable [TransferModel T]

theorem handleFetch_moves {kv : KvObject} (h : r.handleFetch now id kv = .ok r')
    (hbudget : 3 ≤ budget) :
    Moves True now (r.toServingState, some (id, budget)) (r'.toServingState, none) := by
  unfold handleFetch at h
  split at h
  next =>
    have hmoves := degradeToMiss_moves h (Nat.le_of_succ_le hbudget)
    exact hmoves
  next path =>
    dsimp only at h
    split at h
    next =>
      have hmoves := degradeToMiss_moves h (Nat.le_of_succ_le hbudget)
      exact hmoves
    next e =>
      obtain rfl := Except.ok.inj h
      exact .single (.fetch trivial hbudget)

theorem fetchOnArrival_moves {inflight : InFlightRequest} {tier : TierKind} {kv : KvObject}
    (hin : r.inFlight.get id = some inflight) (h : r.fetchOnArrival now inflight tier kv = .ok r') :
    Moves True now (r.toServingState, some (id, 3)) (r'.toServingState, none) := by
  obtain rfl : inflight.id = id := KeyedMap.key_of_get hin
  unfold fetchOnArrival at h
  have hmoves := handleFetch_moves h (le_refl 3)
  refine (setInFlight_moves hin ?_ ?_).trans hmoves
  · rfl
  · exact job_note _ _ _

theorem onArrival_handles (h : r.onArrival now id = .ok r') :
    Handles True now (.requestArrival id) r.toServingState r'.toServingState := by
  refine handles_arrival ?_
  unfold onArrival at h
  split at h
  next hnone =>
    obtain rfl := Except.ok.inj h
    exact .single (.drop hnone)
  next inflight hin =>
    split at h
    next => exact missOnArrival_moves hin h
    next kv _ =>
      split at h
      next => exact hitOnArrival_moves hin h
      next => exact fetchOnArrival_moves hin h
      next => exact fetchOnArrival_moves hin h
      next => exact fetchOnArrival_moves hin h
      next => exact missOnArrival_moves hin h

variable [PlacementPolicy P]

/-- A placement leaves the shared state alone. -/
@[simp] theorem toServingState_storeKv (r : CacheAwareRunner C P T) (now id : UInt64) :
    (r.storeKv now id).toServingState = r.toServingState := by
  unfold storeKv
  split
  · rfl
  · dsimp only
    split_ifs
    · split <;> rfl
    · rfl

/-- The KV store step changes neither the shared state nor the models. -/
theorem storeKv_models (r : CacheAwareRunner C P T) (now id : UInt64) :
    (r.storeKv now id).compute = r.compute ∧ (r.storeKv now id).config = r.config ∧
      (r.storeKv now id).profile = r.profile := by
  unfold storeKv
  split
  · exact ⟨rfl, rfl, rfl⟩
  · dsimp only
    split_ifs
    · split <;> exact ⟨rfl, rfl, rfl⟩
    · exact ⟨rfl, rfl, rfl⟩

theorem onPrefillDone_ok (h : r.onPrefillDone now id n i = .ok r') : ∃ s₁ s₂ s₃ s₄,
    r.releaseGpu n i now = .ok s₁ ∧
    s₁.startOrQueueDecode r.compute r.config id now = .ok s₂ ∧
    s₂.tryAssign r.compute r.config .prefill now = .ok s₃ ∧
    s₃.tryAssign r.compute r.config .decode now = .ok s₄ ∧
    r' = { { r with toServingState := s₁ }.storeKv now id with toServingState := s₄ } := by
  obtain ⟨r₁, h₁, h⟩ := Except.bind_eq_ok.1 h
  obtain ⟨s₁, hs₁, rfl⟩ := onState_eq_ok.1 h₁
  obtain ⟨r₂, h₂, h⟩ := Except.bind_eq_ok.1 h
  obtain ⟨s₂, hs₂, rfl⟩ := onState_eq_ok.1 h₂
  obtain ⟨r₃, h₃, h₄⟩ := Except.bind_eq_ok.1 h
  obtain ⟨s₃, hs₃, rfl⟩ := onState_eq_ok.1 h₃
  obtain ⟨s₄, hs₄, rfl⟩ := onState_eq_ok.1 h₄
  obtain ⟨hcompute, hconfig, -⟩ := storeKv_models { r with toServingState := s₁ } now id
  simp only [toServingState_storeKv, hcompute, hconfig] at hs₂ hs₃ hs₄
  exact ⟨s₁, s₂, s₃, s₄, hs₁, hs₂, hs₃, hs₄, rfl⟩

theorem onPrefillDone_handles (h : r.onPrefillDone now id n i = .ok r') :
    Handles True now (.prefillDone id n i) r.toServingState r'.toServingState := by
  obtain ⟨s₁, s₂, s₃, s₄, hrel, hs₂, hs₃, hs₄, rfl⟩ := onPrefillDone_ok h
  exact handles_of_tryAssign (by decide) hrel (startOrQueueDecode_moves hs₂ le_rfl) hs₃ hs₄

/-- A step takes out the next event and handles it. -/
theorem step_ok (h : EventLoop.Step step r r') : ∃ now event sim,
    r.sim.step = some (now, event, sim) ∧
      ({ r with sim } : CacheAwareRunner C P T).handleEvent now event = .ok r' := by
  unfold EventLoop.Step step at h
  split at h
  next => simp at h
  next now event sim hnext =>
    obtain ⟨r₁, hrun, hsome⟩ := Except.map_eq_ok.1 h
    obtain rfl := Option.some.inj hsome
    exact ⟨now, event, sim, hnext, hrun⟩

theorem handleEvent_of_step {event : ServingEvent} {sim : Simulator ServingEvent}
    (hnext : r.sim.step = some (now, event, sim)) (h : EventLoop.Step step r r') :
    ({ r with sim } : CacheAwareRunner C P T).handleEvent now event = .ok r' := by
  obtain ⟨_, _, _, hnext', hrun⟩ := step_ok h
  obtain ⟨rfl, rfl, rfl⟩ := by simpa using hnext.symm.trans hnext'
  exact hrun

/-- The cache-aware runner advances. -/
theorem step_advance (h : EventLoop.Step step r r') :
    Advance True r.toServingState r'.toServingState := by
  obtain ⟨now, kind, sim, hnext, hrun⟩ := step_ok h
  refine ⟨now, kind, sim, hnext, ?_⟩
  cases kind with
  | requestArrival id => exact onArrival_handles hrun
  | prefillDone id n i => exact onPrefillDone_handles hrun
  | fetchDone id => exact onFetchDone_handles hrun
  | decodeDone id n i => exact onDecodeDone_handles hrun

end CacheAwareRunner

end KvFlowSim
