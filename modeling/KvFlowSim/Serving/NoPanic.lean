import KvFlowSim.Serving.WorkConserving

/-!
# The handlers do not panic

On a cluster with distinct node ids `find_idle_gpu_for` looks up the GPUs that it selected, and the
busy times are written at addresses of GPUs. So every handler returns, as long as the completion
event that it handles is addressed to a GPU, and the event-driven runner never sees a fetch.

`ServingLoop` collects what the results about whole runs use of a runner.
-/

namespace KvFlowSim

open Except

namespace ServingState

variable {C : Type} [ComputeModel C] {compute : C} {config : ServingConfig} {stage : Stage}
  {s : ServingState} {now id : UInt64} {n : NodeId} {i : ℕ}

/-- A computation returns a state whose nodes have distinct ids. -/
abbrev Fine (x : Except Panic ServingState) : Prop := Returns (fun s => s.cluster.DistinctNodeIds) x

theorem start_fine (hd : s.cluster.DistinctNodeIds)
    (hgpu : s.cluster.findIdleGpuFor now stage.role = .ok (some (n, i))) :
    Fine (s.start compute config stage id (n, i) now) := by
  obtain ⟨gpu, hat, -⟩ := ClusterTopology.idle_of_findIdleGpuFor hd hgpu
  unfold start
  split
  · exact .ok hd
  next r _ =>
    have hstart : Returns (fun p => p.2.1.DistinctNodeIds)
        (stage.start s.sim s.cluster compute config r n i now) := by
      cases stage with
      | prefill =>
        obtain ⟨c, hc⟩ := ClusterTopology.setBusyUntil_isOk hat _
        exact .bind ⟨c, hc, hd.setBusyUntil hc⟩ fun _ hd => ⟨_, rfl, hd⟩
      | decode =>
        obtain ⟨c, hc⟩ := ClusterTopology.setBusyUntil_isOk hat _
        exact .bind ⟨c, hc, hd.setBusyUntil hc⟩ fun _ hd => ⟨_, rfl, hd⟩
    exact hstart.bind fun _ hd => ⟨_, rfl, hd⟩

theorem startOrQueue_fine (hd : s.cluster.DistinctNodeIds) :
    Fine (s.startOrQueue compute config stage id now) := by
  obtain ⟨gpu, hgpu⟩ := ClusterTopology.findIdleGpuFor_isOk hd now stage.role
  rw [startOrQueue, hgpu, ok_bind]
  cases gpu with
  | none => exact .ok (by simpa using hd)
  | some gpu => exact start_fine hd hgpu

theorem startOrQueueDecode_fine (hd : s.cluster.DistinctNodeIds) :
    Fine (s.startOrQueueDecode compute config id now) := by
  unfold startOrQueueDecode
  split
  · exact .ok hd
  · exact startOrQueue_fine hd

theorem assign_fine {q : List UInt64} (hd : s.cluster.DistinctNodeIds) :
    Fine (assign compute config stage now q s) := by
  induction q generalizing s with
  | nil => exact .ok hd
  | cons id rest ih =>
    obtain ⟨gpu, hgpu⟩ := ClusterTopology.findIdleGpuFor_isOk hd now stage.role
    rw [assign, hgpu, ok_bind]
    cases gpu with
    | none => exact .ok hd
    | some gpu =>
      exact .bind (start_fine (by simpa using hd) (by simpa using hgpu)) fun _ => ih

theorem tryAssign_fine (hd : s.cluster.DistinctNodeIds) :
    Fine (s.tryAssign compute config stage now) :=
  assign_fine hd

theorem releaseGpu_fine (hd : s.cluster.DistinctNodeIds)
    (hgpu : ∃ gpu, s.cluster.gpuAt n i = some gpu) : Fine (s.releaseGpu n i now) := by
  obtain ⟨gpu, hgpu⟩ := hgpu
  obtain ⟨c, hc⟩ := ClusterTopology.setBusyUntil_isOk hgpu now
  exact .bind ⟨c, hc, hd.setBusyUntil hc⟩ fun _ hd => ⟨_, rfl, hd⟩

theorem finish_fine (hd : s.cluster.DistinctNodeIds) : Fine (.ok (s.finish id)) :=
  .ok (by simpa using hd)

/-- Fetches are pending only in a run that is `fetching`. -/
def FetchesOnlyIf (fetching : Prop) (s : ServingState) : Prop :=
  ∀ ev ∈ s.sim.pending, ∀ id, ev.kind = .fetchDone id → fetching

variable {fetching : Prop} {s' : ServingState}

theorem Move.fetchesOnlyIf {x y : ServingState × Held} (h : Move fetching now x y)
    (hx : FetchesOnlyIf fetching x.1) : FetchesOnlyIf fetching y.1 := by
  cases h with
  | @start s id budget stage n i done =>
    intro ev hev id' hkind
    rcases List.mem_append.1 hev with hev | hev
    · exact hx ev hev id' hkind
    · obtain rfl := List.mem_singleton.1 hev
      cases stage <;> simp [Stage.doneEvent] at hkind
  | enqueue => simpa [FetchesOnlyIf] using hx
  | dequeue => simpa [FetchesOnlyIf] using hx
  | fetch hfetching => exact fun _ _ _ _ => hfetching
  | finish => simpa [FetchesOnlyIf] using hx
  | drop => exact hx
  | note => exact hx

theorem Advance.fetchesOnlyIf (h : Advance fetching s s') (hs : FetchesOnlyIf fetching s) :
    FetchesOnlyIf fetching s' := by
  obtain ⟨now, kind, sim, hstep, s₁, hrel, hmoves, -⟩ := h
  obtain ⟨ev, -, hperm, -⟩ := Simulator.step_spec hstep
  refine hmoves.invariant (I := fun x => FetchesOnlyIf fetching x.1)
    (fun _ _ hx hm => hm.fetchesOnlyIf hx) fun ev hev => ?_
  rw [hrel.sim] at hev
  exact hs ev (hperm.mem_iff.2 (List.mem_cons_of_mem _ hev))

theorem fetchesOnlyIf_start (cluster : ClusterTopology) (l : List LlmRequest) :
    FetchesOnlyIf fetching ((ServingState.new cluster).enterAll l) := by
  intro ev hev id hkind
  obtain ⟨req, -, hreq⟩ := kind_of_mem_start hev
  simp [hreq] at hkind

/-- What a runner's loop does, seen from the shared state. -/
structure ServingLoop (fetching : Prop) {σ : Type} (step : σ → Except Panic (Option σ))
    (state : σ → ServingState) : Prop where
  advance : ∀ s s', EventLoop.Step step s s' → Advance fetching (state s) (state s')
  halted : ∀ s, step s = .ok none ↔ (state s).sim.pending = []
  returns : ∀ s, (state s).Scheduled → FetchesOnlyIf fetching (state s) → ∃ o, step s = .ok o

/-- A loop that hands each event to a handler that does not panic. -/
theorem ServingLoop.of_handler {fetching : Prop} {σ : Type} {step : σ → Except Panic (Option σ)}
    {state : σ → ServingState}
    (handle : σ → UInt64 → ServingEvent → Simulator ServingEvent → Except Panic σ)
    (hstep : ∀ s, step s = match (state s).sim.step with
      | none => .ok none
      | some (now, kind, sim) => some <$> handle s now kind sim)
    (hadvance : ∀ s s', EventLoop.Step step s s' → Advance fetching (state s) (state s'))
    (hhandle : ∀ s now kind sim, (state s).cluster.DistinctNodeIds →
      (∀ n i, kind.completion = some (n, i) → ∃ gpu, (state s).cluster.gpuAt n i = some gpu) →
      (∀ id, kind = .fetchDone id → fetching) → ∃ s', handle s now kind sim = .ok s') :
    ServingLoop fetching step state where
  advance := hadvance
  halted s := by
    rw [← Simulator.step_eq_none, hstep]
    split
    next h => simp [h]
    next now kind sim h => cases hk : handle s now kind sim <;> simp [h, Functor.map, Except.map]
  returns s hs hf := by
    rw [hstep]
    split
    next => exact ⟨_, rfl⟩
    next now kind sim h =>
      obtain ⟨ev, rfl, hperm, -⟩ := Simulator.step_spec h
      have hev : ev ∈ (state s).sim.pending := hperm.mem_iff.2 List.mem_cons_self
      obtain ⟨s', hs'⟩ := hhandle s now ev.kind sim hs.distinct (hs.addressed ev hev) (hf ev hev)
      exact ⟨some s', Except.map_eq_ok.2 ⟨s', hs', rfl⟩⟩

end ServingState

open ServingState

namespace EventDrivenRunner

variable {C : Type} {r : EventDrivenRunner C} {now : UInt64}

theorem onState_fine {f : ServingState → Except Panic ServingState}
    (h : Fine (f r.toServingState)) :
    Returns (fun r => r.cluster.DistinctNodeIds) (r.onState f) :=
  h.map fun _ hd => hd

variable [ComputeModel C]

theorem handleEvent_isOk {kind : ServingEvent} (hd : r.cluster.DistinctNodeIds)
    (haddressed : ∀ n i, kind.completion = some (n, i) → ∃ gpu, r.cluster.gpuAt n i = some gpu)
    (hkind : ∀ id, kind ≠ .fetchDone id) : ∃ r', r.handleEvent now kind = .ok r' := by
  suffices Returns (fun r' => r'.cluster.DistinctNodeIds) (r.handleEvent now kind) from
    this.imp fun _ h => h.1
  cases kind with
  | requestArrival id =>
    rw [handleEvent, onArrival]
    exact onState_fine (startOrQueue_fine hd)
  | prefillDone id n i =>
    refine (onState_fine (releaseGpu_fine hd (haddressed n i rfl))).bind fun r hd => ?_
    refine (onState_fine (startOrQueueDecode_fine hd)).bind fun r hd => ?_
    refine (onState_fine (tryAssign_fine hd)).bind fun r hd => ?_
    exact onState_fine (tryAssign_fine hd)
  | fetchDone id => exact absurd rfl (hkind id)
  | decodeDone id n i =>
    refine (onState_fine (releaseGpu_fine hd (haddressed n i rfl))).bind fun r hd => ?_
    refine (onState_fine (finish_fine hd)).bind fun r hd => ?_
    refine (onState_fine (tryAssign_fine hd)).bind fun r hd => ?_
    exact onState_fine (tryAssign_fine hd)

theorem servingLoop : ServingLoop False (step (C := C)) fun r => r.toServingState :=
  .of_handler (fun r now kind sim => { r with sim }.handleEvent now kind) (fun _ => rfl)
    (fun _ _ => step_advance)
    fun r _ _ sim hd haddressed hfetch =>
    handleEvent_isOk (r := { r with sim }) hd haddressed hfetch

end EventDrivenRunner

namespace CacheAwareRunner

variable {C P T : Type} {r : CacheAwareRunner C P T} {now id : UInt64}

/-- A computation returns a runner whose nodes have distinct ids. -/
abbrev Fine (x : Except Panic (CacheAwareRunner C P T)) : Prop :=
  Returns (fun r => r.cluster.DistinctNodeIds) x

theorem onState_fine {f : ServingState → Except Panic ServingState}
    (h : ServingState.Fine (f r.toServingState)) : Fine (r.onState f) :=
  h.map fun _ hd => hd

variable [ComputeModel C]

theorem startOrQueueRemainingPrefill_fine (hd : r.cluster.DistinctNodeIds) :
    Fine (r.startOrQueueRemainingPrefill now id) := by
  unfold startOrQueueRemainingPrefill
  split
  · exact .ok hd
  · dsimp only
    split_ifs
    · exact onState_fine (startOrQueue_fine hd)
    · exact onState_fine (startOrQueue_fine hd)

theorem degradeToMiss_fine (hd : r.cluster.DistinctNodeIds) : Fine (r.degradeToMiss now id) := by
  unfold degradeToMiss
  dsimp only
  split
  · exact .ok hd
  · exact onState_fine (startOrQueue_fine hd)

theorem missOnArrival_fine {inflight : InFlightRequest} (hd : r.cluster.DistinctNodeIds) :
    Fine (r.missOnArrival now inflight) := by
  unfold missOnArrival
  exact onState_fine (startOrQueue_fine hd)

variable [TransferModel T]

theorem handleFetch_fine {kv : KvObject} (hd : r.cluster.DistinctNodeIds) :
    Fine (r.handleFetch now id kv) := by
  unfold handleFetch
  split
  · exact degradeToMiss_fine hd
  · dsimp only
    split
    · exact degradeToMiss_fine hd
    · exact .ok hd

theorem fetchOnArrival_fine {inflight : InFlightRequest} {tier : TierKind} {kv : KvObject}
    (hd : r.cluster.DistinctNodeIds) : Fine (r.fetchOnArrival now inflight tier kv) :=
  handleFetch_fine hd

theorem onArrival_fine (hd : r.cluster.DistinctNodeIds) : Fine (r.onArrival now id) := by
  unfold onArrival
  split
  · exact .ok hd
  · split
    · exact missOnArrival_fine hd
    · split
      · exact startOrQueueRemainingPrefill_fine hd
      · exact fetchOnArrival_fine hd
      · exact fetchOnArrival_fine hd
      · exact fetchOnArrival_fine hd
      · exact missOnArrival_fine hd

variable [PlacementPolicy P]

theorem handleEvent_isOk {kind : ServingEvent} (hd : r.cluster.DistinctNodeIds)
    (haddressed : ∀ n i, kind.completion = some (n, i) → ∃ gpu, r.cluster.gpuAt n i = some gpu) :
    ∃ r', r.handleEvent now kind = .ok r' := by
  suffices Fine (r.handleEvent now kind) from this.imp fun _ h => h.1
  cases kind with
  | requestArrival id => exact onArrival_fine hd
  | prefillDone id n i =>
    refine (onState_fine (releaseGpu_fine hd (haddressed n i rfl))).bind fun r hd => ?_
    have hd : (r.storeKv now id).cluster.DistinctNodeIds := by
      rwa [toServingState_storeKv]
    refine (onState_fine (startOrQueueDecode_fine hd)).bind fun r hd => ?_
    refine (onState_fine (tryAssign_fine hd)).bind fun r hd => ?_
    exact onState_fine (tryAssign_fine hd)
  | fetchDone id =>
    have hd : (r.takeFetch id).cluster.DistinctNodeIds :=
      (takeFetch_moves r now id none).distinctNodeIds hd
    refine (startOrQueueRemainingPrefill_fine hd).bind fun r hd => ?_
    refine (onState_fine (tryAssign_fine hd)).bind fun r hd => ?_
    exact onState_fine (tryAssign_fine hd)
  | decodeDone id n i =>
    refine (onState_fine (releaseGpu_fine hd (haddressed n i rfl))).bind fun r hd => ?_
    refine (onState_fine (finish_fine hd)).bind fun r hd => ?_
    refine (onState_fine (tryAssign_fine hd)).bind fun r hd => ?_
    exact onState_fine (tryAssign_fine hd)

theorem servingLoop :
    ServingLoop True (step (C := C) (P := P) (T := T)) fun r => r.toServingState :=
  .of_handler (fun r now kind sim => { r with sim }.handleEvent now kind) (fun _ => rfl)
    (fun _ _ => step_advance)
    fun r _ _ sim hd haddressed _ => handleEvent_isOk (r := { r with sim }) hd haddressed

end CacheAwareRunner

end KvFlowSim
