import KvFlowSim.Cluster.Pool
import KvFlowSim.Serving.Exclusive

/-!
# Completion events in time

A completion event is due by the time its GPU's busy time is over (`InTime`). As long as no release
shortens a busy time, a completion event is handled just when the busy time of its GPU is over, and
the release changes nothing (`InTime.releaseGpu`). The busy times then change only when a job is
started, which is what makes the GPUs of a role a pool of identical workers.
-/

namespace KvFlowSim

namespace ServingState

/-- A completion event is due by the end of the busy time of its GPU, and not before now. The GPU
serves the stage. -/
structure InTime (s : ServingState) : Prop where
  due : ∀ ev ∈ s.sim.pending, ∀ n i, ev.kind.completion = some (n, i) → s.sim.nowNs ≤ ev.timeNs ∧
    ∃ gpu, s.cluster.gpuAt n i = some gpu ∧ ev.timeNs ≤ gpu.busyUntilNs
  serves : ∀ ev ∈ s.sim.pending, ∀ (stage : Stage) id n i, ev.kind = stage.doneEvent id n i →
    ∃ gpu, s.cluster.gpuAt n i = some gpu ∧ gpu.serves stage.role = true

variable {fetching : Prop} {now : UInt64} {x y : ServingState × Held} {s s' s₁ : ServingState}

theorem Move.inTime (h : Move fetching now x y) (hnow : x.1.sim.nowNs = now)
    (hd : x.1.cluster.DistinctNodeIds) (hx : x.1.InTime) : y.1.InTime := by
  cases h with
  | @start s id budget stage n i done cluster r r' _ hgpu hdone hcluster =>
    obtain ⟨gpu, hat, hidle, hrole, -⟩ := ClusterTopology.idle_of_findIdleGpuFor hd hgpu
    have hself := ClusterTopology.setBusyUntil_self hcluster
    rw [hat, Option.map_some] at hself
    constructor
    · intro ev hev m j hcompletion
      rcases List.mem_append.1 hev with hold | hev
      · obtain ⟨hle, other, hother, hbusy⟩ := hx.due ev hold m j hcompletion
        refine ⟨hle, ?_⟩
        by_cases hmj : m = n ∧ j = i
        · obtain ⟨rfl, rfl⟩ := hmj
          obtain rfl := Option.some.inj (hother.symm.trans hat)
          exact ⟨_, hself, hbusy.trans (hidle.trans hdone)⟩
        · exact ⟨other, by rw [ClusterTopology.setBusyUntil_ne hcluster hmj, hother], hbusy⟩
      · obtain rfl := List.mem_singleton.1 hev
        rw [Stage.completion_doneEvent] at hcompletion
        obtain ⟨rfl, rfl⟩ := Prod.mk.inj (Option.some.inj hcompletion)
        exact ⟨hnow.le.trans hdone, _, hself, le_rfl⟩
    · intro ev hev stage' id' m j hkind
      rcases List.mem_append.1 hev with hev | hev
      · obtain ⟨other, hother, hrole'⟩ := hx.serves ev hev stage' id' m j hkind
        obtain ⟨other', hother', heq⟩ := ClusterTopology.gpuAt_setBusyUntil hcluster hother
        exact ⟨other', hother', by simpa [GpuResource.serves, heq] using hrole'⟩
      · obtain rfl := List.mem_singleton.1 hev
        have hcompletion := congrArg ServingEvent.completion hkind
        simp only [Stage.completion_doneEvent, Option.some.injEq, Prod.mk.injEq] at hcompletion
        obtain ⟨rfl, rfl⟩ := hcompletion
        obtain rfl : stage' = stage := by
          cases stage <;> cases stage' <;> simp [Stage.doneEvent] at hkind <;> rfl
        exact ⟨_, hself, hrole⟩
  | enqueue => exact ⟨by simpa using hx.due, by simpa using hx.serves⟩
  | dequeue => exact ⟨by simpa using hx.due, by simpa using hx.serves⟩
  | @fetch s id budget t =>
    constructor
    · intro ev hev n i hcompletion
      rcases List.mem_append.1 hev with hev | hev
      · exact hx.due ev hev n i hcompletion
      · obtain rfl := List.mem_singleton.1 hev
        simp [ServingEvent.completion] at hcompletion
    · intro ev hev stage id' n i hkind
      rcases List.mem_append.1 hev with hev | hev
      · exact hx.serves ev hev stage id' n i hkind
      · obtain rfl := List.mem_singleton.1 hev
        cases stage <;> simp [Stage.doneEvent] at hkind
  | finish => exact ⟨by simpa using hx.due, by simpa using hx.serves⟩
  | drop => exact hx
  | note => exact ⟨hx.due, hx.serves⟩

theorem Moves.inTime (h : Moves fetching now x y) (hnow : x.1.sim.nowNs = now)
    (hd : x.1.cluster.DistinctNodeIds) (hx : x.1.InTime) : y.1.InTime :=
  (h.invariant (I := fun z => z.1.sim.nowNs = now ∧ z.1.cluster.DistinctNodeIds ∧ z.1.InTime)
    (fun _ _ ⟨hn, hd, hz⟩ hm => ⟨hm.nowNs.trans hn, hm.distinctNodeIds hd, hm.inTime hn hd hz⟩)
    ⟨hnow, hd, hx⟩).2.2

/-! ## Events -/

variable {kind : ServingEvent} {sim : Simulator ServingEvent}

/-- The event taken out leaves the others in time. -/
theorem InTime.pop (h : s.InTime) (hstep : s.sim.step = some (now, kind, sim)) :
    ({ s with sim := sim } : ServingState).InTime := by
  obtain ⟨ev₀, -, hperm, hnow, hsim, hfirst⟩ := Simulator.step_spec hstep
  have hmem : ∀ {ev}, ev ∈ sim.pending → ev ∈ s.sim.pending := fun hev =>
    hperm.mem_iff.2 (List.mem_cons_of_mem _ hev)
  refine ⟨fun ev hev n i hcompletion => ?_, fun ev hev => h.serves ev (hmem hev)⟩
  obtain ⟨hle, hgpu⟩ := h.due ev (hmem hev) n i hcompletion
  refine ⟨?_, hgpu⟩
  rw [hsim, hnow]
  exact max_le hle (hfirst ev hev)

/-- A release that does not shorten the busy time of its GPU changes nothing. -/
theorem InTime.releaseGpu (h : s.InTime) (hidle : s.releasesIdle = true)
    (hstep : s.sim.step = some (now, kind, sim)) {n : NodeId} {i : ℕ}
    (hkind : kind.completion = some (n, i)) :
    ({ s with sim := sim } : ServingState).releaseGpu n i now = .ok { s with sim := sim } := by
  simp only [releasesIdle, hstep, hkind] at hidle
  obtain ⟨ev, rfl, hperm, hnow, -⟩ := Simulator.step_spec hstep
  obtain ⟨hle, gpu, hgpu, hbusy⟩ := h.due ev (hperm.mem_iff.2 List.mem_cons_self) n i hkind
  rw [max_eq_right hle] at hnow
  rw [hgpu, Option.all_some, decide_eq_true_eq] at hidle
  have hset := ClusterTopology.setBusyUntil_eq_self hgpu
  rw [le_antisymm hidle (hnow ▸ hbusy)] at hset
  rw [ServingState.releaseGpu, hset, Except.ok_bind]

theorem InTime.released (h : s.InTime) (hidle : s.releasesIdle = true)
    (hstep : s.sim.step = some (now, kind, sim))
    (hrel : Released now kind { s with sim := sim } s₁) : s₁ = { s with sim := sim } := by
  unfold Released at hrel
  split at hrel
  · exact hrel
  next n i hkind =>
    rw [h.releaseGpu hidle hstep hkind] at hrel
    exact (Except.ok.inj hrel).symm

theorem Advance.inTime (h : Advance fetching s s') (hd : s.cluster.DistinctNodeIds)
    (hidle : s.releasesIdle = true) (hs : s.InTime) : s'.InTime := by
  obtain ⟨now, kind, sim, hstep, s₁, hrel, hmoves, -⟩ := h
  obtain rfl := hs.released hidle hstep hrel
  obtain ⟨-, -, -, -, hsim, -⟩ := Simulator.step_spec hstep
  exact hmoves.inTime hsim hd (hs.pop hstep)

/-- At the start no completion event is pending. -/
theorem inTime_start (cluster : ClusterTopology) (l : List LlmRequest) :
    ((ServingState.new cluster).enterAll l).InTime := by
  constructor
  · intro ev hev n i hcompletion
    obtain ⟨req, -, hkind⟩ := kind_of_mem_start hev
    simp [hkind, ServingEvent.completion] at hcompletion
  · intro ev hev stage id n i hkind
    obtain ⟨req, -, hkind'⟩ := kind_of_mem_start hev
    cases stage <;> simp [hkind', Stage.doneEvent] at hkind

/-- While requests wait, no GPU of the role was free before the next event. -/
theorem Attended.le_of_mem_pool (h : s.Attended) (hs : s.InTime) (hd : s.cluster.DistinctNodeIds)
    (hstep : s.sim.step = some (now, kind, sim)) {stage : Stage}
    (hq : s.queue stage ≠ []) {t : UInt64} (ht : t ∈ s.cluster.pool stage.role) : now ≤ t := by
  obtain ⟨gpu, hmem, hrole, rfl⟩ := ClusterTopology.mem_pool.1 ht
  obtain ⟨n, i, hgpu⟩ := ClusterTopology.gpuAt_of_mem_gpus hd hmem
  obtain ⟨ev, hev, hcompletion, hdue⟩ := h stage hq n i gpu hgpu hrole
  obtain ⟨ev₀, -, hperm, hnow, -, hfirst⟩ := Simulator.step_spec hstep
  rw [hnow, ← hdue]
  refine max_le (hs.due ev hev n i hcompletion).1 ?_
  rcases List.mem_cons.1 (hperm.mem_iff.1 hev) with rfl | hev
  · exact le_rfl
  · exact hfirst ev hev

end ServingState

end KvFlowSim
