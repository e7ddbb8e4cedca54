import KvFlowSim.Serving.Refinement
import KvFlowSim.Policy.Lru

/-!
# Busy GPUs and waiting requests

Two facts hold between any two events. A GPU that is busy past the clock has a completion event
pending at the time until which it is busy (`Scheduled`), and while a request waits for a stage this
is so of every GPU of the role, busy or not (`Attended`). The second is what keeps a request from
being stranded: arrivals never serve the queues, so a queue may be non-empty while a GPU is idle,
but then the completion event that will serve it is due at this very instant.

Both are preserved by every move; what an event takes away, the handler gives back, as it drains the
queues at the end.
-/

namespace KvFlowSim

open Relation

namespace ServingState

/-- A completion event of the GPU is pending at time `t`. -/
def Completes (s : ServingState) (n : NodeId) (i : ℕ) (t : UInt64) : Prop :=
  ∃ ev ∈ s.sim.pending, ev.kind.completion = some (n, i) ∧ ev.timeNs = t

/-- The completion events and the busy times fit together. -/
structure Scheduled (s : ServingState) : Prop where
  distinct : s.cluster.DistinctNodeIds
  /-- A completion event is addressed to a GPU. -/
  addressed : ∀ ev ∈ s.sim.pending, ∀ n i, ev.kind.completion = some (n, i) →
    ∃ gpu, s.cluster.gpuAt n i = some gpu
  /-- A busy GPU has its completion event. -/
  busy : ∀ n i gpu, s.cluster.gpuAt n i = some gpu → s.sim.nowNs < gpu.busyUntilNs →
    s.Completes n i gpu.busyUntilNs

/-- While requests wait for a stage, each GPU of its role has a completion event. -/
def Attended (s : ServingState) : Prop :=
  ∀ stage, s.queue stage ≠ [] → ∀ n i gpu, s.cluster.gpuAt n i = some gpu →
    gpu.serves stage.role = true → s.Completes n i gpu.busyUntilNs

variable {fetching : Prop} {now : UInt64} {x y : ServingState × Held} {s s' s₁ : ServingState}

/-! ## Moves -/

@[simp] theorem completes_setQueue {stage : Stage} {q : List UInt64} {n : NodeId} {i : ℕ}
    {t : UInt64} : (s.setQueue stage q).Completes n i t ↔ s.Completes n i t := by
  simp only [Completes, sim_setQueue]

@[simp] theorem completes_finish {id : UInt64} {n : NodeId} {i : ℕ} {t : UInt64} :
    (s.finish id).Completes n i t ↔ s.Completes n i t := by
  simp only [Completes, sim_finish]

theorem Move.nowNs (h : Move fetching now x y) : y.1.sim.nowNs = x.1.sim.nowNs := by
  cases h with
  | finish => rw [sim_finish]
  | enqueue => rw [sim_setQueue]
  | dequeue => rw [sim_setQueue]
  | _ => rfl

/-- A pending event stays pending. -/
theorem Move.pending (h : Move fetching now x y) {ev : Event ServingEvent}
    (hev : ev ∈ x.1.sim.pending) : ev ∈ y.1.sim.pending := by
  cases h with
  | start => exact List.mem_append_left _ hev
  | fetch => exact List.mem_append_left _ hev
  | enqueue => rwa [sim_setQueue]
  | dequeue => rwa [sim_setQueue]
  | finish => rwa [sim_finish]
  | drop => exact hev
  | note => exact hev

theorem Move.completes (h : Move fetching now x y) {n : NodeId} {i : ℕ} {t : UInt64}
    (hc : x.1.Completes n i t) : y.1.Completes n i t :=
  hc.imp fun _ hev => ⟨h.pending hev.1, hev.2⟩

/-- A GPU after a move: as it was, or busy until its new completion event. -/
theorem Move.gpuAt (h : Move fetching now x y) {n : NodeId} {i : ℕ} {gpu : GpuResource}
    (hgpu : y.1.cluster.gpuAt n i = some gpu) :
    x.1.cluster.gpuAt n i = some gpu ∨ y.1.Completes n i gpu.busyUntilNs := by
  cases h with
  | @start s id budget stage m j done cluster r r' _ _ _ hcluster =>
    by_cases hmj : n = m ∧ i = j
    · obtain ⟨rfl, rfl⟩ := hmj
      refine .inr ⟨⟨done, s.sim.queue.nextSeq, stage.doneEvent id n i⟩, ?_, by simp, ?_⟩
      · exact List.mem_append_right _ (List.mem_singleton_self _)
      · rw [ClusterTopology.setBusyUntil_self hcluster] at hgpu
        obtain ⟨old, -, rfl⟩ := Option.map_eq_some_iff.1 hgpu
        rfl
    · rw [ClusterTopology.setBusyUntil_ne hcluster hmj] at hgpu
      exact .inl hgpu
  | enqueue => exact .inl (by simpa using hgpu)
  | dequeue => exact .inl (by simpa using hgpu)
  | finish => exact .inl (by simpa using hgpu)
  | fetch => exact .inl hgpu
  | drop => exact .inl hgpu
  | note => exact .inl hgpu

/-- No GPU disappears or changes its role. -/
theorem Move.gpuAt_role (h : Move fetching now x y) {n : NodeId} {i : ℕ} {gpu : GpuResource}
    (hgpu : x.1.cluster.gpuAt n i = some gpu) :
    ∃ gpu', y.1.cluster.gpuAt n i = some gpu' ∧ gpu'.role = gpu.role := by
  cases h with
  | start _ _ _ hcluster => exact ClusterTopology.gpuAt_setBusyUntil hcluster hgpu
  | enqueue => exact ⟨gpu, by simpa using hgpu, rfl⟩
  | dequeue => exact ⟨gpu, by simpa using hgpu, rfl⟩
  | finish => exact ⟨gpu, by simpa using hgpu, rfl⟩
  | fetch => exact ⟨gpu, hgpu, rfl⟩
  | drop => exact ⟨gpu, hgpu, rfl⟩
  | note => exact ⟨gpu, hgpu, rfl⟩

/-- A new pending event is a completion event of a GPU, or a fetch. -/
theorem Move.addressed (h : Move fetching now x y) (hd : x.1.cluster.DistinctNodeIds)
    {ev : Event ServingEvent} (hev : ev ∈ y.1.sim.pending) {n : NodeId} {i : ℕ}
    (hc : ev.kind.completion = some (n, i)) :
    ev ∈ x.1.sim.pending ∨ ∃ gpu, x.1.cluster.gpuAt n i = some gpu := by
  cases h with
  | start _ hgpu =>
    rcases List.mem_append.1 hev with hev | hev
    · exact .inl hev
    · obtain rfl := List.mem_singleton.1 hev
      simp only [Stage.completion_doneEvent, Option.some.injEq, Prod.mk.injEq] at hc
      obtain ⟨rfl, rfl⟩ := hc
      obtain ⟨gpu, hgpu, -⟩ := ClusterTopology.idle_of_findIdleGpuFor hd hgpu
      exact .inr ⟨gpu, hgpu⟩
  | fetch =>
    rcases List.mem_append.1 hev with hev | hev
    · exact .inl hev
    · obtain rfl := List.mem_singleton.1 hev
      exact absurd hc (by simp [ServingEvent.completion])
  | enqueue => exact .inl (by simpa using hev)
  | dequeue => exact .inl (by simpa using hev)
  | finish => exact .inl (by simpa using hev)
  | drop => exact .inl hev
  | note => exact .inl hev

theorem Move.scheduled (h : Move fetching now x y) (hx : x.1.Scheduled) : y.1.Scheduled where
  distinct := h.distinctNodeIds hx.distinct
  addressed ev hev n i hc := by
    have hgpu : ∃ gpu, x.1.cluster.gpuAt n i = some gpu :=
      (h.addressed hx.distinct hev hc).elim (fun hev => hx.addressed ev hev n i hc) id
    exact hgpu.elim fun gpu hgpu => (h.gpuAt_role hgpu).imp fun _ h => h.1
  busy n i gpu hgpu hlt := by
    rcases h.gpuAt hgpu with hgpu | hc
    · exact h.completes (hx.busy n i gpu hgpu (h.nowNs ▸ hlt))
    · exact hc

/-- A request only joins a queue while every GPU of the role is busy. -/
theorem Move.queue (h : Move fetching now x y) (hd : x.1.cluster.DistinctNodeIds) {stage : Stage}
    (hq : y.1.queue stage ≠ []) : x.1.queue stage ≠ [] ∨ x.1.AllBusy now stage.role := by
  cases h with
  | @enqueue s id budget stage' _ hgpu =>
    by_cases hst : stage = stage'
    · exact .inr (hst ▸ allBusy_of_findIdleGpuFor hd hgpu)
    · rw [queue_setQueue, if_neg hst] at hq
      exact .inl hq
  | @dequeue s id stage' rest hqueue =>
    rw [queue_setQueue] at hq
    split_ifs at hq with hst
    · exact .inl (by simp [hst, hqueue])
    · exact .inl hq
  | finish => exact .inl (by simpa using hq)
  | start => exact .inl (by cases stage <;> exact hq)
  | fetch => exact .inl (by cases stage <;> exact hq)
  | drop => exact .inl hq
  | note => exact .inl (by cases stage <;> exact hq)

theorem Move.attended (h : Move fetching now x y) (hnow : x.1.sim.nowNs = now)
    (hx : x.1.Scheduled) (ha : x.1.Attended) : y.1.Attended := by
  intro stage hq n i gpu hgpu hrole
  rcases h.gpuAt hgpu with hgpu | hc
  · refine h.completes ?_
    rcases h.queue hx.distinct hq with hq | hb
    · exact ha stage hq n i gpu hgpu hrole
    · exact hx.busy n i gpu hgpu (hnow ▸ hb n i gpu hgpu hrole)
  · exact hc

theorem Moves.nowNs (h : Moves fetching now x y) : y.1.sim.nowNs = x.1.sim.nowNs :=
  h.invariant (I := fun z => z.1.sim.nowNs = x.1.sim.nowNs) (fun _ _ hz hm => hm.nowNs.trans hz) rfl

theorem Moves.scheduled (h : Moves fetching now x y) (hx : x.1.Scheduled) : y.1.Scheduled :=
  h.invariant (I := fun z => z.1.Scheduled) (fun _ _ hz hm => hm.scheduled hz) hx

theorem Moves.attended (h : Moves fetching now x y) (hnow : x.1.sim.nowNs = now)
    (hx : x.1.Scheduled) (ha : x.1.Attended) : y.1.Attended :=
  (h.invariant (I := fun z => z.1.sim.nowNs = now ∧ z.1.Scheduled ∧ z.1.Attended)
    (fun _ _ ⟨hn, hz, hza⟩ hm => ⟨hm.nowNs.trans hn, hm.scheduled hz, hm.attended hn hz hza⟩)
    ⟨hnow, hx, ha⟩).2.2

/-! ## Events -/

variable {kind : ServingEvent} {sim₁ : Simulator ServingEvent}

/-- A release writes one busy time, if the event is a completion, and nothing else. -/
theorem Released.eq (h : Released now kind s s₁) : s₁ = { s with cluster := s₁.cluster } := by
  unfold Released at h
  split at h
  · rw [h]
  · obtain ⟨_, -, h⟩ := Except.bind_eq_ok.1 h
    obtain rfl := Except.ok.inj h
    rfl

theorem Released.cluster (h : Released now kind s s₁) :
    (kind.completion = none ∧ s₁.cluster = s.cluster) ∨
      ∃ n i, kind.completion = some (n, i) ∧ s.cluster.setBusyUntil n i now = .ok s₁.cluster := by
  unfold Released at h
  split at h
  next hnone => exact .inl ⟨hnone, by rw [h]⟩
  next n i hsome =>
    obtain ⟨cluster, hcluster, h⟩ := Except.bind_eq_ok.1 h
    obtain rfl := Except.ok.inj h
    exact .inr ⟨n, i, hsome, hcluster⟩

theorem Released.sim (h : Released now kind s s₁) : s₁.sim = s.sim := by rw [h.eq]

theorem Released.queue (h : Released now kind s s₁) (stage : Stage) :
    s₁.queue stage = s.queue stage := by
  rw [h.eq]
  cases stage <;> rfl

/-- A GPU after a release: as it was, or idle from now on. -/
theorem Released.gpuAt (h : Released now kind s s₁) {n : NodeId} {i : ℕ} {gpu : GpuResource}
    (hgpu : s₁.cluster.gpuAt n i = some gpu) :
    (kind.completion ≠ some (n, i) ∧ s.cluster.gpuAt n i = some gpu) ∨
      kind.completion = some (n, i) ∧ gpu.busyUntilNs = now := by
  rcases h.cluster with ⟨hnone, hc⟩ | ⟨m, j, hsome, hc⟩
  · exact .inl ⟨by simp [hnone], hc ▸ hgpu⟩
  · by_cases hmj : n = m ∧ i = j
    · obtain ⟨rfl, rfl⟩ := hmj
      rw [ClusterTopology.setBusyUntil_self hc] at hgpu
      obtain ⟨old, -, rfl⟩ := Option.map_eq_some_iff.1 hgpu
      exact .inr ⟨hsome, rfl⟩
    · rw [ClusterTopology.setBusyUntil_ne hc hmj] at hgpu
      refine .inl ⟨fun heq => hmj ?_, hgpu⟩
      simpa [eq_comm] using hsome.symm.trans heq

theorem Released.gpuAt_role (h : Released now kind s s₁) {n : NodeId} {i : ℕ} {gpu : GpuResource}
    (hgpu : s.cluster.gpuAt n i = some gpu) :
    ∃ gpu', s₁.cluster.gpuAt n i = some gpu' ∧ gpu'.role = gpu.role := by
  rcases h.cluster with ⟨-, hc⟩ | ⟨_, _, -, hc⟩
  · exact ⟨gpu, hc ▸ hgpu, rfl⟩
  · exact ClusterTopology.gpuAt_setBusyUntil hc hgpu

theorem Released.gpuAt_old (h : Released now kind s s₁) {n : NodeId} {i : ℕ} {gpu : GpuResource}
    (hgpu : s₁.cluster.gpuAt n i = some gpu) : ∃ old, s.cluster.gpuAt n i = some old := by
  rcases h.cluster with ⟨-, hc⟩ | ⟨_, _, -, hc⟩
  · exact ⟨gpu, hc ▸ hgpu⟩
  · exact ClusterTopology.gpuAt_of_setBusyUntil hc hgpu

/-- The event taken out completes no other GPU's job. -/
theorem completes_of_step (hstep : s.sim.step = some (now, kind, sim₁)) {n : NodeId} {i : ℕ}
    {t : UInt64} (hne : kind.completion ≠ some (n, i)) (hc : s.Completes n i t)
    (hsim : s₁.sim = sim₁) : s₁.Completes n i t := by
  obtain ⟨ev, rfl, hperm, -⟩ := Simulator.step_spec hstep
  obtain ⟨ev', hmem, hkind, ht⟩ := hc
  rcases List.mem_cons.1 (hperm.mem_iff.1 hmem) with rfl | hmem
  · exact absurd hkind hne
  · exact ⟨ev', hsim ▸ hmem, hkind, ht⟩

theorem Released.scheduled (hstep : s.sim.step = some (now, kind, sim₁))
    (h : Released now kind { s with sim := sim₁ } s₁) (hs : s.Scheduled) : s₁.Scheduled := by
  obtain ⟨ev, -, hperm, hnow, hsim, -⟩ := Simulator.step_spec hstep
  have hle : s.sim.nowNs ≤ now := hnow ▸ le_max_left _ _
  refine ⟨?_, fun ev' hev n i hc => ?_, fun n i gpu hgpu hlt => ?_⟩
  · rcases h.cluster with ⟨-, hc⟩ | ⟨n, i, -, hc⟩
    · rw [hc]
      exact hs.distinct
    · exact ClusterTopology.DistinctNodeIds.setBusyUntil hs.distinct hc
  · rw [h.sim] at hev
    obtain ⟨gpu, hgpu⟩ := hs.addressed ev' (hperm.mem_iff.2 (List.mem_cons_of_mem _ hev)) n i hc
    exact (h.gpuAt_role hgpu).imp fun _ h => h.1
  · rw [h.sim, hsim] at hlt
    rcases h.gpuAt hgpu with ⟨hne, hgpu⟩ | ⟨-, hbusy⟩
    · exact completes_of_step hstep hne (hs.busy n i gpu hgpu (hle.trans_lt hlt)) h.sim
    · exact absurd hlt (hbusy ▸ lt_irrefl _)

/-- Taking out an arrival leaves the queues attended. -/
theorem Released.attended (hstep : s.sim.step = some (now, kind, sim₁))
    (h : Released now kind { s with sim := sim₁ } s₁) (hkind : kind.completion = none)
    (ha : s.Attended) : s₁.Attended := by
  intro stage hq n i gpu hgpu hrole
  rw [h.queue] at hq
  rcases h.gpuAt hgpu with ⟨hne, hgpu⟩ | ⟨hsome, -⟩
  · refine completes_of_step hstep hne (ha stage ?_ n i gpu hgpu hrole) h.sim
    cases stage <;> exact hq
  · simp [hkind] at hsome

theorem Advance.scheduled (h : Advance fetching s s') (hs : s.Scheduled) : s'.Scheduled := by
  obtain ⟨now, kind, sim, hstep, s₁, hrel, hmoves, -⟩ := h
  exact hmoves.scheduled (hrel.scheduled hstep hs)

theorem Advance.attended (h : Advance fetching s s') (hs : s.Scheduled) (ha : s.Attended) :
    s'.Attended := by
  obtain ⟨now, kind, sim, hstep, s₁, hrel, hmoves, hdrained⟩ := h
  have hs₁ := hrel.scheduled hstep hs
  have hnow : s₁.sim.nowNs = now := by
    obtain ⟨-, -, -, -, hsim, -⟩ := Simulator.step_spec hstep
    rw [hrel.sim, hsim]
  by_cases hkind : ∃ id, kind = .requestArrival id
  · obtain ⟨id, rfl⟩ := hkind
    exact hmoves.attended hnow hs₁ (hrel.attended hstep rfl ha)
  · intro stage hq n i gpu hgpu hrole
    have hs' := hmoves.scheduled hs₁
    rcases hdrained hs₁.distinct (fun id h => hkind ⟨id, h⟩) stage with hempty | hbusy
    · exact absurd hempty hq
    · refine hs'.busy n i gpu hgpu ?_
      rw [hmoves.nowNs, hnow]
      exact hbusy n i gpu hgpu hrole

/-! ## Runs -/

/-- Only arrivals are pending at the start of a run. -/
theorem kind_of_mem_start {cluster : ClusterTopology} {l : List LlmRequest}
    {ev : Event ServingEvent} (hev : ev ∈ ((ServingState.new cluster).enterAll l).sim.pending) :
    ∃ req ∈ l, ev.kind = .requestArrival req.requestId := by
  have hkind : ev.kind ∈ ((ServingState.new cluster).enterAll l).sim.pending.map (·.kind) :=
    List.mem_map_of_mem hev
  rw [kinds_enterAll, List.mem_append, List.mem_map, List.mem_map] at hkind
  rcases hkind with ⟨_, hmem, -⟩ | ⟨req, hreq, hkind⟩
  · simp [ServingState.new] at hmem
  · exact ⟨req, hreq, hkind.symm⟩

/-- The start of a run on an idle cluster. -/
theorem scheduled_start {cluster : ClusterTopology} (hd : cluster.DistinctNodeIds)
    (hidle : cluster.AllIdle) (l : List LlmRequest) :
    ((ServingState.new cluster).enterAll l).Scheduled := by
  refine ⟨by rwa [cluster_enterAll], fun ev hev n i hc => ?_, fun n i gpu hgpu hlt => ?_⟩
  · obtain ⟨req, -, hreq⟩ := kind_of_mem_start hev
    simp [hreq, ServingEvent.completion] at hc
  · rw [cluster_enterAll] at hgpu
    rw [hidle.gpuAt hgpu, nowNs_enterAll] at hlt
    exact absurd hlt (lt_irrefl _)

theorem attended_start (cluster : ClusterTopology) (l : List LlmRequest) :
    ((ServingState.new cluster).enterAll l).Attended := by
  intro stage hq
  rw [queue_enterAll] at hq
  exact absurd (by cases stage <;> rfl) hq

theorem advances_scheduled (h : ReflTransGen (Advance fetching) s s') (hs : s.Scheduled)
    (ha : s.Attended) : s'.Scheduled ∧ s'.Attended := by
  induction h with
  | refl => exact ⟨hs, ha⟩
  | tail _ hlast ih => exact ⟨hlast.scheduled ih.1, hlast.attended ih.1 ih.2⟩

/-- No work is left undone when the clock advances: the queues with requests have no idle GPU, and
what is busy has its completion event. -/
def WorkConserving {σ : Type} (step : σ → Except Panic (Option σ)) (state : σ → ServingState)
    (start : σ) : Prop :=
  ∀ s s', EventLoop.Reach step start s → EventLoop.Step step s s' →
    (state s).sim.nowNs < (state s').sim.nowNs →
    (∀ stage, (state s).queue stage ≠ [] →
      (state s).AllBusy (state s).sim.nowNs stage.role) ∧
    ∀ n i gpu, (state s).cluster.gpuAt n i = some gpu →
      (state s).sim.nowNs < gpu.busyUntilNs → (state s).Completes n i gpu.busyUntilNs

/-- When the clock advances, every pending event is later than the clock. -/
theorem Advance.later (h : Advance fetching s s') (hlt : s.sim.nowNs < s'.sim.nowNs)
    {ev : Event ServingEvent} (hev : ev ∈ s.sim.pending) : s.sim.nowNs < ev.timeNs := by
  obtain ⟨now, kind, sim, hstep, s₁, hrel, hmoves, -⟩ := h
  obtain ⟨first, -, hperm, hnow, hsim, hfirst⟩ := Simulator.step_spec hstep
  have hclock : s'.sim.nowNs = now := by
    rw [hmoves.nowNs, hrel.sim, hsim]
  rw [hclock, hnow, lt_max_iff] at hlt
  have hlt' := hlt.resolve_left (lt_irrefl _)
  rcases List.mem_cons.1 (hperm.mem_iff.1 hev) with rfl | hmem
  · exact hlt'
  · exact hlt'.trans_le (hfirst ev hmem)

/-- Runs that advance from an idle cluster are work-conserving. -/
theorem workConserving_of_advance {σ : Type} {step : σ → Except Panic (Option σ)}
    {state : σ → ServingState} {start : σ}
    (hadvance : ∀ s s', EventLoop.Step step s s' → Advance fetching (state s) (state s'))
    (hs : (state start).Scheduled) (ha : (state start).Attended) :
    WorkConserving step state start := by
  intro s s' hreach hstep hlt
  obtain ⟨hs, ha⟩ := advances_scheduled (hreach.lift state hadvance) hs ha
  refine ⟨fun stage hq n i gpu hgpu hrole => ?_, hs.busy⟩
  obtain ⟨ev, hev, -, ht⟩ := ha stage hq n i gpu hgpu hrole
  exact ht ▸ (hadvance s s' hstep).later hlt hev

end ServingState

/-! ## Both schedulers -/

section

variable {C P T : Type} [ComputeModel C] [PlacementPolicy P] [TransferModel T]
  (config : ServingConfig) (cluster : ClusterTopology) (compute : C) (iterOrder : IterOrder)
  (transfer : T) (profile : ModelProfile) (placement : P) (requests : List LlmRequest)

/-- **The schedulers are work-conserving.** From an idle cluster with distinct node ids, for any
trace, policy and models: whenever the clock advances, all GPUs of a role with waiting requests are
busy, and each busy GPU has a completion event pending at the time until which it is busy. -/
theorem schedulers_workConserving (hnodes : cluster.DistinctNodeIds) (hidle : cluster.AllIdle) :
    ServingState.WorkConserving EventDrivenRunner.step (fun r => r.toServingState)
      ((EventDrivenRunner.new config cluster compute).start requests) ∧
    ServingState.WorkConserving CacheAwareRunner.step (fun r => r.toServingState)
      ((CacheAwareRunner.new iterOrder config cluster compute transfer profile placement).start
        requests) :=
  ⟨ServingState.workConserving_of_advance (fun _ _ => EventDrivenRunner.step_advance)
      (ServingState.scheduled_start hnodes hidle _) (ServingState.attended_start _ _),
    ServingState.workConserving_of_advance (fun _ _ => CacheAwareRunner.step_advance)
      (ServingState.scheduled_start hnodes hidle _) (ServingState.attended_start _ _)⟩

end

theorem schedulers_workConserving_pair :
    ServingState.WorkConserving EventDrivenRunner.step (fun r => r.toServingState)
      ((EventDrivenRunner.new ⟨1, 1, 1⟩ (.singleNode 1 1) LinearComputeModel.conservative8b).start
        [.cold 0 0 8 2, .cold 1 0 8 2]) ∧
    ServingState.WorkConserving CacheAwareRunner.step (fun r => r.toServingState)
      ((CacheAwareRunner.new .ascending ⟨1, 1, 1⟩ (.singleNode 1 1)
        LinearComputeModel.conservative8b AnalyticalTransferModel.rdma400g .llama8bBf16Gqa
        (RemoteLru.mk 0)).start [.cold 0 0 8 2, .cold 1 0 8 2]) :=
  schedulers_workConserving ⟨1, 1, 1⟩ (.singleNode 1 1) LinearComputeModel.conservative8b
    .ascending AnalyticalTransferModel.rdma400g .llama8bBf16Gqa (RemoteLru.mk 0)
    [.cold 0 0 8 2, .cold 1 0 8 2] (by decide) (by decide)

end KvFlowSim
