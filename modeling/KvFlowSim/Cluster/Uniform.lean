import KvFlowSim.Cluster.Alike
import KvFlowSim.Cluster.Pool

/-!
# Clusters of interchangeable GPUs

In a uniform cluster the GPUs that share a stage serve the same stages. It does not matter there
which of the idle ones a job is put on, only until when the GPUs of each role are busy. Two clusters
of one shape have the `SameLoad` from a time on if these pools differ in times that are over only.
They keep it when a job is put on an idle GPU of the same role in either (`SameLoad.book`), and when
GPUs that are idle anyway are released (`SameLoad.release`).
-/

namespace KvFlowSim

open Except List Pool

namespace ClusterTopology

/-- GPUs that share a stage serve the same stages, and no two nodes share an id. -/
def Uniform (c : ClusterTopology) : Prop :=
  c.DistinctNodeIds ∧ ∀ g ∈ c.gpus, ∀ h ∈ c.gpus, g.shareStage h = true →
    g.serves .prefill = h.serves .prefill ∧ g.serves .decode = h.serves .decode

instance (c : ClusterTopology) : Decidable c.Uniform := inferInstanceAs (Decidable (_ ∧ _))

/-- An idle GPU of the role. -/
def IdleAt (c : ClusterTopology) (now : UInt64) (role : WorkerRole) (p : NodeId × ℕ) : Prop :=
  ∃ gpu, c.gpuAt p.1 p.2 = some gpu ∧ gpu.serves role = true ∧ gpu.busyUntilNs ≤ now

/-- The GPUs of either role are busy until the same times, as far as these are after `now`. -/
structure SameLoad (now : UInt64) (c c' : ClusterTopology) : Prop where
  shape : c.SameShape c'
  uniform : c.Uniform
  pool : ∀ role, role = .prefill ∨ role = .decode → SameFrom now (c.pool role) (c'.pool role)

variable {now since t : UInt64} {c c' d d' : ClusterTopology} {role : WorkerRole} {n n' : NodeId}
  {i i' : ℕ} {p p' : NodeId × ℕ} {gpu gpu' : GpuResource}

/-! ## The GPUs of clusters of one shape -/

theorem forall₂_gpus {S : GpuResource → GpuResource → Prop}
    (h : Forall₂ (ServingNode.Alike S) c.nodes c'.nodes) : Forall₂ S c.gpus c'.gpus :=
  rel_flatMap h fun _ _ hm => hm.2

/-- Corresponding GPUs serve the same roles. -/
theorem SameShape.exists_serves (h : c.SameShape c') {gpu' : GpuResource} (hgpu' : gpu' ∈ c'.gpus) :
    ∃ gpu ∈ c.gpus, ∀ role, gpu'.serves role = gpu.serves role := by
  obtain ⟨i, hi⟩ := getElem?_of_mem hgpu'
  have hrel := rel_getElem? (forall₂_gpus h) i
  rw [hi] at hrel
  generalize hg : c.gpus[i]? = o at hrel
  cases hrel with
  | some heq =>
    exact ⟨_, mem_of_getElem? hg, fun role => by rw [heq, GpuResource.serves_setBusyUntil]⟩

theorem SameShape.uniform (h : c.SameShape c') (hc : c.Uniform) : c'.Uniform := by
  refine ⟨h.distinctNodeIds hc.1, fun g' hg' k' hk' hshare => ?_⟩
  obtain ⟨g, hg, hgs⟩ := h.exists_serves hg'
  obtain ⟨k, hk, hks⟩ := h.exists_serves hk'
  rw [hgs, hgs, hks, hks]
  refine hc.2 g hg k hk ?_
  simpa only [GpuResource.shareStage, hgs, hks] using hshare

/-- Writes keep the shape. -/
theorem SameShape.setBoth (h : c.SameShape c') (hset : c.setBusyUntil n i t = .ok d)
    (hset' : c'.setBusyUntil n' i' t = .ok d') : d.SameShape d' :=
  (SameShape.setBusyUntil (SameShape.setBusyUntil h hset').symm hset).symm

/-! ## The same load -/

/-- Left-over busy times that are over by `since` make no load. -/
theorem SameLoad.of_overBefore (hshape : c.SameShape c') (huniform : c.Uniform)
    (hover : c.OverBefore since c') : c.SameLoad since c' := by
  refine ⟨hshape, huniform, fun role _ => sameFrom_of_forall₂ ?_⟩
  have hgpus := forall₂_gpus hshape.pairs
  refine rel_map (fun g g' hg => ?_) (rel_filter (fun g g' hg => ?_) hgpus)
  · rcases hover _ hg.2 with heq | ⟨hlt, hlt'⟩
    · rw [show g'.busyUntilNs = g.busyUntilNs from heq]
    · rw [max_eq_left hlt.le, max_eq_left (show g'.busyUntilNs ≤ since from hlt'.le)]
  · dsimp only
    rw [hg.1, GpuResource.serves_setBusyUntil]

theorem SameLoad.mono (h : c.SameLoad now c') (hle : now ≤ t) : c.SameLoad t c' :=
  ⟨h.shape, h.uniform, fun role hrole => (h.pool role hrole).mono hle⟩

theorem SameLoad.distinct (h : c.SameLoad now c') : c'.DistinctNodeIds :=
  h.shape.distinctNodeIds h.uniform.1

/-- A GPU is idle now if its role has a busy time that is over. -/
theorem exists_idle_iff (hd : c.DistinctNodeIds) (now : UInt64) (role : WorkerRole) :
    (∃ p, c.IdleAt now role p) ↔ ∃ x ∈ c.pool role, x ≤ now := by
  constructor
  · rintro ⟨p, gpu, hgpu, hrole, hidle⟩
    exact ⟨_, mem_pool.2 ⟨gpu, mem_gpus_of_gpuAt hgpu, hrole, rfl⟩, hidle⟩
  · rintro ⟨x, hx, hle⟩
    obtain ⟨gpu, hmem, hrole, rfl⟩ := mem_pool.1 hx
    obtain ⟨n, i, hgpu⟩ := gpuAt_of_mem_gpus hd hmem
    exact ⟨(n, i), gpu, hgpu, hrole, hle⟩

/-- The selection finds an idle GPU if there is one. -/
theorem findIdleGpuFor_cases (hd : c.DistinctNodeIds) (now : UInt64) (role : WorkerRole) :
    (c.findIdleGpuFor now role = .ok none ∧ ¬∃ p, c.IdleAt now role p) ∨
      ∃ p, c.findIdleGpuFor now role = .ok (some p) ∧ c.IdleAt now role p := by
  rcases findIdleGpuFor_spec hd now role with ⟨hnone, hbusy⟩ |
    ⟨n, i, gpu, hsome, hgpu, hidle, hrole, -⟩
  · refine .inl ⟨hnone, ?_⟩
    rintro ⟨p, gpu, hgpu, hrole, hidle⟩
    exact (hbusy p.1 p.2 gpu hgpu hrole).not_ge hidle
  · exact .inr ⟨(n, i), hsome, gpu, hgpu, hrole, hidle⟩

/-- The selection finds idle GPUs in both clusters or in neither. -/
theorem SameLoad.findIdleGpuFor (h : c.SameLoad now c') (hrole : role = .prefill ∨ role = .decode) :
    Related (Option.Rel fun p p' => c.IdleAt now role p ∧ c'.IdleAt now role p')
      (c.findIdleGpuFor now role) (c'.findIdleGpuFor now role) := by
  have hiff : (∃ p, c.IdleAt now role p) ↔ ∃ p, c'.IdleAt now role p := by
    rw [exists_idle_iff h.uniform.1, exists_idle_iff h.distinct]
    exact (h.pool role hrole).exists_le_iff
  rcases findIdleGpuFor_cases h.uniform.1 now role with ⟨hc, hnone⟩ | ⟨p, hc, hp⟩
  · rcases findIdleGpuFor_cases h.distinct now role with ⟨hc', -⟩ | ⟨p', hc', hp'⟩
    · rw [hc, hc']
      exact .ok .none
    · exact absurd (hiff.2 ⟨p', hp'⟩) hnone
  · rcases findIdleGpuFor_cases h.distinct now role with ⟨hc', hnone⟩ | ⟨p', hc', hp'⟩
    · exact absurd (hiff.1 ⟨p, hp⟩) hnone
    · rw [hc, hc']
      exact .ok (.some ⟨hp, hp'⟩)

/-- GPUs of the same role serve the same stages, each in its cluster. -/
theorem SameLoad.serves_eq (h : c.SameLoad now c') (hrole : role = .prefill ∨ role = .decode)
    (hgpu : gpu ∈ c.gpus) (hserves : gpu.serves role = true) (hgpu' : gpu' ∈ c'.gpus)
    (hserves' : gpu'.serves role = true) {other : WorkerRole}
    (hother : other = .prefill ∨ other = .decode) : gpu.serves other = gpu'.serves other := by
  obtain ⟨g, hg, hsame⟩ := h.shape.exists_serves hgpu'
  have hshare := GpuResource.shareStage_of_serves hrole hserves (hsame role ▸ hserves')
  obtain ⟨hprefill, hdecode⟩ := h.uniform.2 gpu hgpu g hg hshare
  rw [hsame]
  rcases hother with rfl | rfl
  exacts [hprefill, hdecode]

/-- The same job is put on an idle GPU of the role in either cluster. -/
theorem SameLoad.book (h : c.SameLoad now c') (hrole : role = .prefill ∨ role = .decode)
    (hp : c.IdleAt now role p) (hp' : c'.IdleAt now role p') (t : UInt64) :
    Related (SameLoad now) (c.setBusyUntil p.1 p.2 t) (c'.setBusyUntil p'.1 p'.2 t) := by
  obtain ⟨gpu, hgpu, hserves, hidle⟩ := hp
  obtain ⟨gpu', hgpu', hserves', hidle'⟩ := hp'
  obtain ⟨d, hd⟩ := setBusyUntil_isOk hgpu t
  obtain ⟨d', hd'⟩ := setBusyUntil_isOk hgpu' t
  rw [hd, hd']
  refine .ok ⟨h.shape.setBoth hd hd', (SameShape.setBusyUntil (.refl c) hd).uniform h.uniform,
    fun other hother => ?_⟩
  have hsame := h.serves_eq hrole (mem_gpus_of_gpuAt hgpu) hserves (mem_gpus_of_gpuAt hgpu')
    hserves' hother
  have hpool := h.pool other hother
  cases hgpuServes : gpu.serves other with
  | false =>
    rwa [pool_setBusyUntil hd hgpu hgpuServes, pool_setBusyUntil hd' hgpu' (hsame ▸ hgpuServes)]
  | true =>
    obtain ⟨rest, hold, hnew⟩ := pool_eq_cons hd hgpu hgpuServes
    obtain ⟨rest', hold', hnew'⟩ := pool_eq_cons hd' hgpu' (hsame ▸ hgpuServes)
    rw [hold, hold'] at hpool
    rw [hnew, hnew']
    exact hpool.replace hidle hidle' t

/-- A GPU that is idle anyway is released. -/
theorem sameFrom_release (hset : c.setBusyUntil n i now = .ok d) (hgpu : c.gpuAt n i = some gpu)
    (hidle : gpu.busyUntilNs ≤ now) (role : WorkerRole) :
    SameFrom now (c.pool role) (d.pool role) := by
  cases hserves : gpu.serves role with
  | false =>
    rw [pool_setBusyUntil hset hgpu hserves]
    exact rfl
  | true =>
    obtain ⟨rest, hold, hnew⟩ := pool_eq_cons hset hgpu hserves
    rw [hold, hnew]
    exact sameFrom_cons hidle le_rfl rest

/-- In either cluster a GPU is released that is idle anyway. -/
theorem SameLoad.release (h : c.SameLoad now c') (hgpu : c.gpuAt n i = some gpu)
    (hidle : gpu.busyUntilNs ≤ now) (hgpu' : c'.gpuAt n' i' = some gpu')
    (hidle' : gpu'.busyUntilNs ≤ now) :
    Related (SameLoad now) (c.setBusyUntil n i now) (c'.setBusyUntil n' i' now) := by
  obtain ⟨d, hd⟩ := setBusyUntil_isOk hgpu now
  obtain ⟨d', hd'⟩ := setBusyUntil_isOk hgpu' now
  rw [hd, hd']
  refine .ok ⟨h.shape.setBoth hd hd', (SameShape.setBusyUntil (.refl c) hd).uniform h.uniform,
    fun role hrole => ?_⟩
  exact (sameFrom_release hd hgpu hidle role).symm.trans ((h.pool role hrole).trans
    (sameFrom_release hd' hgpu' hidle' role))

end ClusterTopology

end KvFlowSim
