import KvFlowSim.Cluster.Pool
import KvFlowSim.Foundations.Least

/-!
# The two selectors of a GPU

`find_idle_gpu_for` looks for an idle GPU, and `earliest_gpu_for` for the one that can start first.
Both take the best GPU of every node and the best of these. `gpuSelection_optimal`: what either
returns is best in the whole cluster, and they agree on whether a GPU is idle.
-/

namespace KvFlowSim

variable {now startNs : UInt64} {role : WorkerRole} {n : NodeId} {i : ℕ}

namespace ServingNode

variable {node : ServingNode}

theorem earliestGpuFor_eq_none : node.earliestGpuFor now role = none ↔
    ∀ gpu ∈ node.gpus, gpu.serves role = false := by
  rw [earliestGpuFor, List.argmin_eq_none, List.map_eq_nil_iff]
  exact List.filter_zipIdx_eq_nil (GpuResource.serves · role)

/-- The selected GPU serves the role and no other can start earlier. -/
theorem earliestGpuFor_eq_some (h : node.earliestGpuFor now role = some (i, startNs)) :
    ∃ gpu, node.gpus[i]? = some gpu ∧ gpu.serves role = true ∧ startNs = max gpu.busyUntilNs now ∧
      ∀ other ∈ node.gpus, other.serves role = true → startNs ≤ max other.busyUntilNs now := by
  obtain ⟨⟨gpu, j⟩, hmem, heq⟩ := List.mem_map.1 (List.argmin_mem h)
  obtain ⟨rfl, rfl⟩ := Prod.mk.inj heq
  obtain ⟨hgpu, hrole⟩ := (List.mem_filter_zipIdx (GpuResource.serves · role)).1 hmem
  refine ⟨gpu, hgpu, hrole, rfl, fun other hother hrole' => ?_⟩
  obtain ⟨k, hk⟩ := List.getElem?_of_mem hother
  have hmem' : (other, k) ∈ node.gpus.zipIdx.filter fun p => p.1.serves role :=
    (List.mem_filter_zipIdx (GpuResource.serves · role)).2 ⟨hk, hrole'⟩
  exact List.le_of_mem_argmin (List.mem_map_of_mem hmem') h

end ServingNode

namespace ClusterTopology

variable {c : ClusterTopology}

/-- What the selectors are to answer, of which the first is asked for an idle GPU, and the second
for the GPU that can start first. -/
structure Selects (c : ClusterTopology) (nowNs : UInt64) (role : WorkerRole)
    (idle : Option (NodeId × ℕ)) (earliest : Option (NodeId × ℕ × UInt64)) : Prop where
  idle_none : idle = none ↔ ¬∃ gpu ∈ c.gpus, gpu.serves role = true ∧ gpu.busyUntilNs ≤ nowNs
  idle_some : ∀ n i, idle = some (n, i) → ∃ gpu, c.gpuAt n i = some gpu ∧
    gpu.serves role = true ∧ gpu.busyUntilNs ≤ nowNs ∧
      ∀ other ∈ c.gpus, other.serves role = true → gpu.busyUntilNs ≤ other.busyUntilNs
  agree : idle.isSome ↔ ∃ n i, earliest = some (n, i, nowNs)
  waits : idle = none → ∀ n i startNs, earliest = some (n, i, startNs) →
    ∃ gpu, c.gpuAt n i = some gpu ∧ gpu.serves role = true ∧ startNs = gpu.busyUntilNs ∧
      ∀ other ∈ c.gpus, other.serves role = true → startNs ≤ other.busyUntilNs
  earliest_none : earliest = none ↔ ¬∃ gpu ∈ c.gpus, gpu.serves role = true

/-- The scan of the nodes takes the first of the best candidates. -/
theorem earliestGpuFor_eq_argmin (c : ClusterTopology) (now : UInt64) (role : WorkerRole) :
    c.earliestGpuFor now role = (c.nodes.filterMap fun node =>
      (node.earliestGpuFor now role).map fun p => (node.nodeId, p)).argmin fun k => k.2.2 := by
  rw [← List.foldl_best_eq_argmin, earliestGpuFor]
  congr 1
  funext best node
  cases node.earliestGpuFor now role <;> rfl

theorem earliestGpuFor_eq_none : c.earliestGpuFor now role = none ↔
    ∀ gpu ∈ c.gpus, gpu.serves role = false := by
  simp only [earliestGpuFor_eq_argmin, List.argmin_eq_none, List.filterMap_eq_nil_iff,
    Option.map_eq_none_iff, ServingNode.earliestGpuFor_eq_none, gpus, List.mem_flatMap]
  constructor
  · rintro h gpu ⟨node, hnode, hgpu⟩
    exact h node hnode gpu hgpu
  · exact fun h node hnode gpu hgpu => h gpu ⟨node, hnode, hgpu⟩

/-- The selected GPU serves the role and no other of the cluster can start earlier. -/
theorem earliestGpuFor_eq_some (hd : c.DistinctNodeIds)
    (h : c.earliestGpuFor now role = some (n, i, startNs)) :
    ∃ gpu, c.gpuAt n i = some gpu ∧ gpu.serves role = true ∧ startNs = max gpu.busyUntilNs now ∧
      ∀ other ∈ c.gpus, other.serves role = true → startNs ≤ max other.busyUntilNs now := by
  rw [earliestGpuFor_eq_argmin] at h
  obtain ⟨node, hnode, hcand⟩ := List.mem_filterMap.1 (List.argmin_mem h)
  obtain ⟨p, hp, heq⟩ := Option.map_eq_some_iff.1 hcand
  obtain ⟨rfl, rfl⟩ := Prod.mk.inj heq
  obtain ⟨gpu, hgpu, hrole, hstart, -⟩ := ServingNode.earliestGpuFor_eq_some hp
  refine ⟨gpu, ?_, hrole, hstart, fun other hother hrole' => ?_⟩
  · rw [gpuAt_of_mem hd hnode, hgpu]
  · -- the candidate of the other GPU's node stands between the two
    obtain ⟨node', hnode', hother⟩ := List.mem_flatMap.1 hother
    cases hp' : node'.earliestGpuFor now role with
    | none =>
      have hnot := ServingNode.earliestGpuFor_eq_none.1 hp' other hother
      exact absurd (hrole'.symm.trans hnot) Bool.noConfusion
    | some p' =>
      obtain ⟨j, startNs'⟩ := p'
      obtain ⟨-, -, -, -, hle⟩ := ServingNode.earliestGpuFor_eq_some hp'
      have hmem : (node'.nodeId, j, startNs') ∈ c.nodes.filterMap fun node =>
          (node.earliestGpuFor now role).map fun p => (node.nodeId, p) :=
        List.mem_filterMap.2 ⟨node', hnode', by rw [hp']; rfl⟩
      exact (List.le_of_mem_argmin hmem h).trans (hle other hother hrole')

theorem earliest_none_iff : c.earliestGpuFor now role = none ↔
    ¬∃ gpu ∈ c.gpus, gpu.serves role = true := by
  simp only [earliestGpuFor_eq_none, not_exists, not_and, Bool.not_eq_true]

/-- All GPUs of the role are busy: the earliest one starts when it is free. -/
theorem selects_none (hd : c.DistinctNodeIds)
    (hbusy : ∀ gpu ∈ c.gpus, gpu.serves role = true → now < gpu.busyUntilNs) :
    c.Selects now role none (c.earliestGpuFor now role) := by
  refine ⟨?_, fun n i hsome => ?_, ?_, fun _ n i startNs hsome => ?_, earliest_none_iff⟩
  · refine iff_of_true rfl ?_
    rintro ⟨gpu, hmem, hrole, hle⟩
    exact (hbusy gpu hmem hrole).not_ge hle
  · cases hsome
  · refine iff_of_false Bool.false_ne_true ?_
    rintro ⟨n, i, hsome⟩
    obtain ⟨gpu, hgpu, hrole, hstart, -⟩ := earliestGpuFor_eq_some hd hsome
    have hlt := hbusy gpu (mem_gpus_of_gpuAt hgpu) hrole
    exact hlt.not_ge ((le_max_left _ _).trans hstart.ge)
  · obtain ⟨gpu, hgpu, hrole, hstart, hle⟩ := earliestGpuFor_eq_some hd hsome
    have hlt := hbusy gpu (mem_gpus_of_gpuAt hgpu) hrole
    refine ⟨gpu, hgpu, hrole, hstart.trans (max_eq_left hlt.le), fun other hother hrole' => ?_⟩
    exact (hle other hother hrole').trans_eq (max_eq_left (hbusy other hother hrole').le)

/-- Some GPU is idle: the earliest one starts at once. -/
theorem selects_some (hd : c.DistinctNodeIds) {gpu : GpuResource} (hgpu : c.gpuAt n i = some gpu)
    (hrole : gpu.serves role = true) (hidle : gpu.busyUntilNs ≤ now)
    (hmin : ∀ other ∈ c.gpus, other.serves role = true → gpu.busyUntilNs ≤ other.busyUntilNs) :
    c.Selects now role (some (n, i)) (c.earliestGpuFor now role) := by
  have hmem := mem_gpus_of_gpuAt hgpu
  refine ⟨?_, ?_, iff_of_true rfl ?_, fun hsome => ?_, earliest_none_iff⟩
  · exact iff_of_false (Option.some_ne_none _) fun hnot => hnot ⟨gpu, hmem, hrole, hidle⟩
  · rintro n' i' ⟨⟩
    exact ⟨gpu, hgpu, hrole, hidle, hmin⟩
  · cases hearliest : c.earliestGpuFor now role with
    | none => exact absurd ⟨gpu, hmem, hrole⟩ (earliest_none_iff.1 hearliest)
    | some k =>
      obtain ⟨n', i', startNs⟩ := k
      obtain ⟨gpu', -, -, hstart, hfirst⟩ := earliestGpuFor_eq_some hd hearliest
      have hnow : startNs = now := by
        refine le_antisymm ((hfirst gpu hmem hrole).trans (max_le hidle le_rfl)) ?_
        exact (le_max_right _ _).trans hstart.ge
      exact ⟨n', i', by rw [hnow]⟩
  · cases hsome

end ClusterTopology

open ClusterTopology

/-- **GPU selection is optimal in the whole cluster, and the two selectors agree.** -/
theorem gpuSelection_optimal (c : ClusterTopology) (hd : c.DistinctNodeIds) (now : UInt64)
    (role : WorkerRole) : ∃ idle, c.findIdleGpuFor now role = .ok idle ∧
      c.Selects now role idle (c.earliestGpuFor now role) := by
  rcases findIdleGpuFor_spec hd now role with ⟨hnone, hbusy⟩ |
    ⟨n, i, gpu, hsome, hgpu, hidle, hrole, hmin⟩
  · refine ⟨none, hnone, selects_none hd fun gpu hmem hrole => ?_⟩
    obtain ⟨n, i, hgpu⟩ := gpuAt_of_mem_gpus hd hmem
    exact hbusy n i gpu hgpu hrole
  · refine ⟨some (n, i), hsome, selects_some hd hgpu hrole hidle fun other hmem hrole' => ?_⟩
    obtain ⟨n', i', hgpu'⟩ := gpuAt_of_mem_gpus hd hmem
    exact hmin n' i' other hgpu' hrole'

/-- A node without GPUs for prefills, one with no GPUs at all, and one with a busy and an
idle GPU. -/
def threeNodes : ClusterTopology where
  nodes := [
    { nodeId := 4, gpus := [.new 0 80000000000 .decode], cpuMemBytes := 0, localSsdBytes := 0 },
    { nodeId := 2, gpus := [], cpuMemBytes := 0, localSsdBytes := 0 },
    { nodeId := 7, cpuMemBytes := 0, localSsdBytes := 0, gpus := [
      (GpuResource.new 0 80000000000 .prefill).setBusyUntil 9,
      (GpuResource.new 1 80000000000 .unified).setBusyUntil 7] }]

theorem gpuSelection_threeNodes : ∃ idle, threeNodes.findIdleGpuFor 8 .prefill = .ok idle ∧
    threeNodes.Selects 8 .prefill idle (threeNodes.earliestGpuFor 8 .prefill) :=
  gpuSelection_optimal threeNodes (by decide) 8 .prefill

end KvFlowSim
