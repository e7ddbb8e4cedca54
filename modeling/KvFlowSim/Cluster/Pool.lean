import KvFlowSim.Cluster.Topology
import KvFlowSim.Foundations.Pool

/-!
# The GPUs of a role as a pool

What the selection of idle GPUs and the writes of busy times do to the pool of the GPUs that serve a
role: starting a job on the selected GPU books the worker that is free
first (`books_of_findIdleGpuFor`).
-/

namespace KvFlowSim

open Pool

namespace ClusterTopology

def gpus (c : ClusterTopology) : List GpuResource := c.nodes.flatMap (·.gpus)

/-- The busy times of the GPUs that serve a role. -/
def pool (c : ClusterTopology) (role : WorkerRole) : Multiset UInt64 :=
  (((c.gpus.filter (·.serves role)).map (·.busyUntilNs) : List UInt64) : Multiset UInt64)

variable {c c' : ClusterTopology} {n : NodeId} {i : ℕ} {t now x : UInt64} {role : WorkerRole}
  {gpu : GpuResource}

theorem mem_gpus_of_gpuAt (h : c.gpuAt n i = some gpu) : gpu ∈ c.gpus := by
  obtain ⟨a, ha, -, hgpu⟩ := exists_mem_of_gpuAt h
  exact List.mem_flatMap.2 ⟨a, ha, List.mem_of_getElem? hgpu⟩

theorem gpuAt_of_mem_gpus (hd : c.DistinctNodeIds) (h : gpu ∈ c.gpus) :
    ∃ n i, c.gpuAt n i = some gpu := by
  obtain ⟨a, ha, hgpu⟩ := List.mem_flatMap.1 h
  obtain ⟨i, hi⟩ := List.getElem?_of_mem hgpu
  exact ⟨a.nodeId, i, by rw [gpuAt_of_mem hd ha, hi]⟩

theorem mem_pool : x ∈ c.pool role ↔
    ∃ gpu ∈ c.gpus, gpu.serves role = true ∧ gpu.busyUntilNs = x := by
  simp only [pool, Multiset.mem_coe, List.mem_map, List.mem_filter, and_assoc]

/-- A write changes one GPU of the list. -/
theorem gpus_setBusyUntil (hset : c.setBusyUntil n i t = .ok c') (hgpu : c.gpuAt n i = some gpu) :
    ∃ pre post, c.gpus = pre ++ gpu :: post ∧ c'.gpus = pre ++ gpu.setBusyUntil t :: post := by
  suffices ∀ {l l' : List ServingNode}, setBusyIn n i t l = .ok l' →
      (⟨l⟩ : ClusterTopology).gpuAt n i = some gpu → ∃ pre post,
        l.flatMap (·.gpus) = pre ++ gpu :: post ∧
          l'.flatMap (·.gpus) = pre ++ gpu.setBusyUntil t :: post by
    obtain ⟨nodes, hnodes, rfl⟩ := Except.map_eq_ok.1 hset
    exact this hnodes hgpu
  intro l
  induction l with
  | nil => intro l' _ h; simp [gpuAt, node] at h
  | cons a rest ih =>
    intro l' hset hgpu
    rw [setBusyIn] at hset
    rw [gpuAt_cons] at hgpu
    split_ifs at hset hgpu with ha hi
    · obtain rfl := Except.ok.inj hset
      obtain ⟨hlt, heq⟩ := List.getElem?_eq_some_iff.1 hgpu
      refine ⟨a.gpus.take i, a.gpus.drop (i + 1) ++ rest.flatMap (·.gpus), ?_, ?_⟩
      · rw [List.flatMap_cons, ← List.cons_append, ← List.append_assoc, ← heq,
          List.getElem_cons_drop, List.take_append_drop]
      · rw [List.flatMap_cons, ServingNode.setBusyUntil, List.modify_eq_take_cons_drop hlt, heq,
          List.append_assoc, List.cons_append]
    · obtain ⟨rest', hrest, rfl⟩ := Except.map_eq_ok.1 hset
      obtain ⟨pre, post, hpre, hpost⟩ := ih hrest hgpu
      exact ⟨a.gpus ++ pre, post, by rw [List.flatMap_cons, hpre, List.append_assoc],
        by rw [List.flatMap_cons, hpost, List.append_assoc]⟩

/-- A write of the busy time that a GPU has already. -/
theorem setBusyUntil_eq_self (hgpu : c.gpuAt n i = some gpu) :
    c.setBusyUntil n i gpu.busyUntilNs = .ok c := by
  suffices ∀ {l : List ServingNode}, (⟨l⟩ : ClusterTopology).gpuAt n i = some gpu →
      setBusyIn n i gpu.busyUntilNs l = .ok l by
    rw [setBusyUntil, this hgpu]
    rfl
  intro l
  induction l with
  | nil => intro h; simp [gpuAt, node] at h
  | cons a rest ih =>
    intro h
    rw [gpuAt_cons] at h
    rw [setBusyIn]
    split_ifs at h ⊢ with ha hi
    · obtain ⟨hlt, heq⟩ := List.getElem?_eq_some_iff.1 h
      have hmodify : a.gpus.modify i (·.setBusyUntil gpu.busyUntilNs) = a.gpus := by
        have hself : gpu.setBusyUntil gpu.busyUntilNs = gpu := rfl
        rw [List.modify_eq_take_cons_drop hlt, heq, hself, ← heq, List.getElem_cons_drop,
          List.take_append_drop]
      rw [ServingNode.setBusyUntil, hmodify]
    · exact absurd (List.getElem?_eq_some_iff.1 h).1 hi
    · rw [ih h]
      rfl

/-- A write to a GPU of the role replaces its busy time. -/
theorem pool_eq_cons (hset : c.setBusyUntil n i t = .ok c') (hgpu : c.gpuAt n i = some gpu)
    (hrole : gpu.serves role = true) :
    ∃ rest, c.pool role = gpu.busyUntilNs ::ₘ rest ∧ c'.pool role = t ::ₘ rest := by
  obtain ⟨pre, post, hpre, hpost⟩ := gpus_setBusyUntil hset hgpu
  have hrole' : (gpu.setBusyUntil t).serves role = true := hrole
  refine ⟨((pre.filter (·.serves role) ++ post.filter (·.serves role)).map
    (·.busyUntilNs) : List UInt64), ?_, ?_⟩
  · rw [pool, Multiset.cons_coe, Multiset.coe_eq_coe]
    simp only [hpre, List.filter_append, List.filter_cons, hrole, if_true, List.map_append,
      List.map_cons]
    exact List.perm_middle
  · rw [pool, Multiset.cons_coe, Multiset.coe_eq_coe]
    simp only [hpost, List.filter_append, List.filter_cons, hrole', if_true, List.map_append,
      List.map_cons]
    exact List.perm_middle

/-- A write books the GPU, if it is one that is free first. -/
theorem books_setBusyUntil (hset : c.setBusyUntil n i t = .ok c') (hgpu : c.gpuAt n i = some gpu)
    (hrole : gpu.serves role = true) (hle : ∀ x ∈ c.pool role, gpu.busyUntilNs ≤ x) :
    Books (c.pool role) gpu.busyUntilNs t (c'.pool role) := by
  obtain ⟨rest, hold, hnew⟩ := pool_eq_cons hset hgpu hrole
  refine ⟨?_, hle, ?_⟩
  · rw [hold]
    exact Multiset.mem_cons_self _ _
  · rw [hold, hnew, Multiset.erase_cons_head]

/-- A write to a GPU does not show in the pool of a role that it does not serve. -/
theorem pool_setBusyUntil (hset : c.setBusyUntil n i t = .ok c') (hgpu : c.gpuAt n i = some gpu)
    (hrole : gpu.serves role = false) : c'.pool role = c.pool role := by
  obtain ⟨pre, post, hpre, hpost⟩ := gpus_setBusyUntil hset hgpu
  have hrole' : (gpu.setBusyUntil t).serves role = false := hrole
  simp only [pool, hpre, hpost, List.filter_append, List.filter_cons, hrole, hrole',
    Bool.false_eq_true, if_false]

/-- A write leaves the busy times as they are, but for the new one. -/
theorem mem_pool_of_setBusyUntil (hset : c.setBusyUntil n i t = .ok c')
    (hgpu : c.gpuAt n i = some gpu) (hx : x ∈ c'.pool role) : x = t ∨ x ∈ c.pool role := by
  obtain ⟨pre, post, hpre, hpost⟩ := gpus_setBusyUntil hset hgpu
  obtain ⟨other, hother, hrole, rfl⟩ := mem_pool.1 hx
  rw [hpost, List.mem_append, List.mem_cons] at hother
  have hold : other ∈ pre ∨ other ∈ post → other ∈ c.gpus := fun h => by
    rw [hpre, List.mem_append, List.mem_cons]
    exact h.imp_right .inr
  rcases hother with hother | rfl | hother
  · exact .inr (mem_pool.2 ⟨other, hold (.inl hother), hrole, rfl⟩)
  · exact .inl rfl
  · exact .inr (mem_pool.2 ⟨other, hold (.inr hother), hrole, rfl⟩)

/-- **The selection in terms of the pool.** The selected GPU is free first, and was so by `now`. -/
theorem books_of_findIdleGpuFor (hd : c.DistinctNodeIds)
    (h : c.findIdleGpuFor now role = .ok (some (n, i))) (hset : c.setBusyUntil n i t = .ok c') :
    ∃ gpu, c.gpuAt n i = some gpu ∧ gpu.serves role = true ∧ gpu.busyUntilNs ≤ now ∧
      Books (c.pool role) gpu.busyUntilNs t (c'.pool role) := by
  obtain ⟨gpu, hgpu, hidle, hrole, hle⟩ := idle_of_findIdleGpuFor hd h
  refine ⟨gpu, hgpu, hrole, hidle, books_setBusyUntil hset hgpu hrole fun x hx => ?_⟩
  obtain ⟨other, hother, hrole', rfl⟩ := mem_pool.1 hx
  obtain ⟨m, j, hat⟩ := gpuAt_of_mem_gpus hd hother
  exact hle m j other hat hrole'

theorem AllIdle.pool_eq (h : c.AllIdle) (role : WorkerRole) :
    c.pool role = Multiset.replicate (c.pool role).card 0 := by
  refine Multiset.eq_replicate.2 ⟨rfl, fun t ht => ?_⟩
  obtain ⟨gpu, hmem, -, rfl⟩ := mem_pool.1 ht
  obtain ⟨node, hnode, hgpu⟩ := List.mem_flatMap.1 hmem
  exact h node hnode gpu hgpu

theorem serves_of_card_pos (h : 0 < (c.pool role).card) : c.Serves role := by
  obtain ⟨t, ht⟩ := Multiset.card_pos_iff_exists_mem.1 h
  obtain ⟨gpu, hmem, hrole, -⟩ := mem_pool.1 ht
  obtain ⟨node, hnode, hgpu⟩ := List.mem_flatMap.1 hmem
  exact ⟨node, hnode, gpu, hgpu, hrole⟩

end ClusterTopology

end KvFlowSim
