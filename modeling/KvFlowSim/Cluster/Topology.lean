import KvFlowSim.Foundations.EventLoop
import KvFlowSim.Foundations.Least
import KvFlowSim.Foundations.UInt
import KvFlowSim.Error

/-!
# The cluster

`cluster/gpu.rs`, `cluster/node.rs` and `cluster/topology.rs`: nodes with GPUs, each busy until
some time, and the selection of an idle GPU for a role. A GPU is addressed by the id of its node
and its index there; `gpuAt` reads that address the way the code does, through the first node with
the id. The indexing in `find_idle_gpu_for` and in the writes of `busy_until_ns` can panic when two
nodes share an id, so both are in `Except Panic`.

The rack, the NICs and the NIC busy time of a node are read by nothing that is modelled here and
are left out.
-/

namespace KvFlowSim

abbrev NodeId := UInt32

/-- The role of a GPU worker. -/
inductive WorkerRole
  | unified
  | prefill
  | decode
  | cache
  deriving DecidableEq

/-- A GPU. -/
structure GpuResource where
  gpuId : UInt32
  hbmBytes : UInt64
  busyUntilNs : UInt64
  role : WorkerRole
  deriving DecidableEq

namespace GpuResource

def new (gpuId : UInt32) (hbmBytes : UInt64) (role : WorkerRole) : GpuResource :=
  ⟨gpuId, hbmBytes, 0, role⟩

def isIdleAt (gpu : GpuResource) (nowNs : UInt64) : Bool := gpu.busyUntilNs ≤ nowNs

/-- The role test that every selection makes: the requested role or `Unified`. -/
def serves (gpu : GpuResource) (role : WorkerRole) : Bool :=
  gpu.role = role || gpu.role = .unified

def setBusyUntil (t : UInt64) (gpu : GpuResource) : GpuResource := { gpu with busyUntilNs := t }

@[simp] theorem serves_setBusyUntil (t : UInt64) (gpu : GpuResource) (role : WorkerRole) :
    (gpu.setBusyUntil t).serves role = gpu.serves role := rfl

@[simp] theorem busyUntilNs_setBusyUntil (t : UInt64) (gpu : GpuResource) :
    (gpu.setBusyUntil t).busyUntilNs = t := rfl

end GpuResource

/-- A serving node. -/
structure ServingNode where
  nodeId : NodeId
  gpus : List GpuResource
  cpuMemBytes : UInt64
  localSsdBytes : UInt64
  deriving DecidableEq

namespace ServingNode

/-- The index of the idle GPU for `role` that has been idle longest, the first of them on a tie. -/
def findIdleGpuFor (node : ServingNode) (nowNs : UInt64) (role : WorkerRole) : Option ℕ :=
  ((node.gpus.zipIdx.filter fun p => p.1.isIdleAt nowNs && p.1.serves role).argmin
    fun p => p.1.busyUntilNs).map fun p => p.2

/-- The index of the GPU for `role` that can start first, and when, the first of them on a tie. -/
def earliestGpuFor (node : ServingNode) (nowNs : UInt64) (role : WorkerRole) :
    Option (ℕ × UInt64) :=
  ((node.gpus.zipIdx.filter fun p => p.1.serves role).map fun p =>
    (p.2, max p.1.busyUntilNs nowNs)).argmin fun p => p.2

def totalHbmBytes (node : ServingNode) : UInt64 :=
  node.gpus.foldl (fun sum gpu => sum + gpu.hbmBytes) 0

def setBusyUntil (node : ServingNode) (gpuIdx : ℕ) (t : UInt64) : ServingNode :=
  { node with gpus := node.gpus.modify gpuIdx (·.setBusyUntil t) }

variable {node : ServingNode} {nowNs : UInt64} {role : WorkerRole} {gpuIdx : ℕ}

/-- The GPUs that are candidates on their node. -/
theorem mem_filter_idle {gpus : List GpuResource} {p : GpuResource × ℕ} :
    p ∈ gpus.zipIdx.filter (fun p => p.1.isIdleAt nowNs && p.1.serves role) ↔
      gpus[p.2]? = some p.1 ∧ p.1.busyUntilNs ≤ nowNs ∧ p.1.serves role = true := by
  refine (List.mem_filter_zipIdx fun gpu : GpuResource =>
    gpu.isIdleAt nowNs && gpu.serves role).trans ?_
  rw [Bool.and_eq_true, GpuResource.isIdleAt, decide_eq_true_eq]

theorem findIdleGpuFor_eq_none : node.findIdleGpuFor nowNs role = none ↔
    ∀ gpu ∈ node.gpus, gpu.serves role = true → nowNs < gpu.busyUntilNs := by
  rw [findIdleGpuFor, Option.map_eq_none_iff, List.argmin_eq_none, List.eq_nil_iff_forall_not_mem]
  constructor
  · intro h gpu hgpu hrole
    obtain ⟨i, hi⟩ := List.getElem?_of_mem hgpu
    exact not_le.1 fun hle => h (gpu, i) (mem_filter_idle.2 ⟨hi, hle, hrole⟩)
  · intro h p hp
    obtain ⟨hi, hle, hrole⟩ := mem_filter_idle.1 hp
    exact (h p.1 (List.mem_of_getElem? hi) hrole).not_ge hle

/-- The selected GPU is idle, serves the role and has been idle longest. -/
theorem findIdleGpuFor_eq_some (h : node.findIdleGpuFor nowNs role = some gpuIdx) :
    ∃ gpu, node.gpus[gpuIdx]? = some gpu ∧ gpu.busyUntilNs ≤ nowNs ∧ gpu.serves role = true ∧
      ∀ other ∈ node.gpus, other.serves role = true → gpu.busyUntilNs ≤ other.busyUntilNs := by
  obtain ⟨⟨gpu, i⟩, hmin, rfl⟩ := Option.map_eq_some_iff.1 h
  obtain ⟨hgpu, hidle, hrole⟩ := mem_filter_idle.1 (List.argmin_mem hmin)
  refine ⟨gpu, hgpu, hidle, hrole, fun other hother hrole' => ?_⟩
  obtain ⟨j, hj⟩ := List.getElem?_of_mem hother
  rcases le_or_gt other.busyUntilNs nowNs with hle | hlt
  · have hmem : (other, j) ∈ node.gpus.zipIdx.filter
        fun p => p.1.isIdleAt nowNs && p.1.serves role := mem_filter_idle.2 ⟨hj, hle, hrole'⟩
    exact (List.le_of_mem_argmin hmem hmin :)
  · exact hidle.trans hlt.le

end ServingNode

/-- The cluster. -/
structure ClusterTopology where
  nodes : List ServingNode
  deriving DecidableEq

namespace ClusterTopology

def node (c : ClusterTopology) (nodeId : NodeId) : Option ServingNode :=
  c.nodes.find? fun n => n.nodeId = nodeId

/-- `self.node(node_id).unwrap().gpus[gpu_idx].busy_until_ns`. -/
def gpuBusyUntil (c : ClusterTopology) (nodeId : NodeId) (gpuIdx : ℕ) : Except Panic UInt64 :=
  match c.node nodeId with
  | none => .error .unwrapNone
  | some node =>
    match node.gpus[gpuIdx]? with
    | none => .error .indexOutOfBounds
    | some gpu => .ok gpu.busyUntilNs

/-- The idle GPU of the cluster that has been idle longest, among one candidate for each node. -/
def findIdleGpuFor (c : ClusterTopology) (nowNs : UInt64) (role : WorkerRole) :
    Except Panic (Option (NodeId × ℕ)) := do
  let candidates := c.nodes.filterMap fun node =>
    (node.findIdleGpuFor nowNs role).map fun gpuIdx => (node.nodeId, gpuIdx)
  let keyed ← candidates.mapM fun p => do
    let busyUntilNs ← c.gpuBusyUntil p.1 p.2
    .ok (p, busyUntilNs)
  .ok ((keyed.argmin fun k => k.2).map fun k => k.1)

/-- The GPU of the cluster that can start first, and when: the scan keeps the first of the best. -/
def earliestGpuFor (c : ClusterTopology) (nowNs : UInt64) (role : WorkerRole) :
    Option (NodeId × ℕ × UInt64) :=
  c.nodes.foldl (fun best node =>
    match node.earliestGpuFor nowNs role with
    | none => best
    | some (gpuIdx, startNs) =>
      if best.all fun b => startNs < b.2.2 then some (node.nodeId, gpuIdx, startNs) else best) none

/-- `if let Some(node) = self.node_mut(node_id) { node.gpus[gpu_idx].busy_until_ns = t }`, on the
nodes. -/
def setBusyIn (nodeId : NodeId) (gpuIdx : ℕ) (t : UInt64) :
    List ServingNode → Except Panic (List ServingNode)
  | [] => .ok []
  | node :: rest =>
    if node.nodeId = nodeId then
      if gpuIdx < node.gpus.length then .ok (node.setBusyUntil gpuIdx t :: rest)
      else .error .indexOutOfBounds
    else (node :: ·) <$> setBusyIn nodeId gpuIdx t rest

def setBusyUntil (c : ClusterTopology) (nodeId : NodeId) (gpuIdx : ℕ) (t : UInt64) :
    Except Panic ClusterTopology :=
  (⟨·⟩) <$> setBusyIn nodeId gpuIdx t c.nodes

/-- The GPU at an address. -/
def gpuAt (c : ClusterTopology) (nodeId : NodeId) (gpuIdx : ℕ) : Option GpuResource :=
  (c.node nodeId).bind fun node => node.gpus[gpuIdx]?

/-- No two nodes share an id. -/
def DistinctNodeIds (c : ClusterTopology) : Prop := (c.nodes.map (·.nodeId)).Nodup

/-- Every GPU is idle from the start. -/
def AllIdle (c : ClusterTopology) : Prop := ∀ node ∈ c.nodes, ∀ gpu ∈ node.gpus, gpu.busyUntilNs = 0

/-- Some GPU serves the role. -/
def Serves (c : ClusterTopology) (role : WorkerRole) : Prop :=
  ∃ node ∈ c.nodes, ∃ gpu ∈ node.gpus, gpu.serves role = true

instance (c : ClusterTopology) : Decidable c.DistinctNodeIds :=
  inferInstanceAs (Decidable (List.Nodup _))

instance (c : ClusterTopology) : Decidable c.AllIdle :=
  inferInstanceAs (Decidable (∀ node ∈ c.nodes, ∀ gpu ∈ node.gpus, gpu.busyUntilNs = 0))

instance (c : ClusterTopology) (role : WorkerRole) : Decidable (c.Serves role) :=
  inferInstanceAs (Decidable (∃ node ∈ c.nodes, ∃ gpu ∈ node.gpus, gpu.serves role = true))

/-- The cluster of one node with so many idle prefill and decode GPUs. -/
def singleNode (prefillGpus decodeGpus : ℕ) : ClusterTopology where
  nodes := [{
    nodeId := 0
    gpus :=
      (List.range prefillGpus).map (fun i => .new (.ofNat i) 80000000000 .prefill) ++
        (List.range decodeGpus).map fun i => .new (.ofNat (prefillGpus + i)) 80000000000 .decode
    cpuMemBytes := 1000000000000
    localSsdBytes := 10000000000000 }]

variable {c c' : ClusterTopology} {n : NodeId} {i : ℕ} {t now : UInt64} {role : WorkerRole}

/-! ## Addresses -/

theorem node_cons (a : ServingNode) (rest : List ServingNode) (m : NodeId) :
    (⟨a :: rest⟩ : ClusterTopology).node m =
      if a.nodeId = m then some a else (⟨rest⟩ : ClusterTopology).node m := by
  simp only [ClusterTopology.node, List.find?_cons]
  split_ifs with h <;> simp [h]

theorem gpuAt_cons (a : ServingNode) (rest : List ServingNode) (m : NodeId) (j : ℕ) :
    (⟨a :: rest⟩ : ClusterTopology).gpuAt m j =
      if a.nodeId = m then a.gpus[j]? else (⟨rest⟩ : ClusterTopology).gpuAt m j := by
  simp only [gpuAt, node_cons]
  split_ifs <;> rfl

theorem node_of_mem (hd : c.DistinctNodeIds) {a : ServingNode} (ha : a ∈ c.nodes) :
    c.node a.nodeId = some a := by
  obtain ⟨nodes⟩ := c
  induction nodes with
  | nil => simp at ha
  | cons m rest ih =>
    simp only [DistinctNodeIds, List.map_cons, List.nodup_cons, List.mem_map, not_exists,
      not_and] at hd
    rw [node_cons]
    rcases List.mem_cons.1 ha with rfl | ha
    · rw [if_pos rfl]
    · rw [if_neg (Ne.symm (hd.1 a ha))]
      exact ih hd.2 ha

theorem gpuAt_of_mem (hd : c.DistinctNodeIds) {a : ServingNode} (ha : a ∈ c.nodes) (j : ℕ) :
    c.gpuAt a.nodeId j = a.gpus[j]? := by
  rw [gpuAt, node_of_mem hd ha, Option.bind_some]

theorem exists_mem_of_gpuAt {gpu : GpuResource} (h : c.gpuAt n i = some gpu) :
    ∃ a ∈ c.nodes, a.nodeId = n ∧ a.gpus[i]? = some gpu := by
  obtain ⟨a, ha, hgpu⟩ := Option.bind_eq_some_iff.1 h
  have hid := List.find?_some ha
  exact ⟨a, List.mem_of_find?_eq_some ha, by simpa using hid, hgpu⟩

theorem Serves.gpuAt (hd : c.DistinctNodeIds) (h : c.Serves role) :
    ∃ n i gpu, c.gpuAt n i = some gpu ∧ gpu.serves role = true := by
  obtain ⟨a, ha, gpu, hgpu, hrole⟩ := h
  obtain ⟨j, hj⟩ := List.getElem?_of_mem hgpu
  exact ⟨a.nodeId, j, gpu, by rw [gpuAt_of_mem hd ha, hj], hrole⟩

theorem AllIdle.gpuAt (hi : c.AllIdle) {gpu : GpuResource} (h : c.gpuAt n i = some gpu) :
    gpu.busyUntilNs = 0 := by
  obtain ⟨a, ha, -, hgpu⟩ := exists_mem_of_gpuAt h
  exact hi a ha gpu (List.mem_of_getElem? hgpu)

theorem gpuBusyUntil_eq {gpu : GpuResource} (h : c.gpuAt n i = some gpu) :
    c.gpuBusyUntil n i = .ok gpu.busyUntilNs := by
  obtain ⟨a, ha, hgpu⟩ := Option.bind_eq_some_iff.1 h
  simp only [gpuBusyUntil, ha, hgpu]

/-! ## Writing a busy time -/

theorem setBusyIn_ok {nodes nodes' : List ServingNode} (h : setBusyIn n i t nodes = .ok nodes') :
    nodes'.map (·.nodeId) = nodes.map (·.nodeId) ∧ ∀ m j, (⟨nodes'⟩ : ClusterTopology).gpuAt m j =
      if m = n ∧ j = i then ((⟨nodes⟩ : ClusterTopology).gpuAt n i).map (·.setBusyUntil t)
      else (⟨nodes⟩ : ClusterTopology).gpuAt m j := by
  induction nodes generalizing nodes' with
  | nil =>
    obtain rfl := Except.ok.inj h
    simp [gpuAt, node]
  | cons a rest ih =>
    rw [setBusyIn] at h
    split_ifs at h with ha hi
    · obtain rfl := Except.ok.inj h
      refine ⟨rfl, fun m j => ?_⟩
      have hid : (a.setBusyUntil i t).nodeId = a.nodeId := rfl
      rw [gpuAt_cons, gpuAt_cons, gpuAt_cons, hid, if_pos ha]
      by_cases hm : a.nodeId = m
      · have hm' : m = n := hm.symm.trans ha
        simp only [hm, hm', if_true, true_and, ServingNode.setBusyUntil, List.getElem?_modify]
        by_cases hj : j = i
        · simp [hj]
        · simp [hj, Ne.symm hj]
      · have hm' : m ≠ n := fun h => hm (ha.trans h.symm)
        simp [hm, hm']
    · obtain ⟨rest', hrest, rfl⟩ := Except.map_eq_ok.1 h
      obtain ⟨hids, hgpu⟩ := ih hrest
      refine ⟨by simp [hids], fun m j => ?_⟩
      rw [gpuAt_cons, gpuAt_cons, gpuAt_cons, if_neg ha, hgpu]
      by_cases hm : a.nodeId = m
      · have hm' : m ≠ n := fun h => ha (hm.trans h)
        simp [hm, hm']
      · simp [hm]

/-- A write changes the busy time at its address and nothing else. -/
theorem setBusyUntil_ok (h : c.setBusyUntil n i t = .ok c') :
    c'.nodes.map (·.nodeId) = c.nodes.map (·.nodeId) ∧ ∀ m j, c'.gpuAt m j =
      if m = n ∧ j = i then (c.gpuAt n i).map (·.setBusyUntil t) else c.gpuAt m j := by
  obtain ⟨nodes, hnodes, rfl⟩ := Except.map_eq_ok.1 h
  exact setBusyIn_ok hnodes

theorem setBusyUntil_self (h : c.setBusyUntil n i t = .ok c') :
    c'.gpuAt n i = (c.gpuAt n i).map (·.setBusyUntil t) := by
  rw [(setBusyUntil_ok h).2, if_pos ⟨rfl, rfl⟩]

theorem setBusyUntil_ne (h : c.setBusyUntil n i t = .ok c') {m : NodeId} {j : ℕ}
    (hne : ¬(m = n ∧ j = i)) : c'.gpuAt m j = c.gpuAt m j := by
  rw [(setBusyUntil_ok h).2, if_neg hne]

/-- No GPU disappears or changes its role. -/
theorem gpuAt_setBusyUntil (h : c.setBusyUntil n i t = .ok c') {m : NodeId} {j : ℕ}
    {gpu : GpuResource} (hgpu : c.gpuAt m j = some gpu) :
    ∃ gpu', c'.gpuAt m j = some gpu' ∧ gpu'.role = gpu.role := by
  by_cases hmj : m = n ∧ j = i
  · obtain ⟨rfl, rfl⟩ := hmj
    exact ⟨gpu.setBusyUntil t, by rw [setBusyUntil_self h, hgpu, Option.map_some], rfl⟩
  · exact ⟨gpu, by rw [setBusyUntil_ne h hmj, hgpu], rfl⟩

theorem gpuAt_of_setBusyUntil (h : c.setBusyUntil n i t = .ok c') {m : NodeId} {j : ℕ}
    {gpu : GpuResource} (hgpu : c'.gpuAt m j = some gpu) : ∃ old, c.gpuAt m j = some old := by
  by_cases hmj : m = n ∧ j = i
  · obtain ⟨rfl, rfl⟩ := hmj
    rw [setBusyUntil_self h] at hgpu
    exact (Option.map_eq_some_iff.1 hgpu).imp fun _ h => h.1
  · exact ⟨gpu, by rw [← setBusyUntil_ne h hmj, hgpu]⟩

theorem DistinctNodeIds.setBusyUntil (hd : c.DistinctNodeIds) (h : c.setBusyUntil n i t = .ok c') :
    c'.DistinctNodeIds := by
  rw [DistinctNodeIds, (setBusyUntil_ok h).1]
  exact hd

/-- A write at the address of a GPU does not panic. -/
theorem setBusyUntil_isOk {gpu : GpuResource} (h : c.gpuAt n i = some gpu) (t : UInt64) :
    ∃ c', c.setBusyUntil n i t = .ok c' := by
  obtain ⟨nodes⟩ := c
  suffices ∃ nodes', setBusyIn n i t nodes = .ok nodes' by
    obtain ⟨nodes', h'⟩ := this
    exact ⟨⟨nodes'⟩, by simp only [ClusterTopology.setBusyUntil, h']; rfl⟩
  induction nodes with
  | nil => simp [gpuAt, node] at h
  | cons a rest ih =>
    rw [setBusyIn]
    rw [gpuAt_cons] at h
    split_ifs at h with ha
    · exact ⟨_, by rw [if_pos ha, if_pos (List.getElem?_eq_some_iff.1 h).1]⟩
    · obtain ⟨rest', hrest⟩ := ih h
      exact ⟨a :: rest', by rw [if_neg ha, hrest]; rfl⟩

/-! ## Selecting an idle GPU -/

/-- The candidates of `find_idle_gpu_for` with their keys, once the look-ups are known
to succeed. -/
theorem mapM_gpuBusyUntil {l : List (NodeId × ℕ)} {busy : NodeId × ℕ → UInt64}
    (h : ∀ p ∈ l, c.gpuBusyUntil p.1 p.2 = .ok (busy p)) :
    (l.mapM fun p => do
      let busyUntilNs ← c.gpuBusyUntil p.1 p.2
      .ok (p, busyUntilNs)) = (.ok (l.map fun p => (p, busy p)) : Except Panic _) := by
  induction l with
  | nil => rfl
  | cons p l ih =>
    rw [List.mapM_cons, h p List.mem_cons_self, ih fun q hq => h q (List.mem_cons_of_mem _ hq)]
    rfl

/-- The per-node candidates of `find_idle_gpu_for`. -/
def candidates (c : ClusterTopology) (nowNs : UInt64) (role : WorkerRole) : List (NodeId × ℕ) :=
  c.nodes.filterMap fun node =>
    (node.findIdleGpuFor nowNs role).map fun gpuIdx => (node.nodeId, gpuIdx)

theorem mem_candidates {p : NodeId × ℕ} : p ∈ c.candidates now role ↔
    ∃ a ∈ c.nodes, a.nodeId = p.1 ∧ a.findIdleGpuFor now role = some p.2 := by
  simp only [candidates, List.mem_filterMap, Option.map_eq_some_iff, Prod.ext_iff]
  exact ⟨fun ⟨a, ha, i, hi, h₁, h₂⟩ => ⟨a, ha, h₁, h₂ ▸ hi⟩,
    fun ⟨a, ha, h₁, hi⟩ => ⟨a, ha, p.2, hi, h₁, rfl⟩⟩

/-- A candidate is an idle GPU of the role. -/
theorem gpuAt_of_mem_candidates (hd : c.DistinctNodeIds) {p : NodeId × ℕ}
    (hp : p ∈ c.candidates now role) : ∃ gpu, c.gpuAt p.1 p.2 = some gpu ∧
      gpu.busyUntilNs ≤ now ∧ gpu.serves role = true := by
  obtain ⟨a, ha, hid, hi⟩ := mem_candidates.1 hp
  obtain ⟨gpu, hgpu, hidle, hrole, -⟩ := ServingNode.findIdleGpuFor_eq_some hi
  exact ⟨gpu, by rw [← hid, gpuAt_of_mem hd ha, hgpu], hidle, hrole⟩

/-- The busy time of the GPU at an address. -/
def busyUntilAt (c : ClusterTopology) (p : NodeId × ℕ) : UInt64 :=
  ((c.gpuAt p.1 p.2).map (·.busyUntilNs)).getD 0

theorem busyUntilAt_eq {p : NodeId × ℕ} {gpu : GpuResource} (h : c.gpuAt p.1 p.2 = some gpu) :
    c.busyUntilAt p = gpu.busyUntilNs := by
  rw [busyUntilAt, h, Option.map_some, Option.getD_some]

/-- The candidate of the node of an idle GPU has been idle at least as long. -/
theorem exists_candidate (hd : c.DistinctNodeIds) {gpu : GpuResource}
    (hgpu : c.gpuAt n i = some gpu) (hidle : gpu.busyUntilNs ≤ now)
    (hrole : gpu.serves role = true) :
    ∃ p ∈ c.candidates now role, c.busyUntilAt p ≤ gpu.busyUntilNs := by
  obtain ⟨a, ha, -, hget⟩ := exists_mem_of_gpuAt hgpu
  have hmem := List.mem_of_getElem? hget
  cases hj : a.findIdleGpuFor now role with
  | none => exact absurd hidle (ServingNode.findIdleGpuFor_eq_none.1 hj gpu hmem hrole).not_ge
  | some j =>
    obtain ⟨best, hbest, -, -, hle⟩ := ServingNode.findIdleGpuFor_eq_some hj
    have hat : c.gpuAt a.nodeId j = some best := by rw [gpuAt_of_mem hd ha, hbest]
    exact ⟨(a.nodeId, j), mem_candidates.2 ⟨a, ha, rfl, hj⟩,
      (busyUntilAt_eq hat).trans_le (hle gpu hmem hrole)⟩

theorem findIdleGpuFor_eq_argmin (hd : c.DistinctNodeIds) (now : UInt64) (role : WorkerRole) :
    c.findIdleGpuFor now role = .ok ((((c.candidates now role).map fun p =>
      (p, c.busyUntilAt p)).argmin fun k => k.2).map fun k => k.1) := by
  have hbusy : ∀ p ∈ c.candidates now role, c.gpuBusyUntil p.1 p.2 = .ok (c.busyUntilAt p) :=
    fun p hp => by
      obtain ⟨gpu, hgpu, -⟩ := gpuAt_of_mem_candidates hd hp
      rw [gpuBusyUntil_eq hgpu, busyUntilAt_eq hgpu]
  have hkeyed := mapM_gpuBusyUntil hbusy
  simp only [candidates] at hkeyed
  simp only [findIdleGpuFor, hkeyed, Except.ok_bind, candidates]

/-- **The selection of an idle GPU.** With distinct node ids it does not panic; it finds none only
if every GPU of the role is busy, and otherwise one that is idle, serves the role and has been idle
longest in the whole cluster. -/
theorem findIdleGpuFor_spec (hd : c.DistinctNodeIds) (now : UInt64) (role : WorkerRole) :
    (c.findIdleGpuFor now role = .ok none ∧ ∀ n i gpu, c.gpuAt n i = some gpu →
      gpu.serves role = true → now < gpu.busyUntilNs) ∨
    ∃ n i gpu, c.findIdleGpuFor now role = .ok (some (n, i)) ∧ c.gpuAt n i = some gpu ∧
      gpu.busyUntilNs ≤ now ∧ gpu.serves role = true ∧ ∀ n' i' gpu', c.gpuAt n' i' = some gpu' →
        gpu'.serves role = true → gpu.busyUntilNs ≤ gpu'.busyUntilNs := by
  rw [findIdleGpuFor_eq_argmin hd]
  cases hmin : ((c.candidates now role).map fun p => (p, c.busyUntilAt p)).argmin fun k => k.2 with
  | none =>
    rw [List.argmin_eq_none, List.map_eq_nil_iff] at hmin
    refine .inl ⟨rfl, fun n i gpu hgpu hrole => not_le.1 fun hidle => ?_⟩
    obtain ⟨p, hp, -⟩ := exists_candidate hd hgpu hidle hrole
    rw [hmin] at hp
    exact absurd hp List.not_mem_nil
  | some k =>
    obtain ⟨p, hp, rfl⟩ := List.mem_map.1 (List.argmin_mem hmin)
    obtain ⟨gpu, hgpu, hidle, hrole⟩ := gpuAt_of_mem_candidates hd hp
    refine .inr ⟨p.1, p.2, gpu, rfl, hgpu, hidle, hrole, fun n' i' gpu' hgpu' hrole' => ?_⟩
    rcases le_or_gt gpu'.busyUntilNs now with hidle' | hbusy'
    · obtain ⟨q, hq, hle⟩ := exists_candidate hd hgpu' hidle' hrole'
      have hmem := List.mem_map_of_mem (f := fun p => (p, c.busyUntilAt p)) hq
      have hfirst := List.le_of_mem_argmin hmem hmin
      exact (busyUntilAt_eq hgpu).ge.trans (hfirst.trans hle)
    · exact hidle.trans hbusy'.le

theorem findIdleGpuFor_isOk (hd : c.DistinctNodeIds) (now : UInt64) (role : WorkerRole) :
    ∃ o, c.findIdleGpuFor now role = .ok o := by
  rcases findIdleGpuFor_spec hd now role with ⟨h, -⟩ | ⟨n, i, -, h, -⟩
  exacts [⟨_, h⟩, ⟨_, h⟩]

/-- No GPU was found: all of the role are busy. -/
theorem busy_of_findIdleGpuFor (hd : c.DistinctNodeIds)
    (h : c.findIdleGpuFor now role = .ok none) {gpu : GpuResource} (hgpu : c.gpuAt n i = some gpu)
    (hrole : gpu.serves role = true) : now < gpu.busyUntilNs := by
  rcases findIdleGpuFor_spec hd now role with ⟨-, hbusy⟩ | ⟨_, _, _, h', -⟩
  · exact hbusy n i gpu hgpu hrole
  · rw [h'] at h
    simp at h

/-- A GPU was found: it is idle, serves the role and has been idle longest. -/
theorem idle_of_findIdleGpuFor (hd : c.DistinctNodeIds)
    (h : c.findIdleGpuFor now role = .ok (some (n, i))) :
    ∃ gpu, c.gpuAt n i = some gpu ∧ gpu.busyUntilNs ≤ now ∧ gpu.serves role = true ∧
      ∀ n' i' gpu', c.gpuAt n' i' = some gpu' → gpu'.serves role = true →
        gpu.busyUntilNs ≤ gpu'.busyUntilNs := by
  rcases findIdleGpuFor_spec hd now role with ⟨h', -⟩ | ⟨n', i', gpu, h', hgpu⟩
  · rw [h'] at h
    simp at h
  · rw [h'] at h
    obtain ⟨rfl, rfl⟩ := Prod.mk.inj (Option.some.inj (Except.ok.inj h))
    exact ⟨gpu, hgpu⟩

end ClusterTopology

end KvFlowSim
