import KvFlowSim.Foundations.Least
import KvFlowSim.Cluster.Topology

/-!
# Clusters that the selection cannot tell apart

Two clusters of one shape may differ in the busy times of their GPUs. From a time `since` on the
selection of an idle GPU does not notice if the times that differ are earlier than `since` and rank
the GPUs in the same way (`Harmless`): it tests whether a GPU is idle, and compares the busy times
of two GPUs. Busy times that are written from then on are the same in both clusters and keep this up
(`Alike.findIdleGpuFor`, `Alike.setBusyUntil`).
-/

namespace KvFlowSim

open Except List

/-- Both GPUs serve prefill or both serve decode. -/
def GpuResource.shareStage (g h : GpuResource) : Bool :=
  g.serves .prefill && h.serves .prefill || g.serves .decode && h.serves .decode

theorem GpuResource.shareStage_of_serves {g h : GpuResource} {role : WorkerRole}
    (hrole : role = .prefill ∨ role = .decode) (hg : g.serves role = true)
    (hh : h.serves role = true) :
    g.shareStage h = true := by
  rcases hrole with rfl | rfl
  · simp only [shareStage, hg, hh, Bool.and_self, Bool.true_or]
  · simp only [shareStage, hg, hh, Bool.and_self, Bool.or_true]

/-- The selection compares two GPUs if they share a stage. Where two nodes share an id it looks up
GPUs that it did not select, and may compare any two. -/
def GpuResource.Comparable (distinct : Prop) (g h : GpuResource) : Prop :=
  distinct → g.shareStage h = true

instance (distinct : Prop) [Decidable distinct] (g h : GpuResource) :
    Decidable (g.Comparable distinct h) :=
  inferInstanceAs (Decidable (distinct → g.shareStage h = true))

/-- The pairs `S` of GPUs are of one kind, idle alike from `since` on and ranked alike. -/
structure Harmless (since : UInt64) (distinct : Prop)
    (S : GpuResource → GpuResource → Prop) : Prop where
  same : ∀ g g', S g g' → g' = g.setBusyUntil g'.busyUntilNs
  busy : ∀ g g', S g g' →
    g'.busyUntilNs = g.busyUntilNs ∨ g.busyUntilNs < since ∧ g'.busyUntilNs < since
  rank : ∀ g g' h h', S g g' → S h h' → g.Comparable distinct h →
    (g.busyUntilNs ≤ h.busyUntilNs ↔ g'.busyUntilNs ≤ h'.busyUntilNs)

/-- The pairs `S`, and the same pairs with the busy time `t`. -/
def WithUpdates (t : UInt64) (S : GpuResource → GpuResource → Prop) (g g' : GpuResource) : Prop :=
  S g g' ∨ ∃ h h', S h h' ∧ g = h.setBusyUntil t ∧ g' = h'.setBusyUntil t

namespace Harmless

variable {since now t : UInt64} {distinct : Prop} {S : GpuResource → GpuResource → Prop}
  {g g' : GpuResource}

theorem serves (hS : Harmless since distinct S) (h : S g g') (role : WorkerRole) :
    g'.serves role = g.serves role := by
  rw [hS.same g g' h, GpuResource.serves_setBusyUntil]

theorem isIdleAt (hS : Harmless since distinct S) (hnow : since ≤ now) (h : S g g') :
    g'.isIdleAt now = g.isIdleAt now := by
  rcases hS.busy g g' h with heq | ⟨hg, hg'⟩
  · rw [GpuResource.isIdleAt, heq, GpuResource.isIdleAt]
  · have hle := (hg.trans_le hnow).le
    have hle' := (hg'.trans_le hnow).le
    simp only [GpuResource.isIdleAt, hle, hle']

/-- A busy time that is not earlier than `since` is compared alike to all others. -/
theorem le_iff (hS : Harmless since distinct S) (ht : since ≤ t) (h : S g g') :
    (t ≤ g.busyUntilNs ↔ t ≤ g'.busyUntilNs) ∧ (g.busyUntilNs ≤ t ↔ g'.busyUntilNs ≤ t) := by
  rcases hS.busy g g' h with heq | ⟨hg, hg'⟩
  · rw [heq]
    exact ⟨Iff.rfl, Iff.rfl⟩
  · have hlt := hg.trans_le ht
    have hlt' := hg'.trans_le ht
    exact ⟨iff_of_false hlt.not_ge hlt'.not_ge, iff_of_true hlt.le hlt'.le⟩

theorem withUpdates (hS : Harmless since distinct S) (ht : since ≤ t) :
    Harmless since distinct (WithUpdates t S) where
  same g g' h := by
    rcases h with h | ⟨k, k', hk, rfl, rfl⟩
    · exact hS.same g g' h
    · rw [hS.same k k' hk]
      rfl
  busy g g' h := by
    rcases h with h | ⟨k, k', hk, rfl, rfl⟩
    · exact hS.busy g g' h
    · exact .inl rfl
  rank g g' h h' hg hh hcomp := by
    rcases hg with hg | ⟨k, k', hk, rfl, rfl⟩
    · rcases hh with hh | ⟨k, k', hk, rfl, rfl⟩
      · exact hS.rank g g' h h' hg hh hcomp
      · exact (hS.le_iff ht hg).2
    · rcases hh with hh | ⟨k, k', hk, rfl, rfl⟩
      · exact (hS.le_iff ht hh).1
      · exact iff_of_true le_rfl le_rfl

end Harmless

/-- Nodes that agree but for the busy times of corresponding GPUs. -/
def ServingNode.Alike (S : GpuResource → GpuResource → Prop) (m m' : ServingNode) : Prop :=
  m' = { m with gpus := m'.gpus } ∧ Forall₂ S m.gpus m'.gpus

theorem ServingNode.Alike.mono {S S' : GpuResource → GpuResource → Prop} {m m' : ServingNode}
    (h : m.Alike S m') (hS : ∀ g g', S g g' → S' g g') : m.Alike S' m' :=
  ⟨h.1, h.2.imp hS⟩

theorem ServingNode.Alike.nodeId {S : GpuResource → GpuResource → Prop} {m m' : ServingNode}
    (h : m.Alike S m') : m'.nodeId = m.nodeId := by
  rw [h.1]

theorem ServingNode.Alike.findIdleGpuFor {since now : UInt64} {distinct : Prop} {role : WorkerRole}
    {S : GpuResource → GpuResource → Prop} {m m' : ServingNode} (hS : Harmless since distinct S)
    (hnow : since ≤ now) (hrole : role = .prefill ∨ role = .decode) (h : m.Alike S m') :
    m'.findIdleGpuFor now role = m.findIdleGpuFor now role := by
  let eligible : GpuResource × ℕ → Bool := fun p => p.1.isIdleAt now && p.1.serves role
  let Same : GpuResource × ℕ → GpuResource × ℕ → Prop := fun p q => S p.1 q.1 ∧ p.2 = q.2
  have hfilter : Forall₂ Same (m.gpus.zipIdx.filter eligible) (m'.gpus.zipIdx.filter eligible) := by
    refine rel_filter (fun p q hpq => ?_) (forall₂_zipIdx h.2 0)
    simp only [eligible, hS.isIdleAt hnow hpq.1, hS.serves hpq.1]
  have hserve : ∀ p ∈ m.gpus.zipIdx.filter eligible, p.1.serves role = true := fun p hp =>
    (Bool.and_eq_true_iff.1 (mem_filter.1 hp).2).2
  have hmin : Option.Rel (fun p q => p.1.serves role = true ∧ Same p q)
      ((m.gpus.zipIdx.filter eligible).argmin fun p => p.1.busyUntilNs)
      ((m'.gpus.zipIdx.filter eligible).argmin fun p => p.1.busyUntilNs) := by
    refine rel_argmin ((forall₂_and_left _ _).2 ⟨hserve, hfilter⟩) fun p q p' q' hp hp' => ?_
    exact hS.rank _ _ _ _ hp.2.1 hp'.2.1 fun _ => GpuResource.shareStage_of_serves hrole hp.1 hp'.1
  rw [ServingNode.findIdleGpuFor, ServingNode.findIdleGpuFor]
  generalize (m.gpus.zipIdx.filter eligible).argmin (fun p => p.1.busyUntilNs) = o at hmin ⊢
  generalize (m'.gpus.zipIdx.filter eligible).argmin (fun p => p.1.busyUntilNs) = o' at hmin ⊢
  cases hmin with
  | none => rfl
  | some hpq => rw [Option.map_some, Option.map_some, hpq.2.2]

namespace ClusterTopology

/-- Clusters that agree but for busy times that the selection does not notice from `since` on. -/
def Alike (since : UInt64) (c c' : ClusterTopology) : Prop :=
  ∃ S, Harmless since c.DistinctNodeIds S ∧ Forall₂ (ServingNode.Alike S) c.nodes c'.nodes

variable {since now t : UInt64} {c c' : ClusterTopology} {S : GpuResource → GpuResource → Prop}
  {n : NodeId} {i : ℕ} {role : WorkerRole}

theorem rel_node (h : Forall₂ (ServingNode.Alike S) c.nodes c'.nodes) (n : NodeId) :
    Option.Rel (ServingNode.Alike S) (c.node n) (c'.node n) :=
  rel_find? h fun m m' hm => by rw [hm.nodeId]

/-- The look-up of a busy time. -/
theorem related_gpuBusyUntil (h : Forall₂ (ServingNode.Alike S) c.nodes c'.nodes)
    (n : NodeId) (i : ℕ) :
    Related (fun t t' => ∃ g g', S g g' ∧ c.gpuAt n i = some g ∧ t = g.busyUntilNs ∧
      t' = g'.busyUntilNs)
      (c.gpuBusyUntil n i) (c'.gpuBusyUntil n i) := by
  have hnode := rel_node h n
  unfold gpuBusyUntil gpuAt
  generalize c'.node n = o' at hnode
  generalize c.node n = o at hnode
  cases hnode with
  | none => exact .error _
  | @some m m' hm =>
    have hgpu := rel_getElem? hm.2 i
    dsimp only [Option.bind_some]
    generalize m'.gpus[i]? = o' at hgpu
    generalize m.gpus[i]? = o at hgpu
    cases hgpu with
    | none => exact .error _
    | some hg => exact .ok ⟨_, _, hg, rfl, rfl, rfl⟩

/-- A candidate's look-up finds the GPU that was selected, unless two nodes share an id. -/
theorem serves_of_mem_candidates {p : NodeId × ℕ} {gpu : GpuResource} (hd : c.DistinctNodeIds)
    (hp : p ∈ c.candidates now role) (hgpu : c.gpuAt p.1 p.2 = some gpu) :
    gpu.serves role = true := by
  obtain ⟨a, ha, hid, hi⟩ := mem_candidates.1 hp
  obtain ⟨best, hbest, -, hrole, -⟩ := ServingNode.findIdleGpuFor_eq_some hi
  rw [← hid, gpuAt_of_mem hd ha, hbest] at hgpu
  exact Option.some.inj hgpu ▸ hrole

theorem Alike.findIdleGpuFor (h : c.Alike since c') (hnow : since ≤ now)
    (hrole : role = .prefill ∨ role = .decode) :
    c'.findIdleGpuFor now role = c.findIdleGpuFor now role := by
  obtain ⟨S, hS, hnodes⟩ := h
  have hcand : Forall₂ Eq (c.candidates now role) (c'.candidates now role) := by
    refine rel_filterMap (fun m m' hm => ?_) hnodes
    rw [hm.findIdleGpuFor hS hnow hrole, hm.nodeId]
    cases m.findIdleGpuFor now role with
    | none => exact .none
    | some gpuIdx => exact .some rfl
  rw [forall₂_eq_eq_eq] at hcand
  -- the candidates are the same, and so is the order of their busy times
  let Key : (NodeId × ℕ) × UInt64 → (NodeId × ℕ) × UInt64 → Prop := fun k k' => k.1 = k'.1 ∧
    ∃ g g', S g g' ∧ (c.DistinctNodeIds → g.serves role = true) ∧ k.2 = g.busyUntilNs ∧
      k'.2 = g'.busyUntilNs
  have hkeyed : Related (Forall₂ Key)
      ((c.candidates now role).mapM fun p => do
        let busyUntilNs ← c.gpuBusyUntil p.1 p.2
        .ok (p, busyUntilNs))
      ((c.candidates now role).mapM fun p => do
        let busyUntilNs ← c'.gpuBusyUntil p.1 p.2
        .ok (p, busyUntilNs)) := by
    refine Related.mapM fun p hp => (related_gpuBusyUntil hnodes p.1 p.2).bind ?_
    rintro _ _ - ⟨g, g', hg, hgpu, rfl, rfl⟩
    exact .ok ⟨rfl, g, g', hg, fun hd => serves_of_mem_candidates hd hp hgpu, rfl, rfl⟩
  have hselect : Related Eq (c.findIdleGpuFor now role) (c'.findIdleGpuFor now role) := by
    unfold ClusterTopology.findIdleGpuFor
    change Related Eq (((c.candidates now role).mapM _) >>= _)
      (((c'.candidates now role).mapM _) >>= _)
    rw [← hcand]
    refine hkeyed.bind fun keyed keyed' _ hforall => .ok ?_
    have hmin : Option.Rel Key (keyed.argmin fun k => k.2) (keyed'.argmin fun k => k.2) := by
      refine rel_argmin hforall ?_
      rintro k k' l l' ⟨-, g, g', hg, hserve, hk, hk'⟩ ⟨-, h, h', hh, hserve', hl, hl'⟩
      rw [hk, hk', hl, hl']
      exact hS.rank g g' h h' hg hh fun hd =>
        GpuResource.shareStage_of_serves hrole (hserve hd) (hserve' hd)
    generalize keyed.argmin (fun k => k.2) = o at hmin ⊢
    generalize keyed'.argmin (fun k => k.2) = o' at hmin ⊢
    cases hmin with
    | none => rfl
    | some hk => rw [Option.map_some, Option.map_some, hk.1]
  exact hselect.eq.symm

/-- A busy time that is written into both clusters leaves them alike. -/
theorem related_setBusyIn {l l' : List ServingNode}
    (h : Forall₂ (ServingNode.Alike S) l l') (n : NodeId) (i : ℕ) (t : UInt64) :
    Related (Forall₂ (ServingNode.Alike (WithUpdates t S))) (setBusyIn n i t l)
      (setBusyIn n i t l') := by
  have hrest : ∀ {l l'}, Forall₂ (ServingNode.Alike S) l l' →
      Forall₂ (ServingNode.Alike (WithUpdates t S)) l l' := fun h =>
    h.imp fun _ _ hm => hm.mono fun _ _ => Or.inl
  induction h with
  | nil => exact .ok .nil
  | @cons m m' l l' hm hl ih =>
    rw [setBusyIn, setBusyIn, hm.nodeId, ← hm.2.length_eq]
    split_ifs
    · refine .ok (.cons ⟨?_, ?_⟩ (hrest hl))
      · rw [ServingNode.setBusyUntil, ServingNode.setBusyUntil, hm.1]
      · exact rel_modify hm.2 (fun g g' => Or.inl) i fun g g' hg => .inr ⟨g, g', hg, rfl, rfl⟩
    · exact .error _
    · exact ih.map fun _ _ => .cons (hm.mono fun _ _ => Or.inl)

theorem Alike.setBusyUntil (h : c.Alike since c') (ht : since ≤ t) (n : NodeId) (i : ℕ) :
    Related (Alike since) (c.setBusyUntil n i t) (c'.setBusyUntil n i t) := by
  obtain ⟨S, hS, hnodes⟩ := h
  have hset := related_setBusyIn hnodes n i t
  unfold ClusterTopology.setBusyUntil
  generalize hl : setBusyIn n i t c.nodes = x at hset ⊢
  generalize setBusyIn n i t c'.nodes = x' at hset ⊢
  cases hset with
  | error e => exact .error e
  | @ok l l' hforall =>
    have hids : (⟨l⟩ : ClusterTopology).DistinctNodeIds = c.DistinctNodeIds := by
      rw [DistinctNodeIds, (setBusyIn_ok hl).1, DistinctNodeIds]
    refine .ok ⟨WithUpdates t S, ?_, hforall⟩
    rw [hids]
    exact hS.withUpdates ht

/-! ## Left-over busy times -/

/-- The clusters differ in busy times only. -/
def SameShape (c c' : ClusterTopology) : Prop :=
  Forall₂ (ServingNode.Alike fun g g' => g' = g.setBusyUntil g'.busyUntilNs) c.nodes c'.nodes

theorem SameShape.refl (c : ClusterTopology) : c.SameShape c :=
  forall₂_same.2 fun _ _ => ⟨rfl, forall₂_same.2 fun _ _ => rfl⟩

theorem SameShape.symm (h : c.SameShape c') : c'.SameShape c := by
  refine (Forall₂.imp (fun m m' hm => ⟨?_, ?_⟩) h).flip
  · rw [hm.1]
  · refine (hm.2.imp fun g g' hg => ?_).flip
    rw [hg]
    rfl

theorem SameShape.distinctNodeIds (h : c.SameShape c') (hd : c.DistinctNodeIds) :
    c'.DistinctNodeIds := by
  have hids : ∀ {l l' : List ServingNode},
      Forall₂ (ServingNode.Alike fun g g' => g' = g.setBusyUntil g'.busyUntilNs) l l' →
      l'.map (·.nodeId) = l.map (·.nodeId) := fun h => by
    induction h with
    | nil => rfl
    | cons hm _ ih => rw [map_cons, map_cons, hm.nodeId, ih]
  rwa [DistinctNodeIds, hids h]

theorem Alike.sameShape (h : c.Alike since c') : c.SameShape c' := by
  obtain ⟨S, hS, hnodes⟩ := h
  exact hnodes.imp fun _ _ hm => hm.mono hS.same

theorem SameShape.setBusyUntil {d : ClusterTopology} (h : c.SameShape c')
    (hset : c'.setBusyUntil n i t = .ok d) : c.SameShape d := by
  suffices ∀ {l l' l'' : List ServingNode},
      Forall₂ (ServingNode.Alike fun g g' => g' = g.setBusyUntil g'.busyUntilNs) l l' →
      setBusyIn n i t l' = .ok l'' →
      Forall₂ (ServingNode.Alike fun g g' => g' = g.setBusyUntil g'.busyUntilNs) l l'' by
    obtain ⟨nodes, hnodes, rfl⟩ := Except.map_eq_ok.1 hset
    exact this h hnodes
  intro l l' l'' h hset
  induction h generalizing l'' with
  | nil =>
    obtain rfl := Except.ok.inj hset
    exact .nil
  | @cons m m' l l' hm hl ih =>
    rw [setBusyIn] at hset
    split_ifs at hset
    · obtain rfl := Except.ok.inj hset
      refine .cons ⟨by rw [hm.1]; rfl, ?_⟩ hl
      have hmodify := rel_modify (u := id) (v := GpuResource.setBusyUntil t) hm.2 (fun _ _ => id) i
        fun g g' hg => by rw [hg]; rfl
      rwa [modify_id] at hmodify
    · obtain ⟨rest, hrest, rfl⟩ := Except.map_eq_ok.1 hset
      exact .cons hm (ih hrest)

/-- The GPUs of two clusters of one shape, in pairs. -/
def gpuPairs (c c' : ClusterTopology) : List (GpuResource × GpuResource) :=
  (c.nodes.zip c'.nodes).flatMap fun p => p.1.gpus.zip p.2.gpus

/-- The busy times of `c'` that are not those of `c` are all over before `since`. -/
def OverBefore (since : UInt64) (c c' : ClusterTopology) : Prop :=
  ∀ p ∈ c.gpuPairs c', p.2.busyUntilNs = p.1.busyUntilNs ∨
    p.1.busyUntilNs < since ∧ p.2.busyUntilNs < since

/-- The GPUs that the selection compares rank alike in both clusters. -/
def RankAlike (c c' : ClusterTopology) : Prop :=
  ∀ p ∈ c.gpuPairs c', ∀ q ∈ c.gpuPairs c', p.1.Comparable c.DistinctNodeIds q.1 →
    (p.1.busyUntilNs ≤ q.1.busyUntilNs ↔ p.2.busyUntilNs ≤ q.2.busyUntilNs)

instance (since : UInt64) (c c' : ClusterTopology) : Decidable (c.OverBefore since c') :=
  inferInstanceAs (Decidable (∀ p ∈ c.gpuPairs c', p.2.busyUntilNs = p.1.busyUntilNs ∨
    p.1.busyUntilNs < since ∧ p.2.busyUntilNs < since))

instance (c c' : ClusterTopology) : Decidable (c.RankAlike c') :=
  inferInstanceAs (Decidable (∀ p ∈ c.gpuPairs c', ∀ q ∈ c.gpuPairs c',
    p.1.Comparable c.DistinctNodeIds q.1 →
      (p.1.busyUntilNs ≤ q.1.busyUntilNs ↔ p.2.busyUntilNs ≤ q.2.busyUntilNs)))

/-- Corresponding GPUs are among the pairs. -/
theorem SameShape.pairs (h : c.SameShape c') :
    Forall₂ (ServingNode.Alike fun g g' => g' = g.setBusyUntil g'.busyUntilNs ∧
      (g, g') ∈ c.gpuPairs c') c.nodes c'.nodes := by
  obtain ⟨hlen, hnodes⟩ := forall₂_iff_zip.1 h
  refine forall₂_iff_zip.2 ⟨hlen, fun {m m'} hm => ⟨(hnodes hm).1, ?_⟩⟩
  obtain ⟨hlen', hgpus⟩ := forall₂_iff_zip.1 (hnodes hm).2
  exact forall₂_iff_zip.2 ⟨hlen', fun {g g'} hg =>
    ⟨hgpus hg, mem_flatMap.2 ⟨(m, m'), hm, hg⟩⟩⟩

theorem Alike.of_rankAlike (hshape : c.SameShape c') (hover : c.OverBefore since c')
    (hrank : c.RankAlike c') : c.Alike since c' :=
  ⟨_, ⟨fun _ _ h => h.1, fun _ _ h => hover _ h.2, fun _ _ _ _ h hk => hrank _ h.2 _ hk.2⟩,
    hshape.pairs⟩

end ClusterTopology

end KvFlowSim
