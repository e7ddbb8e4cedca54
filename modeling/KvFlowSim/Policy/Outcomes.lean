import KvFlowSim.Policy.Victims
import KvFlowSim.Policy.Lru
import KvFlowSim.Policy.NetworkAware

/-!
# The outcomes of a placement

One theorem for each policy says which eviction loops a placement went through and what came of it:
the object was stored after the evictions (`StoredAfter`) or the placement failed after them
(`FailedAfter`). It rests on the accounting of the cache, by which the capacity of a tier decides
whether its loop makes room.
-/

namespace KvFlowSim

/-- The node exists and has a GPU. -/
def ClusterTopology.HasGpu (cluster : ClusterTopology) (nodeId : NodeId) : Prop :=
  ∃ node, cluster.node nodeId = some node ∧ node.gpus ≠ []

/-- What a placement returns and the cache it leaves. -/
def Placed.outcome {P T : Type} (placed : Placed P T) : PlaceResult × CacheState :=
  (placed.result, placed.cache)

variable {n : NodeId} {t : TierKind} {c : CacheState} {ev ev' : List EvictedKv} {bytes : UInt64}
  {cluster : ClusterTopology}

/-- The object was stored after the evictions. -/
def StoredAfter (c : CacheState) (ev : List EvictedKv) (obj : KvObject)
    (out : PlaceResult × CacheState) : Prop :=
  out = (.ok (obj.location, ev), (c.removeAll ev).store obj)

/-- The placement failed after the evictions. -/
def FailedAfter (c : CacheState) (ev : List EvictedKv) (out : PlaceResult × CacheState) : Prop :=
  ∃ e, out = (.error e, c.removeAll ev)

/-! ## Insertion -/

theorem insertAt_of_room {obj : KvObject} (hslot : obj.location.slot = some (n, t))
    (hroom : obj.bytes ≤ c.availableSpace n t) (ev : List EvictedKv) :
    insertAt c obj ev = (.ok (obj.location, ev), c.store obj) := by
  simp only [insertAt, CacheState.insert, hslot, if_neg (not_lt.2 hroom)]

theorem insertAt_of_lt {obj : KvObject} (hslot : obj.location.slot = some (n, t))
    (hlt : c.availableSpace n t < obj.bytes) (ev : List EvictedKv) :
    ∃ e, insertAt c obj ev = (.error e, c) := by
  simp only [insertAt, CacheState.insert, hslot, if_pos hlt]
  exact ⟨_, rfl⟩

theorem newObject_spec (kvId : KvId) (sessionId : UInt64) (prefixTokens : UInt32)
    (bytes nowNs : UInt64) (loc : CacheLocation) :
    (newObject kvId sessionId prefixTokens bytes nowNs loc).location = loc ∧
      (newObject kvId sessionId prefixTokens bytes nowNs loc).bytes = bytes :=
  ⟨rfl, rfl⟩

/-- Evicting in one tier leaves the space of the others as it is. -/
theorem Evicts.availableSpace_eq (h : Evicts n t bytes c [] ev) {n' : NodeId} {t' : TierKind}
    (hne : (n, t) ≠ (n', t')) :
    (c.removeAll ev).availableSpace n' t' = c.availableSpace n' t' := by
  have husage := CacheState.usage_removeAll (c := c) (n := n') (t := t') fun e he heq => by
    rcases h.slotAt e he with hold | hslot
    · exact absurd hold List.not_mem_nil
    · exact hne (Option.some.inj (hslot.symm.trans heq))
  rw [CacheState.availableSpace, husage, CacheState.capacity_removeAll]
  rfl

/-! ## One tier -/

/-- Where a single tier is cleared and the insertion decides, its capacity does. -/
theorem evict_insertAt (hacc : c.Accounted) (obj : KvObject)
    (hslot : obj.location.slot = some (n, t)) :
    ∃ ev, evictLru n t obj.bytes c [] = (c.removeAll ev, ev) ∧ Clears n t obj.bytes c [] ev ∧
      ((obj.bytes ≤ c.capacity n t ∧ StoredAfter c ev obj (insertAt (c.removeAll ev) obj ev)) ∨
        (c.capacity n t < obj.bytes ∧ FailedAfter c ev (insertAt (c.removeAll ev) obj ev))) := by
  obtain ⟨ev, hev, hclears⟩ := evictLru_clears n t obj.bytes c []
  refine ⟨ev, hev, hclears, ?_⟩
  rcases le_or_gt obj.bytes (c.capacity n t) with hfits | hlt
  · exact .inl ⟨hfits, insertAt_of_room hslot ((hclears.room_iff hacc).2 hfits) ev⟩
  · refine .inr ⟨hlt, insertAt_of_lt hslot (not_le.1 fun hroom => ?_) ev⟩
    exact absurd ((hclears.room_iff hacc).1 hroom) (not_le.2 hlt)

section Place

variable {C T : Type} [ComputeModel C] [TransferModel T] (kvId : KvId) (sessionId : UInt64)
  (prefixTokens : UInt32) (bytes nowNs : UInt64) (cluster : ClusterTopology) {cache : CacheState}
  (compute : C) (transfer : T)

/-- The tier that the threshold selects, and the location in it. -/
def SizeAware.tier (self : SizeAware) (bytes : UInt64) : TierKind :=
  if bytes ≤ self.gpuThresholdBytes then .gpu else .cpu

def SizeAware.location (self : SizeAware) (bytes : UInt64) : CacheLocation :=
  if bytes ≤ self.gpuThresholdBytes then .gpu self.targetNode 0 else .cpu self.targetNode

theorem SizeAware.slot_location (self : SizeAware) (bytes : UInt64) :
    (self.location bytes).slot = some (self.targetNode, self.tier bytes) := by
  unfold location tier
  split_ifs <;> rfl

theorem RemoteLru.place_outcome (self : RemoteLru) (hacc : cache.Accounted) :
    let out := (PlacementPolicy.place self kvId sessionId prefixTokens bytes nowNs cluster cache
      compute transfer).outcome
    let obj := newObject kvId sessionId prefixTokens bytes nowNs
    ∃ ev, Clears self.targetNode .remoteMemory bytes cache [] ev ∧
      ((bytes ≤ cache.capacity self.targetNode .remoteMemory ∧
          StoredAfter cache ev (obj (.remoteMemory self.targetNode)) out) ∨
        (cache.capacity self.targetNode .remoteMemory < bytes ∧ FailedAfter cache ev out)) := by
  intro out obj
  obtain ⟨ev, hev, hclears, h⟩ :=
    evict_insertAt hacc (obj (.remoteMemory self.targetNode)) rfl
  have hout : out = insertAt (cache.removeAll ev) (obj (.remoteMemory self.targetNode)) ev := by
    show (insertAt (evictLru _ _ bytes cache []).1 _ (evictLru _ _ bytes cache []).2) = _
    rw [show evictLru self.targetNode .remoteMemory bytes cache [] = _ from hev]
  exact ⟨ev, hclears, hout ▸ h⟩

theorem SizeAware.place_outcome (self : SizeAware) (hacc : cache.Accounted) :
    let out := (PlacementPolicy.place self kvId sessionId prefixTokens bytes nowNs cluster cache
      compute transfer).outcome
    let obj := newObject kvId sessionId prefixTokens bytes nowNs
    ∃ ev, Clears self.targetNode (self.tier bytes) bytes cache [] ev ∧
      ((bytes ≤ cache.capacity self.targetNode (self.tier bytes) ∧
          StoredAfter cache ev (obj (self.location bytes)) out) ∨
        (cache.capacity self.targetNode (self.tier bytes) < bytes ∧ FailedAfter cache ev out)) := by
  intro out obj
  obtain ⟨ev, hev, hclears, h⟩ :=
    evict_insertAt hacc (obj (self.location bytes)) (self.slot_location bytes)
  have hout : out = insertAt (cache.removeAll ev) (obj (self.location bytes)) ev := by
    show (insertAt (evictLru _ (self.tier bytes) bytes cache []).1 (obj _)
      (evictLru _ (self.tier bytes) bytes cache []).2) = _
    rw [show evictLru self.targetNode (self.tier bytes) bytes cache [] = _ from hev]
    congr 2
    unfold SizeAware.location
    split_ifs <;> rfl
  exact ⟨ev, hclears, hout ▸ h⟩

end Place

/-! ## Several tiers -/

theorem findGpuWithSpace_of_space (h : cluster.HasGpu n ∧ bytes ≤ c.availableSpace n .gpu) :
    ∃ gpuId, findGpuWithSpace cluster c n bytes = some gpuId := by
  obtain ⟨⟨node, hnode, hne⟩, hroom⟩ := h
  obtain ⟨gpu, gpus, hgpus⟩ := List.exists_cons_of_ne_nil hne
  exact ⟨gpu.gpuId, by simp only [findGpuWithSpace, hnode, if_pos hroom, hgpus]; rfl⟩

theorem findGpuWithSpace_of_not (h : ¬(cluster.HasGpu n ∧ bytes ≤ c.availableSpace n .gpu)) :
    findGpuWithSpace cluster c n bytes = none := by
  unfold findGpuWithSpace
  split
  next => rfl
  next node hnode =>
    split_ifs with hroom
    · have hnil : node.gpus = [] := by
        by_contra hne
        exact h ⟨⟨node, hnode, hne⟩, hroom⟩
      rw [hnil]
      rfl
    · rfl

theorem tryPlaceInTier_gpu (cluster : ClusterTopology) (c : CacheState) (n : NodeId)
    (bytes : UInt64) : tryPlaceInTier cluster c n .gpu bytes =
      (findGpuWithSpace cluster c n bytes).map (.gpu n) := by
  unfold tryPlaceInTier findGpuWithSpace
  cases cluster.node n with
  | none => split_ifs <;> rfl
  | some node =>
    by_cases hroom : bytes ≤ c.availableSpace n .gpu
    · simp only [if_pos hroom, if_neg (not_lt.2 hroom), Option.map_map]
      rfl
    · simp only [if_neg hroom, if_pos (not_le.1 hroom), Option.map_none]

theorem tryPlaceInTier_cpu (cluster : ClusterTopology) (c : CacheState) (n : NodeId)
    (bytes : UInt64) : tryPlaceInTier cluster c n .cpu bytes =
      if bytes ≤ c.availableSpace n .cpu then some (.cpu n) else none := by
  unfold tryPlaceInTier
  by_cases hroom : bytes ≤ c.availableSpace n .cpu
  · rw [if_pos hroom, if_neg (not_lt.2 hroom)]
  · rw [if_neg hroom, if_pos (not_le.1 hroom)]

/-- A node's GPU tier takes the object: there is a GPU, and the capacity suffices. -/
def GpuHolds (cluster : ClusterTopology) (c : CacheState) (n : NodeId) (bytes : UInt64) : Prop :=
  cluster.HasGpu n ∧ bytes ≤ c.capacity n .gpu

/-- Once its tier is cleared, a GPU is found exactly if the tier takes the object. -/
theorem Clears.gpuHolds_iff (h : Clears n .gpu bytes c ev ev') (hacc : c.Accounted) :
    (cluster.HasGpu n ∧ bytes ≤ (c.removeAll ev').availableSpace n .gpu) ↔
      GpuHolds cluster c n bytes :=
  and_congr_right fun _ => h.room_iff hacc

/-- Where there is room, the loop has nothing to do. -/
theorem Clears.of_room (h : bytes ≤ (c.removeAll ev).availableSpace n t) :
    Clears n t bytes c ev ev :=
  ⟨.refl, .inl h⟩

variable {obj : CacheLocation → KvObject}

/-- An object is stored where it is placed, if there is room for it. -/
theorem insertAt_obj (hobj : ∀ loc, (obj loc).location = loc ∧ (obj loc).bytes = bytes)
    {loc : CacheLocation} (ev : List EvictedKv) (hslot : loc.slot = some (n, t))
    (hroom : bytes ≤ c.availableSpace n t) :
    insertAt c (obj loc) ev = (.ok ((obj loc).location, ev), c.store (obj loc)) :=
  insertAt_of_room (by rw [(hobj loc).1, hslot]) (by rw [(hobj loc).2]; exact hroom) ev

/-- Either the GPU tier takes the object, or it is cleared for nothing and the CPU tier takes it if
it has room as it is. -/
theorem LocalGpuLru.placeObject_outcome (self : LocalGpuLru) (cluster : ClusterTopology)
    (hacc : c.Accounted) (hobj : ∀ loc, (obj loc).location = loc ∧ (obj loc).bytes = bytes) :
    ∃ ev, Clears self.targetNode .gpu bytes c [] ev ∧
      ((GpuHolds cluster c self.targetNode bytes ∧ ∃ gpuId,
          StoredAfter c ev (obj (.gpu self.targetNode gpuId))
            (self.placeObject bytes cluster c obj)) ∨
        (¬GpuHolds cluster c self.targetNode bytes ∧
          bytes ≤ c.availableSpace self.targetNode .cpu ∧
          StoredAfter c ev (obj (.cpu self.targetNode)) (self.placeObject bytes cluster c obj)) ∨
        (¬GpuHolds cluster c self.targetNode bytes ∧
          c.availableSpace self.targetNode .cpu < bytes ∧
          FailedAfter c ev (self.placeObject bytes cluster c obj))) := by
  by_cases hfirst : cluster.HasGpu self.targetNode ∧ bytes ≤ c.availableSpace self.targetNode .gpu
  · obtain ⟨gpuId, hgpu⟩ := findGpuWithSpace_of_space hfirst
    refine ⟨[], .of_room hfirst.2, .inl ⟨⟨hfirst.1, hfirst.2.trans (c.availableSpace_le _ _)⟩,
      gpuId, ?_⟩⟩
    rw [LocalGpuLru.placeObject, hgpu]
    exact insertAt_obj hobj [] rfl hfirst.2
  · obtain ⟨ev, hev, hclears⟩ := evictLru_clears self.targetNode .gpu bytes c []
    refine ⟨ev, hclears, ?_⟩
    rw [CacheState.removeAll_nil] at hev
    have hcpu : (c.removeAll ev).availableSpace self.targetNode .cpu =
        c.availableSpace self.targetNode .cpu := hclears.evicts.availableSpace_eq (by simp)
    simp only [LocalGpuLru.placeObject, findGpuWithSpace_of_not hfirst, hev]
    by_cases hholds : GpuHolds cluster c self.targetNode bytes
    · have hspace := (hclears.gpuHolds_iff hacc).2 hholds
      obtain ⟨gpuId, hgpu⟩ := findGpuWithSpace_of_space hspace
      simp only [if_pos hspace.2, hgpu]
      exact .inl ⟨hholds, gpuId, insertAt_obj hobj ev rfl hspace.2⟩
    · have hspace := fun h => hholds ((hclears.gpuHolds_iff hacc).1 h)
      simp only [findGpuWithSpace_of_not hspace, ite_self, hcpu]
      rcases le_or_gt bytes (c.availableSpace self.targetNode .cpu) with hroom | hlt
      · rw [if_pos hroom]
        exact .inr (.inl ⟨hholds, hroom, insertAt_obj hobj ev rfl (hcpu ▸ hroom)⟩)
      · rw [if_neg (not_le.2 hlt)]
        exact .inr (.inr ⟨hholds, hlt, _, rfl⟩)

/-- Either the GPU tier takes the object, or it is cleared for nothing, and then the CPU tier is
cleared too and takes the object if it can. -/
theorem CpuOffloadLru.placeObject_outcome (self : CpuOffloadLru) (cluster : ClusterTopology)
    (hacc : c.Accounted) (hobj : ∀ loc, (obj loc).location = loc ∧ (obj loc).bytes = bytes) :
    ∃ ev ev', Clears self.targetNode .gpu bytes c [] ev ∧
      Clears self.targetNode .cpu bytes c ev ev' ∧
      ((GpuHolds cluster c self.targetNode bytes ∧ ∃ gpuId,
          StoredAfter c ev (obj (.gpu self.targetNode gpuId))
            (self.placeObject bytes cluster c obj)) ∨
        (¬GpuHolds cluster c self.targetNode bytes ∧ bytes ≤ c.capacity self.targetNode .cpu ∧
          StoredAfter c ev' (obj (.cpu self.targetNode)) (self.placeObject bytes cluster c obj)) ∨
        (¬GpuHolds cluster c self.targetNode bytes ∧ c.capacity self.targetNode .cpu < bytes ∧
          FailedAfter c ev' (self.placeObject bytes cluster c obj))) := by
  by_cases hfirst : cluster.HasGpu self.targetNode ∧ bytes ≤ c.availableSpace self.targetNode .gpu
  · obtain ⟨gpuId, hgpu⟩ := findGpuWithSpace_of_space hfirst
    obtain ⟨ev', -, hclears'⟩ := evictLru_clears self.targetNode .cpu bytes c []
    refine ⟨[], ev', .of_room hfirst.2, hclears',
      .inl ⟨⟨hfirst.1, hfirst.2.trans (c.availableSpace_le _ _)⟩, gpuId, ?_⟩⟩
    simp only [CpuOffloadLru.placeObject, tryPlaceInTier_gpu, hgpu, Option.map_some]
    exact insertAt_obj hobj [] rfl hfirst.2
  · obtain ⟨ev, hev, hclears⟩ := evictLru_clears self.targetNode .gpu bytes c []
    obtain ⟨ev', hev', hclears'⟩ := evictLru_clears self.targetNode .cpu bytes c ev
    refine ⟨ev, ev', hclears, hclears', ?_⟩
    rw [CacheState.removeAll_nil] at hev
    simp only [CpuOffloadLru.placeObject, tryPlaceInTier_gpu, tryPlaceInTier_cpu,
      findGpuWithSpace_of_not hfirst, Option.map_none, hev]
    by_cases hholds : GpuHolds cluster c self.targetNode bytes
    · have hspace := (hclears.gpuHolds_iff hacc).2 hholds
      obtain ⟨gpuId, hgpu⟩ := findGpuWithSpace_of_space hspace
      simp only [hgpu, Option.map_some]
      exact .inl ⟨hholds, gpuId, insertAt_obj hobj ev rfl hspace.2⟩
    · have hspace := fun h => hholds ((hclears.gpuHolds_iff hacc).1 h)
      simp only [findGpuWithSpace_of_not hspace, Option.map_none]
      have hroom := hclears'.room_iff hacc
      by_cases hcpu : bytes ≤ (c.removeAll ev).availableSpace self.targetNode .cpu
      · obtain rfl : ev' = ev := hclears'.eq_iff.2 (.inl hcpu)
        simp only [if_pos hcpu]
        exact .inr (.inl ⟨hholds, hroom.1 hcpu, insertAt_obj hobj ev' rfl hcpu⟩)
      · simp only [if_neg hcpu, hev', hroom]
        rcases le_or_gt bytes (c.capacity self.targetNode .cpu) with hfits | hlt
        · simp only [if_pos hfits]
          exact .inr (.inl ⟨hholds, hfits, insertAt_obj hobj ev' rfl (hroom.2 hfits)⟩)
        · simp only [if_neg (not_le.2 hlt)]
          exact .inr (.inr ⟨hholds, hlt, _, rfl⟩)

/-! ## Tiers in order of preference -/

namespace NetworkAwarePlacement

/-- The tier is large enough, and a GPU is there where one is needed. -/
def Feasible (self : NetworkAwarePlacement) (cluster : ClusterTopology) (c : CacheState)
    (bytes : UInt64) (tier : TierKind) : Prop :=
  bytes ≤ c.capacity self.targetNode tier ∧ (tier = .gpu → cluster.HasGpu self.targetNode)

theorem locationFor_of_feasible {self : NetworkAwarePlacement} {tier : TierKind}
    (hssd : tier ≠ .localSsd) (h : self.Feasible cluster c bytes tier) :
    ∃ loc, locationFor self.targetNode tier cluster = some loc ∧
      loc.slot = some (self.targetNode, tier) := by
  cases tier with
  | gpu =>
    obtain ⟨node, hnode, hne⟩ := h.2 rfl
    obtain ⟨gpu, gpus, hgpus⟩ := List.exists_cons_of_ne_nil hne
    exact ⟨.gpu self.targetNode gpu.gpuId, by simp [locationFor, hnode, hgpus], rfl⟩
  | cpu => exact ⟨_, rfl, rfl⟩
  | localSsd => exact absurd rfl hssd
  | remoteMemory => exact ⟨_, rfl, rfl⟩
  | remoteSsd => exact ⟨_, rfl, rfl⟩

theorem hasGpu_of_locationFor {self : NetworkAwarePlacement} {loc : CacheLocation}
    (h : locationFor self.targetNode .gpu cluster = some loc) : cluster.HasGpu self.targetNode := by
  simp only [locationFor, Option.bind_eq_bind, Option.bind_eq_some_iff] at h
  obtain ⟨node, hnode, gpu, hgpu, -⟩ := h
  exact ⟨node, hnode, fun hnil => by simp [hnil] at hgpu⟩

/-- The first feasible tier is cleared and takes the object. The tiers before it are left alone. -/
theorem tryTiers_outcome (self : NetworkAwarePlacement) (cluster : ClusterTopology)
    (hacc : c.Accounted) (hobj : ∀ loc, (obj loc).location = loc ∧ (obj loc).bytes = bytes)
    (tiers : List (TierKind × ℤ)) (htiers : ∀ p ∈ tiers, p.1 ≠ .localSsd) :
    (∃ pre p post, tiers = pre ++ p :: post ∧ (∀ q ∈ pre, ¬self.Feasible cluster c bytes q.1) ∧
      self.Feasible cluster c bytes p.1 ∧ ∃ loc ev, loc.slot = some (self.targetNode, p.1) ∧
        Clears self.targetNode p.1 bytes c [] ev ∧
        StoredAfter c ev (obj loc) (self.tryTiers bytes cluster obj tiers c [])) ∨
    ((∀ p ∈ tiers, ¬self.Feasible cluster c bytes p.1) ∧
      FailedAfter c [] (self.tryTiers bytes cluster obj tiers c [])) := by
  induction tiers with
  | nil => exact .inr ⟨fun _ hp => absurd hp List.not_mem_nil, _, rfl⟩
  | cons p rest ih =>
    obtain ⟨tier, utility⟩ := p
    by_cases hfeasible : self.Feasible cluster c bytes tier
    · obtain ⟨loc, hloc, hslot⟩ := locationFor_of_feasible (htiers _ List.mem_cons_self) hfeasible
      obtain ⟨ev, hev, hclears⟩ := evictLru_clears self.targetNode tier bytes c []
      have hroom := (hclears.room_iff hacc).2 hfeasible.1
      refine .inl ⟨[], _, rest, rfl, fun _ hq => absurd hq List.not_mem_nil, hfeasible, loc, ev,
        hslot, hclears, ?_⟩
      rw [CacheState.removeAll_nil] at hev
      simp only [tryTiers, hloc, if_neg (not_lt.2 hfeasible.1), hev, if_pos hroom]
      exact insertAt_of_room (by rw [(hobj loc).1, hslot]) (by rw [(hobj loc).2]; exact hroom) ev
    · have hskip : self.tryTiers bytes cluster obj ((tier, utility) :: rest) c [] =
          self.tryTiers bytes cluster obj rest c [] := by
        rw [tryTiers]
        cases hloc : locationFor self.targetNode tier cluster with
        | none => rfl
        | some loc =>
          have hlt : c.capacity self.targetNode tier < bytes := not_le.1 fun hle =>
            hfeasible ⟨hle, fun hgpu => hasGpu_of_locationFor (hgpu ▸ hloc)⟩
          simp only [if_pos hlt]
      rw [hskip]
      rcases ih fun q hq => htiers q (List.mem_cons_of_mem _ hq) with
        ⟨pre, p, post, rfl, hpre, hp⟩ | ⟨hnone, hfailed⟩
      · exact .inl ⟨_ :: pre, p, post, rfl, List.forall_mem_cons.2 ⟨hfeasible, hpre⟩, hp⟩
      · exact .inr ⟨List.forall_mem_cons.2 ⟨hfeasible, hnone⟩, hfailed⟩

end NetworkAwarePlacement

end KvFlowSim
