import KvFlowSim.Policy.Outcomes

/-!
# What every placement does to the cache

Whatever policy is asked, a placement removes least recently used objects and then either stores the
new object in a tier that has room for it or gives up (`Places`). Nothing is assumed of the cache,
so the invariants of a run can rest on it. `Placing` collects the policies of which this is known
and that hand themselves back as they were.
-/

namespace KvFlowSim

/-- What a placement may return, with the cache that it leaves. -/
inductive Places (c : CacheState) (obj : CacheLocation → KvObject) : PlaceResult × CacheState → Prop
  /-- The victims make room, and the object is stored. -/
  | stored {ev : List EvictedKv} {loc : CacheLocation} {n : NodeId} {t : TierKind}
      (hvictims : Victims c ev) (hslot : (obj loc).location.slot = some (n, t))
      (hroom : (obj loc).bytes ≤ (c.removeAll ev).availableSpace n t) :
      Places c obj (.ok ((obj loc).location, ev), (c.removeAll ev).store (obj loc))
  /-- No object is stored. The victims are gone all the same. -/
  | failed {ev : List EvictedKv} {e : KvFlowError} (hvictims : Victims c ev) :
      Places c obj (.error e, c.removeAll ev)

/-- The policies whose placements do no more than that. -/
class Placing (P : Type) [PlacementPolicy P] : Prop where
  places {C T : Type} [ComputeModel C] [TransferModel T] (self : P) (kvId : KvId)
    (sessionId : UInt64)
    (prefixTokens : UInt32) (bytes nowNs : UInt64) (cluster : ClusterTopology) (cache : CacheState)
    (compute : C) (transfer : T) :
    Places cache (newObject kvId sessionId prefixTokens bytes nowNs)
      (PlacementPolicy.place self kvId sessionId prefixTokens bytes nowNs cluster cache compute
        transfer).outcome
  policy_place {C T : Type} [ComputeModel C] [TransferModel T] (self : P) (kvId : KvId)
    (sessionId : UInt64) (prefixTokens : UInt32) (bytes nowNs : UInt64) (cluster : ClusterTopology)
    (cache : CacheState) (compute : C) (transfer : T) :
    (PlacementPolicy.place self kvId sessionId prefixTokens bytes nowNs cluster cache compute
      transfer).policy = self

variable {c : CacheState} {ev : List EvictedKv} {n : NodeId} {t : TierKind} {bytes : UInt64}
  {obj : CacheLocation → KvObject}

theorem Victims.insertAt (h : Victims c ev) (loc : CacheLocation)
    (hslot : (obj loc).location.slot = some (n, t)) :
    Places c obj (insertAt (c.removeAll ev) (obj loc) ev) := by
  rcases le_or_gt (obj loc).bytes ((c.removeAll ev).availableSpace n t) with hroom | hlt
  · rw [insertAt_of_room hslot hroom]
    exact .stored h hslot hroom
  · obtain ⟨e, he⟩ := insertAt_of_lt hslot hlt ev
    rw [he]
    exact .failed h

/-- The eviction loop adds victims. -/
theorem Victims.evictLru (h : Victims c ev) (n : NodeId) (t : TierKind) (bytes : UInt64) :
    ∃ ev', evictLru n t bytes (c.removeAll ev) ev = (c.removeAll ev', ev') ∧ Victims c ev' := by
  obtain ⟨ev', hev', hclears⟩ := evictLru_clears n t bytes c ev
  exact ⟨ev', hev', hclears.evicts.victims h⟩

/-! ## The five policies -/

variable {cluster : ClusterTopology}

/-- A location that is offered is in the tier. -/
theorem slot_of_tryPlaceInTier {loc : CacheLocation}
    (h : tryPlaceInTier cluster c n t bytes = some loc) : loc.slot = some (n, t) := by
  unfold tryPlaceInTier at h
  split_ifs at h
  cases t with
  | gpu =>
    simp only at h
    split at h
    next => simp at h
    next node _ =>
      obtain ⟨gpu, -, rfl⟩ := Option.map_eq_some_iff.1 h
      rfl
  | cpu => exact Option.some.inj h ▸ rfl
  | localSsd => exact Option.some.inj h ▸ rfl
  | remoteMemory => exact Option.some.inj h ▸ rfl
  | remoteSsd => exact Option.some.inj h ▸ rfl

theorem NetworkAwarePlacement.slot_locationFor {loc : CacheLocation}
    (h : locationFor n t cluster = some loc) : loc.slot = some (n, t) := by
  cases t with
  | gpu =>
    simp only [locationFor, Option.bind_eq_bind, Option.bind_eq_some_iff] at h
    obtain ⟨node, -, gpu, -, h⟩ := h
    exact Option.some.inj h ▸ rfl
  | cpu => exact Option.some.inj h ▸ rfl
  | localSsd => simp [locationFor] at h
  | remoteMemory => exact Option.some.inj h ▸ rfl
  | remoteSsd => exact Option.some.inj h ▸ rfl

section Policies

variable (hloc : ∀ loc, (obj loc).location = loc)
include hloc

theorem RemoteLru.places (self : RemoteLru) :
    Places c obj (insertAt (evictLru self.targetNode .remoteMemory bytes c []).1
      (obj (.remoteMemory self.targetNode))
      (evictLru self.targetNode .remoteMemory bytes c []).2) := by
  obtain ⟨ev, hev, hvictims⟩ := (Victims.nil c).evictLru self.targetNode .remoteMemory bytes
  rw [CacheState.removeAll_nil] at hev
  rw [hev]
  exact hvictims.insertAt (.remoteMemory self.targetNode) (by rw [hloc]; rfl)

theorem SizeAware.places (self : SizeAware) :
    Places c obj (insertAt (evictLru self.targetNode (self.tier bytes) bytes c []).1
      (obj (self.location bytes)) (evictLru self.targetNode (self.tier bytes) bytes c []).2) := by
  obtain ⟨ev, hev, hvictims⟩ := (Victims.nil c).evictLru self.targetNode (self.tier bytes) bytes
  rw [CacheState.removeAll_nil] at hev
  rw [hev]
  exact hvictims.insertAt (self.location bytes) (by rw [hloc, self.slot_location])

theorem LocalGpuLru.places (self : LocalGpuLru) :
    Places c obj (self.placeObject bytes cluster c obj) := by
  have hgpu : ∀ gpuId ev, Victims c ev →
      Places c obj (insertAt (c.removeAll ev) (obj (.gpu self.targetNode gpuId)) ev) :=
    fun gpuId ev h => h.insertAt (.gpu self.targetNode gpuId) (by rw [hloc]; rfl)
  obtain ⟨ev, hev, hvictims⟩ := (Victims.nil c).evictLru self.targetNode .gpu bytes
  rw [CacheState.removeAll_nil] at hev
  unfold placeObject
  split
  next gpuId _ => exact hgpu gpuId [] (Victims.nil c)
  next =>
    simp only [hev]
    split
    next gpuId _ => exact hgpu gpuId ev hvictims
    next =>
      split_ifs
      · exact hvictims.insertAt (.cpu self.targetNode) (by rw [hloc]; rfl)
      · exact .failed hvictims

theorem CpuOffloadLru.places (self : CpuOffloadLru) :
    Places c obj (self.placeObject bytes cluster c obj) := by
  have hoffer : ∀ {c' t loc} ev, tryPlaceInTier cluster c' self.targetNode t bytes = some loc →
      Victims c ev → Places c obj (insertAt (c.removeAll ev) (obj loc) ev) :=
    fun {_ _ loc} ev hsome h => h.insertAt loc (by rw [hloc, slot_of_tryPlaceInTier hsome])
  obtain ⟨ev, hev, hvictims⟩ := (Victims.nil c).evictLru self.targetNode .gpu bytes
  obtain ⟨ev', hev', hvictims'⟩ := hvictims.evictLru self.targetNode .cpu bytes
  rw [CacheState.removeAll_nil] at hev
  unfold placeObject
  split
  next loc hsome => exact hoffer [] hsome (Victims.nil c)
  next =>
    simp only [hev]
    split
    next loc hsome => exact hoffer ev hsome hvictims
    next =>
      split
      next loc hsome => exact hoffer ev hsome hvictims
      next =>
        simp only [hev']
        split
        next loc hsome => exact hoffer ev' hsome hvictims'
        next => exact .failed hvictims'

/-- The tiers are cleared one after another, until one has room. -/
theorem NetworkAwarePlacement.places (self : NetworkAwarePlacement) (tiers : List (TierKind × ℤ))
    (h : Victims c ev) : Places c obj
      (self.tryTiers bytes cluster obj tiers (c.removeAll ev) ev) := by
  induction tiers generalizing ev with
  | nil => exact .failed h
  | cons p rest ih =>
    obtain ⟨tier, utility⟩ := p
    rw [tryTiers]
    split
    next => exact ih h
    next loc hsome =>
      split_ifs
      · exact ih h
      · obtain ⟨ev', hev', hvictims⟩ := h.evictLru self.targetNode tier bytes
        simp only [hev']
        split_ifs
        · exact hvictims.insertAt loc (by rw [hloc, slot_locationFor hsome])
        · exact ih hvictims

end Policies

instance : Placing RemoteLru where
  places self _ _ _ _ _ _ _ _ _ := self.places fun _ => rfl
  policy_place _ _ _ _ _ _ _ _ _ _ := rfl

instance : Placing SizeAware where
  places self kvId sessionId prefixTokens bytes nowNs _ cache _ _ := by
    have hplaces : Places cache (newObject kvId sessionId prefixTokens bytes nowNs)
        (insertAt (evictLru self.targetNode (self.tier bytes) bytes cache []).1
          (newObject kvId sessionId prefixTokens bytes nowNs (self.location bytes))
          (evictLru self.targetNode (self.tier bytes) bytes cache []).2) := self.places fun _ => rfl
    convert hplaces using 1
    show insertAt (evictLru _ (self.tier bytes) bytes cache []).1 (newObject _ _ _ _ _ _) _ = _
    congr 2
    unfold SizeAware.location
    split_ifs <;> rfl
  policy_place _ _ _ _ _ _ _ _ _ _ := rfl

instance : Placing LocalGpuLru where
  places self _ _ _ _ _ _ _ _ _ := self.places fun _ => rfl
  policy_place _ _ _ _ _ _ _ _ _ _ := rfl

instance : Placing CpuOffloadLru where
  places self _ _ _ _ _ _ _ _ _ := self.places fun _ => rfl
  policy_place _ _ _ _ _ _ _ _ _ _ := rfl

instance : Placing NetworkAwarePlacement where
  places self _ _ _ _ _ _ _ _ _ := self.places (fun _ => rfl) _ (Victims.nil _)
  policy_place _ _ _ _ _ _ _ _ _ _ := rfl

end KvFlowSim
