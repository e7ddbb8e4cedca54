import KvFlowSim.Foundations.Least
import KvFlowSim.Policy.Lru
import KvFlowSim.Policy.NetworkAware

/-!
# Placements and the order of enumeration

What a hash map's order of enumeration can change is the victim of an eviction: `min_by_key` takes
the first of the least recently used objects. An eviction loop is `untied` if it never has such a
choice, and then it, and the placement that calls it, does the same for every order
(`evictLru_withOrder`, `LruPolicy.place_withOrder`).

`LruPolicy` is the interface of the policies that choose victims in eviction loops only: it lists
the loops of a placement. The five policies of the source are instances.
-/

namespace KvFlowSim

namespace CacheState

/-- The same cache with another order of enumeration. -/
def withOrder (c : CacheState) (o : IterOrder) : CacheState := { c with iterOrder := o }

variable (c : CacheState) (o : IterOrder) (n : NodeId) (t : TierKind) (kvId : KvId)

@[simp] theorem objects_withOrder : (c.withOrder o).objects = c.objects := rfl

@[simp] theorem capacity_withOrder : (c.withOrder o).capacity n t = c.capacity n t := rfl

@[simp] theorem availableSpace_withOrder :
    (c.withOrder o).availableSpace n t = c.availableSpace n t := rfl

@[simp] theorem allocKvId_withOrder :
    (c.withOrder o).allocKvId = (c.allocKvId.1, c.allocKvId.2.withOrder o) := rfl

@[simp] theorem remove_withOrder :
    (c.withOrder o).remove kvId = ((c.remove kvId).1, (c.remove kvId).2.withOrder o) := by
  unfold remove
  rw [objects_withOrder]
  cases c.objects.get kvId <;> rfl

@[simp] theorem updateAccess_withOrder (nowNs : UInt64) :
    (c.withOrder o).updateAccess kvId nowNs = (c.updateAccess kvId nowNs).withOrder o := by
  unfold updateAccess
  rw [objects_withOrder]
  cases c.objects.get kvId <;> rfl

@[simp] theorem insert_withOrder (obj : KvObject) :
    (c.withOrder o).insert obj = ((c.insert obj).1, (c.insert obj).2.withOrder o) := by
  unfold insert
  rcases obj.location.slot with _ | ⟨n, t⟩
  · rfl
  · by_cases h : c.availableSpace n t < obj.bytes
    · have h' : (c.withOrder o).availableSpace n t < obj.bytes := h
      simp only [if_pos h, if_pos h']
      rfl
    · have h' : ¬(c.withOrder o).availableSpace n t < obj.bytes := h
      simp only [if_neg h, if_neg h']
      rfl

/-- Another order lists the same objects. -/
theorem objectsInTier_perm : (c.objectsInTier n t).Perm ((c.withOrder o).objectsInTier n t) := by
  refine List.Perm.filter _ (Multiset.coe_eq_coe.1 ?_)
  rw [c.iterOrder.perm, (c.withOrder o).iterOrder.perm]
  rfl

end CacheState

@[simp] theorem insertAt_withOrder (c : CacheState) (o : IterOrder) (obj : KvObject)
    (evicted : List EvictedKv) :
    insertAt (c.withOrder o) obj evicted =
      ((insertAt c obj evicted).1, (insertAt c obj evicted).2.withOrder o) := by
  unfold insertAt
  rw [CacheState.insert_withOrder]
  rcases c.insert obj with ⟨_ | _, c'⟩ <;> rfl

/-! ## Eviction loops without ties -/

/-- In each turn of the eviction loop a single object is least recently used. -/
def untiedLoop (nodeId : NodeId) (tier : TierKind) (bytes : UInt64) : ℕ → CacheState → Bool
  | 0, _ => true
  | n + 1, cache =>
    if cache.availableSpace nodeId tier < bytes then
      match (cache.objectsInTier nodeId tier).argmin fun o => o.lastAccessNs with
      | none => true
      | some victim =>
        (cache.objectsInTier nodeId tier).all
            (fun o => victim.lastAccessNs < o.lastAccessNs || o = victim) &&
          untiedLoop nodeId tier bytes n (cache.remove victim.kvId).2
    else true

/-- A call of the eviction loop. -/
structure Eviction where
  nodeId : NodeId
  tier : TierKind
  bytes : UInt64
  cache : CacheState

def Eviction.untied (e : Eviction) : Bool :=
  untiedLoop e.nodeId e.tier e.bytes e.cache.objects.len e.cache

variable {n : NodeId} {t : TierKind} {bytes : UInt64} {c : CacheState}

theorem evictLoop_withOrder {k : ℕ} (h : untiedLoop n t bytes k c = true) (o : IterOrder)
    (evicted : List EvictedKv) :
    evictLoop n t bytes k (c.withOrder o) evicted =
      ((evictLoop n t bytes k c evicted).1.withOrder o, (evictLoop n t bytes k c evicted).2) := by
  induction k generalizing c evicted with
  | zero => rfl
  | succ k ih =>
    rw [evictLoop, evictLoop, CacheState.availableSpace_withOrder]
    rw [untiedLoop] at h
    split_ifs with hlt
    · rw [if_pos hlt] at h
      cases hmin : (c.objectsInTier n t).argmin fun o => o.lastAccessNs with
      | none =>
        have hnil := List.argmin_eq_none.1 hmin
        have hperm := c.objectsInTier_perm o n t
        rw [hnil] at hperm
        rw [hperm.nil_eq.symm]
        rfl
      | some victim =>
        simp only [hmin, Bool.and_eq_true, List.all_eq_true, Bool.or_eq_true,
          decide_eq_true_eq] at h
        obtain ⟨hunique, hrest⟩ := h
        have hmin' := List.argmin_eq_of_perm (c.objectsInTier_perm o n t) hmin fun x hx hle =>
          (hunique x hx).resolve_left hle.not_gt
        rw [hmin']
        simp only [CacheState.remove_withOrder]
        exact ih hrest _
    · rfl

/-- An eviction without ties does the same for every order. -/
theorem evictLru_withOrder (h : (Eviction.mk n t bytes c).untied = true) (o : IterOrder)
    (evicted : List EvictedKv) :
    evictLru n t bytes (c.withOrder o) evicted =
      ((evictLru n t bytes c evicted).1.withOrder o, (evictLru n t bytes c evicted).2) :=
  evictLoop_withOrder h o evicted

/-- The objects evicted so far do not matter for the cache that the loop leaves. -/
theorem evictLru_fst (evicted : List EvictedKv) :
    (evictLru n t bytes c evicted).1 = (evictLru n t bytes c []).1 := by
  suffices ∀ (k : ℕ) (c : CacheState) (ev ev' : List EvictedKv),
      (evictLoop n t bytes k c ev).1 = (evictLoop n t bytes k c ev').1 from this _ c _ _
  intro k
  induction k with
  | zero => exact fun _ _ _ => rfl
  | succ k ih =>
    intro c ev ev'
    rw [evictLoop, evictLoop]
    split_ifs
    · split
      · rfl
      · exact ih _ _ _
    · rfl

/-! ## Policies -/

/-- The same placement in a cache with another order of enumeration. -/
def Placed.withOrder {P T : Type} (p : Placed P T) (o : IterOrder) : Placed P T :=
  { p with cache := p.cache.withOrder o }

/-- A policy that chooses victims in eviction loops only; `evictions` lists those of a placement. -/
class LruPolicy (P : Type) extends PlacementPolicy P where
  evictions {C T : Type} [ComputeModel C] [TransferModel T] (self : P) (prefixTokens : UInt32)
    (bytes : UInt64) (cluster : ClusterTopology) (cache : CacheState) (compute : C) (transfer : T) :
    List Eviction
  place_withOrder {C T : Type} [ComputeModel C] [TransferModel T] (self : P) (kvId : KvId)
    (sessionId : UInt64) (prefixTokens : UInt32) (bytes nowNs : UInt64) (cluster : ClusterTopology)
    (cache : CacheState) (compute : C) (transfer : T) (o : IterOrder) :
    (∀ e ∈ evictions self prefixTokens bytes cluster cache compute transfer, e.untied = true) →
      place self kvId sessionId prefixTokens bytes nowNs cluster
      (cache.withOrder o) compute transfer =
        (place self kvId sessionId prefixTokens bytes nowNs cluster cache compute
          transfer).withOrder o

instance : LruPolicy RemoteLru where
  evictions self _ bytes _ cache _ _ := [⟨self.targetNode, .remoteMemory, bytes, cache⟩]
  place_withOrder self kvId sessionId prefixTokens bytes nowNs cluster cache compute
    transfer o h := by
    have huntied := h _ List.mem_cons_self
    simp only [PlacementPolicy.place, evictLru_withOrder huntied, insertAt_withOrder]
    rfl

instance : LruPolicy SizeAware where
  evictions self _ bytes _ cache _ _ :=
    let tier := if bytes ≤ self.gpuThresholdBytes then TierKind.gpu else TierKind.cpu
    [⟨self.targetNode, tier, bytes, cache⟩]
  place_withOrder self kvId sessionId prefixTokens bytes nowNs cluster cache compute
    transfer o h := by
    have huntied := h _ List.mem_cons_self
    simp only [PlacementPolicy.place, evictLru_withOrder huntied, insertAt_withOrder]
    rfl

@[simp] theorem findGpuWithSpace_withOrder (cluster : ClusterTopology) (c : CacheState)
    (o : IterOrder) (n : NodeId) (bytes : UInt64) :
    findGpuWithSpace cluster (c.withOrder o) n bytes = findGpuWithSpace cluster c n bytes := rfl

@[simp] theorem tryPlaceInTier_withOrder (cluster : ClusterTopology) (c : CacheState)
    (o : IterOrder) (n : NodeId) (t : TierKind) (bytes : UInt64) :
    tryPlaceInTier cluster (c.withOrder o) n t bytes = tryPlaceInTier cluster c n t bytes := rfl

namespace LocalGpuLru

/-- The GPU tier is cleared if it has no room. -/
def evictions (self : LocalGpuLru) (bytes : UInt64) (cluster : ClusterTopology)
    (cache : CacheState) : List Eviction :=
  match findGpuWithSpace cluster cache self.targetNode bytes with
  | some _ => []
  | none => [⟨self.targetNode, .gpu, bytes, cache⟩]

theorem placeObject_withOrder {self : LocalGpuLru} {cluster : ClusterTopology}
    (h : ∀ e ∈ self.evictions bytes cluster c, e.untied = true) (o : IterOrder)
    (obj : CacheLocation → KvObject) :
    self.placeObject bytes cluster (c.withOrder o) obj =
      ((self.placeObject bytes cluster c obj).1,
        (self.placeObject bytes cluster c obj).2.withOrder o) := by
  unfold placeObject
  unfold evictions at h
  rw [findGpuWithSpace_withOrder]
  cases hgpu : findGpuWithSpace cluster c self.targetNode bytes with
  | some gpuId => simp only [insertAt_withOrder]
  | none =>
    rw [hgpu] at h
    simp only [evictLru_withOrder (h _ List.mem_cons_self), CacheState.availableSpace_withOrder,
      findGpuWithSpace_withOrder]
    split
    · simp only [insertAt_withOrder]
    · split_ifs
      · simp only [insertAt_withOrder]
      · rfl

end LocalGpuLru

instance : LruPolicy LocalGpuLru where
  evictions self _ bytes cluster cache _ _ := self.evictions bytes cluster cache
  place_withOrder self kvId sessionId prefixTokens bytes nowNs cluster cache compute
    transfer o h := by
    simp only [PlacementPolicy.place, LocalGpuLru.placeObject_withOrder h]
    rfl

namespace CpuOffloadLru

/-- The GPU tier is cleared if it has no room, then the CPU tier if there is still none. -/
def evictions (self : CpuOffloadLru) (bytes : UInt64) (cluster : ClusterTopology)
    (cache : CacheState) : List Eviction :=
  match tryPlaceInTier cluster cache self.targetNode .gpu bytes with
  | some _ => []
  | none =>
    let cleared := (evictLru self.targetNode .gpu bytes cache []).1
    ⟨self.targetNode, .gpu, bytes, cache⟩ ::
      match tryPlaceInTier cluster cleared self.targetNode .gpu bytes,
        tryPlaceInTier cluster cleared self.targetNode .cpu bytes with
      | none, none => [⟨self.targetNode, .cpu, bytes, cleared⟩]
      | _, _ => []

theorem placeObject_withOrder {self : CpuOffloadLru} {cluster : ClusterTopology}
    (h : ∀ e ∈ self.evictions bytes cluster c, e.untied = true) (o : IterOrder)
    (obj : CacheLocation → KvObject) :
    self.placeObject bytes cluster (c.withOrder o) obj =
      ((self.placeObject bytes cluster c obj).1,
        (self.placeObject bytes cluster c obj).2.withOrder o) := by
  unfold placeObject
  unfold evictions at h
  rw [tryPlaceInTier_withOrder]
  cases hfirst : tryPlaceInTier cluster c self.targetNode .gpu bytes with
  | some loc => simp only [insertAt_withOrder]
  | none =>
    rw [hfirst] at h
    simp only [evictLru_withOrder (h _ List.mem_cons_self), tryPlaceInTier_withOrder]
    generalize hcleared : evictLru self.targetNode .gpu bytes c [] = cleared at h ⊢
    cases hgpu : tryPlaceInTier cluster cleared.1 self.targetNode .gpu bytes with
    | some loc => simp only [insertAt_withOrder]
    | none =>
      cases hcpu : tryPlaceInTier cluster cleared.1 self.targetNode .cpu bytes with
      | some loc => simp only [insertAt_withOrder]
      | none =>
        simp only [hgpu, hcpu] at h
        have huntied := h _ (List.mem_cons_of_mem _ List.mem_cons_self)
        simp only [evictLru_withOrder huntied, tryPlaceInTier_withOrder]
        split
        · simp only [insertAt_withOrder]
        · rfl

end CpuOffloadLru

instance : LruPolicy CpuOffloadLru where
  evictions self _ bytes cluster cache _ _ := self.evictions bytes cluster cache
  place_withOrder self kvId sessionId prefixTokens bytes nowNs cluster cache compute
    transfer o h := by
    simp only [PlacementPolicy.place, CpuOffloadLru.placeObject_withOrder h]
    rfl

namespace NetworkAwarePlacement

/-- Each tier that could hold the object is cleared until one has room. -/
def evictions (self : NetworkAwarePlacement) (bytes : UInt64) (cluster : ClusterTopology) :
    List (TierKind × ℤ) → CacheState → List Eviction
  | [], _ => []
  | (tier, _) :: rest, cache =>
    match locationFor self.targetNode tier cluster with
    | none => self.evictions bytes cluster rest cache
    | some _ =>
      if cache.capacity self.targetNode tier < bytes then self.evictions bytes cluster rest cache
      else
        let cleared := (evictLru self.targetNode tier bytes cache []).1
        ⟨self.targetNode, tier, bytes, cache⟩ ::
          if bytes ≤ cleared.availableSpace self.targetNode tier then []
          else self.evictions bytes cluster rest cleared

theorem tryTiers_withOrder {self : NetworkAwarePlacement} {cluster : ClusterTopology}
    {tiers : List (TierKind × ℤ)} (h : ∀ e ∈ self.evictions bytes cluster tiers c, e.untied = true)
    (o : IterOrder) (obj : CacheLocation → KvObject) (evicted : List EvictedKv) :
    self.tryTiers bytes cluster obj tiers (c.withOrder o) evicted =
      ((self.tryTiers bytes cluster obj tiers c evicted).1,
        (self.tryTiers bytes cluster obj tiers c evicted).2.withOrder o) := by
  induction tiers generalizing c evicted with
  | nil => rfl
  | cons p rest ih =>
    obtain ⟨tier, utility⟩ := p
    rw [evictions] at h
    rw [tryTiers, tryTiers]
    cases hloc : locationFor self.targetNode tier cluster with
    | none =>
      rw [hloc] at h
      exact ih h evicted
    | some loc =>
      simp only [hloc] at h
      by_cases hcap : c.capacity self.targetNode tier < bytes
      · have hcap' : (c.withOrder o).capacity self.targetNode tier < bytes := hcap
        rw [if_pos hcap] at h
        simp only [if_pos hcap, if_pos hcap']
        exact ih h evicted
      · have hcap' : ¬(c.withOrder o).capacity self.targetNode tier < bytes := hcap
        rw [if_neg hcap] at h
        simp only [if_neg hcap, if_neg hcap', evictLru_withOrder (h _ List.mem_cons_self),
          CacheState.availableSpace_withOrder]
        split_ifs with hroom
        · simp only [insertAt_withOrder]
        · refine ih (fun e he => h e (List.mem_cons_of_mem _ ?_)) _
          rw [evictLru_fst] at hroom he
          rw [if_neg hroom]
          exact he

end NetworkAwarePlacement

instance : LruPolicy NetworkAwarePlacement where
  evictions self prefixTokens bytes cluster cache compute transfer :=
    self.evictions bytes cluster
      (NetworkAwarePlacement.scored bytes prefixTokens compute transfer) cache
  place_withOrder self kvId sessionId prefixTokens bytes nowNs cluster cache compute
    transfer o h := by
    simp only [PlacementPolicy.place, NetworkAwarePlacement.tryTiers_withOrder h]
    rfl

end KvFlowSim
