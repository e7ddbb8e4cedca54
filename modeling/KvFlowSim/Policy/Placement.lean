import KvFlowSim.Cache.State
import KvFlowSim.Model.Compute
import KvFlowSim.Transfer.Model

/-!
# Placement policies

`policy/placement.rs`: the trait `PlacementPolicy`, which decides where the KV of a finished prefill
is stored and may evict objects to make room. The eviction loop and the insertion at its end stand
in every policy of the source in the same words; here they are `evictLru` and `insertAt`.
-/

namespace KvFlowSim

/-- `EvictedKv`. -/
structure EvictedKv where
  kvId : KvId
  bytes : UInt64
  deriving DecidableEq

/-- What a placement returns, `Result<(CacheLocation, Vec<EvictedKv>)>`. -/
abbrev PlaceResult := Except KvFlowError (CacheLocation × List EvictedKv)

/-- A placement's result, with what it leaves behind its `&mut` arguments. -/
structure Placed (P T : Type) where
  result : PlaceResult
  policy : P
  cache : CacheState
  transfer : T

/-- The trait `PlacementPolicy`. -/
class PlacementPolicy (P : Type) where
  place {C T : Type} [ComputeModel C] [TransferModel T] (self : P) (kvId : KvId)
    (sessionId : UInt64) (prefixTokens : UInt32) (bytes nowNs : UInt64) (cluster : ClusterTopology)
    (cache : CacheState) (compute : C) (transfer : T) : Placed P T

/-- The object a policy builds for a new KV. -/
def newObject (kvId : KvId) (sessionId : UInt64) (prefixTokens : UInt32) (bytes nowNs : UInt64)
    (location : CacheLocation) : KvObject where
  kvId := kvId
  sessionId := sessionId
  modelId := ""
  prefixTokens := prefixTokens
  bytes := bytes
  location := location
  lastAccessNs := nowNs
  refCount := 0

/-- `cache.insert(obj)?; return Ok((loc, evicted))`. -/
def insertAt (cache : CacheState) (obj : KvObject) (evicted : List EvictedKv) :
    PlaceResult × CacheState :=
  match cache.insert obj with
  | (.ok (), cache) => (.ok (obj.location, evicted), cache)
  | (.error e, cache) => (.error e, cache)

/-- The eviction loop, for at most so many victims. -/
def evictLoop (nodeId : NodeId) (tier : TierKind) (bytes : UInt64) :
    ℕ → CacheState → List EvictedKv → CacheState × List EvictedKv
  | 0, cache, evicted => (cache, evicted)
  | n + 1, cache, evicted =>
    if cache.availableSpace nodeId tier < bytes then
      match (cache.objectsInTier nodeId tier).argmin fun o => o.lastAccessNs with
      | none => (cache, evicted)
      | some victim =>
        evictLoop nodeId tier bytes n (cache.remove victim.kvId).2
          (evicted ++ [⟨victim.kvId, victim.bytes⟩])
    else (cache, evicted)

/-- `while cache.available_space(node, tier) < bytes { .. }`: evicts least recently used objects of
the tier until `bytes` are available or the tier is empty. Each victim leaves the map, so there are
at most as many as the map has objects (`evictLru_done`). -/
def evictLru (nodeId : NodeId) (tier : TierKind) (bytes : UInt64) (cache : CacheState)
    (evicted : List EvictedKv) : CacheState × List EvictedKv :=
  evictLoop nodeId tier bytes cache.objects.len cache evicted

/-! ## The loop runs to its end -/

theorem mem_objectsInTier {c : CacheState} {n : NodeId} {t : TierKind} {o : KvObject} :
    o ∈ c.objectsInTier n t ↔ c.objects.get o.kvId = some o ∧ o.location.slot = some (n, t) := by
  rw [CacheState.objectsInTier, List.mem_filter, ← Multiset.mem_coe, c.iterOrder.perm,
    KeyedMap.mem_values, CacheLocation.matchesTier_iff]

theorem len_remove {c : CacheState} {o : KvObject} (h : c.objects.get o.kvId = some o) :
    (c.remove o.kvId).2.objects.len + 1 = c.objects.len := by
  simp only [CacheState.remove, h, KeyedMap.len]
  rw [KeyedMap.values_eq_cons h, Multiset.card_cons]

theorem evictLoop_done {n : NodeId} {t : TierKind} {bytes : UInt64} {k : ℕ} {c c' : CacheState}
    {ev ev' : List EvictedKv} (hk : c.objects.len ≤ k)
    (h : evictLoop n t bytes k c ev = (c', ev')) :
    bytes ≤ c'.availableSpace n t ∨ c'.objectsInTier n t = [] := by
  induction k generalizing c ev with
  | zero =>
    obtain ⟨rfl, rfl⟩ := Prod.mk.inj h
    refine .inr (List.eq_nil_iff_forall_not_mem.2 fun o ho => ?_)
    have := len_remove (mem_objectsInTier.1 ho).1
    omega
  | succ k ih =>
    rw [evictLoop] at h
    split_ifs at h with hlt
    · split at h
      next hnone =>
        obtain ⟨rfl, rfl⟩ := Prod.mk.inj h
        exact .inr (List.argmin_eq_none.1 hnone)
      next victim hv =>
        have := len_remove (mem_objectsInTier.1 (List.argmin_mem hv)).1
        exact ih (by omega) h
    · obtain ⟨rfl, rfl⟩ := Prod.mk.inj h
      exact .inl (not_lt.1 hlt)

/-- The loop ends because there is room or because the tier is empty. -/
theorem evictLru_done {n : NodeId} {t : TierKind} {bytes : UInt64} {c c' : CacheState}
    {ev ev' : List EvictedKv} (h : evictLru n t bytes c ev = (c', ev')) :
    bytes ≤ c'.availableSpace n t ∨ c'.objectsInTier n t = [] :=
  evictLoop_done le_rfl h

end KvFlowSim
