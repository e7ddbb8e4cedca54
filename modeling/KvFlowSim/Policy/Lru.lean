import KvFlowSim.Policy.Placement

/-!
# The LRU policies

`policy/baselines.rs`, `policy/local_gpu_lru.rs` and `policy/cpu_offload_lru.rs`: four policies that
evict least recently used objects of a tier to make room, and differ in the tiers they try.
-/

namespace KvFlowSim

/-- Always remote memory. -/
structure RemoteLru where
  targetNode : NodeId

instance : PlacementPolicy RemoteLru where
  place self kvId sessionId prefixTokens bytes nowNs _cluster cache _compute transfer :=
    let loc := .remoteMemory self.targetNode
    let (cache, evicted) := evictLru self.targetNode .remoteMemory bytes cache []
    let (result, cache) :=
      insertAt cache (newObject kvId sessionId prefixTokens bytes nowNs loc) evicted
    ⟨result, self, cache, transfer⟩

/-- Small objects on the GPU tier, objects above the threshold on the CPU tier. -/
structure SizeAware where
  targetNode : NodeId
  gpuThresholdBytes : UInt64

instance : PlacementPolicy SizeAware where
  place self kvId sessionId prefixTokens bytes nowNs _cluster cache _compute transfer :=
    let tier := if bytes ≤ self.gpuThresholdBytes then TierKind.gpu else TierKind.cpu
    let loc := match tier with
      | .gpu => CacheLocation.gpu self.targetNode 0
      | _ => CacheLocation.cpu self.targetNode
    let (cache, evicted) := evictLru self.targetNode tier bytes cache []
    let (result, cache) :=
      insertAt cache (newObject kvId sessionId prefixTokens bytes nowNs loc) evicted
    ⟨result, self, cache, transfer⟩

/-- The local GPU tier, and the CPU tier for what the GPU tier cannot hold. -/
structure LocalGpuLru where
  targetNode : NodeId

def findGpuWithSpace (cluster : ClusterTopology) (cache : CacheState) (nodeId : NodeId)
    (bytes : UInt64) : Option UInt32 :=
  match cluster.node nodeId with
  | none => none
  | some node =>
    if bytes ≤ cache.availableSpace nodeId .gpu then node.gpus.head?.map (·.gpuId) else none

namespace LocalGpuLru

def noSpace : KvFlowError :=
  .invalidModelProfile "LocalGpuLru: no space on GPU or CPU for KV object"

/-- `place`, on the cluster and the cache; `obj` is the object to be stored, once it has a
location. -/
def placeObject (self : LocalGpuLru) (bytes : UInt64) (cluster : ClusterTopology)
    (cache : CacheState) (obj : CacheLocation → KvObject) : PlaceResult × CacheState :=
  match findGpuWithSpace cluster cache self.targetNode bytes with
  | some gpuId => insertAt cache (obj (.gpu self.targetNode gpuId)) []
  | none =>
    let (cache, evicted) := evictLru self.targetNode .gpu bytes cache []
    let retry := if bytes ≤ cache.availableSpace self.targetNode .gpu then
      findGpuWithSpace cluster cache self.targetNode bytes else none
    match retry with
    | some gpuId => insertAt cache (obj (.gpu self.targetNode gpuId)) evicted
    | none =>
      if bytes ≤ cache.availableSpace self.targetNode .cpu then
        insertAt cache (obj (.cpu self.targetNode)) evicted
      else (.error noSpace, cache)

end LocalGpuLru

instance : PlacementPolicy LocalGpuLru where
  place self kvId sessionId prefixTokens bytes nowNs cluster cache _compute transfer :=
    let (result, cache) :=
      self.placeObject bytes cluster cache (newObject kvId sessionId prefixTokens bytes nowNs)
    ⟨result, self, cache, transfer⟩

/-- The GPU tier if possible, otherwise the CPU tier, with LRU eviction in each. -/
structure CpuOffloadLru where
  targetNode : NodeId

def tryPlaceInTier (cluster : ClusterTopology) (cache : CacheState) (nodeId : NodeId)
    (tier : TierKind) (bytes : UInt64) : Option CacheLocation :=
  if cache.availableSpace nodeId tier < bytes then none
  else
    match tier with
    | .gpu =>
      match cluster.node nodeId with
      | none => none
      | some node => node.gpus.head?.map fun g => .gpu nodeId g.gpuId
    | .cpu => some (.cpu nodeId)
    | .localSsd => some (.localSsd nodeId)
    | .remoteMemory => some (.remoteMemory nodeId)
    | .remoteSsd => some (.remoteSsd nodeId)

namespace CpuOffloadLru

def noSpace : KvFlowError :=
  .invalidModelProfile "CpuOffloadLru: no space on GPU or CPU for KV object"

/-- `place`, on the cluster and the cache. -/
def placeObject (self : CpuOffloadLru) (bytes : UInt64) (cluster : ClusterTopology)
    (cache : CacheState) (obj : CacheLocation → KvObject) : PlaceResult × CacheState :=
  match tryPlaceInTier cluster cache self.targetNode .gpu bytes with
  | some loc => insertAt cache (obj loc) []
  | none =>
    let (cache, evicted) := evictLru self.targetNode .gpu bytes cache []
    match tryPlaceInTier cluster cache self.targetNode .gpu bytes with
    | some loc => insertAt cache (obj loc) evicted
    | none =>
      match tryPlaceInTier cluster cache self.targetNode .cpu bytes with
      | some loc => insertAt cache (obj loc) evicted
      | none =>
        let (cache, evicted) := evictLru self.targetNode .cpu bytes cache evicted
        match tryPlaceInTier cluster cache self.targetNode .cpu bytes with
        | some loc => insertAt cache (obj loc) evicted
        | none => (.error noSpace, cache)

end CpuOffloadLru

instance : PlacementPolicy CpuOffloadLru where
  place self kvId sessionId prefixTokens bytes nowNs cluster cache _compute transfer :=
    let (result, cache) :=
      self.placeObject bytes cluster cache (newObject kvId sessionId prefixTokens bytes nowNs)
    ⟨result, self, cache, transfer⟩

end KvFlowSim
