import KvFlowSim.Foundations.KeyedMap
import KvFlowSim.Cluster.Topology

/-!
# KV objects and where they live

`cache/tier.rs` and `cache/object.rs`, and the type of the `objects` map of `cache/state.rs`. Every
writer of that map files an object under the object's own `kv_id`, so `ObjectMap` is a `KeyedMap`.
`IterOrder` is what a randomly seeded hasher contributes: some order in which `values()` enumerates
the map, of which nothing is known but that it lists every object once.
-/

namespace KvFlowSim

/-- Storage tiers. -/
inductive TierKind
  | gpu
  | cpu
  | localSsd
  | remoteMemory
  | remoteSsd
  deriving DecidableEq

def TierKind.asStr : TierKind → String
  | .gpu => "gpu"
  | .cpu => "cpu"
  | .localSsd => "local_ssd"
  | .remoteMemory => "remote_memory"
  | .remoteSsd => "remote_ssd"

/-- Where a KV object lives. -/
inductive CacheLocation
  | gpu (nodeId : NodeId) (gpuId : UInt32)
  | cpu (nodeId : NodeId)
  | localSsd (nodeId : NodeId)
  | remoteMemory (nodeId : NodeId)
  | remoteSsd (nodeId : NodeId)
  | missing
  deriving DecidableEq

namespace CacheLocation

def nodeId : CacheLocation → Option NodeId
  | gpu n _ | cpu n | localSsd n | remoteMemory n | remoteSsd n => some n
  | missing => none

/-- `tier_of_location`. -/
def tier : CacheLocation → Option TierKind
  | gpu .. => some .gpu
  | cpu .. => some .cpu
  | localSsd .. => some .localSsd
  | remoteMemory .. => some .remoteMemory
  | remoteSsd .. => some .remoteSsd
  | missing => none

/-- `location_matches_tier`. -/
def matchesTier (location : CacheLocation) (nodeId : NodeId) (tier : TierKind) : Bool :=
  match location, tier with
  | gpu n _, .gpu => n = nodeId
  | cpu n, .cpu => n = nodeId
  | localSsd n, .localSsd => n = nodeId
  | remoteMemory n, .remoteMemory => n = nodeId
  | remoteSsd n, .remoteSsd => n = nodeId
  | _, _ => false

/-- The node and tier whose capacity an object at this location uses, which the code reads as
`(location.node_id(), tier_of_location(&location))`. -/
def slot (location : CacheLocation) : Option (NodeId × TierKind) :=
  match location.nodeId, location.tier with
  | some n, some t => some (n, t)
  | _, _ => none

theorem matchesTier_iff {location : CacheLocation} {n : NodeId} {t : TierKind} :
    location.matchesTier n t = true ↔ location.slot = some (n, t) := by
  cases location <;> cases t <;> simp [matchesTier, slot, nodeId, tier]

end CacheLocation

abbrev KvId := UInt64

/-- A KV object: the tensors of a prefix of a session. -/
structure KvObject where
  kvId : KvId
  sessionId : UInt64
  modelId : String
  prefixTokens : UInt32
  bytes : UInt64
  location : CacheLocation
  lastAccessNs : UInt64
  refCount : UInt32
  deriving DecidableEq

/-- The key under which `by_session_prefix` finds an object. -/
def KvObject.key (o : KvObject) : UInt64 × UInt32 := (o.sessionId, o.prefixTokens)

/-- The `objects` map: each object is filed under its own id. -/
abbrev ObjectMap := KeyedMap KvObject.kvId

/-- An order of enumeration for `objects.values()`. It may depend on the content of the map and on
the state of the cache's id allocator. As an id is allocated before each placement and an eviction
removes what it chose, no two enumerations of one run that choose a victim see the same arguments,
so an `IterOrder` picks a permutation for each of them independently. -/
structure IterOrder where
  list : ObjectMap → KvId → List KvObject
  perm : ∀ m k, (list m k : Multiset KvObject) = m.values

/-- By increasing id. -/
def IterOrder.ascending : IterOrder where
  list m _ := m.sortedValues Function.injective_id
  perm m _ := m.coe_sortedValues _

/-- By decreasing id. -/
def IterOrder.descending : IterOrder where
  list m _ := m.sortedValues OrderDual.toDual.injective
  perm m _ := m.coe_sortedValues _

end KvFlowSim
