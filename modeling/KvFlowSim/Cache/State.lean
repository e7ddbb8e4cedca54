import KvFlowSim.Cache.Object

/-!
# The cache state

`cache/state.rs`: the objects, the index by session and prefix length, and the capacity and usage of
every tier of every node. `insert` and `relocate` return the state they leave together with their
`Result`, as the source does through `&mut self`.
-/

namespace KvFlowSim

/-- A tier of a node. -/
abbrev Slot := NodeId × TierKind

/-- `CacheState`. The field `used` is the source's `usage`. -/
structure CacheState where
  objects : ObjectMap
  bySessionPrefix : FiniteMap (UInt64 × UInt32) KvId
  capacities : FiniteMap Slot UInt64
  used : FiniteMap Slot UInt64
  nextKvId : KvId
  iterOrder : IterOrder

/-- `if let Some(used) = usage.get_mut(&slot) { *used = used.saturating_sub(bytes) }`. -/
def release (used : FiniteMap Slot UInt64) (slot : Option Slot) (bytes : UInt64) :
    FiniteMap Slot UInt64 :=
  match slot with
  | none => used
  | some s =>
    match used.lookup s with
    | none => used
    | some u => used.insert s (u.satSub bytes)

/-- `*usage.entry(slot).or_insert(0) += bytes`. -/
def reserve (used : FiniteMap Slot UInt64) (slot : Option Slot) (bytes : UInt64) :
    FiniteMap Slot UInt64 :=
  match slot with
  | none => used
  | some s => used.insert s ((used.lookup s).getD 0 + bytes)

namespace CacheState

/-- The empty cache. Creating its hash maps draws the hasher's seed, here `iterOrder`. -/
def new (iterOrder : IterOrder) : CacheState where
  objects := .empty
  bySessionPrefix := ∅
  capacities := ∅
  used := ∅
  nextKvId := 0
  iterOrder := iterOrder

def setCapacity (c : CacheState) (nodeId : NodeId) (tier : TierKind) (bytes : UInt64) :
    CacheState :=
  { c with
    capacities := c.capacities.insert (nodeId, tier) bytes
    used := if (nodeId, tier) ∈ c.used then c.used else c.used.insert (nodeId, tier) 0 }

def allocKvId (c : CacheState) : KvId × CacheState :=
  (c.nextKvId, { c with nextKvId := c.nextKvId.satAdd 1 })

def lookup (c : CacheState) (sessionId : UInt64) (prefixTokens : UInt32) : Option KvObject :=
  (c.bySessionPrefix.lookup (sessionId, prefixTokens)).bind c.objects.get

def capacity (c : CacheState) (nodeId : NodeId) (tier : TierKind) : UInt64 :=
  (c.capacities.lookup (nodeId, tier)).getD 0

def usage (c : CacheState) (nodeId : NodeId) (tier : TierKind) : UInt64 :=
  (c.used.lookup (nodeId, tier)).getD 0

def availableSpace (c : CacheState) (nodeId : NodeId) (tier : TierKind) : UInt64 :=
  (c.capacity nodeId tier).satSub (c.usage nodeId tier)

/-- `objects_in_tier`, in the order in which the hash map enumerates. -/
def objectsInTier (c : CacheState) (nodeId : NodeId) (tier : TierKind) : List KvObject :=
  (c.iterOrder.list c.objects c.nextKvId).filter fun o => o.location.matchesTier nodeId tier

def remove (c : CacheState) (kvId : KvId) : Option KvObject × CacheState :=
  match c.objects.get kvId with
  | none => (none, c)
  | some obj =>
    (some obj,
      { c with
        objects := c.objects.remove kvId
        bySessionPrefix := c.bySessionPrefix.erase (obj.sessionId, obj.prefixTokens)
        used := release c.used obj.location.slot obj.bytes })

/-- The error of `insert`. -/
def cacheOverflow (nodeId : NodeId) (tier : TierKind) (bytes available : UInt64) : KvFlowError :=
  .invalidModelProfile
    s!"cache overflow on node {nodeId} tier {tier.asStr}: need {bytes} bytes, available {available}"

/-- The writes of a successful `insert`. -/
def store (c : CacheState) (obj : KvObject) : CacheState :=
  { c with
    used := reserve c.used obj.location.slot obj.bytes
    bySessionPrefix := c.bySessionPrefix.insert (obj.sessionId, obj.prefixTokens) obj.kvId
    objects := c.objects.insert obj }

def insert (c : CacheState) (obj : KvObject) : Except KvFlowError Unit × CacheState :=
  match obj.location.slot with
  | some (nodeId, tier) =>
    let available := c.availableSpace nodeId tier
    if available < obj.bytes then (.error (cacheOverflow nodeId tier obj.bytes available), c)
    else (.ok (), c.store obj)
  | none => (.ok (), c.store obj)

def updateAccess (c : CacheState) (kvId : KvId) (nowNs : UInt64) : CacheState :=
  match c.objects.get kvId with
  | none => c
  | some obj => { c with objects := c.objects.insert { obj with lastAccessNs := nowNs } }

/-- The errors of `relocate`. -/
def notFound (kvId : KvId) : KvFlowError :=
  .invalidModelProfile s!"KV {kvId} not found for relocation"

def relocationOverflow (nodeId : NodeId) (tier : TierKind) (bytes available : UInt64) :
    KvFlowError :=
  .invalidModelProfile
    (s!"relocation overflow on node {nodeId} tier {tier.asStr}: need {bytes} bytes, " ++
      s!"available {available}")

/-- `relocate` after it took the object out and freed its old reservation. -/
def takeOut (c : CacheState) (kvId : KvId) (obj : KvObject) : CacheState :=
  { c with
    objects := c.objects.remove kvId
    used := release c.used obj.location.slot obj.bytes }

/-- Files an object, under its own id, and reserves its space: the end of `relocate`, for the moved
object or, as a rollback, for the old one. -/
def putBack (c : CacheState) (obj : KvObject) : CacheState :=
  { c with
    objects := c.objects.insert obj
    used := reserve c.used obj.location.slot obj.bytes }

def relocate (c : CacheState) (kvId : KvId) (newLocation : CacheLocation) (nowNs : UInt64) :
    Except KvFlowError Unit × CacheState :=
  match c.objects.get kvId with
  | none => (.error (notFound kvId), c)
  | some obj =>
    let c := c.takeOut kvId obj
    let moved := { obj with location := newLocation, lastAccessNs := nowNs }
    match newLocation.slot with
    | some (newNode, newTier) =>
      let available := c.availableSpace newNode newTier
      if available < obj.bytes then
        (.error (relocationOverflow newNode newTier obj.bytes available), c.putBack obj)
      else (.ok (), c.putBack moved)
    | none => (.ok (), c.putBack moved)

end CacheState

end KvFlowSim
