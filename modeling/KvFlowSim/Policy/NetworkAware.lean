import KvFlowSim.Policy.Placement
import KvFlowSim.Foundations.SortByKey

/-!
# Network-aware placement

`policy/network_aware.rs`: the tiers are scored by `recompute_cost - fetch_cost - pressure_penalty`
in 128-bit arithmetic and tried in order of decreasing utility.
-/

namespace KvFlowSim

/-- `i128::MAX`. -/
def i128Max : ℤ := 2 ^ 127 - 1

/-- The wrapping subtraction of `i128`. -/
def i128Sub (a b : ℤ) : ℤ := (a - b).bmod (2 ^ 128)

structure NetworkAwarePlacement where
  targetNode : NodeId

namespace NetworkAwarePlacement

variable {C T : Type} [ComputeModel C] [TransferModel T]

/-- `estimate_duration(path, bytes).map(|d| d as i128).unwrap_or(i128::MAX)`. -/
def durationOrMax (transfer : T) (path : TransferPath) (bytes : UInt64) : ℤ :=
  match TransferModel.estimateDuration transfer path bytes with
  | .ok d => d.toNat
  | .error _ => i128Max

def utilityForTier (tier : TierKind) (bytes : UInt64) (prefixTokens : UInt32) (compute : C)
    (transfer : T) : ℤ :=
  let recomputeCost : ℤ := (ComputeModel.prefillTimeNs compute prefixTokens).toNat
  let fetchCost : ℤ := match tier with
    | .gpu => 0
    | .cpu => durationOrMax transfer .localCpuToGpu bytes
    | .remoteMemory => durationOrMax transfer .remoteMemoryToGpu bytes
    | .remoteSsd => durationOrMax transfer .remoteSsdToGpu bytes
    | .localSsd => i128Max
  let pressurePenalty : ℤ := match tier with
    | .gpu => 0
    | .cpu => (bytes.toNat / 100 : ℕ)
    | .remoteMemory => (bytes.toNat / 10 : ℕ)
    | _ => bytes.toNat
  i128Sub (i128Sub recomputeCost fetchCost) pressurePenalty

def locationFor (targetNode : NodeId) (tier : TierKind) (cluster : ClusterTopology) :
    Option CacheLocation :=
  match tier with
  | .gpu => do
    let node ← cluster.node targetNode
    let gpu ← node.gpus.head?
    some (.gpu targetNode gpu.gpuId)
  | .cpu => some (.cpu targetNode)
  | .remoteMemory => some (.remoteMemory targetNode)
  | .remoteSsd => some (.remoteSsd targetNode)
  | .localSsd => none

/-- The candidate tiers, of highest utility first; the sort is stable. -/
def scored (bytes : UInt64) (prefixTokens : UInt32) (compute : C) (transfer : T) :
    List (TierKind × ℤ) :=
  ([TierKind.gpu, .cpu, .remoteMemory, .remoteSsd].map fun tier =>
    (tier, utilityForTier tier bytes prefixTokens compute transfer)).sortByKey
      fun p => OrderDual.toDual p.2

def noSpace (targetNode : NodeId) (bytes : UInt64) : KvFlowError :=
  .invalidModelProfile
    s!"NetworkAwarePlacement: no space in any tier on node {targetNode} for {bytes} bytes"

/-- `for (tier, _utility) in scored { .. }`. -/
def tryTiers (self : NetworkAwarePlacement) (bytes : UInt64) (cluster : ClusterTopology)
    (obj : CacheLocation → KvObject) :
    List (TierKind × ℤ) → CacheState → List EvictedKv → PlaceResult × CacheState
  | [], cache, _ => (.error (noSpace self.targetNode bytes), cache)
  | (tier, _) :: rest, cache, totalEvicted =>
    match locationFor self.targetNode tier cluster with
    | none => self.tryTiers bytes cluster obj rest cache totalEvicted
    | some loc =>
      if cache.capacity self.targetNode tier < bytes then
        self.tryTiers bytes cluster obj rest cache totalEvicted
      else
        let (cache, totalEvicted) := evictLru self.targetNode tier bytes cache totalEvicted
        if bytes ≤ cache.availableSpace self.targetNode tier then
          insertAt cache (obj loc) totalEvicted
        else self.tryTiers bytes cluster obj rest cache totalEvicted

end NetworkAwarePlacement

instance : PlacementPolicy NetworkAwarePlacement where
  place self kvId sessionId prefixTokens bytes nowNs cluster cache compute transfer :=
    let (result, cache) := self.tryTiers bytes cluster
      (newObject kvId sessionId prefixTokens bytes nowNs)
      (NetworkAwarePlacement.scored bytes prefixTokens compute transfer) cache []
    ⟨result, self, cache, transfer⟩

end KvFlowSim
