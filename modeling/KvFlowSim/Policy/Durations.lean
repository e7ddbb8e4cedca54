import KvFlowSim.Policy.Oblivious
import KvFlowSim.Policy.Placing

/-!
# What placements read of a transfer model

The transfer model is a type parameter of `place`, so that a policy can be run with any of them. The
five policies of the source read nothing of it but the durations of transfers, so two models of the
same durations are interchangeable for them, whatever their types (`DurationPolicy`). Three of the
policies keep every KV on the node, on a GPU or in the memory of the CPU (`LocalPolicy`).
-/

namespace KvFlowSim

/-- The same placement, with another transfer model left behind. -/
def Placed.withTransfer {P T T' : Type} (p : Placed P T) (transfer : T') : Placed P T' where
  result := p.result
  policy := p.policy
  cache := p.cache
  transfer := transfer

/-- An oblivious policy to which transfer models of the same durations are the same, whatever their
types. -/
class DurationPolicy (P : Type) [PlacementPolicy P] : Prop extends ObliviousPolicy P where
  place_withTransfer {C T T' : Type} [ComputeModel C] [TransferModel T]
    [TransferModel T'] (self : P)
    (kvId : KvId) (sessionId : UInt64) (prefixTokens : UInt32) (bytes nowNs : UInt64)
    (cluster : ClusterTopology) (cache : CacheState) (compute : C) {transfer : T} {transfer' : T'} :
    TransferModel.estimateDuration transfer' = TransferModel.estimateDuration transfer →
    PlacementPolicy.place self kvId sessionId prefixTokens bytes nowNs cluster cache compute
        transfer' =
      (PlacementPolicy.place self kvId sessionId prefixTokens bytes nowNs cluster cache compute
        transfer).withTransfer transfer'

instance : DurationPolicy RemoteLru where
  place_withTransfer _ _ _ _ _ _ _ _ _ _ _ _ := rfl

instance : DurationPolicy SizeAware where
  place_withTransfer _ _ _ _ _ _ _ _ _ _ _ _ := rfl

instance : DurationPolicy LocalGpuLru where
  place_withTransfer _ _ _ _ _ _ _ _ _ _ _ _ := rfl

instance : DurationPolicy CpuOffloadLru where
  place_withTransfer _ _ _ _ _ _ _ _ _ _ _ _ := rfl

instance : DurationPolicy NetworkAwarePlacement where
  place_withTransfer self _ _ prefixTokens bytes _ _ _ compute transfer transfer' hduration := by
    have hutility : ∀ tier, NetworkAwarePlacement.utilityForTier tier bytes prefixTokens compute
        transfer' = NetworkAwarePlacement.utilityForTier tier bytes prefixTokens compute transfer :=
      fun tier => by
        simp only [NetworkAwarePlacement.utilityForTier,
          NetworkAwarePlacement.durationOrMax, hduration]
    simp only [PlacementPolicy.place, NetworkAwarePlacement.scored, hutility]
    rfl

/-! ## Local policies -/

/-- On a GPU or in the memory of the CPU. -/
def CacheLocation.Local (loc : CacheLocation) : Prop :=
  loc.tier = some .gpu ∨ loc.tier = some .cpu

instance (loc : CacheLocation) : Decidable loc.Local := inferInstanceAs (Decidable (_ ∨ _))

/-- A policy that stores KV in the GPU and CPU tiers only. -/
class LocalPolicy (P : Type) [PlacementPolicy P] : Prop where
  place_local {C T : Type} [ComputeModel C] [TransferModel T] (self : P) (kvId : KvId)
    (sessionId : UInt64) (prefixTokens : UInt32) (bytes nowNs : UInt64) (cluster : ClusterTopology)
    (cache : CacheState) (compute : C) (transfer : T) {loc : CacheLocation}
    {evicted : List EvictedKv} :
    (PlacementPolicy.place self kvId sessionId prefixTokens bytes nowNs cluster cache compute
      transfer).result = .ok (loc, evicted) → loc.Local

theorem insertAt_fst {cache : CacheState} {obj : KvObject} {evicted evicted' : List EvictedKv}
    {loc : CacheLocation} (h : (insertAt cache obj evicted).1 = .ok (loc, evicted')) :
    loc = obj.location := by
  unfold insertAt at h
  split at h
  · exact (Prod.mk.inj (Except.ok.inj h)).1.symm
  · cases h

theorem tier_of_slot {loc : CacheLocation} {n : NodeId} {t : TierKind}
    (h : loc.slot = some (n, t)) :
    loc.tier = some t := by
  cases loc <;> simp_all [CacheLocation.slot, CacheLocation.nodeId, CacheLocation.tier]

instance : LocalPolicy SizeAware where
  place_local self _ _ _ bytes _ _ _ _ _ _ _ h := by
    obtain rfl := insertAt_fst h
    by_cases hsmall : bytes ≤ self.gpuThresholdBytes
    · simp [newObject, CacheLocation.Local, CacheLocation.tier, hsmall]
    · simp [newObject, CacheLocation.Local, CacheLocation.tier, hsmall]

instance : LocalPolicy LocalGpuLru where
  place_local self _ _ _ _ _ _ _ _ _ _ _ h := by
    simp only [PlacementPolicy.place, LocalGpuLru.placeObject] at h
    split at h
    · exact .inl (insertAt_fst h ▸ rfl)
    · split at h
      · exact .inl (insertAt_fst h ▸ rfl)
      · split_ifs at h
        exact .inr (insertAt_fst h ▸ rfl)

instance : LocalPolicy CpuOffloadLru where
  place_local self _ _ _ bytes _ cluster _ _ _ _ _ h := by
    have hoffer : ∀ {c t loc}, tryPlaceInTier cluster c self.targetNode t bytes = some loc →
        loc.tier = some t := fun hsome => tier_of_slot (slot_of_tryPlaceInTier hsome)
    simp only [PlacementPolicy.place, CpuOffloadLru.placeObject] at h
    split at h
    next hsome => exact insertAt_fst h ▸ .inl (hoffer hsome)
    next =>
      split at h
      next hsome => exact insertAt_fst h ▸ .inl (hoffer hsome)
      next =>
        split at h
        next hsome => exact insertAt_fst h ▸ .inr (hoffer hsome)
        next =>
          split at h
          next hsome => exact insertAt_fst h ▸ .inr (hoffer hsome)
          next => cases h

end KvFlowSim
