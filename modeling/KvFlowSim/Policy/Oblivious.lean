import KvFlowSim.Cluster.Alike
import KvFlowSim.Policy.Lru
import KvFlowSim.Policy.NetworkAware

/-!
# What placements do not read

A placement sees the cluster and the transfer model. The five policies of the source hand the
transfer model back as it was (`QuietPolicy`), and they read neither a busy time nor the queue
inside the transfer model: they look up nodes, GPU ids and the durations of
transfers (`ObliviousPolicy`).
-/

namespace KvFlowSim

open List

/-- A policy that leaves the transfer model as it is. -/
class QuietPolicy (P : Type) [PlacementPolicy P] : Prop where
  place_transfer {C T : Type} [ComputeModel C] [TransferModel T] (self : P) (kvId : KvId)
    (sessionId : UInt64) (prefixTokens : UInt32) (bytes nowNs : UInt64) (cluster : ClusterTopology)
    (cache : CacheState) (compute : C) (transfer : T) :
    (PlacementPolicy.place self kvId sessionId prefixTokens bytes nowNs cluster cache compute
      transfer).transfer = transfer

/-- A policy that reads of the cluster no busy time, and of the transfer model only
the durations. -/
class ObliviousPolicy (P : Type) [PlacementPolicy P] : Prop extends QuietPolicy P where
  place_sameShape {C T : Type} [ComputeModel C] [TransferModel T] (self : P) (kvId : KvId)
    (sessionId : UInt64) (prefixTokens : UInt32) (bytes nowNs : UInt64)
    {cluster cluster' : ClusterTopology} (cache : CacheState) (compute : C)
    {transfer transfer' : T} :
    cluster.SameShape cluster' →
    TransferModel.estimateDuration transfer' = TransferModel.estimateDuration transfer →
    PlacementPolicy.place self kvId sessionId prefixTokens bytes nowNs cluster' cache compute
        transfer' =
      { PlacementPolicy.place self kvId sessionId prefixTokens bytes nowNs cluster cache compute
          transfer with
        transfer := (PlacementPolicy.place self kvId sessionId prefixTokens bytes nowNs
          cluster' cache compute transfer').transfer }

/-- Such a placement makes the same choice on clusters of one shape. -/
theorem ObliviousPolicy.place_eq {P C T : Type} [PlacementPolicy P] [ObliviousPolicy P]
    [ComputeModel C] [TransferModel T] (self : P) (kvId : KvId) (sessionId : UInt64)
    (prefixTokens : UInt32) (bytes nowNs : UInt64) {cluster cluster' : ClusterTopology}
    (cache : CacheState) (compute : C) {transfer transfer' : T} (h : cluster.SameShape cluster')
    (hduration : TransferModel.estimateDuration transfer' =
      TransferModel.estimateDuration transfer) :
    PlacementPolicy.place self kvId sessionId prefixTokens bytes nowNs cluster' cache compute
        transfer' =
      { PlacementPolicy.place self kvId sessionId prefixTokens bytes nowNs cluster cache compute
          transfer with transfer := transfer' } := by
  have hquiet := QuietPolicy.place_transfer self kvId sessionId prefixTokens bytes nowNs
    cluster' cache compute transfer'
  have hplace := place_sameShape self kvId sessionId prefixTokens bytes nowNs cache compute h
    hduration
  rw [hplace, hquiet]

instance : ObliviousPolicy RemoteLru where
  place_transfer _ _ _ _ _ _ _ _ _ _ := rfl
  place_sameShape _ _ _ _ _ _ _ _ _ _ _ _ _ _ := rfl

instance : ObliviousPolicy SizeAware where
  place_transfer _ _ _ _ _ _ _ _ _ _ := rfl
  place_sameShape _ _ _ _ _ _ _ _ _ _ _ _ _ _ := rfl

section

variable {cluster cluster' : ClusterTopology}

/-- The first GPU of a node, under whose id a policy files an object. -/
theorem ClusterTopology.SameShape.rel_head (h : cluster.SameShape cluster') (n : NodeId) :
    Option.Rel (fun m m' => Option.Rel (fun g g' => g'.gpuId = g.gpuId) m.gpus.head? m'.gpus.head?)
      (cluster.node n) (cluster'.node n) := by
  have hnode := ClusterTopology.rel_node h n
  generalize cluster'.node n = o' at hnode ⊢
  generalize cluster.node n = o at hnode ⊢
  cases hnode with
  | none => exact .none
  | @some m m' hm =>
    refine .some ?_
    obtain ⟨-, hgpus⟩ := hm
    generalize m'.gpus = l' at hgpus ⊢
    generalize m.gpus = l at hgpus ⊢
    cases hgpus with
    | nil => exact .none
    | cons hg _ => exact .some (by rw [hg]; rfl)

theorem findGpuWithSpace_sameShape (h : cluster.SameShape cluster')
    (cache : CacheState) (n : NodeId) (bytes : UInt64) :
    findGpuWithSpace cluster' cache n bytes = findGpuWithSpace cluster cache n bytes := by
  have hhead := h.rel_head n
  unfold findGpuWithSpace
  generalize cluster'.node n = o' at hhead ⊢
  generalize cluster.node n = o at hhead ⊢
  cases hhead with
  | none => rfl
  | @some m m' hm =>
    dsimp only
    split_ifs
    · generalize m'.gpus.head? = g' at hm ⊢
      generalize m.gpus.head? = g at hm ⊢
      cases hm with
      | none => rfl
      | some hg => rw [Option.map_some, Option.map_some, hg]
    · rfl

theorem tryPlaceInTier_sameShape (h : cluster.SameShape cluster') (cache : CacheState) (n : NodeId)
    (tier : TierKind) (bytes : UInt64) :
    tryPlaceInTier cluster' cache n tier bytes = tryPlaceInTier cluster cache n tier bytes := by
  have hhead := h.rel_head n
  unfold tryPlaceInTier
  split_ifs
  · rfl
  · cases tier with
    | gpu =>
      dsimp only
      generalize cluster'.node n = o' at hhead ⊢
      generalize cluster.node n = o at hhead ⊢
      cases hhead with
      | none => rfl
      | @some m m' hm =>
        dsimp only
        generalize m'.gpus.head? = g' at hm ⊢
        generalize m.gpus.head? = g at hm ⊢
        cases hm with
        | none => rfl
        | some hg => rw [Option.map_some, Option.map_some, hg]
    | _ => rfl

theorem NetworkAwarePlacement.locationFor_sameShape (h : cluster.SameShape cluster') (n : NodeId)
    (tier : TierKind) : locationFor n tier cluster' = locationFor n tier cluster := by
  have hhead := h.rel_head n
  unfold locationFor
  cases tier with
  | gpu =>
    dsimp only
    generalize cluster'.node n = o' at hhead ⊢
    generalize cluster.node n = o at hhead ⊢
    cases hhead with
    | none => rfl
    | @some m m' hm =>
      dsimp only [Option.bind_eq_bind, Option.bind_some]
      generalize m'.gpus.head? = g' at hm ⊢
      generalize m.gpus.head? = g at hm ⊢
      cases hm with
      | none => rfl
      | some hg => rw [Option.bind_some, Option.bind_some, hg]
  | _ => rfl

theorem NetworkAwarePlacement.tryTiers_sameShape (h : cluster.SameShape cluster')
    (self : NetworkAwarePlacement) (bytes : UInt64) (obj : CacheLocation → KvObject)
    (tiers : List (TierKind × ℤ)) (cache : CacheState) (evicted : List EvictedKv) :
    self.tryTiers bytes cluster' obj tiers cache evicted =
      self.tryTiers bytes cluster obj tiers cache evicted := by
  induction tiers generalizing cache evicted with
  | nil => rfl
  | cons p rest ih => simp only [tryTiers, locationFor_sameShape h, ih]

end

instance : ObliviousPolicy LocalGpuLru where
  place_transfer _ _ _ _ _ _ _ _ _ _ := rfl
  place_sameShape _ _ _ _ _ _ _ _ _ _ _ _ h _ := by
    simp only [PlacementPolicy.place, LocalGpuLru.placeObject, findGpuWithSpace_sameShape h]

instance : ObliviousPolicy CpuOffloadLru where
  place_transfer _ _ _ _ _ _ _ _ _ _ := rfl
  place_sameShape _ _ _ _ _ _ _ _ _ _ _ _ h _ := by
    simp only [PlacementPolicy.place, CpuOffloadLru.placeObject, tryPlaceInTier_sameShape h]

instance : ObliviousPolicy NetworkAwarePlacement where
  place_transfer _ _ _ _ _ _ _ _ _ _ := rfl
  place_sameShape self _ _ prefixTokens bytes _ _ _ _ compute transfer transfer' h hduration := by
    have hutility : ∀ tier, NetworkAwarePlacement.utilityForTier tier bytes prefixTokens compute
        transfer' = NetworkAwarePlacement.utilityForTier tier bytes prefixTokens compute transfer :=
      fun tier => by
        simp only [NetworkAwarePlacement.utilityForTier,
          NetworkAwarePlacement.durationOrMax, hduration]
    simp only [PlacementPolicy.place, NetworkAwarePlacement.scored, hutility,
      NetworkAwarePlacement.tryTiers_sameShape h]

end KvFlowSim
