import KvFlowSim.Policy.Specification

/-!
# Placement in the GPU tier

What the GPU tier can hold is placed there by the two local LRU policies and by network-aware
placement, after the same evictions (`gpu_placements_agree`). The recompute cost is part of every
score, and only the GPU tier has nothing subtracted from it.
-/

namespace KvFlowSim

variable {c : CacheState} {ev : List EvictedKv} {bytes : UInt64} {cluster : ClusterTopology}
  {obj : CacheLocation → KvObject} {n : NodeId} {node : ServingNode} {gpu : GpuResource}

/-- The object goes to the first GPU of the node after the evictions `ev` from its GPU tier, which
make room for it. -/
structure GoesToGpu (cluster : ClusterTopology) (c : CacheState) (n : NodeId) (bytes : UInt64)
    (gpu : GpuResource) (ev : List EvictedKv) : Prop where
  first : ∃ node, cluster.node n = some node ∧ node.gpus.head? = some gpu
  fits : bytes ≤ c.capacity n .gpu
  evicts : evictLru n .gpu bytes c [] = (c.removeAll ev, ev)
  room : bytes ≤ (c.removeAll ev).availableSpace n .gpu
  idle : bytes ≤ c.availableSpace n .gpu → ev = []

theorem exists_goesToGpu (hacc : c.Accounted) (hgpu : cluster.HasGpu n)
    (hfits : bytes ≤ c.capacity n .gpu) : ∃ gpu ev, GoesToGpu cluster c n bytes gpu ev := by
  obtain ⟨node, hnode, hne⟩ := hgpu
  obtain ⟨gpu, gpus, hgpus⟩ := List.exists_cons_of_ne_nil hne
  obtain ⟨ev, hev, hclears⟩ := evictLru_clears n .gpu bytes c []
  have hfirst : node.gpus.head? = some gpu := by rw [hgpus, List.head?_cons]
  exact ⟨gpu, ev, ⟨node, hnode, hfirst⟩, hfits, hev, (hclears.room_iff hacc).2 hfits,
    fun hroom => hclears.eq_iff.2 (.inl hroom)⟩

theorem GoesToGpu.findGpuWithSpace {c' : CacheState} (h : GoesToGpu cluster c n bytes gpu ev) :
    findGpuWithSpace cluster c' n bytes =
      if bytes ≤ c'.availableSpace n .gpu then some gpu.gpuId else none := by
  obtain ⟨node, hnode, hhead⟩ := h.first
  simp only [KvFlowSim.findGpuWithSpace, hnode, hhead, Option.map_some]

theorem LocalGpuLru.placeObject_gpu (h : GoesToGpu cluster c n bytes gpu ev) :
    (LocalGpuLru.mk n).placeObject bytes cluster c obj =
      insertAt (c.removeAll ev) (obj (.gpu n gpu.gpuId)) ev := by
  by_cases hroom : bytes ≤ c.availableSpace n .gpu
  · obtain rfl := h.idle hroom
    simp only [placeObject, h.findGpuWithSpace, if_pos hroom, CacheState.removeAll_nil]
  · simp only [placeObject, h.findGpuWithSpace, if_neg hroom, h.evicts, if_pos h.room]

theorem CpuOffloadLru.placeObject_gpu (h : GoesToGpu cluster c n bytes gpu ev) :
    (CpuOffloadLru.mk n).placeObject bytes cluster c obj =
      insertAt (c.removeAll ev) (obj (.gpu n gpu.gpuId)) ev := by
  by_cases hroom : bytes ≤ c.availableSpace n .gpu
  · obtain rfl := h.idle hroom
    simp only [placeObject, tryPlaceInTier_gpu, h.findGpuWithSpace, if_pos hroom, Option.map_some,
      CacheState.removeAll_nil]
  · simp only [placeObject, tryPlaceInTier_gpu, h.findGpuWithSpace, if_neg hroom, Option.map_none,
      h.evicts, if_pos h.room, Option.map_some]

namespace NetworkAwarePlacement

variable {C T : Type} [ComputeModel C] [TransferModel T] {transfer : T}

/-- The GPU tier comes first, as its score is the recompute cost and the others are at most that. -/
theorem scored_eq_gpu (prefixTokens : UInt32) (compute : C)
    (hok : ∀ tier ∈ candidates, ¬Fails transfer bytes tier) :
    ∃ utility rest, scored bytes prefixTokens compute transfer = (.gpu, utility) :: rest := by
  refine ⟨_, _, List.sortByKey_cons_of_le fun p hp => ?_⟩
  obtain ⟨tier, htier, rfl⟩ := List.mem_map.1 hp
  have htier' : tier ∈ candidates := List.mem_cons_of_mem _ htier
  have hgpu : .gpu ∈ candidates := List.mem_cons_self
  have hfetch := (fetchCost_bounds htier' (hok tier htier')).1
  have hpenalty := (pressurePenalty_bounds bytes tier).1
  refine OrderDual.toDual_le_toDual.2 ?_
  dsimp only
  rw [utilityForTier_eq_utility hok htier', utilityForTier_eq_utility hok hgpu, utility, utility]
  simp only [fetchCost, pressurePenalty] at hfetch hpenalty ⊢
  omega

theorem tryTiers_gpu (h : GoesToGpu cluster c n bytes gpu ev) (utility : ℤ)
    (rest : List (TierKind × ℤ)) :
    (NetworkAwarePlacement.mk n).tryTiers bytes cluster obj ((.gpu, utility) :: rest) c [] =
      insertAt (c.removeAll ev) (obj (.gpu n gpu.gpuId)) ev := by
  obtain ⟨node, hnode, hhead⟩ := h.first
  have hloc : locationFor n .gpu cluster = some (.gpu n gpu.gpuId) := by
    simp only [locationFor, hnode, Option.bind_eq_bind, Option.bind_some, hhead]
  simp only [tryTiers, hloc, if_neg (not_lt.2 h.fits), h.evicts, if_pos h.room]

end NetworkAwarePlacement

/-- **For objects that fit the GPU tier, network-aware placement is local LRU placement.** The three
policies give the object the same place, evict the same objects and leave the same cache, whatever
the compute and the transfer model, as long as no estimate fails. -/
theorem gpu_placements_agree (targetNode : NodeId) (kvId : KvId) (sessionId : UInt64)
    (prefixTokens : UInt32) (bytes nowNs : UInt64) (cluster : ClusterTopology) (cache : CacheState)
    (hacc : cache.Accounted) (hgpu : cluster.HasGpu targetNode)
    (hfits : bytes ≤ cache.capacity targetNode .gpu) :
    ∃ loc ev cache', loc.slot = some (targetNode, .gpu) ∧
      ∀ (C T : Type) [ComputeModel C] [TransferModel T] (compute : C) (transfer : T),
        (∀ path, ∃ d, TransferModel.estimateDuration transfer path bytes = .ok d) →
          (PlacementPolicy.place (NetworkAwarePlacement.mk targetNode) kvId sessionId prefixTokens
            bytes nowNs cluster cache compute transfer).outcome = (.ok (loc, ev), cache') ∧
          (PlacementPolicy.place (LocalGpuLru.mk targetNode) kvId sessionId prefixTokens
            bytes nowNs cluster cache compute transfer).outcome = (.ok (loc, ev), cache') ∧
          (PlacementPolicy.place (CpuOffloadLru.mk targetNode) kvId sessionId prefixTokens
            bytes nowNs cluster cache compute transfer).outcome = (.ok (loc, ev), cache') := by
  obtain ⟨gpu, ev, h⟩ := exists_goesToGpu hacc hgpu hfits
  have hobj := newObject_spec kvId sessionId prefixTokens bytes nowNs
  have hslot : (CacheLocation.gpu targetNode gpu.gpuId).slot = some (targetNode, .gpu) := rfl
  have hinsert := insertAt_obj hobj ev hslot h.room
  rw [(hobj _).1] at hinsert
  refine ⟨.gpu targetNode gpu.gpuId, ev, (cache.removeAll ev).store
    (newObject kvId sessionId prefixTokens bytes nowNs (.gpu targetNode gpu.gpuId)), hslot, ?_⟩
  intro C T _ _ compute transfer hok
  refine ⟨?_, ?_, ?_⟩
  · have hnever : ∀ tier ∈ NetworkAwarePlacement.candidates,
        ¬NetworkAwarePlacement.Fails transfer bytes tier := by
      rintro tier - ⟨path, -, e, he⟩
      obtain ⟨d, hd⟩ := hok path
      cases hd.symm.trans he
    obtain ⟨utility, rest, hscored⟩ :=
      NetworkAwarePlacement.scored_eq_gpu prefixTokens compute hnever
    simp only [Placed.outcome, PlacementPolicy.place, hscored]
    exact (NetworkAwarePlacement.tryTiers_gpu h utility rest).trans hinsert
  · exact (LocalGpuLru.placeObject_gpu h).trans hinsert
  · exact (CpuOffloadLru.placeObject_gpu h).trans hinsert

/-- An object is evicted for the new one by each of the policies. -/
theorem gpu_placements_agree_evicts :
    (PlacementPolicy.place (NetworkAwarePlacement.mk 0) 1 2 8 80 5 (.singleNode 1 0) filledCache
        LinearComputeModel.conservative8b AnalyticalTransferModel.rdma400g).outcome =
      (PlacementPolicy.place (LocalGpuLru.mk 0) 1 2 8 80 5 (.singleNode 1 0) filledCache
        LinearComputeModel.conservative8b AnalyticalTransferModel.rdma400g).outcome := by
  have hok : ∀ path, ∃ d,
      TransferModel.estimateDuration AnalyticalTransferModel.rdma400g path 80 = .ok d := by
    intro path
    cases path <;> exact ⟨_, rfl⟩
  obtain ⟨loc, ev, cache', -, hagree⟩ := gpu_placements_agree 0 1 2 8 80 5 (.singleNode 1 0)
    filledCache accounted_filledCache hasGpu_singleNode (by decide +kernel)
  obtain ⟨haware, hlocal, -⟩ := hagree LinearComputeModel AnalyticalTransferModel
    LinearComputeModel.conservative8b AnalyticalTransferModel.rdma400g hok
  exact haware.trans hlocal.symm

end KvFlowSim
