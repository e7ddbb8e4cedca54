import KvFlowSim.Policy.Specification

/-!
# Wasted evictions

A placement wastes evictions if it fails after some, or if it evicts from another tier than the one
it places the object in. Network-aware placement never does: it skips a tier whose capacity is too
small "without destroying its contents". The other policies clear such a tier first, and
`notWasted_iff` says exactly when they get away with it.
-/

namespace KvFlowSim

/-- A failed placement leaves the cache as it is, and a successful one removes objects of the tier
of the new object only. -/
def NotWasted {P T : Type} (cache : CacheState) (placed : Placed P T) : Prop :=
  match placed.result with
  | .error _ => placed.cache = cache
  | .ok (loc, _) => ∀ k o, cache.objects.get k = some o → placed.cache.objects.get k = none →
      o.location.slot = loc.slot

variable {n : NodeId} {t : TierKind} {c : CacheState} {ev ev' : List EvictedKv} {bytes : UInt64}
  {cluster : ClusterTopology} {P T : Type} {placed : Placed P T}

theorem notWasted_iff_of_failed (hv : Victims c ev) (h : FailedAfter c ev placed.outcome) :
    NotWasted c placed ↔ ev = [] := by
  obtain ⟨e, h⟩ := h
  obtain ⟨hresult, hcache⟩ := Prod.mk.inj h
  simp only [NotWasted, hresult, hcache]
  exact hv.removeAll_eq_iff

theorem notWasted_iff_of_stored {obj : KvObject} (hv : Victims c ev)
    (hfresh : c.objects.get obj.kvId = none) (h : StoredAfter c ev obj placed.outcome) :
    NotWasted c placed ↔ ∀ e ∈ ev, c.slotAt e.kvId = obj.location.slot := by
  obtain ⟨hresult, hcache⟩ := Prod.mk.inj h
  simp only [NotWasted, hresult, hcache, CacheState.get_store, CacheState.get_removeAll]
  constructor
  · intro hsame e he
    obtain ⟨o, ho, -⟩ := hv.resident e he
    have hne : e.kvId ≠ obj.kvId := fun heq => by
      rw [heq, hfresh] at ho
      cases ho
    rw [CacheState.slotAt, ho, Option.bind_some]
    refine hsame e.kvId o ho ?_
    rw [if_neg hne, if_pos (List.mem_map_of_mem he)]
  · intro hslot k o ho hgone
    split_ifs at hgone with hk hmem
    · obtain ⟨e, he, rfl⟩ := List.mem_map.1 hmem
      have := hslot e he
      rwa [CacheState.slotAt, ho, Option.bind_some] at this
    · rw [ho] at hgone
      cases hgone

/-- Where only the tier of the new object was cleared, nothing was wasted. -/
theorem notWasted_of_stored {obj : KvObject} (hslot : obj.location.slot = some (n, t))
    (hclears : Clears n t bytes c [] ev) (hfresh : c.objects.get obj.kvId = none)
    (h : StoredAfter c ev obj placed.outcome) : NotWasted c placed := by
  refine (notWasted_iff_of_stored (hclears.evicts.victims (.nil c)) hfresh h).2 fun e he => ?_
  rw [hslot]
  exact (hclears.evicts.slotAt e he).resolve_left List.not_mem_nil

/-- A tier that is cleared for an object it cannot take should be empty. -/
theorem Clears.eq_iff_of_lt (h : Clears n t bytes c ev ev') (hlt : c.capacity n t < bytes) :
    ev' = ev ↔ (c.removeAll ev).objectsInTier n t = [] := by
  refine h.eq_iff.trans (or_iff_right fun hroom => ?_)
  have hle := (c.removeAll ev).availableSpace_le n t
  rw [CacheState.capacity_removeAll] at hle
  exact absurd (hroom.trans hle) (not_le.2 hlt)

/-- Where a single tier is cleared for the object. -/
theorem notWasted_iff_of_single {obj : KvObject} (hslot : obj.location.slot = some (n, t))
    (hfresh : c.objects.get obj.kvId = none) (hclears : Clears n t bytes c [] ev)
    (h : (bytes ≤ c.capacity n t ∧ StoredAfter c ev obj placed.outcome) ∨
      (c.capacity n t < bytes ∧ FailedAfter c ev placed.outcome)) :
    NotWasted c placed ↔ bytes ≤ c.capacity n t ∨ c.objectsInTier n t = [] := by
  rcases h with ⟨hfits, hstored⟩ | ⟨hlt, hfailed⟩
  · exact iff_of_true (notWasted_of_stored hslot hclears hfresh hstored) (.inl hfits)
  · rw [notWasted_iff_of_failed (hclears.evicts.victims (.nil c)) hfailed,
      or_iff_right (not_le.2 hlt)]
    exact hclears.eq_iff_of_lt hlt

section Place

variable {C : Type} [ComputeModel C] [TransferModel T] (kvId : KvId) (sessionId : UInt64)
  (prefixTokens : UInt32) (bytes nowNs : UInt64) (cluster : ClusterTopology) {cache : CacheState}
  (compute : C) (transfer : T)

theorem LocalGpuLru.notWasted_iff_gpuTier (self : LocalGpuLru) (hacc : cache.Accounted)
    (hfresh : cache.objects.get kvId = none) :
    NotWasted cache (PlacementPolicy.place self kvId sessionId prefixTokens bytes nowNs cluster
      cache compute transfer) ↔
      GpuHolds cluster cache self.targetNode bytes ∨
        bytes ≤ cache.availableSpace self.targetNode .gpu ∨
        cache.objectsInTier self.targetNode .gpu = [] := by
  obtain ⟨ev, hclears, h⟩ := self.placeObject_outcome cluster hacc
    (newObject_spec kvId sessionId prefixTokens bytes nowNs)
  have hv := hclears.evicts.victims (.nil cache)
  have hidle := hclears.eq_iff
  rcases h with ⟨hholds, gpuId, hstored⟩ | ⟨hholds, -, hstored⟩ | ⟨hholds, -, hfailed⟩
  · exact iff_of_true (notWasted_of_stored rfl hclears hfresh hstored) (.inl hholds)
  · rw [notWasted_iff_of_stored hv hfresh hstored, or_iff_right hholds]
    refine Iff.trans ⟨fun h => ?_, ?_⟩ hidle
    · -- what was evicted lived on the GPU, and the object is on the CPU
      refine List.eq_nil_iff_forall_not_mem.2 fun e he => ?_
      exact hclears.evicts.slotAt_ne (by simp) e he (h e he)
    · rintro rfl e he
      exact absurd he List.not_mem_nil
  · refine Iff.trans (notWasted_iff_of_failed hv hfailed) ?_
    rw [or_iff_right hholds]
    exact hidle

theorem CpuOffloadLru.notWasted_iff_tiers (self : CpuOffloadLru) (hacc : cache.Accounted)
    (hfresh : cache.objects.get kvId = none) :
    NotWasted cache (PlacementPolicy.place self kvId sessionId prefixTokens bytes nowNs cluster
      cache compute transfer) ↔
      GpuHolds cluster cache self.targetNode bytes ∨
        ((bytes ≤ cache.availableSpace self.targetNode .gpu ∨
            cache.objectsInTier self.targetNode .gpu = []) ∧
          (bytes ≤ cache.capacity self.targetNode .cpu ∨
            cache.objectsInTier self.targetNode .cpu = [])) := by
  obtain ⟨ev, ev', hclears, hclears', h⟩ := self.placeObject_outcome cluster hacc
    (newObject_spec kvId sessionId prefixTokens bytes nowNs)
  have hv' := hclears'.evicts.victims (hclears.evicts.victims (.nil cache))
  have hidle := hclears.eq_iff
  rw [CacheState.removeAll_nil] at hidle
  rcases h with ⟨hholds, gpuId, hstored⟩ | ⟨hholds, hfits, hstored⟩ | ⟨hholds, hlt, hfailed⟩
  · exact iff_of_true (notWasted_of_stored rfl hclears hfresh hstored) (.inl hholds)
  · rw [notWasted_iff_of_stored hv' hfresh hstored, or_iff_right hholds,
      and_iff_left (.inl hfits)]
    refine Iff.trans ⟨fun h => ?_, ?_⟩ hidle
    · refine List.eq_nil_iff_forall_not_mem.2 fun e he => ?_
      exact hclears.evicts.slotAt_ne (by simp) e he (h e (hclears'.evicts.subset he))
    · rintro rfl e he
      exact (hclears'.evicts.slotAt e he).resolve_left List.not_mem_nil
  · refine Iff.trans (notWasted_iff_of_failed hv' hfailed) ?_
    rw [or_iff_right hholds, ← hidle, or_iff_right (not_le.2 hlt)]
    constructor
    · rintro rfl
      obtain rfl : ev = [] := List.eq_nil_of_subset_nil hclears'.evicts.subset
      exact ⟨rfl, (hclears'.eq_iff_of_lt hlt).1 rfl⟩
    · rintro ⟨rfl, hempty⟩
      exact (hclears'.eq_iff_of_lt hlt).2 hempty

theorem NetworkAwarePlacement.notWasted (self : NetworkAwarePlacement) (hacc : cache.Accounted)
    (hfresh : cache.objects.get kvId = none) :
    NotWasted cache (PlacementPolicy.place self kvId sessionId prefixTokens bytes nowNs cluster
      cache compute transfer) := by
  rcases self.tryTiers_outcome cluster hacc
    (newObject_spec kvId sessionId prefixTokens bytes nowNs)
    (NetworkAwarePlacement.scored bytes prefixTokens compute transfer)
    (fun p hp hssd => absurd (NetworkAwarePlacement.mem_scored hp).1 (by rw [hssd]; decide)) with
    ⟨-, p, -, -, -, -, loc, ev, hslot, hclears, hstored⟩ | ⟨-, hfailed⟩
  · exact notWasted_of_stored hslot hclears hfresh hstored
  · refine Iff.mpr (notWasted_iff_of_failed (.nil cache) ?_) rfl
    exact hfailed

/-- **When evictions are not wasted.** By network-aware placement, always. By remote LRU and the
size-aware policy, if the selected tier could hold the object or has nothing to evict. By the two
GPU policies, if the GPU tier takes the object, has room without evictions, or has nothing to evict;
and where it does not take it, CPU offloading needs the same of the CPU tier that it clears next. -/
theorem notWasted_iff (targetNode : NodeId) (gpuThresholdBytes : UInt64) (hacc : cache.Accounted)
    (hfresh : cache.objects.get kvId = none) :
    NotWasted cache (PlacementPolicy.place (NetworkAwarePlacement.mk targetNode) kvId sessionId
      prefixTokens bytes nowNs cluster cache compute transfer) ∧
    (NotWasted cache (PlacementPolicy.place (RemoteLru.mk targetNode) kvId sessionId prefixTokens
        bytes nowNs cluster cache compute transfer) ↔
      bytes ≤ cache.capacity targetNode .remoteMemory ∨
        cache.objectsInTier targetNode .remoteMemory = []) ∧
    (NotWasted cache (PlacementPolicy.place (SizeAware.mk targetNode gpuThresholdBytes) kvId
        sessionId prefixTokens bytes nowNs cluster cache compute transfer) ↔
      let tier := if bytes ≤ gpuThresholdBytes then TierKind.gpu else .cpu
      bytes ≤ cache.capacity targetNode tier ∨ cache.objectsInTier targetNode tier = []) ∧
    (NotWasted cache (PlacementPolicy.place (LocalGpuLru.mk targetNode) kvId sessionId
        prefixTokens bytes nowNs cluster cache compute transfer) ↔
      GpuHolds cluster cache targetNode bytes ∨ bytes ≤ cache.availableSpace targetNode .gpu ∨
        cache.objectsInTier targetNode .gpu = []) ∧
    (NotWasted cache (PlacementPolicy.place (CpuOffloadLru.mk targetNode) kvId sessionId
        prefixTokens bytes nowNs cluster cache compute transfer) ↔
      GpuHolds cluster cache targetNode bytes ∨
        ((bytes ≤ cache.availableSpace targetNode .gpu ∨
            cache.objectsInTier targetNode .gpu = []) ∧
          (bytes ≤ cache.capacity targetNode .cpu ∨
            cache.objectsInTier targetNode .cpu = []))) := by
  refine ⟨NetworkAwarePlacement.notWasted _ _ _ _ _ _ _ _ _ hacc hfresh, ?_, ?_,
    LocalGpuLru.notWasted_iff_gpuTier _ _ _ _ _ _ _ _ _ hacc hfresh,
    CpuOffloadLru.notWasted_iff_tiers _ _ _ _ _ _ _ _ _ hacc hfresh⟩
  · obtain ⟨ev, hclears, h⟩ := (RemoteLru.mk targetNode).place_outcome kvId sessionId prefixTokens
      bytes nowNs cluster compute transfer hacc
    exact notWasted_iff_of_single rfl hfresh hclears h
  · obtain ⟨ev, hclears, h⟩ := (SizeAware.mk targetNode gpuThresholdBytes).place_outcome kvId
      sessionId prefixTokens bytes nowNs cluster compute transfer hacc
    exact notWasted_iff_of_single (SizeAware.slot_location _ bytes) hfresh hclears h

end Place

/-- The tier makes way for an object that it can hold. -/
theorem notWasted_iff_evicts :
    NotWasted filledCache (PlacementPolicy.place (LocalGpuLru.mk 0) 1 2 8 80 5 (.singleNode 1 0)
      filledCache LinearComputeModel.conservative8b AnalyticalTransferModel.rdma400g) := by
  obtain ⟨-, -, -, hlocal, -⟩ := notWasted_iff 1 2 8 80 5 (.singleNode 1 0)
    LinearComputeModel.conservative8b AnalyticalTransferModel.rdma400g 0 0 accounted_filledCache
    (by decide +kernel)
  exact hlocal.2 (.inl ⟨hasGpu_singleNode, by decide +kernel⟩)

/-- An object of 150 bytes empties the GPU tier of 100 bytes and is not placed at all. -/
theorem wasted_oversized :
    let placed := PlacementPolicy.place (LocalGpuLru.mk 0) 1 2 8 150 5 (.singleNode 1 0)
      filledCache LinearComputeModel.conservative8b AnalyticalTransferModel.rdma400g
    filledCache.Accounted ∧ filledCache.objects.get 1 = none ∧ ¬NotWasted filledCache placed := by
  intro placed
  have hresult : placed.result = .error LocalGpuLru.noSpace := by decide +kernel
  have hgone : placed.cache.objects.get 0 ≠ filledCache.objects.get 0 := by decide +kernel
  refine ⟨accounted_filledCache, by decide +kernel, fun h => hgone ?_⟩
  simp only [NotWasted, hresult] at h
  rw [h]

end KvFlowSim
