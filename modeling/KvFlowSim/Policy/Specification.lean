import KvFlowSim.Policy.Outcomes
import KvFlowSim.Policy.Scoring

/-!
# What the policies are specified to do

`LruPlacement` is the specification of a successful placement with LRU eviction, on the objects of
the cache before and after. The four LRU baselines meet it and succeed exactly if a tier can take
the object (`lru_baselines_spec`); network-aware placement meets it in the best feasible
tier (`networkAware_spec`).
-/

namespace KvFlowSim

variable {n : NodeId} {t : TierKind} {c c' : CacheState} {ev ev' : List EvictedKv} {bytes : UInt64}
  {cluster : ClusterTopology}

/-- The object was placed and the listed objects were evicted for it: they are distinct, and the
least recently used of their tiers; all other objects are as before; and of those evicted from the
object's own tier the last was needed, as with it the tier has too little space. -/
structure LruPlacement (c : CacheState) (obj : KvObject) (ev : List EvictedKv) (c' : CacheState) :
    Prop where
  victims : Victims c ev
  objects : ∀ k, c'.objects.get k =
    if k = obj.kvId then some obj
    else if k ∈ ev.map EvictedKv.kvId then none
    else c.objects.get k
  needed : ∀ n t, obj.location.slot = some (n, t) →
    ∀ e, (ev.filter fun e => c.slotAt e.kvId = some (n, t)).getLast? = some e →
      (c.removeAll (ev.erase e)).availableSpace n t < obj.bytes

/-- The last victim of the loop is the last of its tier, if none was evicted from it before. -/
theorem Evicts.needed_last (h : Evicts n t bytes c ev ev') (hv : Victims c ev')
    (hother : ∀ e ∈ ev, c.slotAt e.kvId ≠ some (n, t)) {e : EvictedKv}
    (he : (ev'.filter fun e => c.slotAt e.kvId = some (n, t)).getLast? = some e) :
    (c.removeAll (ev'.erase e)).availableSpace n t < bytes := by
  by_cases hsame : ev' = ev
  · subst hsame
    have hnil : (ev'.filter fun e => c.slotAt e.kvId = some (n, t)) = [] :=
      List.filter_eq_nil_iff.2 fun e he => by simpa using hother e he
    rw [hnil] at he
    cases he
  · obtain ⟨init, last, rfl, hlast, hlt⟩ := h.needed hsame
    have hmem : last ∈ init ++ [last] := List.mem_append_right _ (List.mem_singleton_self last)
    have hslot := (h.slotAt last hmem).resolve_left hlast
    rw [List.filter_append, List.filter_singleton, decide_eq_true hslot, cond_true,
      List.getLast?_concat] at he
    obtain rfl := Option.some.inj he
    have hnew : last ∉ init := by
      have hnodup := hv.nodup.of_map
      exact fun hm => (List.nodup_append.1 hnodup).2.2 last hm last (List.mem_singleton_self _) rfl
    rwa [List.erase_append_right _ hnew, List.erase_cons_head, List.append_nil]

/-- An object that is stored after a loop in its tier, and after evictions from other tiers. -/
theorem LruPlacement.of_evicts {obj : KvObject} (hslot : obj.location.slot = some (n, t))
    (h : Evicts n t obj.bytes c ev ev') (hv : Victims c ev')
    (hother : ∀ e ∈ ev, c.slotAt e.kvId ≠ some (n, t)) :
    LruPlacement c obj ev' ((c.removeAll ev').store obj) where
  victims := hv
  objects k := by rw [CacheState.get_store, CacheState.get_removeAll]
  needed n' t' hslot' e he := by
    obtain ⟨rfl, rfl⟩ := Prod.mk.inj (Option.some.inj (hslot.symm.trans hslot'))
    exact h.needed_last hv hother he

/-- The first loop of a placement evicts from its tier only. -/
theorem Evicts.slotAt_ne (h : Evicts n t bytes c [] ev) {n' : NodeId} {t' : TierKind}
    (hne : (n, t) ≠ (n', t')) : ∀ e ∈ ev, c.slotAt e.kvId ≠ some (n', t') := by
  intro e he heq
  have hslot := (h.slotAt e he).resolve_left List.not_mem_nil
  exact hne (Option.some.inj (hslot.symm.trans heq))

theorem Clears.lruPlacement {obj : KvObject} (hslot : obj.location.slot = some (n, t))
    (h : Clears n t obj.bytes c [] ev) :
    LruPlacement c obj ev ((c.removeAll ev).store obj) :=
  .of_evicts hslot h.evicts (h.evicts.victims (.nil c)) fun _ he => absurd he List.not_mem_nil

/-! ## The LRU baselines -/

/-- A placement that succeeds exactly under the condition, and then as specified. -/
structure PlacesIff {P T : Type} (placed : Placed P T) (cache : CacheState)
    (obj : CacheLocation → KvObject) (condition : Prop) : Prop where
  succeeds : (∃ loc ev, placed.result = .ok (loc, ev)) ↔ condition
  spec : ∀ loc ev, placed.result = .ok (loc, ev) → LruPlacement cache (obj loc) ev placed.cache

theorem PlacesIff.of_stored {P T : Type} {placed : Placed P T} {obj : CacheLocation → KvObject}
    {condition : Prop} (hobj : ∀ loc, (obj loc).location = loc) {loc : CacheLocation}
    (hcond : condition) (h : StoredAfter c ev (obj loc) placed.outcome)
    (hspec : LruPlacement c (obj loc) ev ((c.removeAll ev).store (obj loc))) :
    PlacesIff placed c obj condition := by
  obtain ⟨hresult, hcache⟩ := Prod.mk.inj h
  refine ⟨⟨fun _ => hcond, fun _ => ⟨_, _, hresult⟩⟩, fun loc' ev' hok => ?_⟩
  rw [hresult] at hok
  obtain ⟨rfl, rfl⟩ := Prod.mk.inj (Except.ok.inj hok)
  rw [hobj, hcache]
  exact hspec

theorem PlacesIff.of_failed {P T : Type} {placed : Placed P T} {obj : CacheLocation → KvObject}
    {condition : Prop} (hcond : ¬condition) (h : FailedAfter c ev placed.outcome) :
    PlacesIff placed c obj condition := by
  obtain ⟨e, h⟩ := h
  obtain ⟨hresult, -⟩ := Prod.mk.inj h
  refine ⟨⟨?_, fun hc => absurd hc hcond⟩, ?_⟩
  · rintro ⟨loc, ev', hok⟩
    rw [hresult] at hok
    cases hok
  · intro loc ev' hok
    rw [hresult] at hok
    cases hok

section Place

variable {C T : Type} [ComputeModel C] [TransferModel T] (kvId : KvId) (sessionId : UInt64)
  (prefixTokens : UInt32) (bytes nowNs : UInt64) (cluster : ClusterTopology) {cache : CacheState}
  (compute : C) (transfer : T)

theorem RemoteLru.placesIff (self : RemoteLru) (hacc : cache.Accounted) :
    PlacesIff (PlacementPolicy.place self kvId sessionId prefixTokens bytes nowNs cluster cache
      compute transfer) cache (newObject kvId sessionId prefixTokens bytes nowNs)
      (bytes ≤ cache.capacity self.targetNode .remoteMemory) := by
  obtain ⟨ev, hclears, ⟨hfits, hstored⟩ | ⟨hlt, hfailed⟩⟩ := self.place_outcome kvId sessionId
    prefixTokens bytes nowNs cluster compute transfer hacc
  · exact .of_stored (fun _ => rfl) hfits hstored (hclears.lruPlacement rfl)
  · exact .of_failed (not_le.2 hlt) hfailed

theorem SizeAware.placesIff (self : SizeAware) (hacc : cache.Accounted) :
    PlacesIff (PlacementPolicy.place self kvId sessionId prefixTokens bytes nowNs cluster cache
      compute transfer) cache (newObject kvId sessionId prefixTokens bytes nowNs)
      (bytes ≤ cache.capacity self.targetNode (self.tier bytes)) := by
  obtain ⟨ev, hclears, ⟨hfits, hstored⟩ | ⟨hlt, hfailed⟩⟩ := self.place_outcome kvId sessionId
    prefixTokens bytes nowNs cluster compute transfer hacc
  · exact .of_stored (fun _ => rfl) hfits hstored (hclears.lruPlacement (self.slot_location bytes))
  · exact .of_failed (not_le.2 hlt) hfailed

theorem CpuOffloadLru.placesIff (self : CpuOffloadLru) (hacc : cache.Accounted)
    (hgpu : cluster.HasGpu self.targetNode) :
    PlacesIff (PlacementPolicy.place self kvId sessionId prefixTokens bytes nowNs cluster cache
      compute transfer) cache (newObject kvId sessionId prefixTokens bytes nowNs)
      (bytes ≤ cache.capacity self.targetNode .gpu ∨
        bytes ≤ cache.capacity self.targetNode .cpu) := by
  obtain ⟨ev, ev', hclears, hclears', h⟩ := self.placeObject_outcome cluster hacc
    (newObject_spec kvId sessionId prefixTokens bytes nowNs)
  rcases h with ⟨hholds, gpuId, hstored⟩ | ⟨-, hfits, hstored⟩ | ⟨hholds, hlt, hfailed⟩
  · exact .of_stored (fun _ => rfl) (.inl hholds.2) hstored (hclears.lruPlacement rfl)
  · refine .of_stored (fun _ => rfl) (.inr hfits) hstored (.of_evicts rfl hclears'.evicts ?_ ?_)
    · exact hclears'.evicts.victims (hclears.evicts.victims (.nil cache))
    · exact hclears.evicts.slotAt_ne (by simp)
  · refine .of_failed ?_ hfailed
    rintro (hfits | hfits)
    · exact hholds ⟨hgpu, hfits⟩
    · exact absurd hfits (not_le.2 hlt)

theorem LocalGpuLru.placesIff (self : LocalGpuLru) (hacc : cache.Accounted)
    (hgpu : cluster.HasGpu self.targetNode) :
    PlacesIff (PlacementPolicy.place self kvId sessionId prefixTokens bytes nowNs cluster cache
      compute transfer) cache (newObject kvId sessionId prefixTokens bytes nowNs)
      (bytes ≤ cache.capacity self.targetNode .gpu ∨
        bytes ≤ cache.availableSpace self.targetNode .cpu) := by
  obtain ⟨ev, hclears, h⟩ := self.placeObject_outcome cluster hacc
    (newObject_spec kvId sessionId prefixTokens bytes nowNs)
  rcases h with ⟨hholds, gpuId, hstored⟩ | ⟨-, hroom, hstored⟩ | ⟨hholds, hlt, hfailed⟩
  · exact .of_stored (fun _ => rfl) (.inl hholds.2) hstored (hclears.lruPlacement rfl)
  · refine .of_stored (fun _ => rfl) (.inr hroom) hstored
      (.of_evicts (n := self.targetNode) (t := .cpu) rfl .refl ?_ ?_)
    · exact hclears.evicts.victims (.nil cache)
    · exact hclears.evicts.slotAt_ne (by simp)
  · refine .of_failed ?_ hfailed
    rintro (hfits | hroom)
    · exact hholds ⟨hgpu, hfits⟩
    · exact absurd hroom (not_le.2 hlt)

/-- **The LRU baselines succeed exactly when they can and evict an LRU prefix.** -/
theorem lru_baselines_spec (targetNode : NodeId) (gpuThresholdBytes : UInt64)
    (hacc : cache.Accounted) (hgpu : cluster.HasGpu targetNode) :
    PlacesIff (PlacementPolicy.place (RemoteLru.mk targetNode) kvId sessionId prefixTokens bytes
      nowNs cluster cache compute transfer) cache
      (newObject kvId sessionId prefixTokens bytes nowNs)
      (bytes ≤ cache.capacity targetNode .remoteMemory) ∧
    PlacesIff (PlacementPolicy.place (SizeAware.mk targetNode gpuThresholdBytes) kvId sessionId
      prefixTokens bytes nowNs cluster cache compute transfer) cache
      (newObject kvId sessionId prefixTokens bytes nowNs)
      (bytes ≤ cache.capacity targetNode (if bytes ≤ gpuThresholdBytes then .gpu else .cpu)) ∧
    PlacesIff (PlacementPolicy.place (CpuOffloadLru.mk targetNode) kvId sessionId prefixTokens
      bytes nowNs cluster cache compute transfer) cache
      (newObject kvId sessionId prefixTokens bytes nowNs)
      (bytes ≤ cache.capacity targetNode .gpu ∨ bytes ≤ cache.capacity targetNode .cpu) ∧
    PlacesIff (PlacementPolicy.place (LocalGpuLru.mk targetNode) kvId sessionId prefixTokens
      bytes nowNs cluster cache compute transfer) cache
      (newObject kvId sessionId prefixTokens bytes nowNs)
      (bytes ≤ cache.capacity targetNode .gpu ∨ bytes ≤ cache.availableSpace targetNode .cpu) :=
  ⟨RemoteLru.placesIff _ _ _ _ _ _ _ _ _ hacc, SizeAware.placesIff _ _ _ _ _ _ _ _ _ hacc,
    CpuOffloadLru.placesIff _ _ _ _ _ _ _ _ _ hacc hgpu,
    LocalGpuLru.placesIff _ _ _ _ _ _ _ _ _ hacc hgpu⟩

end Place

/-- Fills three tiers, the GPU tier with an object of 60 bytes. -/
def filling : List CacheOp :=
  [.setCapacity 0 .gpu 100, .setCapacity 0 .cpu 100, .setCapacity 0 .remoteMemory 100, .allocKvId,
    .insert (gpuObject 0 1 8 60)]

def filledCache : CacheState := ((CacheHistory.start .ascending).run filling).cache

theorem accounted_filledCache : filledCache.Accounted := by
  have hops : CacheHistory.Permits CacheHistory.Sound (.start .ascending) filling :=
    ⟨⟨trivial, by decide⟩, ⟨trivial, by decide⟩, ⟨trivial, by decide⟩, ⟨trivial, trivial⟩,
      ⟨⟨by decide, by decide⟩, trivial⟩, trivial⟩
  exact (CacheHistory.consistent_run hops).accounted

theorem hasGpu_singleNode : (ClusterTopology.singleNode 1 0).HasGpu 0 :=
  ⟨_, rfl, List.cons_ne_nil _ _⟩

/-- The object in the GPU tier makes way for one of 80 bytes. -/
theorem lru_baselines_spec_evicts :
    let placed := PlacementPolicy.place (LocalGpuLru.mk 0) 1 2 8 80 5 (.singleNode 1 0) filledCache
      LinearComputeModel.conservative8b AnalyticalTransferModel.rdma400g
    placed.result = .ok (.gpu 0 0, [⟨0, 60⟩]) ∧
      LruPlacement filledCache (newObject 1 2 8 80 5 (.gpu 0 0)) [⟨0, 60⟩] placed.cache := by
  intro placed
  have hresult : placed.result = .ok (.gpu 0 0, [⟨0, 60⟩]) := by decide +kernel
  obtain ⟨-, -, -, hplaces⟩ := lru_baselines_spec 1 2 8 80 5 (.singleNode 1 0)
    LinearComputeModel.conservative8b AnalyticalTransferModel.rdma400g 0 0
    accounted_filledCache hasGpu_singleNode
  exact ⟨hresult, hplaces.spec _ _ hresult⟩

/-! ## Network-aware placement -/

namespace NetworkAwarePlacement

/-- The utility of a tier, without a bound on its size. -/
def utility {C T : Type} [ComputeModel C] [TransferModel T] (bytes : UInt64)
    (prefixTokens : UInt32) (compute : C) (transfer : T) (tier : TierKind) : ℤ :=
  recomputeCost prefixTokens compute - fetchCost transfer bytes tier - pressurePenalty bytes tier

/-- The tier has a higher utility than the other, or the same and is named first. -/
def Preferred (score : TierKind → ℤ) (tier other : TierKind) : Prop :=
  score other < score tier ∨
    (score other = score tier ∧ candidates.idxOf tier ≤ candidates.idxOf other)

section

variable {C T : Type} [ComputeModel C] [TransferModel T] {prefixTokens : UInt32} {compute : C}
  {transfer : T}

theorem mem_scored_of_mem {tier : TierKind} (h : tier ∈ candidates) :
    (tier, utilityForTier tier bytes prefixTokens compute transfer) ∈
      scored bytes prefixTokens compute transfer :=
  (List.sortByKey_perm _ _).mem_iff.2 (List.mem_map_of_mem h)

/-- Of two tiers the preferred one comes first. -/
theorem scored_preferred {pre post : List (TierKind × ℤ)} {p q : TierKind × ℤ}
    (h : scored bytes prefixTokens compute transfer = pre ++ p :: post) (hq : q ∈ post) :
    Preferred (utilityForTier · bytes prefixTokens compute transfer) p.1 q.1 := by
  have hp : p ∈ scored bytes prefixTokens compute transfer := by simp [h]
  have hq' : q ∈ scored bytes prefixTokens compute transfer := by simp [h, hq]
  have horder : (([.gpu, .cpu, .remoteMemory, .remoteSsd] : List TierKind).map fun tier =>
      (tier, utilityForTier tier bytes prefixTokens compute transfer)).Pairwise
        fun p q => candidates.idxOf p.1 < candidates.idxOf q.1 := by
    have hidx : ([.gpu, .cpu, .remoteMemory, .remoteSsd] : List TierKind).Pairwise
        fun t t' => candidates.idxOf t < candidates.idxOf t' := by decide
    exact List.pairwise_map.2 hidx
  have hstable : (scored bytes prefixTokens compute transfer).Pairwise
      (List.KeyLex (fun p => OrderDual.toDual p.2) fun p q =>
        candidates.idxOf p.1 < candidates.idxOf q.1) := List.pairwise_keyLex_sortByKey horder
  rw [h] at hstable
  have hlex := (List.pairwise_cons.1 (List.pairwise_append.1 hstable).2.1).1 q hq
  simp only [Preferred]
  rw [← (mem_scored hp).2, ← (mem_scored hq').2]
  rcases hlex with hlt | ⟨heq, hidx⟩
  · exact .inl hlt
  · exact .inr ⟨(OrderDual.toDual.injective heq).symm, hidx.le⟩

/-- Without failing estimates the computed utilities are the exact ones. -/
theorem utilityForTier_eq_utility (hok : ∀ tier ∈ candidates, ¬Fails transfer bytes tier)
    {tier : TierKind} (htier : tier ∈ candidates) :
    utilityForTier tier bytes prefixTokens compute transfer =
      utility bytes prefixTokens compute transfer tier :=
  utilityForTier_of_room htier fun hfails => absurd hfails (hok tier htier)

/-- A placement in a tier: as specified for LRU eviction, with victims from that tier only, and
without a change to the others. -/
structure PlacedIn {T : Type} (placed : Placed NetworkAwarePlacement T) (cache : CacheState)
    (obj : CacheLocation → KvObject) (slot : Slot) (loc : CacheLocation) (ev : List EvictedKv) :
    Prop where
  result : placed.result = .ok (loc, ev)
  slot_eq : loc.slot = some slot
  lru : LruPlacement cache (obj loc) ev placed.cache
  sameTier : ∀ e ∈ ev, cache.slotAt e.kvId = some slot
  capacity : ∀ n t, placed.cache.capacity n t = cache.capacity n t
  usage : ∀ n t, (n, t) ≠ slot → placed.cache.usage n t = cache.usage n t

theorem PlacedIn.of_stored {T : Type} {placed : Placed NetworkAwarePlacement T}
    {obj : CacheLocation → KvObject} {loc : CacheLocation}
    (hobj : ∀ loc, (obj loc).location = loc ∧ (obj loc).bytes = bytes)
    (hslot : loc.slot = some (n, t)) (hclears : Clears n t bytes c [] ev)
    (hstored : StoredAfter c ev (obj loc) placed.outcome) :
    PlacedIn placed c obj (n, t) loc ev := by
  obtain ⟨hresult, hcache⟩ := Prod.mk.inj hstored
  obtain ⟨hloc, hbytes⟩ := hobj loc
  have hslot' : (obj loc).location.slot = some (n, t) := by rw [hloc, hslot]
  refine ⟨?_, hslot, ?_, fun e he => ?_, fun n' t' => ?_, fun n' t' hne => ?_⟩
  · rw [hresult, hloc]
  · rw [hcache]
    subst hbytes
    exact hclears.lruPlacement hslot'
  · exact (hclears.evicts.slotAt e he).resolve_left List.not_mem_nil
  · rw [hcache]
    exact c.capacity_removeAll ev n' t'
  · rw [hcache]
    refine (usageOf_reserve _ _ _ (n', t')).trans ?_
    rw [if_neg fun h => hne (Option.some.inj (h.symm.trans hslot'))]
    exact CacheState.usage_removeAll (hclears.evicts.slotAt_ne hne.symm)

/-- What comes first among the feasible tiers of the sorted list has the best score of them. -/
theorem preferred_score_of_split {self : NetworkAwarePlacement} {pre post : List (TierKind × ℤ)}
    {p : TierKind × ℤ} (hsplit : scored bytes prefixTokens compute transfer = pre ++ p :: post)
    (hpre : ∀ q ∈ pre, ¬self.Feasible cluster c bytes q.1) {other : TierKind}
    (hother : other ∈ candidates) (hfeasible : self.Feasible cluster c bytes other) :
    Preferred (utilityForTier · bytes prefixTokens compute transfer) p.1 other := by
  have hmem : (other, utilityForTier other bytes prefixTokens compute transfer) ∈
      scored bytes prefixTokens compute transfer := mem_scored_of_mem hother
  rw [hsplit, List.mem_append, List.mem_cons] at hmem
  rcases hmem with hmem | hmem | hmem
  · exact absurd hfeasible (hpre _ hmem)
  · have htier : other = p.1 := congrArg Prod.fst hmem
    subst htier
    exact .inr ⟨rfl, le_rfl⟩
  · have hpref := scored_preferred hsplit hmem
    dsimp only at hpref
    exact hpref

/-- If no estimate fails, the scores are the utilities. -/
theorem preferred_of_split {self : NetworkAwarePlacement}
    (hok : ∀ tier ∈ candidates, ¬Fails transfer bytes tier) {pre post : List (TierKind × ℤ)}
    {p : TierKind × ℤ} (hsplit : scored bytes prefixTokens compute transfer = pre ++ p :: post)
    (hpre : ∀ q ∈ pre, ¬self.Feasible cluster c bytes q.1) {other : TierKind}
    (hother : other ∈ candidates) (hfeasible : self.Feasible cluster c bytes other) :
    Preferred (utility bytes prefixTokens compute transfer) p.1 other := by
  have hp := (mem_scored (hsplit ▸ List.mem_append_right _ List.mem_cons_self :
    p ∈ scored bytes prefixTokens compute transfer)).1
  have hpref := preferred_score_of_split hsplit hpre hother hfeasible
  simp only [Preferred, utilityForTier_eq_utility hok hother,
    utilityForTier_eq_utility hok hp] at hpref
  exact hpref

/-- **Network-aware placement meets its specification.** If no tier is feasible, it fails and leaves
the cache as it is. Otherwise it places the object in the feasible tier of highest utility, the
first of them in a tie, and evicts in that tier only. It never touches the transfer model. -/
theorem networkAware_spec (self : NetworkAwarePlacement) (kvId : KvId) (sessionId : UInt64)
    (prefixTokens : UInt32) (bytes nowNs : UInt64) (cluster : ClusterTopology) (cache : CacheState)
    (compute : C) (transfer : T) (hacc : cache.Accounted)
    (hok : ∀ tier ∈ candidates, ¬Fails transfer bytes tier) :
    let placed := PlacementPolicy.place self kvId sessionId prefixTokens bytes nowNs cluster cache
      compute transfer
    ((∀ tier ∈ candidates, ¬self.Feasible cluster cache bytes tier) →
      (∃ e, placed.result = .error e) ∧ placed.cache = cache) ∧
    ((∃ tier ∈ candidates, self.Feasible cluster cache bytes tier) →
      ∃ tier ∈ candidates, self.Feasible cluster cache bytes tier ∧
        (∀ other ∈ candidates, self.Feasible cluster cache bytes other →
          Preferred (utility bytes prefixTokens compute transfer) tier other) ∧
        ∃ loc ev, PlacedIn placed cache (newObject kvId sessionId prefixTokens bytes nowNs)
          (self.targetNode, tier) loc ev) ∧
    placed.transfer = transfer := by
  intro placed
  have hcandidates : ∀ p ∈ scored bytes prefixTokens compute transfer, p.1 ∈ candidates :=
    fun p hp => (mem_scored hp).1
  have houtcome := self.tryTiers_outcome cluster hacc
    (newObject_spec kvId sessionId prefixTokens bytes nowNs)
    (scored bytes prefixTokens compute transfer)
    fun p hp hssd => absurd (hcandidates p hp) (by rw [hssd]; decide)
  refine ⟨fun hnone => ?_, ?_, rfl⟩
  · rcases houtcome with ⟨pre, p, post, hsplit, -, hfeasible, -⟩ | ⟨-, e, hfailed⟩
    · have hp := hcandidates p (hsplit ▸ List.mem_append_right _ List.mem_cons_self)
      exact absurd hfeasible (hnone p.1 hp)
    · obtain ⟨hresult, hcache⟩ := Prod.mk.inj hfailed
      exact ⟨⟨e, hresult⟩, hcache⟩
  · rintro ⟨tier, htier, hfeasible⟩
    rcases houtcome with ⟨pre, p, post, hsplit, hpre, hp, loc, ev, hslot, hclears, hstored⟩ |
      ⟨hnone, -⟩
    · have hmem := hcandidates p (hsplit ▸ List.mem_append_right _ List.mem_cons_self)
      refine ⟨p.1, hmem, hp, fun other hother hother' => ?_, loc, ev, ?_⟩
      · exact preferred_of_split hok hsplit hpre hother hother'
      · exact .of_stored (newObject_spec kvId sessionId prefixTokens bytes nowNs) hslot hclears
          hstored
    · exact absurd hfeasible (hnone _ (mem_scored_of_mem htier))

end

/-- The CPU tier has no room and its capacity suffices, but the GPU tier has the higher utility. -/
theorem networkAware_spec_evicts :
    let placed := PlacementPolicy.place (NetworkAwarePlacement.mk 0) 1 2 8 80 5 (.singleNode 1 0)
      filledCache LinearComputeModel.conservative8b AnalyticalTransferModel.rdma400g
    ∃ tier ∈ candidates, ∃ loc, placed.result = .ok (loc, [⟨0, 60⟩]) ∧
      loc.slot = some (0, tier) ∧ ∀ e ∈ [(⟨0, 60⟩ : EvictedKv)],
        filledCache.slotAt e.kvId = some (0, tier) := by
  intro placed
  have hok : ∀ tier ∈ candidates, ¬Fails AnalyticalTransferModel.rdma400g 80 tier := by
    rintro tier htier ⟨path, hpath, e, he⟩
    cases tier <;> cases hpath <;> cases he
  obtain ⟨-, hplaces, -⟩ := networkAware_spec (NetworkAwarePlacement.mk 0) 1 2 8 80 5
    (.singleNode 1 0) filledCache LinearComputeModel.conservative8b
    AnalyticalTransferModel.rdma400g accounted_filledCache hok
  obtain ⟨tier, htier, -, -, loc, ev, hplaced⟩ :=
    hplaces ⟨.gpu, by decide, by decide +kernel, fun _ => hasGpu_singleNode⟩
  have hresult' : placed.result = .ok (.gpu 0 0, [⟨0, 60⟩]) := by decide +kernel
  obtain ⟨rfl, rfl⟩ := Prod.mk.inj (Except.ok.inj (hplaced.result.symm.trans hresult'))
  exact ⟨tier, htier, _, hplaced.result, hplaced.slot_eq, hplaced.sameTier⟩

end NetworkAwarePlacement

end KvFlowSim
