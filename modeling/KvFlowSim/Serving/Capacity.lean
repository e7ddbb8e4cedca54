import KvFlowSim.Serving.Happenings
import KvFlowSim.Policy.Specification

/-!
# The capacity of a tier

No tier of a node ever holds more than its capacity, through all runs of a runner and whatever the
policy (`Session.withinCapacity`). The capacities are those that `new` recorded, and it records the
memory of a node for two tiers, `cpu` and `remote_memory`: the two together can hold twice what the
node has (`memory_promised_twice`), and do not as long as the placements agree on which of the two
is better (`memory_shared`).
-/

namespace KvFlowSim

namespace CacheState

variable {c : CacheState} {n : NodeId} {t : TierKind} {obj : KvObject}

/-- No tier holds more than its capacity. -/
def WithinCapacity (c : CacheState) : Prop := ∀ n t, c.usage n t ≤ c.capacity n t

theorem usage_remove_le (c : CacheState) (k : KvId) (n : NodeId) (t : TierKind) :
    (c.remove k).2.usage n t ≤ c.usage n t := by
  unfold remove
  split
  · exact le_rfl
  next obj _ =>
    have husage := usageOf_release c.used obj.location.slot obj.bytes (n, t)
    refine (le_of_eq husage).trans ?_
    split_ifs
    · rw [UInt64.le_iff_toNat_le, UInt64.toNat_satSub]
      exact Nat.sub_le _ _
    · exact le_rfl

theorem usage_removeAll_le (c : CacheState) (evicted : List EvictedKv) (n : NodeId) (t : TierKind) :
    (c.removeAll evicted).usage n t ≤ c.usage n t := by
  induction evicted using List.reverseRecOn with
  | nil => exact le_rfl
  | append_singleton evicted e ih =>
    rw [removeAll_concat]
    exact (usage_remove_le _ _ _ _).trans ih

theorem usage_store (hslot : obj.location.slot = some (n, t)) (n' : NodeId) (t' : TierKind) :
    (c.store obj).usage n' t' =
      if (n', t') = (n, t) then c.usage n t + obj.bytes else c.usage n' t' := by
  refine (usageOf_reserve c.used obj.location.slot obj.bytes (n', t')).trans ?_
  rw [hslot]
  by_cases heq : (n', t') = (n, t)
  · rw [if_pos (congrArg some heq.symm), if_pos heq, heq]
    rfl
  · rw [if_neg fun h => heq (Option.some.inj h).symm, if_neg heq]
    rfl

theorem usage_updateAccess (c : CacheState) (k : KvId) (now : UInt64) (n : NodeId) (t : TierKind) :
    (c.updateAccess k now).usage n t = c.usage n t := by
  unfold updateAccess
  split <;> rfl

theorem capacity_updateAccess (c : CacheState) (k : KvId) (now : UInt64) (n : NodeId)
    (t : TierKind) :
    (c.updateAccess k now).capacity n t = c.capacity n t := by
  unfold updateAccess
  split <;> rfl

theorem WithinCapacity.removeAll (h : c.WithinCapacity) (evicted : List EvictedKv) :
    (c.removeAll evicted).WithinCapacity := fun n t => by
  rw [capacity_removeAll]
  exact (usage_removeAll_le c evicted n t).trans (h n t)

theorem WithinCapacity.store (h : c.WithinCapacity) (hslot : obj.location.slot = some (n, t))
    (hroom : obj.bytes ≤ c.availableSpace n t) : (c.store obj).WithinCapacity := by
  intro n' t'
  change _ ≤ c.capacity n' t'
  rw [usage_store hslot]
  split_ifs with heq
  · obtain ⟨rfl, rfl⟩ := Prod.mk.inj heq
    have hsum : (c.usage n' t' + obj.bytes).toNat = (c.usage n' t').toNat + obj.bytes.toNat :=
      UInt64.toNat_add_of_le hroom
    have hcap := h n' t'
    rw [availableSpace, UInt64.le_iff_toNat_le, UInt64.toNat_satSub] at hroom
    rw [UInt64.le_iff_toNat_le] at hcap ⊢
    omega
  · exact h n' t'

end CacheState

namespace CacheAwareRunner

open CacheState

variable {C P T : Type} {r r' : CacheAwareRunner C P T} {now : UInt64} {event : ServingEvent}

/-- No event changes a capacity. -/
theorem CacheEffect.capacity (h : CacheEffect now event r r') (n : NodeId) (t : TierKind) :
    r'.cache.capacity n t = r.cache.capacity n t := by
  cases h with
  | same hcache => rw [hcache]
  | touched _ _ _ _ _ hcache =>
    rw [hcache]
    exact capacity_updateAccess _ _ _ n t
  | placed _ _ hstore =>
    cases hstore with
    | skipped _ hrest => exact congrArg (fun x => x.cache.capacity n t) hrest
    | @stored ev _ _ _ _ _ _ _ hrest =>
      have hcap := congrArg (fun x => x.cache.capacity n t) hrest
      exact hcap.trans (capacity_removeAll r.cache.allocKvId.2 ev n t)
    | @failed ev _ _ hrest =>
      have hcap := congrArg (fun x => x.cache.capacity n t) hrest
      exact hcap.trans (capacity_removeAll r.cache.allocKvId.2 ev n t)

theorem CacheEffect.withinCapacity (h : CacheEffect now event r r') (hr : r.cache.WithinCapacity) :
    r'.cache.WithinCapacity := by
  have halloc : r.cache.allocKvId.2.WithinCapacity := hr
  cases h with
  | same hcache => rwa [hcache]
  | touched _ _ _ _ _ hcache =>
    rw [hcache]
    intro n t
    rw [usage_updateAccess, capacity_updateAccess]
    exact hr n t
  | placed _ _ hstore =>
    cases hstore with
    | skipped _ hrest =>
      have hcache : r'.cache = r.cache := congrArg Rest.cache hrest
      rwa [hcache]
    | @stored ev _ _ _ _ _ hslot hroom hrest =>
      have hcache : r'.cache = (r.cache.allocKvId.2.removeAll ev).store _ :=
        congrArg Rest.cache hrest
      rw [hcache]
      exact (halloc.removeAll ev).store hslot hroom
    | @failed ev _ _ hrest =>
      have hcache : r'.cache = r.cache.allocKvId.2.removeAll ev := congrArg Rest.cache hrest
      rw [hcache]
      exact halloc.removeAll ev

variable [ComputeModel C] [PlacementPolicy P] [TransferModel T] [Placing P]
  {fresh s : CacheAwareRunner C P T} {earlier past : List (Happening C P T)}
  {requests : List LlmRequest}

/-- Through all runs of a runner every tier stays within the capacity that it has at first. -/
theorem Session.withinCapacity (hfresh : fresh.cache.WithinCapacity) (h : Session fresh earlier r)
    (hpast : Past (r.start requests) past s) :
    s.cache.WithinCapacity ∧ ∀ n t, s.cache.capacity n t = fresh.cache.capacity n t := by
  refine h.invariant (I := fun _ s => s.cache.WithinCapacity ∧
    ∀ n t, s.cache.capacity n t = fresh.cache.capacity n t) ⟨hfresh, fun _ _ => rfl⟩
    (fun _ _ _ h => h) ?_ (fun _ _ h => h) hpast
  intro _ r r' now event sim ⟨hwithin, hcap⟩ hnext hstep
  have heffect := step_cache hnext hstep
  exact ⟨heffect.withinCapacity hwithin, fun n t => (heffect.capacity n t).trans (hcap n t)⟩

end CacheAwareRunner

/-! ## Ids that are not used up -/

namespace CacheState

variable {c : CacheState} {n : NodeId} {t : TierKind} {obj : KvObject}

/-- The ids of the objects have all been handed out, the index leads to the objects of its keys, and
the usage of a tier is what its objects take. -/
structure Sound (c : CacheState) : Prop where
  below : ∀ k o, c.objects.get k = some o → k < c.nextKvId
  indexed : c.Indexed
  accounted : c.Accounted

theorem Sound.updateAccess (h : c.Sound) (k : KvId) (now : UInt64) :
    (c.updateAccess k now).Sound where
  below k' o hk' := by
    cases hget : c.objects.get k with
    | none =>
      rw [updateAccess_of_get_none hget] at hk' ⊢
      exact h.below k' o hk'
    | some obj =>
      have hnext : (c.updateAccess k now).nextKvId = c.nextKvId := by
        simp only [CacheState.updateAccess, hget]
      rw [get_updateAccess hget] at hk'
      rw [hnext]
      split_ifs at hk' with hk
      · exact hk ▸ h.below k obj hget
      · exact h.below k' o hk'
  indexed := h.indexed.updateAccess k now
  accounted := h.accounted.updateAccess k now

theorem nextKvId_remove (c : CacheState) (k : KvId) : (c.remove k).2.nextKvId = c.nextKvId := by
  unfold remove
  split <;> rfl

theorem nextKvId_removeAll (c : CacheState) (evicted : List EvictedKv) :
    (c.removeAll evicted).nextKvId = c.nextKvId := by
  induction evicted using List.reverseRecOn with
  | nil => rfl
  | append_singleton evicted e ih => rw [removeAll_concat, nextKvId_remove, ih]

theorem Sound.remove (h : c.Sound) (k : KvId) : (c.remove k).2.Sound where
  below k' o hk' := by
    rw [get_remove] at hk'
    rw [nextKvId_remove]
    split_ifs at hk'
    exact h.below k' o hk'
  indexed := h.indexed.remove k
  accounted := h.accounted.remove k

theorem Sound.removeAll (h : c.Sound) (evicted : List EvictedKv) : (c.removeAll evicted).Sound := by
  induction evicted using List.reverseRecOn with
  | nil => exact h
  | append_singleton evicted e ih =>
    rw [removeAll_concat]
    exact ih.remove e.kvId

theorem usage_alloc (c : CacheState) (n : NodeId) (t : TierKind) :
    c.allocKvId.2.usage n t = c.usage n t := rfl

theorem capacity_alloc (c : CacheState) (n : NodeId) (t : TierKind) :
    c.allocKvId.2.capacity n t = c.capacity n t := rfl

theorem Sound.alloc (h : c.Sound) : c.allocKvId.2.Sound where
  below k o hk := (h.below k o hk).trans_le (UInt64.le_satAdd _ _)
  indexed := h.indexed
  accounted := ⟨h.accounted.usage, h.accounted.capacity⟩

/-- The object under the new id is stored. -/
theorem Sound.store (h : c.Sound) {ev : List EvictedKv} (hid : obj.kvId = c.nextKvId)
    (hlt : c.nextKvId < c.allocKvId.2.nextKvId) (hslot : obj.location.slot = some (n, t))
    (hroom : obj.bytes ≤ (c.allocKvId.2.removeAll ev).availableSpace n t) :
    ((c.allocKvId.2.removeAll ev).store obj).Sound := by
  have hsound := h.alloc.removeAll ev
  have hnone : (c.allocKvId.2.removeAll ev).objects.get obj.kvId = none := by
    rw [get_removeAll, hid]
    split_ifs
    · rfl
    · rw [← Option.not_isSome_iff_eq_none, Option.isSome_iff_exists]
      rintro ⟨o, ho⟩
      exact lt_irrefl _ (h.below _ o ho)
  refine ⟨fun k o hk => ?_, hsound.indexed.store hnone, hsound.accounted.store hnone ?_⟩
  · change k < (c.allocKvId.2.removeAll ev).nextKvId
    rw [get_store] at hk
    split_ifs at hk with hkid
    · rw [nextKvId_removeAll, hkid, hid]
      exact hlt
    · exact hsound.below k o hk
  · intro n' t' hslot'
    obtain ⟨rfl, rfl⟩ := Prod.mk.inj (Option.some.inj (hslot.symm.trans hslot'))
    exact hroom

theorem nextKvId_le_alloc (c : CacheState) : c.nextKvId ≤ c.allocKvId.2.nextKvId :=
  UInt64.le_satAdd _ _

theorem nextKvId_lt_alloc {c : CacheState} (h : c.allocKvId.2.nextKvId ≠ UInt64.maxValue) :
    c.nextKvId < c.allocKvId.2.nextKvId := by
  refine lt_of_le_of_ne (nextKvId_le_alloc c) fun heq => h ?_
  change c.nextKvId.satAdd 1 = _
  have hnext : c.nextKvId = c.nextKvId.satAdd 1 := heq
  have hnat := congrArg UInt64.toNat hnext
  have hmax := UInt64.toNat_le_maxValue c.nextKvId
  rw [UInt64.toNat_satAdd] at hnat
  refine UInt64.toNat_inj.1 ?_
  rw [UInt64.toNat_satAdd]
  have hone : (1 : UInt64).toNat = 1 := rfl
  omega

end CacheState

namespace CacheAwareRunner

open CacheState

variable {C P T : Type} {r r' : CacheAwareRunner C P T} {now : UInt64} {event : ServingEvent}

/-- An event may hand out the next id. -/
theorem CacheEffect.nextKvId (h : CacheEffect now event r r') :
    r'.cache.nextKvId = r.cache.nextKvId ∨ r'.cache.nextKvId = r.cache.allocKvId.2.nextKvId := by
  cases h with
  | same hcache => exact .inl (by rw [hcache])
  | touched _ _ _ _ _ hcache =>
    left
    rw [hcache, CacheState.updateAccess]
    split <;> rfl
  | placed _ _ hstore =>
    cases hstore with
    | skipped _ hrest => exact .inl (congrArg (fun x => x.cache.nextKvId) hrest)
    | @stored ev _ _ _ _ _ _ _ hrest =>
      have hcache := congrArg (fun x => x.cache.nextKvId) hrest
      exact .inr (hcache.trans (nextKvId_removeAll r.cache.allocKvId.2 ev))
    | @failed ev _ _ hrest =>
      have hcache := congrArg (fun x => x.cache.nextKvId) hrest
      exact .inr (hcache.trans (nextKvId_removeAll r.cache.allocKvId.2 ev))

theorem CacheEffect.nextKvId_le (h : CacheEffect now event r r') :
    r.cache.nextKvId ≤ r'.cache.nextKvId := by
  rcases h.nextKvId with heq | heq
  · exact heq.ge
  · exact (nextKvId_le_alloc r.cache).trans heq.ge

theorem CacheEffect.nextKvId_ne (h : CacheEffect now event r r')
    (hmax : r'.cache.nextKvId ≠ UInt64.maxValue) : r.cache.nextKvId ≠ UInt64.maxValue := by
  intro heq
  refine hmax (le_antisymm ?_ (heq.symm.le.trans h.nextKvId_le))
  rw [UInt64.le_iff_toNat_le]
  exact UInt64.toNat_le_maxValue _

theorem CacheEffect.sound (h : CacheEffect now event r r') (hr : r.cache.Sound)
    (hmax : r'.cache.nextKvId ≠ UInt64.maxValue) : r'.cache.Sound := by
  cases h with
  | same hcache => rwa [hcache]
  | touched _ _ _ _ _ hcache =>
    rw [hcache]
    exact hr.updateAccess _ _
  | placed _ _ hstore =>
    cases hstore with
    | skipped _ hrest =>
      have hcache : r'.cache = r.cache := congrArg Rest.cache hrest
      rwa [hcache]
    | @stored ev loc n t _ _ hslot hroom hrest =>
      have hcache : r'.cache = (r.cache.allocKvId.2.removeAll ev).store _ :=
        congrArg Rest.cache hrest
      have hnext : r'.cache.nextKvId = r.cache.allocKvId.2.nextKvId := by
        rw [hcache]
        exact nextKvId_removeAll r.cache.allocKvId.2 ev
      rw [hcache]
      exact hr.store rfl (nextKvId_lt_alloc (hnext ▸ hmax)) hslot hroom
    | @failed ev _ _ hrest =>
      have hcache : r'.cache = r.cache.allocKvId.2.removeAll ev := congrArg Rest.cache hrest
      rw [hcache]
      exact hr.alloc.removeAll ev

variable [ComputeModel C] [PlacementPolicy P] [TransferModel T] [Placing P]
  {fresh s : CacheAwareRunner C P T} {earlier past : List (Happening C P T)}
  {requests : List LlmRequest}

/-- As long as the ids are not used up, the cache is sound through all runs of a runner. -/
theorem Session.sound (hfresh : fresh.cache.Sound) (h : Session fresh earlier r)
    (hpast : Past (r.start requests) past s) (hmax : s.cache.nextKvId ≠ UInt64.maxValue) :
    s.cache.Sound := by
  refine h.invariant (I := fun _ s => s.cache.nextKvId ≠ UInt64.maxValue → s.cache.Sound)
    (fun _ => hfresh) (fun _ _ _ h => h) ?_ (fun _ _ h => h) hpast hmax
  intro _ r r' now event sim hr hnext hstep hmax
  have heffect := step_cache hnext hstep
  exact heffect.sound (hr (heffect.nextKvId_ne hmax)) hmax

end CacheAwareRunner

/-! ## The cache at first -/

namespace CacheState

variable {c : CacheState} {n : NodeId} {t : TierKind}

/-- Nothing has been stored yet. -/
structure Blank (c : CacheState) : Prop where
  objects : c.objects = .empty
  index : c.bySessionPrefix = ∅
  usage : ∀ s, usageOf c.used s = 0

theorem Blank.sound (h : c.Blank) : c.Sound where
  below k o hk := by simp [h.objects] at hk
  indexed key k hk := by simp [h.index] at hk
  accounted := by
    refine ⟨fun s => ?_, fun s => ?_⟩
    · rw [h.usage, h.objects]
      rfl
    · rw [h.usage, UInt64.le_iff_toNat_le]
      exact Nat.zero_le _

theorem Sound.withinCapacity (h : c.Sound) : c.WithinCapacity :=
  fun n t => h.accounted.capacity (n, t)

theorem usageOf_setCapacity (c : CacheState) (n : NodeId) (t : TierKind)
    (bytes : UInt64) (s : Slot) :
    usageOf (c.setCapacity n t bytes).used s = usageOf c.used s := by
  simp only [CacheState.setCapacity, usageOf]
  split_ifs with hmem
  · rfl
  · rw [Finmap.lookup_insert_eq]
    split_ifs with hs
    · rw [hs, Finmap.lookup_eq_none.2 hmem]
      rfl
    · rfl

theorem Blank.setCapacity (h : c.Blank) (n : NodeId) (t : TierKind) (bytes : UInt64) :
    (c.setCapacity n t bytes).Blank :=
  ⟨h.objects, h.index, fun s => (usageOf_setCapacity c n t bytes s).trans (h.usage s)⟩

theorem capacity_setCapacity (c : CacheState) (n : NodeId) (t : TierKind) (bytes : UInt64)
    (n' : NodeId) (t' : TierKind) : (c.setCapacity n t bytes).capacity n' t' =
      if (n', t') = (n, t) then bytes else c.capacity n' t' := by
  simp only [CacheState.setCapacity, capacity, Finmap.lookup_insert_eq]
  split_ifs <;> rfl

end CacheState

/-- The capacity that a node brings to a tier. -/
def ServingNode.capacityOf (node : ServingNode) : TierKind → UInt64
  | .gpu => node.totalHbmBytes
  | .cpu | .remoteMemory => node.cpuMemBytes
  | .localSsd | .remoteSsd => node.localSsdBytes

/-- The node whose sizes are recorded under an id: the last one with it. -/
def ClusterTopology.recorded (cluster : ClusterTopology) (n : NodeId) : Option ServingNode :=
  cluster.nodes.reverse.find? fun node => node.nodeId = n

/-- If the ids are distinct, every node is recorded under its own. -/
theorem ClusterTopology.DistinctNodeIds.recorded {cluster : ClusterTopology} {node : ServingNode}
    (hd : cluster.DistinctNodeIds) (hnode : node ∈ cluster.nodes) :
    cluster.recorded node.nodeId = some node := by
  have hnodup : (cluster.nodes.reverse.map (·.nodeId)).Nodup := by
    rw [List.map_reverse]
    exact List.nodup_reverse.2 hd
  have hmem : node ∈ cluster.nodes.reverse := List.mem_reverse.2 hnode
  have hsome : (cluster.recorded node.nodeId).isSome :=
    List.find?_isSome.2 ⟨node, hmem, decide_eq_true rfl⟩
  obtain ⟨node', hnode'⟩ := Option.isSome_iff_exists.1 hsome
  rw [hnode']
  rw [ClusterTopology.recorded] at hnode'
  have hid : node'.nodeId = node.nodeId := by
    have hfound := List.find?_some hnode'
    exact of_decide_eq_true hfound
  have hmem' := List.mem_of_find?_eq_some hnode'
  rw [List.inj_on_of_nodup_map hnodup hmem' hmem hid]

namespace CacheAwareRunner

open CacheState

theorem blank_addCapacities {c : CacheState} (h : c.Blank) (node : ServingNode) :
    (addCapacities c node).Blank :=
  ((((h.setCapacity _ _ _).setCapacity _ _ _).setCapacity _ _ _).setCapacity _ _
    _).setCapacity _ _ _

theorem capacity_addCapacities (c : CacheState) (node : ServingNode) (n : NodeId) (t : TierKind) :
    (addCapacities c node).capacity n t =
      if node.nodeId = n then node.capacityOf t else c.capacity n t := by
  simp only [addCapacities, capacity_setCapacity, Prod.mk.injEq]
  by_cases hn : node.nodeId = n
  · subst hn
    cases t <;> simp [ServingNode.capacityOf]
  · simp [Ne.symm hn, hn]

theorem blank_foldl {c : CacheState} (h : c.Blank) (nodes : List ServingNode) :
    (nodes.foldl addCapacities c).Blank := by
  induction nodes generalizing c with
  | nil => exact h
  | cons node rest ih => exact ih (blank_addCapacities h node)

theorem capacity_foldl (c : CacheState) (nodes : List ServingNode) (n : NodeId) (t : TierKind) :
    (nodes.foldl addCapacities c).capacity n t =
      (nodes.reverse.find? fun node => node.nodeId = n).elim (c.capacity n t) (·.capacityOf t) := by
  induction nodes using List.reverseRecOn with
  | nil => rfl
  | append_singleton nodes node ih =>
    rw [List.foldl_concat, capacity_addCapacities, ih, List.reverse_concat, List.find?_cons]
    by_cases hn : node.nodeId = n
    · rw [if_pos hn, decide_eq_true hn]
      rfl
    · rw [if_neg hn, decide_eq_false hn]

variable {C P T : Type} (iterOrder : IterOrder) (config : ServingConfig)
  (cluster : ClusterTopology) (compute : C) (transfer : T) (profile : ModelProfile) (placement : P)

theorem blank_new :
    (new iterOrder config cluster compute transfer profile placement).cache.Blank :=
  blank_foldl ⟨rfl, rfl, fun _ => rfl⟩ _

/-- A tier has the capacity of the node that is recorded under the id. -/
theorem capacity_new (n : NodeId) (t : TierKind) :
    (new iterOrder config cluster compute transfer profile placement).cache.capacity n t =
      (cluster.recorded n).elim 0 (·.capacityOf t) :=
  capacity_foldl _ _ n t

end CacheAwareRunner

/-! ## Two tiers in the memory of a node -/

namespace NetworkAwarePlacement

open CacheState

variable {C T : Type} [ComputeModel C] [TransferModel T]

/-- The placement of a KV scores remote memory above main memory. -/
def remoteAhead (bytes : UInt64) (prefixTokens : UInt32) (compute : C) (transfer : T) : Bool :=
  utilityForTier .cpu bytes prefixTokens compute transfer <
    utilityForTier .remoteMemory bytes prefixTokens compute transfer

/-- The tier of the node's memory that such a placement leaves alone. -/
def spared (ahead : Bool) : TierKind := if ahead then .cpu else .remoteMemory

variable {self : NetworkAwarePlacement} {cluster : ClusterTopology} {c : CacheState}
  {bytes : UInt64} {prefixTokens : UInt32} {compute : C} {transfer : T}
  {obj : CacheLocation → KvObject}

/-- Of the two tiers, a placement uses the one with the better score. -/
theorem usage_tryTiers (hacc : c.Accounted)
    (hobj : ∀ loc, (obj loc).location = loc ∧ (obj loc).bytes = bytes)
    (hcap : c.capacity self.targetNode .cpu = c.capacity self.targetNode .remoteMemory)
    (n : NodeId) :
    (self.tryTiers bytes cluster obj (scored bytes prefixTokens compute transfer) c []).2.usage n
        (spared (remoteAhead bytes prefixTokens compute transfer)) =
      c.usage n (spared (remoteAhead bytes prefixTokens compute transfer)) := by
  generalize ht : spared (remoteAhead bytes prefixTokens compute transfer) = t
  have htiers : ∀ p ∈ scored bytes prefixTokens compute transfer, p.1 ≠ .localSsd := by
    intro p hp hssd
    have hmem := (mem_scored hp).1
    rw [hssd] at hmem
    simp [candidates] at hmem
  rcases self.tryTiers_outcome cluster hacc hobj _ htiers with
    ⟨pre, p, post, hsplit, hpre, hfeasible, loc, ev, hslot, hclears, hstored⟩ | ⟨-, e, hfailed⟩
  · have hbetter : ∀ other ∈ candidates, self.Feasible cluster c bytes other →
        Preferred (utilityForTier · bytes prefixTokens compute transfer) p.1 other :=
      fun _ hother hf => preferred_score_of_split hsplit hpre hother hf
    have hne : p.1 ≠ t := by
      rintro rfl
      have hother : ∀ other, other ∈ candidates → other ≠ .gpu →
          bytes ≤ c.capacity self.targetNode other →
          Preferred (utilityForTier · bytes prefixTokens compute transfer) p.1 other :=
        fun other hmem hgpu hle => hbetter other hmem ⟨hle, fun h => absurd h hgpu⟩
      have hroom := hfeasible.1
      unfold spared at ht
      split_ifs at ht with hahead
      · -- remote memory would have been better
        rw [← ht] at hother hroom
        have hpref := hother .remoteMemory (by simp [candidates]) (by decide) (hcap ▸ hroom)
        have hlt := of_decide_eq_true hahead
        rcases hpref with hlt' | ⟨heq, -⟩
        · exact lt_asymm hlt hlt'
        · exact hlt.ne' heq
      · rw [← ht] at hother hroom
        have hpref := hother .cpu (by simp [candidates]) (by decide) (hcap ▸ hroom)
        rcases hpref with hlt | ⟨-, hidx⟩
        · exact hahead (decide_eq_true hlt)
        · exact absurd hidx (by decide)
    have hslot' : (obj loc).location.slot = some (self.targetNode, p.1) := by
      rw [(hobj loc).1, hslot]
    have hne' : (n, t) ≠ (self.targetNode, p.1) := fun heq => hne (Prod.mk.inj heq).2.symm
    rw [(Prod.mk.inj hstored).2]
    rw [usage_store hslot', if_neg hne']
    exact usage_removeAll (hclears.evicts.slotAt_ne hne'.symm)
  · rw [(Prod.mk.inj hfailed).2]
    rfl

end NetworkAwarePlacement

/-- Whether the placement of the event, if it makes one, scores remote memory above main memory. -/
def Happening.remoteAhead {C T : Type} [ComputeModel C] [TransferModel T]
    (h : Happening C NetworkAwarePlacement T) : Option Bool :=
  match h.event with
  | .prefillDone id _ _ =>
    match h.before.inFlight.get id with
    | none => none
    | some inflight =>
      let tokens := inflight.request.promptTokens
      if 0 < tokens then
        some (NetworkAwarePlacement.remoteAhead (h.before.profile.kvBytes tokens) tokens
          h.before.compute h.before.transfer)
      else none
  | _ => none

namespace CacheAwareRunner

open ServingState CacheState NetworkAwarePlacement

theorem cache_accept {C P T : Type} (r : CacheAwareRunner C P T) (placed : Placed P T) :
    (r.accept placed).cache = placed.cache := by
  unfold accept
  dsimp only
  split <;> rfl

variable {C T : Type} [ComputeModel C] [TransferModel T]
  {fresh r r' s : CacheAwareRunner C NetworkAwarePlacement T} {now : UInt64} {event : ServingEvent}
  {sim : Simulator ServingEvent} {ahead : Bool} {requests : List LlmRequest}
  {earlier past : List (Happening C NetworkAwarePlacement T)}

/-- The KV store step does not add to the tier that its placement spares. -/
theorem usage_storeKv {id : UInt64} {inflight : InFlightRequest} {tokens : UInt32}
    (hin : r.inFlight.get id = some inflight) (htokens : inflight.request.promptTokens = tokens)
    (hpos : 0 < tokens) (hsound : r.cache.Sound)
    (hcap : ∀ n, r.cache.capacity n .cpu = r.cache.capacity n .remoteMemory) (n : NodeId) :
    (r.storeKv now id).cache.usage n
        (spared (remoteAhead (r.profile.kvBytes tokens) tokens r.compute r.transfer)) =
      r.cache.usage n
        (spared (remoteAhead (r.profile.kvBytes tokens) tokens r.compute r.transfer)) := by
  subst htokens
  have hplaced : (r.placed now inflight.request).cache =
      (r.placement.tryTiers (r.profile.kvBytes inflight.request.promptTokens) r.cluster
        (newObject r.cache.nextKvId inflight.request.sessionId inflight.request.promptTokens
          (r.profile.kvBytes inflight.request.promptTokens) now)
        (scored (r.profile.kvBytes inflight.request.promptTokens) inflight.request.promptTokens
          r.compute r.transfer) r.cache.allocKvId.2 []).2 := rfl
  rw [storeKv_of_get hin hpos, cache_accept, hplaced, ← usage_alloc]
  have hcap' := hcap r.placement.targetNode
  rw [← capacity_alloc, ← capacity_alloc r.cache] at hcap'
  exact usage_tryTiers hsound.alloc.accounted (newObject_spec _ _ _ _ _) hcap' n

/-- A step does not add to the tier that its placement spares. -/
theorem StepEffect.usage_spared (h : StepEffect now { r with sim } r' event)
    (hsound : r.cache.Sound)
    (hcap : ∀ n, r.cache.capacity n .cpu = r.cache.capacity n .remoteMemory)
    (hahead : ∀ a ∈ (Happening.mk r now event r').remoteAhead, a = ahead) (n : NodeId) :
    r'.cache.usage n (spared ahead) = r.cache.usage n (spared ahead) := by
  have hsame : r'.cache = r.cache →
      r'.cache.usage n (spared ahead) = r.cache.usage n (spared ahead) :=
      fun hcache => by rw [hcache]
  cases h with
  | absent _ _ hrest => exact hsame (congrArg Rest.cache hrest)
  | arrived _ h =>
    cases h with
    | missed _ _ hrest => exact hsame (congrArg Rest.cache hrest)
    | hit _ _ _ hrest =>
      have hcache : r'.cache = r.cache.updateAccess _ now := congrArg Rest.cache hrest
      rw [hcache, usage_updateAccess]
    | fetching _ _ _ _ _ _ hrest => exact hsame (congrArg Rest.cache hrest)
    | degraded _ _ _ _ hrest => exact hsame (congrArg Rest.cache hrest)
  | fetched _ _ _ hrest => exact hsame (congrArg Rest.cache hrest)
  | decoded _ _ _ hrest => exact hsame (congrArg Rest.cache hrest)
  | @prefilled inflight _ _ s₁ _ hin hrelease _ _ hrest =>
    have hin₁ : s₁.inFlight.get inflight.id = some inflight := by
      rw [inFlight_releaseGpu hrelease, hin]
    have hcache : r'.cache = ({ r with toServingState := s₁ }.storeKv now inflight.id).cache :=
      congrArg Rest.cache hrest
    by_cases hpos : 0 < inflight.request.promptTokens
    · have hin₀ : r.inFlight.get inflight.id = some inflight := hin
      simp only [Happening.remoteAhead, hin₀, if_pos hpos, Option.mem_def, Option.some.injEq,
        forall_eq'] at hahead
      rw [hcache, ← hahead]
      exact usage_storeKv (r := { r with toServingState := s₁ }) hin₁ rfl hpos hsound hcap n
    · have hzero : inflight.request.promptTokens = 0 := by simpa [UInt32.pos_iff_ne_zero] using hpos
      rw [storeKv_of_zero (r := { r with toServingState := s₁ }) hin₁ hzero] at hcache
      exact hsame hcache

/-- If all placements agree on which tier is better, the other one stays empty. -/
theorem Session.usage_spared (hfresh : fresh.cache.Blank)
    (hcap : ∀ n, fresh.cache.capacity n .cpu = fresh.cache.capacity n .remoteMemory)
    (h : Session fresh earlier r) (hpast : Past (r.start requests) past s)
    (hmax : s.cache.nextKvId ≠ UInt64.maxValue)
    (hahead : ∀ h ∈ earlier ++ past, ∀ a ∈ h.remoteAhead, a = ahead) (n : NodeId) :
    s.cache.usage n (spared ahead) = 0 := by
  have hall := h.invariant (I := fun happened s =>
    (s.cache.nextKvId ≠ UInt64.maxValue → s.cache.Sound) ∧
      (∀ n, s.cache.capacity n .cpu = s.cache.capacity n .remoteMemory) ∧
      (s.cache.nextKvId ≠ UInt64.maxValue → (∀ h ∈ happened, ∀ a ∈ h.remoteAhead, a = ahead) →
        s.cache.usage n (spared ahead) = 0))
    ⟨fun _ => hfresh.sound, hcap, fun _ _ => hfresh.usage _⟩ (fun _ _ _ h => h) ?_ (fun _ _ h => h)
    hpast
  · exact hall.2.2 hmax hahead
  · rintro happened r r' now event sim ⟨hsound, hcap, husage⟩ hnext hstep
    have heffect := step_cache hnext hstep
    have hne := heffect.nextKvId_ne
    refine ⟨fun hmax => heffect.sound (hsound (hne hmax)) hmax, fun n => ?_, fun hmax hahead => ?_⟩
    · rw [heffect.capacity, heffect.capacity]
      exact hcap n
    · have hlast := hahead _ (List.mem_append_right _ (List.mem_singleton_self _))
      rw [(step_cases hnext hstep).usage_spared (hsound (hne hmax)) hcap hlast n]
      exact husage (hne hmax) fun h hmem => hahead h (List.mem_append_left _ hmem)

end CacheAwareRunner

section

open CacheAwareRunner NetworkAwarePlacement

variable {C T : Type} [ComputeModel C] [TransferModel T]

/-- **What a node's memory is promised to.** Through all runs of a runner with network-aware
placement, each of the two tiers in the memory of a node stays within that memory. Both together do
as well, as long as all placements agree on which of the two scores higher (and the ids of the cache
are not used up). -/
theorem memory_shared (iterOrder : IterOrder) (config : ServingConfig) (cluster : ClusterTopology)
    (compute : C) (transfer : T) (profile : ModelProfile) (placement : NetworkAwarePlacement)
    (requests : List LlmRequest) {earlier past : List (Happening C NetworkAwarePlacement T)}
    {r s : CacheAwareRunner C NetworkAwarePlacement T}
    (h : Session (.new iterOrder config cluster compute transfer profile placement) earlier r)
    (hpast : Past (r.start requests) past s) {n : NodeId} {node : ServingNode}
    (hnode : cluster.recorded n = some node) :
    s.cache.usage n .cpu ≤ node.cpuMemBytes ∧ s.cache.usage n .remoteMemory ≤ node.cpuMemBytes ∧
      (s.cache.nextKvId ≠ UInt64.maxValue →
        (∃ ahead, ∀ h ∈ earlier ++ past, ∀ a ∈ h.remoteAhead, a = ahead) →
        (s.cache.usage n .cpu).toNat + (s.cache.usage n .remoteMemory).toNat ≤
          node.cpuMemBytes.toNat) := by
  have hblank := blank_new iterOrder config cluster compute transfer profile placement
  have hcapacity := capacity_new iterOrder config cluster compute transfer profile placement
  obtain ⟨hwithin, hcap⟩ := h.withinCapacity hblank.sound.withinCapacity hpast
  have hmem : ∀ t, node.capacityOf t = node.cpuMemBytes → s.cache.usage n t ≤ node.cpuMemBytes := by
    intro t ht
    have hle := hwithin n t
    rwa [hcap, hcapacity, hnode, Option.elim_some, ht] at hle
  have hcpu := hmem .cpu rfl
  have hremote := hmem .remoteMemory rfl
  refine ⟨hcpu, hremote, fun hmax hagree => ?_⟩
  obtain ⟨ahead, hahead⟩ := hagree
  have hsame : ∀ n, (cluster.recorded n).elim 0 (·.capacityOf .cpu) =
      (cluster.recorded n).elim 0 (·.capacityOf .remoteMemory) := fun n => rfl
  have hspared := h.usage_spared hblank (fun n => by rw [hcapacity, hcapacity, hsame]) hpast hmax
    hahead n
  rw [UInt64.le_iff_toNat_le] at hcpu hremote
  cases ahead with
  | true =>
    have hzero : s.cache.usage n .cpu = 0 := hspared
    simpa [hzero] using hremote
  | false =>
    have hzero : s.cache.usage n .remoteMemory = 0 := hspared
    simpa [hzero] using hcpu

end

/-! ## A node that promises its memory twice -/

/-- A node with no room for a KV but in its memory of `cpuMemBytes`. -/
def memoryNode (cpuMemBytes : UInt64) : ClusterTopology where
  nodes := (ClusterTopology.singleNode 1 1).nodes.map fun node =>
    { node with
      gpus := node.gpus.map fun gpu => { gpu with hbmBytes := 0 }
      cpuMemBytes := cpuMemBytes
      localSsdBytes := 0 }

/-- A network whose fetches from main memory take that long to start. -/
def memoryTransfer (localCpuBaseNs : UInt64) : AnalyticalTransferModel :=
  { AnalyticalTransferModel.rdma400g with localCpuBaseNs, remoteMemoryBaseNs := 0 }

/-- The beginning of a run on a long and a short prompt. -/
def memoryRun (localCpuBaseNs : UInt64) :
    CacheAwareRunner LinearComputeModel NetworkAwarePlacement AnalyticalTransferModel :=
  (CacheAwareRunner.new .ascending ⟨1, 1, 1⟩ (memoryNode 131500000) .conservative8b
    (memoryTransfer localCpuBaseNs) .llama8bBf16Gqa ⟨0⟩).start [.cold 0 0 1000 1, .cold 1 0 8 1]

/-- If fetches from main memory start at once, the placements agree. -/
theorem memory_shared_fast :
    ((memoryRun 0).replay 6).2.cache.usage 0 .cpu ≤ 131500000 ∧
      ((memoryRun 0).replay 6).2.cache.usage 0 .remoteMemory ≤ 131500000 ∧
      (((memoryRun 0).replay 6).2.cache.usage 0 .cpu).toNat +
        (((memoryRun 0).replay 6).2.cache.usage 0 .remoteMemory).toNat ≤ 131500000 := by
  have hd : (memoryNode 131500000).DistinctNodeIds := by decide
  have hpast := CacheAwareRunner.past_replay (memoryRun 0) 6
  obtain ⟨hcpu, hremote, hboth⟩ := memory_shared .ascending ⟨1, 1, 1⟩ (memoryNode 131500000)
    LinearComputeModel.conservative8b (memoryTransfer 0) .llama8bBf16Gqa ⟨0⟩
    [.cold 0 0 1000 1, .cold 1 0 8 1] .fresh hpast (hd.recorded List.mem_cons_self)
  refine ⟨hcpu, hremote, hboth (by decide +kernel) ⟨false, ?_⟩⟩
  rw [List.nil_append]
  decide +kernel

/-- The long prompt goes to main memory and the short one to remote memory, on the same node. -/
theorem memory_promised_twice :
    ∃ s, EventLoop.Reach CacheAwareRunner.step (memoryRun 1000000) s ∧
      131500000 < (s.cache.usage 0 .cpu).toNat + (s.cache.usage 0 .remoteMemory).toNat :=
  ⟨_, (CacheAwareRunner.past_replay (memoryRun 1000000) 6).reach, by decide +kernel⟩

end KvFlowSim
