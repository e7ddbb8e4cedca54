import KvFlowSim.Policy.Placement
import KvFlowSim.Cache.Accounting
import Mathlib.Logic.Relation

/-!
# The victims of the eviction loop

The loop removes one least recently used object of a tier after another. `EvictStep` is one turn of
it, from the victims so far to those with one more, and the loop is a run of turns to the point
where there is room or the tier is empty (`evictLru_clears`). What one turn preserves, the loop
does: the victims are distinct objects of the cache, and no object that is left was used before one
of them in its tier (`Victims`).

Where the usage of a tier is the sum of its objects, an empty tier has all of its capacity left, so
there is room in the end exactly if the capacity suffices (`Clears.room_iff`).
-/

namespace KvFlowSim

namespace CacheState

variable {c : CacheState}

theorem get_remove (c : CacheState) (k k' : KvId) :
    (c.remove k).2.objects.get k' = if k' = k then none else c.objects.get k' := by
  unfold remove
  split
  next hnone =>
    split_ifs with hk
    · exact hk ▸ hnone
    · rfl
  next => exact KeyedMap.get_remove _ _ _

@[simp] theorem capacity_remove (c : CacheState) (k : KvId) (n : NodeId) (t : TierKind) :
    (c.remove k).2.capacity n t = c.capacity n t := by
  unfold remove
  split <;> rfl

/-- The cache without the objects that a list of evictions names. -/
def removeAll (c : CacheState) (evicted : List EvictedKv) : CacheState :=
  evicted.foldl (fun c e => (c.remove e.kvId).2) c

@[simp] theorem removeAll_nil (c : CacheState) : c.removeAll [] = c := rfl

@[simp] theorem removeAll_concat (c : CacheState) (evicted : List EvictedKv) (e : EvictedKv) :
    c.removeAll (evicted ++ [e]) = ((c.removeAll evicted).remove e.kvId).2 :=
  List.foldl_concat ..

theorem get_removeAll (c : CacheState) (evicted : List EvictedKv) (k : KvId) :
    (c.removeAll evicted).objects.get k =
      if k ∈ evicted.map EvictedKv.kvId then none else c.objects.get k := by
  induction evicted using List.reverseRecOn with
  | nil => simp
  | append_singleton evicted e ih =>
    rw [removeAll_concat, get_remove, ih, List.map_append, List.map_singleton]
    by_cases hk : k = e.kvId
    · rw [if_pos hk, if_pos (List.mem_append_right _ (List.mem_singleton.2 hk))]
    · rw [if_neg hk]
      simp only [List.mem_append, List.mem_singleton, hk, or_false]

@[simp] theorem capacity_removeAll (c : CacheState) (evicted : List EvictedKv) (n : NodeId)
    (t : TierKind) : (c.removeAll evicted).capacity n t = c.capacity n t := by
  induction evicted using List.reverseRecOn with
  | nil => rfl
  | append_singleton evicted e ih => rw [removeAll_concat, capacity_remove, ih]

theorem Accounted.removeAll (h : c.Accounted) (evicted : List EvictedKv) :
    (c.removeAll evicted).Accounted := by
  induction evicted using List.reverseRecOn with
  | nil => exact h
  | append_singleton evicted e ih =>
    rw [removeAll_concat]
    exact ih.remove e.kvId

/-- Where an object of the cache lives. -/
def slotAt (c : CacheState) (k : KvId) : Option Slot := (c.objects.get k).bind (·.location.slot)

/-- Removing objects leaves the usage of the other tiers as it is. -/
theorem usage_removeAll {evicted : List EvictedKv} {n : NodeId} {t : TierKind}
    (h : ∀ e ∈ evicted, c.slotAt e.kvId ≠ some (n, t)) :
    (c.removeAll evicted).usage n t = c.usage n t := by
  induction evicted using List.reverseRecOn with
  | nil => rfl
  | append_singleton evicted e ih =>
    rw [removeAll_concat, remove]
    have hrest := ih fun e' he' => h e' (List.mem_append_left _ he')
    split
    · exact hrest
    next obj hget =>
      rw [get_removeAll] at hget
      split_ifs at hget
      have hslot := h e (List.mem_append_right _ (List.mem_singleton_self e))
      rw [slotAt, hget, Option.bind_some] at hslot
      refine (usageOf_release _ _ _ (n, t)).trans ?_
      rw [if_neg hslot]
      exact hrest

/-- An empty tier has all of its capacity left. -/
theorem Accounted.availableSpace_of_nil (h : c.Accounted) {n : NodeId} {t : TierKind}
    (hnil : c.objectsInTier n t = []) : c.availableSpace n t = c.capacity n t := by
  have husage : (c.usage n t).toNat = 0 := by
    have hsum := c.sum_objectsInTier n t
    rw [hnil] at hsum
    exact (h.usage (n, t)).trans hsum.symm
  refine UInt64.toNat_inj.1 ?_
  rw [availableSpace, UInt64.toNat_satSub, husage, Nat.sub_zero]

theorem availableSpace_le (c : CacheState) (n : NodeId) (t : TierKind) :
    c.availableSpace n t ≤ c.capacity n t := by
  rw [UInt64.le_iff_toNat_le, availableSpace, UInt64.toNat_satSub]
  exact Nat.sub_le _ _

end CacheState

/-- What the loop records of a victim. -/
def KvObject.evicted (o : KvObject) : EvictedKv := ⟨o.kvId, o.bytes⟩

/-! ## Lists of victims -/

/-- The list names distinct objects of the cache with their sizes, and none that is left was used
before a victim of the same tier. -/
structure Victims (cache : CacheState) (evicted : List EvictedKv) : Prop where
  nodup : (evicted.map EvictedKv.kvId).Nodup
  resident : ∀ e ∈ evicted, ∃ o, cache.objects.get e.kvId = some o ∧ o.bytes = e.bytes
  leastRecent : ∀ victim o : KvObject, victim.kvId ∈ evicted.map EvictedKv.kvId →
    cache.objects.get victim.kvId = some victim →
    (cache.removeAll evicted).objects.get o.kvId = some o →
    victim.location.slot = o.location.slot → victim.lastAccessNs ≤ o.lastAccessNs

theorem Victims.nil (cache : CacheState) : Victims cache [] where
  nodup := List.nodup_nil
  resident _ he := absurd he (List.not_mem_nil)
  leastRecent _ _ hv := absurd hv (List.not_mem_nil)

/-- Only an empty list of victims leaves the cache as it is. -/
theorem Victims.removeAll_eq_iff {cache : CacheState} {evicted : List EvictedKv}
    (h : Victims cache evicted) : cache.removeAll evicted = cache ↔ evicted = [] := by
  refine ⟨fun heq => List.eq_nil_iff_forall_not_mem.2 fun e he => ?_, fun hnil => hnil ▸ rfl⟩
  obtain ⟨o, ho, -⟩ := h.resident e he
  have hget := cache.get_removeAll evicted e.kvId
  rw [heq, ho, if_pos (List.mem_map_of_mem he)] at hget
  cases hget

/-! ## Turns of the loop -/

variable {n : NodeId} {t : TierKind} {bytes : UInt64} {c : CacheState} {ev ev' : List EvictedKv}

/-- A turn of the loop on the cache without the victims so far. -/
def EvictStep (n : NodeId) (t : TierKind) (bytes : UInt64) (c : CacheState)
    (ev ev' : List EvictedKv) : Prop :=
  (c.removeAll ev).availableSpace n t < bytes ∧
    ∃ victim ∈ (c.removeAll ev).objectsInTier n t,
      (∀ o ∈ (c.removeAll ev).objectsInTier n t, victim.lastAccessNs ≤ o.lastAccessNs) ∧
        ev' = ev ++ [victim.evicted]

/-- Turns of the loop. -/
abbrev Evicts (n : NodeId) (t : TierKind) (bytes : UInt64) (c : CacheState) :
    List EvictedKv → List EvictedKv → Prop :=
  Relation.ReflTransGen (EvictStep n t bytes c)

theorem evictLoop_evicts {k : ℕ} {c' : CacheState}
    (h : evictLoop n t bytes k (c.removeAll ev) ev = (c', ev')) :
    Evicts n t bytes c ev ev' ∧ c' = c.removeAll ev' := by
  induction k generalizing ev with
  | zero =>
    obtain ⟨rfl, rfl⟩ := Prod.mk.inj h
    exact ⟨.refl, rfl⟩
  | succ k ih =>
    rw [evictLoop] at h
    split_ifs at h with hlt
    · split at h
      next =>
        obtain ⟨rfl, rfl⟩ := Prod.mk.inj h
        exact ⟨.refl, rfl⟩
      next victim hv =>
        have hnext : ((c.removeAll ev).remove victim.kvId).2 =
            c.removeAll (ev ++ [victim.evicted]) := (c.removeAll_concat ev victim.evicted).symm
        rw [hnext] at h
        obtain ⟨hrest, hc'⟩ := ih h
        have hmin : ∀ o ∈ (c.removeAll ev).objectsInTier n t,
            victim.lastAccessNs ≤ o.lastAccessNs :=
          fun o ho => List.le_of_mem_argmin ho hv
        exact ⟨.head ⟨hlt, victim, List.argmin_mem hv, hmin, rfl⟩ hrest, hc'⟩
    · obtain ⟨rfl, rfl⟩ := Prod.mk.inj h
      exact ⟨.refl, rfl⟩

/-- What a turn's victim is to the cache at the start. -/
theorem get_of_mem_objectsInTier_removeAll {o : KvObject}
    (h : o ∈ (c.removeAll ev).objectsInTier n t) :
    o.kvId ∉ ev.map EvictedKv.kvId ∧ c.objects.get o.kvId = some o ∧
      o.location.slot = some (n, t) := by
  obtain ⟨hget, hslot⟩ := mem_objectsInTier.1 h
  rw [CacheState.get_removeAll] at hget
  split_ifs at hget with hmem
  exact ⟨hmem, hget, hslot⟩

theorem EvictStep.victims (h : EvictStep n t bytes c ev ev') (hv : Victims c ev) :
    Victims c ev' := by
  obtain ⟨-, victim, hmem, hmin, rfl⟩ := h
  obtain ⟨hnew, hget, hslot⟩ := get_of_mem_objectsInTier_removeAll hmem
  refine ⟨?_, ?_, ?_⟩
  · rw [List.map_append, List.map_singleton]
    exact List.concat_eq_append ▸ hv.nodup.concat hnew
  · intro e he
    rcases List.mem_append.1 he with he | he
    · exact hv.resident e he
    · obtain rfl := List.mem_singleton.1 he
      exact ⟨victim, hget, rfl⟩
  · intro v o hvmem hvget ho heq
    rw [CacheState.removeAll_concat, CacheState.get_remove] at ho
    split_ifs at ho
    rw [List.map_append, List.map_singleton, List.mem_append, List.mem_singleton] at hvmem
    rcases hvmem with hold | hvnew
    · exact hv.leastRecent v o hold hvget ho heq
    · obtain rfl : v = victim := Option.some.inj (hvget.symm.trans (hvnew ▸ hget))
      exact hmin o (mem_objectsInTier.2 ⟨ho, heq.symm.trans hslot⟩)

theorem Evicts.victims (h : Evicts n t bytes c ev ev') (hv : Victims c ev) : Victims c ev' := by
  induction h with
  | refl => exact hv
  | tail _ hstep ih => exact hstep.victims ih

/-- The loop adds objects of its tier. -/
theorem Evicts.slotAt (h : Evicts n t bytes c ev ev') :
    ∀ e ∈ ev', e ∈ ev ∨ c.slotAt e.kvId = some (n, t) := by
  induction h with
  | refl => exact fun e he => .inl he
  | tail _ hstep ih =>
    obtain ⟨-, victim, hmem, -, rfl⟩ := hstep
    obtain ⟨-, hget, hslot⟩ := get_of_mem_objectsInTier_removeAll hmem
    intro e he
    rcases List.mem_append.1 he with he | he
    · exact ih e he
    · obtain rfl := List.mem_singleton.1 he
      refine .inr ?_
      rw [CacheState.slotAt, show c.objects.get victim.evicted.kvId = some victim from hget]
      exact hslot

/-- The loop keeps the victims so far. -/
theorem Evicts.subset (h : Evicts n t bytes c ev ev') : ev ⊆ ev' := by
  induction h with
  | refl => exact List.Subset.refl _
  | tail _ hstep ih =>
    obtain ⟨-, victim, -, -, rfl⟩ := hstep
    exact fun e he => List.mem_append_left _ (ih he)

/-- Without its last victim the loop would not have had room. -/
theorem Evicts.needed (h : Evicts n t bytes c ev ev') (hne : ev' ≠ ev) :
    ∃ init e, ev' = init ++ [e] ∧ e ∉ ev ∧ (c.removeAll init).availableSpace n t < bytes := by
  rcases Relation.ReflTransGen.cases_tail h with heq | ⟨init, hinit, hlt, victim, hmem, -, rfl⟩
  · exact absurd heq hne
  · obtain ⟨hnew, -, -⟩ := get_of_mem_objectsInTier_removeAll hmem
    exact ⟨init, _, rfl, fun he => hnew (List.mem_map_of_mem (Evicts.subset hinit he)), hlt⟩

/-! ## The whole loop -/

/-- Turns of the loop to the point where there is room or the tier is empty. -/
structure Clears (n : NodeId) (t : TierKind) (bytes : UInt64) (c : CacheState)
    (ev ev' : List EvictedKv) : Prop where
  evicts : Evicts n t bytes c ev ev'
  done : bytes ≤ (c.removeAll ev').availableSpace n t ∨ (c.removeAll ev').objectsInTier n t = []

theorem evictLru_clears (n : NodeId) (t : TierKind) (bytes : UInt64) (c : CacheState)
    (ev : List EvictedKv) :
    ∃ ev', evictLru n t bytes (c.removeAll ev) ev = (c.removeAll ev', ev') ∧
      Clears n t bytes c ev ev' := by
  obtain ⟨⟨c', ev'⟩, h⟩ : ∃ r, evictLru n t bytes (c.removeAll ev) ev = r := ⟨_, rfl⟩
  obtain ⟨hevicts, rfl⟩ := evictLoop_evicts h
  exact ⟨ev', h, hevicts, evictLru_done h⟩

/-- The loop makes room for what the tier could hold. -/
theorem Clears.room_iff (h : Clears n t bytes c ev ev') (hacc : c.Accounted) :
    bytes ≤ (c.removeAll ev').availableSpace n t ↔ bytes ≤ c.capacity n t := by
  have hcap := c.capacity_removeAll ev' n t
  refine ⟨fun hroom => hcap ▸ hroom.trans (CacheState.availableSpace_le _ n t), fun hfits => ?_⟩
  rcases h.done with hroom | hnil
  · exact hroom
  · rwa [(hacc.removeAll ev').availableSpace_of_nil hnil, hcap]

/-- The loop has no victim exactly if there is room at once or nothing to evict. -/
theorem Clears.eq_iff (h : Clears n t bytes c ev ev') : ev' = ev ↔
    bytes ≤ (c.removeAll ev).availableSpace n t ∨ (c.removeAll ev).objectsInTier n t = [] := by
  constructor
  · rintro rfl
    exact h.done
  · intro hidle
    rcases Relation.ReflTransGen.cases_head h.evicts with heq | ⟨_, ⟨hlt, victim, hmem, -⟩, -⟩
    · exact heq.symm
    · rcases hidle with hroom | hnil
      · exact absurd hlt (not_lt.2 hroom)
      · rw [hnil] at hmem
        exact absurd hmem List.not_mem_nil

end KvFlowSim
