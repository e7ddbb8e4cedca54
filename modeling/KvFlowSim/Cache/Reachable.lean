import KvFlowSim.Cache.Accounting

/-!
# Which objects a look-up can reach

An insertion under a session and prefix length that a resident object already has overwrites the
index entry of that object, which then occupies its capacity out of reach. Removing it later erases
the entry of the newer object as well (`cache_unreachable`). Nothing else goes wrong: in a history
all of whose successful insertions are under keys that no resident object has, every object is
reachable throughout, and only in such a history (`cache_reachable_iff`).
-/

namespace KvFlowSim

namespace CacheState

/-- A look-up by the session and prefix length of a resident object finds that object. -/
def Reachable (c : CacheState) : Prop :=
  ∀ k o, c.objects.get k = some o → c.lookup o.sessionId o.prefixTokens = some o

/-- An insertion that succeeds is under a key that no resident object has. -/
def KeyFree (c : CacheState) : CacheOp → Prop
  | .insert obj => (c.insert obj).1 = .ok () → ∀ k o, c.objects.get k = some o → o.key ≠ obj.key
  | _ => True

variable {c : CacheState} {obj : KvObject}

instance (c : CacheState) : DecidablePred c.KeyFree
  | .insert obj => decidable_of_iff
      ((c.insert obj).1 = .ok () → ∀ o ∈ c.objects.values, o.key ≠ obj.key)
      (imp_congr_right fun _ => ⟨fun h _ o hk => h o (KeyedMap.mem_values.2
        (KeyedMap.key_of_get hk ▸ hk)), fun h o ho => h _ o (KeyedMap.mem_values.1 ho)⟩)
  | .setCapacity .. | .allocKvId | .remove _ | .relocate .. | .updateAccess .. => isTrue trivial

theorem reachable_iff : Reachable c ↔
    ∀ k o, c.objects.get k = some o → c.bySessionPrefix.lookup o.key = some k := by
  constructor
  · intro h k o hk
    obtain ⟨k', hk', hget⟩ := Option.bind_eq_some_iff.1 (h k o hk)
    have hid : o.kvId = k' := KeyedMap.key_of_get hget
    have hid' : o.kvId = k := KeyedMap.key_of_get hk
    rwa [← hid', hid]
  · intro h k o hk
    exact Option.bind_eq_some_iff.2 ⟨k, h k o hk, hk⟩

/-- Replacing an object by one of the same key under its id. -/
theorem Reachable.replace {c' : CacheState} {k : KvId} {o : KvObject} (h : Reachable c)
    (hindex : c'.bySessionPrefix = c.bySessionPrefix) (hold : c.objects.get k = some obj)
    (hkey : o.key = obj.key)
    (hget : ∀ k', c'.objects.get k' = if k' = k then some o else c.objects.get k') :
    Reachable c' := by
  rw [reachable_iff] at h ⊢
  intro k' o' hk'
  rw [hget] at hk'
  rw [hindex]
  split_ifs at hk' with heq
  · obtain rfl := Option.some.inj hk'
    rw [hkey, heq]
    exact h k obj hold
  · exact h k' o' hk'

theorem Reachable.remove (h : Reachable c) (k : KvId) : Reachable (c.remove k).2 := by
  unfold CacheState.remove
  split
  · exact h
  next obj hold =>
    rw [reachable_iff] at h ⊢
    intro k' o hk'
    simp only [KeyedMap.get_remove] at hk'
    split_ifs at hk' with hne
    have hentry := h k' o hk'
    rw [Finmap.lookup_erase_eq, if_neg]
    · exact hentry
    · -- two objects of one key would have one index entry
      intro hkey
      rw [hkey] at hentry
      exact hne (Option.some.inj (hentry.symm.trans (h k obj hold)))

theorem reachable_store_iff (h : Reachable c) (hnone : c.objects.get obj.kvId = none) :
    Reachable (c.store obj) ↔ ∀ k o, c.objects.get k = some o → o.key ≠ obj.key := by
  rw [reachable_iff] at h ⊢
  have hget : ∀ k, (c.store obj).objects.get k =
      if k = obj.kvId then some obj else c.objects.get k := fun k => KeyedMap.get_insert _ _ _
  have hentry : ∀ key, (c.store obj).bySessionPrefix.lookup key =
      if key = obj.key then some obj.kvId else c.bySessionPrefix.lookup key :=
    fun key => Finmap.lookup_insert_eq _ _ _ _
  constructor
  · intro hs k o hk hkey
    have hne : k ≠ obj.kvId := by
      rintro rfl
      simp [hnone] at hk
    have := hs k o (by rw [hget, if_neg hne, hk])
    rw [hentry, if_pos hkey] at this
    exact hne (Option.some.inj this).symm
  · intro hfree k o hk
    rw [hget] at hk
    rw [hentry]
    split_ifs at hk with heq
    · obtain rfl := Option.some.inj hk
      rw [if_pos rfl, heq]
    · rw [if_neg (hfree k o hk)]
      exact h k o hk

end CacheState

namespace CacheHistory

open CacheState

variable {h : CacheHistory}

/-- An operation keeps every object reachable exactly if its key is free. -/
theorem reachable_next_iff (hr : h.Resident) (hreach : h.cache.Reachable) {op : CacheOp}
    (hop : h.FreshInsert op) : (h.next op).cache.Reachable ↔ h.cache.KeyFree op := by
  cases op with
  | setCapacity => exact iff_of_true hreach trivial
  | allocKvId => exact iff_of_true hreach trivial
  | insert obj =>
    simp only [CacheHistory.next, CacheOp.apply, KeyFree]
    rcases insert_cases h.cache obj with ⟨hok, hstore, -⟩ | ⟨e, herr⟩
    · rw [hstore, reachable_store_iff hreach (hr.get_eq_none hop)]
      exact ⟨fun hfree _ => hfree, fun hfree => hfree hok⟩
    · rw [herr]
      exact iff_of_true hreach fun hok => by simp at hok
  | remove k => exact iff_of_true (hreach.remove k) trivial
  | relocate k loc now =>
    refine iff_of_true ?_ trivial
    simp only [CacheHistory.next, CacheOp.apply]
    cases hget : h.cache.objects.get k with
    | none => rwa [relocate_of_get_none hget]
    | some obj =>
      obtain ⟨o, hkey, ho⟩ := exists_get_relocate hget loc now
      exact hreach.replace (bySessionPrefix_relocate _ k loc now) hget hkey ho
  | updateAccess k now =>
    refine iff_of_true ?_ trivial
    simp only [CacheHistory.next, CacheOp.apply]
    cases hget : h.cache.objects.get k with
    | none => rwa [updateAccess_of_get_none hget]
    | some obj =>
      refine hreach.replace (o := { obj with lastAccessNs := now }) ?_ hget rfl
        (get_updateAccess hget now)
      simp only [CacheState.updateAccess, hget]

theorem reachable_run_iff (hr : h.Resident) (hreach : h.cache.Reachable) {ops : List CacheOp}
    (hops : Permits FreshInsert h ops) :
    (∀ n, (h.run (ops.take n)).cache.Reachable) ↔
      ∀ n op, ops[n]? = some op → (h.run (ops.take n)).cache.KeyFree op := by
  induction ops generalizing h with
  | nil =>
    refine iff_of_true (fun n => ?_) fun n op hop => by simp at hop
    rw [List.take_nil]
    exact hreach
  | cons op ops ih =>
    have hstep := reachable_next_iff hr hreach hops.1
    constructor
    · intro hall n op' hop'
      have hnext : (h.next op).cache.Reachable := hall 1
      cases n with
      | zero =>
        obtain rfl := Option.some.inj hop'
        exact hstep.1 hnext
      | succ n => exact (ih (hr.next op) hnext hops.2).1 (fun n => hall (n + 1)) n op' hop'
    · intro hall n
      have hnext := hstep.2 (hall 0 op rfl)
      cases n with
      | zero => exact hreach
      | succ n =>
        exact (ih (hr.next op) hnext hops.2).2 (fun n op' hop' => hall (n + 1) op' hop') n

end CacheHistory

/-- **When every resident object stays reachable.** Take any list of operations that inserts under
fresh ids. Every object is reachable at every point of the history if and only if every insertion of
it that succeeds is under a key that no resident object has at that time. -/
theorem cache_reachable_iff (iterOrder : IterOrder) (ops : List CacheOp)
    (hops : CacheHistory.Permits CacheHistory.FreshInsert (.start iterOrder) ops) :
    (∀ n, ((CacheHistory.start iterOrder).run (ops.take n)).cache.Reachable) ↔
      ∀ n op, ops[n]? = some op →
        ((CacheHistory.start iterOrder).run (ops.take n)).cache.KeyFree op :=
  CacheHistory.reachable_run_iff (CacheHistory.consistent_start iterOrder).resident
    (fun k o hk => by simp [CacheHistory.start, CacheState.new] at hk) hops

/-- Two prefixes of one session are stored under keys of their own. When the shorter one has been
removed, the longer one is still reachable. -/
theorem cache_reachable_iff_two :
    let ops := [.setCapacity 0 .gpu 200, .allocKvId, .insert (gpuObject 0 1 8 60), .allocKvId,
      .insert (gpuObject 1 1 16 60), .remove 0]
    ((CacheHistory.start .ascending).run ops).cache.Reachable ∧
      ((CacheHistory.start .ascending).run ops).cache.objects.get 0 = none ∧
      ((CacheHistory.start .ascending).run ops).cache.lookup 1 16 = some (gpuObject 1 1 16 60) := by
  intro ops
  have hreach := (cache_reachable_iff .ascending ops
    ⟨trivial, trivial, ⟨by decide, by decide⟩, trivial, ⟨by decide, by decide⟩, trivial,
      trivial⟩).2 fun n op hop => by
    match n with
    | 0 | 1 | 2 | 3 | 4 | 5 =>
      obtain rfl := Option.some.inj hop
      decide
    | n + 6 => cases hop
  exact ⟨hreach 6, by decide, by decide⟩

/-- A second object of the same session and prefix length, then the removal of the first: the second
is resident and no look-up finds it. -/
theorem cache_unreachable :
    let ops := [.setCapacity 0 .gpu 200, .allocKvId, .insert (gpuObject 0 1 8 60), .allocKvId,
      .insert (gpuObject 1 1 8 60), .remove 0]
    CacheHistory.Permits CacheHistory.FreshInsert (.start .ascending) ops ∧
      ((CacheHistory.start .ascending).run ops).cache.objects.get 1 = some (gpuObject 1 1 8 60) ∧
      ((CacheHistory.start .ascending).run ops).cache.lookup 1 8 = none ∧
      ¬((CacheHistory.start .ascending).run ops).cache.Reachable := by
  refine ⟨⟨trivial, trivial, ⟨by decide, by decide⟩, trivial, ⟨by decide, by decide⟩, trivial,
    trivial⟩, by decide, by decide, fun h => ?_⟩
  have hfound := h 1 (gpuObject 1 1 8 60) (by decide)
  exact absurd hfound (by decide)

end KvFlowSim
