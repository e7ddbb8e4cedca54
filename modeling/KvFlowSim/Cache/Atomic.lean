import KvFlowSim.Cache.Accounting

/-!
# Insertions and relocations are atomic

`relocate` takes an object out, frees its reservation and rolls both back by hand if the new tier is
full. If the usages are the sums of what the tiers hold, the rollback restores the state exactly
(`putBack_takeOut`), and a success moves one object and its bytes (`relocate_moved`).
-/

namespace KvFlowSim

namespace CacheState

variable {c c' : CacheState} {obj : KvObject} {k : KvId} {loc : CacheLocation} {now : UInt64}

/-- The usage of each slot is the sum of its objects' sizes. -/
def Summed (c : CacheState) : Prop := ∀ s, (usageOf c.used s).toNat = c.objects.sumBy (share s)

/-- The object fits into the slot of a location once what it takes of that slot itself is given
back. A location without a slot takes everything. -/
def FitsAt (c : CacheState) (o : KvObject) (loc : CacheLocation) : Prop :=
  ∀ n t, loc.slot = some (n, t) →
    o.bytes.toNat ≤ (c.capacity n t).toNat - ((c.usage n t).toNat - share (n, t) o)

/-- The object `o` has been moved to `loc`, with its bytes, and nothing else has changed. -/
structure Moved (c : CacheState) (o : KvObject) (loc : CacheLocation) (now : UInt64)
    (c' : CacheState) : Prop where
  objects : ∀ k, c'.objects.get k =
    if k = o.kvId then some { o with location := loc, lastAccessNs := now } else c.objects.get k
  usage : ∀ n t, (c'.usage n t).toNat + share (n, t) o =
    (c.usage n t).toNat + share (n, t) { o with location := loc }
  rest : c' = { c with objects := c'.objects, used := c'.used }

/-- What an object takes of its slot is part of the usage. -/
theorem Summed.share_le (h : c.Summed) (hget : c.objects.get k = some obj) (s : Slot) :
    share s obj ≤ (usageOf c.used s).toNat := by
  rw [h, KeyedMap.sumBy_of_get hget]
  exact Nat.le_add_right _ _

theorem usage_takeOut (c : CacheState) (k : KvId) (obj : KvObject) (s : Slot) :
    (usageOf (c.takeOut k obj).used s).toNat = (usageOf c.used s).toNat - share s obj := by
  rw [takeOut, usageOf_release, share]
  split_ifs
  · exact UInt64.toNat_satSub _ _
  · rfl

/-- Reserving what has been released restores the usage, if it was there. -/
theorem reserve_release {used : FiniteMap Slot UInt64} {slot : Option Slot} {bytes : UInt64}
    (h : ∀ s, slot = some s → bytes ≤ usageOf used s) (hpos : 0 < bytes) :
    reserve (release used slot bytes) slot bytes = used := by
  cases slot with
  | none => rfl
  | some s =>
    have hle := h s rfl
    cases hlookup : used.lookup s with
    | none =>
      rw [usageOf, hlookup, Option.getD_none] at hle
      exact absurd hpos (not_lt.2 hle)
    | some u =>
      rw [usageOf, hlookup, Option.getD_some, UInt64.le_iff_toNat_le] at hle
      have hsum : u.satSub bytes + bytes = u := by
        have hu := u.toNat_lt
        rw [← UInt64.toNat_inj, UInt64.toNat_add, UInt64.toNat_satSub, Nat.sub_add_cancel hle,
          Nat.mod_eq_of_lt hu]
      refine Finmap.ext_lookup fun x => ?_
      simp only [release, hlookup, reserve, Finmap.lookup_insert_eq, Option.getD_some,
        if_true, hsum]
      split_ifs with hx
      · rw [hx, hlookup]
      · rfl

/-- The rollback of a relocation restores the cache. -/
theorem putBack_takeOut (h : c.Summed) (hget : c.objects.get k = some obj) (hpos : 0 < obj.bytes) :
    (c.takeOut k obj).putBack obj = c := by
  have hid : obj.kvId = k := KeyedMap.key_of_get hget
  have hobjects : ((c.takeOut k obj).putBack obj).objects = c.objects := by
    refine KeyedMap.ext fun k' => ?_
    rw [get_putBack_takeOut hid]
    split_ifs with hk
    · rw [hk, hget]
    · rfl
  have hused : ((c.takeOut k obj).putBack obj).used = c.used := by
    refine reserve_release (fun s hs => ?_) hpos
    have hshare := h.share_le hget s
    rwa [share, if_pos hs, ← UInt64.le_iff_toNat_le] at hshare
  calc (c.takeOut k obj).putBack obj
      = { c with objects := ((c.takeOut k obj).putBack obj).objects
                 used := ((c.takeOut k obj).putBack obj).used } := rfl
    _ = c := by rw [hobjects, hused]

/-- Room in the slot of the new location, as `relocate` checks it. -/
theorem fitsAt_iff (c : CacheState) (k : KvId) (obj : KvObject) (loc : CacheLocation) :
    c.FitsAt obj loc ↔ ∀ n t, loc.slot = some (n, t) →
      obj.bytes ≤ (c.takeOut k obj).availableSpace n t := by
  refine forall₃_congr fun n t _ => ?_
  have husage : ((c.takeOut k obj).usage n t).toNat = (c.usage n t).toNat - share (n, t) obj :=
    usage_takeOut c k obj (n, t)
  have hcapacity : (c.takeOut k obj).capacity n t = c.capacity n t := rfl
  rw [UInt64.le_iff_toNat_le, availableSpace, UInt64.toNat_satSub, husage, hcapacity]

/-- A relocation fails only for lack of room, so the object is not empty. -/
theorem relocate_full (hget : c.objects.get k = some obj) (loc : CacheLocation) (now : UInt64) :
    (c.relocate k loc now).1 = .ok () ∨
      (0 < obj.bytes ∧ ¬c.FitsAt obj loc ∧
        (c.relocate k loc now).2 = (c.takeOut k obj).putBack obj) := by
  rw [fitsAt_iff c k]
  unfold relocate
  simp only [hget]
  split
  next n t hslot =>
    split_ifs with hlt
    · refine .inr ⟨(Nat.zero_le _).trans_lt hlt, fun hroom => ?_, rfl⟩
      exact absurd (hroom n t hslot) (not_le.2 hlt)
    · exact .inl rfl
  next => exact .inl rfl

/-- A relocation that succeeds. -/
theorem relocate_moved (h : c.Summed) (hget : c.objects.get k = some obj)
    (hok : (c.relocate k loc now).1 = .ok ()) : c.Moved obj loc now (c.relocate k loc now).2 := by
  obtain rfl : obj.kvId = k := KeyedMap.key_of_get hget
  rcases relocate_cases hget loc now with ⟨-, heq, hroom⟩ | ⟨e, heq⟩
  · rw [heq]
    refine ⟨fun k' => ?_, fun n t => ?_, rfl⟩
    · exact get_putBack_takeOut (o := { obj with location := loc, lastAccessNs := now }) rfl k'
    · have hshare := h.share_le hget (n, t)
      have hfreed := usage_takeOut c obj.kvId obj (n, t)
      have hreserved := usageOf_reserve (c.takeOut obj.kvId obj).used loc.slot obj.bytes (n, t)
      change (usageOf (reserve (c.takeOut obj.kvId obj).used loc.slot obj.bytes) (n, t)).toNat + _ =
        (usageOf c.used (n, t)).toNat + if loc.slot = some (n, t) then obj.bytes.toNat else 0
      rw [hreserved]
      split_ifs with hslot
      · have hsum : (usageOf (c.takeOut obj.kvId obj).used (n, t) + obj.bytes).toNat =
            (usageOf (c.takeOut obj.kvId obj).used (n, t)).toNat + obj.bytes.toNat :=
          UInt64.toNat_add_of_le (hroom n t hslot)
        omega
      · omega
  · rw [heq] at hok
    cases hok

/-- A relocation that fails leaves the cache as it was. -/
theorem relocate_failed (h : c.Summed) {e : KvFlowError}
    (herror : (c.relocate k loc now).1 = .error e) : (c.relocate k loc now).2 = c := by
  cases hget : c.objects.get k with
  | none => exact relocate_of_get_none hget loc now
  | some obj =>
    rcases relocate_full hget loc now with hok | ⟨hpos, -, heq⟩
    · cases hok.symm.trans herror
    · rw [heq, putBack_takeOut h hget hpos]

theorem relocate_ok_iff (c : CacheState) (k : KvId) (loc : CacheLocation) (now : UInt64) :
    (c.relocate k loc now).1 = .ok () ↔ ∃ o, c.objects.get k = some o ∧ c.FitsAt o loc := by
  cases hget : c.objects.get k with
  | none =>
    constructor
    · intro hok
      simp only [relocate, hget, reduceCtorEq] at hok
    · rintro ⟨o, ho, -⟩
      exact absurd ho (Option.some_ne_none o).symm
  | some obj =>
    constructor
    · intro hok
      rcases relocate_cases hget loc now with ⟨-, -, hroom⟩ | ⟨e, heq⟩
      · exact ⟨obj, rfl, (fitsAt_iff c k obj loc).2 hroom⟩
      · rw [heq] at hok
        cases hok
    · rintro ⟨o, ho, hfits⟩
      obtain rfl := Option.some.inj ho
      rcases relocate_full hget loc now with hok | ⟨-, hnot, -⟩
      · exact hok
      · exact absurd hfits hnot

end CacheState

/-- **Insertions and relocations are atomic.** If the usages are what the tiers hold, a failure
leaves the cache exactly as it was. A relocation succeeds if and only if the object is there and
fits, and then moves it with its bytes and touches nothing else. -/
theorem relocate_atomic (c : CacheState) (hsummed : c.Summed) (obj : KvObject) (k : KvId)
    (loc : CacheLocation) (now : UInt64) :
    (∀ e, (c.insert obj).1 = .error e → (c.insert obj).2 = c) ∧
      (∀ e, (c.relocate k loc now).1 = .error e → (c.relocate k loc now).2 = c) ∧
      ((c.relocate k loc now).1 = .ok () ↔ ∃ o, c.objects.get k = some o ∧ c.FitsAt o loc) ∧
      ((c.relocate k loc now).1 = .ok () → ∃ o, c.objects.get k = some o ∧
        c.Moved o loc now (c.relocate k loc now).2) := by
  refine ⟨fun e herror => ?_, fun e => CacheState.relocate_failed hsummed,
    CacheState.relocate_ok_iff c k loc now, fun hok => ?_⟩
  · rcases CacheState.insert_cases c obj with ⟨hok, -, -⟩ | ⟨e', heq⟩
    · cases hok.symm.trans herror
    · rw [heq]
  · obtain ⟨o, hget, -⟩ := (CacheState.relocate_ok_iff c k loc now).1 hok
    exact ⟨o, hget, CacheState.relocate_moved hsummed hget hok⟩

/-- A cache with one object of 60 bytes on the GPU and room for 50 on the CPU. -/
def oneObject : CacheState :=
  ((CacheHistory.start .ascending).run [.setCapacity 0 .gpu 100, .setCapacity 0 .cpu 50, .allocKvId,
    .insert (gpuObject 0 1 8 60)]).cache

theorem summed_oneObject : oneObject.Summed := by
  have hsound : CacheHistory.Permits CacheHistory.Sound (.start .ascending)
      [.setCapacity 0 .gpu 100, .setCapacity 0 .cpu 50, .allocKvId, .insert (gpuObject 0 1 8 60)] :=
    ⟨⟨trivial, by decide⟩, ⟨trivial, by decide⟩, ⟨trivial, trivial⟩,
      ⟨⟨by decide, by decide⟩, trivial⟩,
      trivial⟩
  exact (CacheHistory.consistent_run hsound).accounted.usage

/-- The object does not fit into the CPU tier and stays where it is. Within its own tier it fits. -/
theorem relocate_atomic_full :
    (oneObject.relocate 0 (.cpu 0) 5).1 = .error (CacheState.relocationOverflow 0 .cpu 60 50) ∧
      (oneObject.relocate 0 (.cpu 0) 5).2 = oneObject ∧
      (oneObject.relocate 0 (.gpu 0 3) 5).1 = .ok () := by
  have herror : (oneObject.relocate 0 (.cpu 0) 5).1 =
      .error (CacheState.relocationOverflow 0 .cpu 60 50) := rfl
  refine ⟨herror, ?_, ?_⟩
  · exact (relocate_atomic oneObject summed_oneObject (gpuObject 0 1 8 60) 0
      (.cpu 0) 5).2.1 _ herror
  · refine (relocate_atomic oneObject summed_oneObject (gpuObject 0 1 8 60) 0 (.gpu 0 3) 5).2.2.1.2
      ⟨gpuObject 0 1 8 60, by decide, fun n t hslot => ?_⟩
    obtain ⟨rfl, rfl⟩ := Prod.mk.inj (Option.some.inj hslot)
    decide

end KvFlowSim
