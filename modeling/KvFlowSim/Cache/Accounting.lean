import KvFlowSim.Cache.State
import Mathlib.Algebra.Ring.Nat

/-!
# Histories of a cache, and its accounting

A `CacheOp` is one of the operations by which a cache changes, and a `CacheHistory` is a cache
together with what is needed to say that an id is fresh: it was handed out by `alloc_kv_id`, and no
object was stored under it so far. (The allocator stops counting at `u64::MAX` and then hands out an
id again; it is not fresh once it has been used.)

Along every history the usage of each tier is the sum of the sizes of the objects in it and stays
within the capacity (`Accounted`), and the index leads to live objects of the right key (`Indexed`).
-/

namespace KvFlowSim

/-- The operations that change a cache. -/
inductive CacheOp
  | setCapacity (nodeId : NodeId) (tier : TierKind) (bytes : UInt64)
  | allocKvId
  | insert (obj : KvObject)
  | remove (kvId : KvId)
  | relocate (kvId : KvId) (newLocation : CacheLocation) (nowNs : UInt64)
  | updateAccess (kvId : KvId) (nowNs : UInt64)

namespace CacheOp

def apply (op : CacheOp) (c : CacheState) : CacheState :=
  match op with
  | setCapacity n t bytes => c.setCapacity n t bytes
  | allocKvId => c.allocKvId.2
  | insert obj => (c.insert obj).2
  | remove k => (c.remove k).2
  | relocate k loc now => (c.relocate k loc now).2
  | updateAccess k now => c.updateAccess k now

end CacheOp

/-- A cache, the ids that were handed out, and those under which an object was stored. -/
structure CacheHistory where
  cache : CacheState
  allocated : List KvId
  stored : List KvId

namespace CacheHistory

def start (iterOrder : IterOrder) : CacheHistory := ⟨.new iterOrder, [], []⟩

/-- Performs an operation. -/
def next (h : CacheHistory) (op : CacheOp) : CacheHistory where
  cache := op.apply h.cache
  allocated :=
    match op with
    | .allocKvId => h.cache.allocKvId.1 :: h.allocated
    | _ => h.allocated
  stored :=
    match op with
    | .insert obj =>
      match (h.cache.insert obj).1 with
      | .ok () => obj.kvId :: h.stored
      | .error _ => h.stored
    | _ => h.stored

def run (h : CacheHistory) (ops : List CacheOp) : CacheHistory := ops.foldl next h

/-- Objects are inserted under fresh ids only. -/
def FreshInsert (h : CacheHistory) : CacheOp → Prop
  | .insert obj => obj.kvId ∈ h.allocated ∧ obj.kvId ∉ h.stored
  | _ => True

/-- Moreover no capacity is set below the usage. -/
def Sound (h : CacheHistory) (op : CacheOp) : Prop :=
  h.FreshInsert op ∧
    match op with
    | .setCapacity n t bytes => h.cache.usage n t ≤ bytes
    | _ => True

/-- Each operation of the list is performed in a history that permits it. -/
def Permits (permitted : CacheHistory → CacheOp → Prop) : CacheHistory → List CacheOp → Prop
  | _, [] => True
  | h, op :: ops => permitted h op ∧ Permits permitted (h.next op) ops

/-- An invariant of every permitted operation is an invariant of every permitted list of them. -/
theorem Permits.invariant {permitted : CacheHistory → CacheOp → Prop} {I : CacheHistory → Prop}
    (hnext : ∀ h op, I h → permitted h op → I (h.next op)) {h : CacheHistory} {ops : List CacheOp}
    (hops : Permits permitted h ops) (hh : I h) : I (h.run ops) := by
  induction ops generalizing h with
  | nil => exact hh
  | cons op ops ih => exact ih hops.2 (hnext h op hh hops.1)

end CacheHistory

/-! ## What the operations do to the maps -/

/-- The usage that a map records for a slot. -/
def usageOf (used : FiniteMap Slot UInt64) (s : Slot) : UInt64 := (used.lookup s).getD 0

theorem usageOf_release (used : FiniteMap Slot UInt64) (slot : Option Slot) (bytes : UInt64)
    (s : Slot) : usageOf (release used slot bytes) s =
      if slot = some s then (usageOf used s).satSub bytes else usageOf used s := by
  unfold release
  split
  next => simp
  next s' =>
    simp only [Option.some.injEq]
    split
    next hl =>
      split_ifs with hs
      · subst hs
        rw [usageOf, hl]
        exact UInt64.toNat_inj.1 (by simp)
      · rfl
    next u hl =>
      simp only [usageOf, Finmap.lookup_insert_eq, eq_comm (a := s)]
      split_ifs with hs
      · subst hs
        simp [hl]
      · rfl

theorem usageOf_reserve (used : FiniteMap Slot UInt64) (slot : Option Slot) (bytes : UInt64)
    (s : Slot) : usageOf (reserve used slot bytes) s =
      if slot = some s then usageOf used s + bytes else usageOf used s := by
  unfold reserve
  cases slot with
  | none => simp
  | some s' =>
    simp only [usageOf, Finmap.lookup_insert_eq, Option.some.injEq, eq_comm (a := s)]
    split_ifs with hs
    · subst hs
      rfl
    · rfl

namespace CacheState

variable {c : CacheState} {obj : KvObject} {k : KvId}

/-- The room test of a location with a slot is the test of this slot. -/
theorem room_of_slot {loc : CacheLocation} {n : NodeId} {t : TierKind} {bytes : UInt64}
    (hslot : loc.slot = some (n, t)) (hroom : ¬c.availableSpace n t < bytes) :
    ∀ n' t', loc.slot = some (n', t') → bytes ≤ c.availableSpace n' t' := by
  intro n' t' hslot'
  obtain ⟨rfl, rfl⟩ := Prod.mk.inj (Option.some.inj (hslot.symm.trans hslot'))
  exact not_lt.1 hroom

/-- An insertion stores its object or leaves the cache as it is; it stores only what fits. -/
theorem insert_cases (c : CacheState) (obj : KvObject) :
    ((c.insert obj).1 = .ok () ∧ (c.insert obj).2 = c.store obj ∧
      ∀ n t, obj.location.slot = some (n, t) → obj.bytes ≤ c.availableSpace n t) ∨
    ∃ e, c.insert obj = (.error e, c) := by
  unfold insert
  split
  next n t hslot =>
    dsimp only
    split_ifs with hlt
    · exact .inr ⟨_, rfl⟩
    · exact .inl ⟨rfl, rfl, room_of_slot hslot hlt⟩
  next hslot => exact .inl ⟨rfl, rfl, fun _ _ h => absurd (hslot.symm.trans h) (by simp)⟩

/-- A relocation of a resident object takes it out and puts it back, moved if it fits and unchanged
otherwise. -/
theorem relocate_cases (h : c.objects.get k = some obj) (loc : CacheLocation) (now : UInt64) :
    ((c.relocate k loc now).1 = .ok () ∧ (c.relocate k loc now).2 =
        (c.takeOut k obj).putBack { obj with location := loc, lastAccessNs := now } ∧
      ∀ n t, loc.slot = some (n, t) → obj.bytes ≤ (c.takeOut k obj).availableSpace n t) ∨
    ∃ e, c.relocate k loc now = (.error e, (c.takeOut k obj).putBack obj) := by
  unfold relocate
  simp only [h]
  split
  next n t hslot =>
    split_ifs with hlt
    · exact .inr ⟨_, rfl⟩
    · exact .inl ⟨rfl, rfl, room_of_slot hslot hlt⟩
  next hslot => exact .inl ⟨rfl, rfl, fun _ _ h => absurd (hslot.symm.trans h) (by simp)⟩

theorem relocate_of_get_none (h : c.objects.get k = none) (loc : CacheLocation) (now : UInt64) :
    (c.relocate k loc now).2 = c := by
  simp only [relocate, h]

/-! ## The accounting invariant -/

/-- The share of an object in the usage of a slot. -/
def share (s : Slot) (o : KvObject) : ℕ := if o.location.slot = some s then o.bytes.toNat else 0

/-- The usage of each slot is the sum of its objects' sizes and within its capacity. -/
structure Accounted (c : CacheState) : Prop where
  usage : ∀ s, (usageOf c.used s).toNat = c.objects.sumBy (share s)
  capacity : ∀ s, usageOf c.used s ≤ c.capacity s.1 s.2

/-- The object fits into what its slot has left. -/
def Fits (c : CacheState) (o : KvObject) : Prop :=
  ∀ n t, o.location.slot = some (n, t) → o.bytes ≤ c.availableSpace n t

theorem Accounted.putBack (h : Accounted c) (hnone : c.objects.get obj.kvId = none)
    (hfits : c.Fits obj) : Accounted (c.putBack obj) := by
  have hadd : ∀ s, obj.location.slot = some s → obj.bytes ≤ (c.capacity s.1 s.2).satSub
      (usageOf c.used s) := fun s hs => hfits s.1 s.2 hs
  refine ⟨fun s => ?_, fun s => ?_⟩
  · rw [CacheState.putBack, usageOf_reserve, KeyedMap.sumBy_insert_of_none hnone, ← h.usage, share]
    split_ifs with hs
    · rw [UInt64.toNat_add_of_le (hadd s hs), add_comm]
    · rw [zero_add]
  · rw [CacheState.putBack, usageOf_reserve]
    split_ifs with hs
    · have hle := hadd s hs
      have hcap := h.capacity s
      have hsum := UInt64.toNat_add_of_le hle
      rw [UInt64.le_iff_toNat_le, UInt64.toNat_satSub] at hle
      rw [UInt64.le_iff_toNat_le] at hcap ⊢
      simp only [CacheState.capacity] at *
      omega
    · exact h.capacity s

/-- What an object takes of its slot is part of the usage. -/
theorem Accounted.bytes_le (h : Accounted c) (hget : c.objects.get k = some obj) {s : Slot}
    (hs : obj.location.slot = some s) : obj.bytes ≤ usageOf c.used s := by
  rw [UInt64.le_iff_toNat_le, h.usage, KeyedMap.sumBy_of_get hget, share, if_pos hs]
  exact Nat.le_add_right _ _

theorem Accounted.takeOut (h : Accounted c) (hget : c.objects.get k = some obj) :
    Accounted (c.takeOut k obj) := by
  refine ⟨fun s => ?_, fun s => ?_⟩
  · have hu := h.usage s
    rw [KeyedMap.sumBy_of_get hget, share] at hu
    rw [CacheState.takeOut, usageOf_release]
    split_ifs at hu ⊢ with hs
    · rw [UInt64.toNat_satSub, hu]
      exact Nat.add_sub_cancel_left _ _
    · rw [hu, zero_add]
  · have hcap := h.capacity s
    rw [CacheState.takeOut, usageOf_release]
    split_ifs with hs
    · rw [UInt64.le_iff_toNat_le] at hcap ⊢
      rw [UInt64.toNat_satSub]
      exact (Nat.sub_le _ _).trans hcap
    · exact hcap

/-- What was taken out fits again. -/
theorem Accounted.fits_takeOut (h : Accounted c) (hget : c.objects.get k = some obj) :
    (c.takeOut k obj).Fits obj := by
  intro n t hs
  have hbytes := h.bytes_le hget hs
  have hcap : usageOf c.used (n, t) ≤ c.capacity n t := h.capacity (n, t)
  have husage : (c.takeOut k obj).usage n t = (usageOf c.used (n, t)).satSub obj.bytes := by
    have := usageOf_release c.used obj.location.slot obj.bytes (n, t)
    rwa [if_pos hs] at this
  have hcapacity : (c.takeOut k obj).capacity n t = c.capacity n t := rfl
  rw [availableSpace, husage, hcapacity, UInt64.le_iff_toNat_le, UInt64.toNat_satSub,
    UInt64.toNat_satSub]
  rw [UInt64.le_iff_toNat_le] at hbytes hcap
  omega

theorem get_takeOut (c : CacheState) (k : KvId) (obj : KvObject) (k' : KvId) :
    (c.takeOut k obj).objects.get k' = if k' = k then none else c.objects.get k' :=
  KeyedMap.get_remove _ _ _

theorem Accounted.relocate (h : Accounted c) (k : KvId) (loc : CacheLocation) (now : UInt64) :
    Accounted (c.relocate k loc now).2 := by
  cases hget : c.objects.get k with
  | none => rwa [relocate_of_get_none hget]
  | some obj =>
    have hid : obj.kvId = k := KeyedMap.key_of_get hget
    have hnone : (c.takeOut k obj).objects.get obj.kvId = none := by
      rw [get_takeOut, if_pos hid]
    rcases relocate_cases hget loc now with ⟨-, heq, hfits⟩ | ⟨e, heq⟩
    · rw [heq]
      exact (h.takeOut hget).putBack hnone hfits
    · rw [heq]
      exact (h.takeOut hget).putBack hnone (h.fits_takeOut hget)

theorem Accounted.setCapacity (h : Accounted c) {n : NodeId} {t : TierKind} {bytes : UInt64}
    (hle : c.usage n t ≤ bytes) : Accounted (c.setCapacity n t bytes) := by
  have husage : ∀ s, usageOf (c.setCapacity n t bytes).used s = usageOf c.used s := fun s => by
    simp only [CacheState.setCapacity, usageOf]
    split_ifs with hmem
    · rfl
    · rw [Finmap.lookup_insert_eq]
      split_ifs with hs
      · subst hs
        rw [Finmap.lookup_eq_none.2 hmem]
        rfl
      · rfl
  refine ⟨fun s => (husage s).symm ▸ h.usage s, fun ⟨n', t'⟩ => ?_⟩
  rw [husage]
  simp only [CacheState.setCapacity, CacheState.capacity, Finmap.lookup_insert_eq]
  split_ifs with hs
  · rw [hs]
    exact hle
  · exact h.capacity (n', t')

/-! ## The index -/

/-- Every index entry leads to a live object of its key. -/
def Indexed (c : CacheState) : Prop :=
  ∀ key k, c.bySessionPrefix.lookup key = some k → ∃ o, c.objects.get k = some o ∧ o.key = key

/-- An object that is replaced under its id keeps its index entry, if it keeps its key. -/
theorem Indexed.replace {c' : CacheState} (h : Indexed c) (hindex : c'.bySessionPrefix =
    c.bySessionPrefix) {o : KvObject} (hold : c.objects.get k = some obj) (hkey : o.key = obj.key)
    (hget : ∀ k', c'.objects.get k' = if k' = k then some o else c.objects.get k') :
    Indexed c' := by
  intro key k' hk'
  obtain ⟨o', ho', hkey'⟩ := h key k' (hindex ▸ hk')
  rw [hget]
  split_ifs with heq
  · subst heq
    obtain rfl := Option.some.inj (hold.symm.trans ho')
    exact ⟨o, rfl, hkey.trans hkey'⟩
  · exact ⟨o', ho', hkey'⟩

theorem get_putBack_takeOut {o : KvObject} (hid : o.kvId = k) (k' : KvId) :
    ((c.takeOut k obj).putBack o).objects.get k' =
      if k' = k then some o else c.objects.get k' := by
  rw [CacheState.putBack, KeyedMap.get_insert, hid]
  split_ifs with heq
  · rfl
  · rw [get_takeOut, if_neg heq]

theorem get_store (c : CacheState) (obj : KvObject) (k : KvId) :
    (c.store obj).objects.get k = if k = obj.kvId then some obj else c.objects.get k :=
  KeyedMap.get_insert _ _ _

theorem get_updateAccess (hget : c.objects.get k = some obj) (now : UInt64) (k' : KvId) :
    (c.updateAccess k now).objects.get k' =
      if k' = k then some { obj with lastAccessNs := now } else c.objects.get k' := by
  have hid : obj.kvId = k := KeyedMap.key_of_get hget
  simp only [updateAccess, hget, KeyedMap.get_insert]
  rw [hid]

theorem updateAccess_of_get_none (h : c.objects.get k = none) (now : UInt64) :
    c.updateAccess k now = c := by
  simp only [updateAccess, h]

/-- A relocation replaces an object by one of the same key under the same id. -/
theorem exists_get_relocate (hget : c.objects.get k = some obj) (loc : CacheLocation)
    (now : UInt64) : ∃ o : KvObject, o.key = obj.key ∧ ∀ k',
      (c.relocate k loc now).2.objects.get k' = if k' = k then some o else c.objects.get k' := by
  have hid : obj.kvId = k := KeyedMap.key_of_get hget
  rcases relocate_cases hget loc now with ⟨-, heq, -⟩ | ⟨e, heq⟩
  · refine ⟨{ obj with location := loc, lastAccessNs := now }, rfl, fun k' => ?_⟩
    rw [heq]
    exact get_putBack_takeOut (o := { obj with location := loc, lastAccessNs := now }) hid k'
  · exact ⟨obj, rfl, fun k' => by rw [heq]; exact get_putBack_takeOut hid k'⟩

theorem bySessionPrefix_relocate (c : CacheState) (k : KvId) (loc : CacheLocation)
    (now : UInt64) : (c.relocate k loc now).2.bySessionPrefix = c.bySessionPrefix := by
  cases hget : c.objects.get k with
  | none => rw [relocate_of_get_none hget]
  | some obj =>
    rcases relocate_cases hget loc now with ⟨-, heq, -⟩ | ⟨e, heq⟩
    · rw [heq]
      rfl
    · rw [heq]
      rfl

theorem Indexed.relocate (h : Indexed c) (k : KvId) (loc : CacheLocation) (now : UInt64) :
    Indexed (c.relocate k loc now).2 := by
  cases hget : c.objects.get k with
  | none => rwa [relocate_of_get_none hget]
  | some obj =>
    obtain ⟨o, hkey, ho⟩ := exists_get_relocate hget loc now
    exact h.replace (bySessionPrefix_relocate c k loc now) hget hkey ho

theorem Indexed.updateAccess (h : Indexed c) (k : KvId) (now : UInt64) :
    Indexed (c.updateAccess k now) := by
  cases hget : c.objects.get k with
  | none => rwa [updateAccess_of_get_none hget]
  | some obj =>
    refine h.replace (o := { obj with lastAccessNs := now }) ?_ hget rfl (get_updateAccess hget now)
    simp only [CacheState.updateAccess, hget]

theorem Indexed.remove (h : Indexed c) (k : KvId) : Indexed (c.remove k).2 := by
  unfold CacheState.remove
  split
  · exact h
  next obj hget =>
    intro key k' hk'
    simp only [Finmap.lookup_erase_eq] at hk'
    split_ifs at hk' with hkey
    obtain ⟨o, ho, hokey⟩ := h key k' hk'
    refine ⟨o, ?_, hokey⟩
    rw [KeyedMap.get_remove, if_neg]
    · exact ho
    · -- the removed object's own entry is gone
      rintro rfl
      obtain rfl := Option.some.inj (hget.symm.trans ho)
      exact hkey hokey.symm

theorem Indexed.store (h : Indexed c) (hnone : c.objects.get obj.kvId = none) :
    Indexed (c.store obj) := by
  intro key k' hk'
  simp only [CacheState.store, Finmap.lookup_insert_eq] at hk'
  simp only [CacheState.store, KeyedMap.get_insert]
  split_ifs at hk' with hkey
  · obtain rfl := Option.some.inj hk'
    exact ⟨obj, if_pos rfl, hkey.symm⟩
  · obtain ⟨o, ho, hokey⟩ := h key k' hk'
    refine ⟨o, ?_, hokey⟩
    rw [if_neg]
    · exact ho
    · rintro rfl
      simp [hnone] at ho

/-- An access changes neither the sizes nor the locations. -/
theorem Accounted.updateAccess (h : Accounted c) (k : KvId) (now : UInt64) :
    Accounted (c.updateAccess k now) := by
  cases hget : c.objects.get k with
  | none => rwa [updateAccess_of_get_none hget]
  | some obj =>
    have hid : obj.kvId = k := KeyedMap.key_of_get hget
    subst hid
    simp only [CacheState.updateAccess, hget]
    refine ⟨fun s => ?_, h.capacity⟩
    have hsum := KeyedMap.sumBy_insert_of_get (w := share s)
      (v := { obj with lastAccessNs := now }) hget rfl
    exact (h.usage s).trans hsum.symm

theorem Accounted.remove (h : Accounted c) (k : KvId) : Accounted (c.remove k).2 := by
  unfold CacheState.remove
  split
  · exact h
  next obj hget => exact ⟨(h.takeOut hget).usage, (h.takeOut hget).capacity⟩

theorem Accounted.store (h : Accounted c) (hnone : c.objects.get obj.kvId = none)
    (hfits : c.Fits obj) : Accounted (c.store obj) :=
  ⟨(h.putBack hnone hfits).usage, (h.putBack hnone hfits).capacity⟩

end CacheState

/-! ## Overflow -/

/-- The addition that `reserve` performs. -/
def reservation (used : FiniteMap Slot UInt64) (slot : Option Slot) (bytes : UInt64) :
    List (UInt64 × UInt64) :=
  match slot with
  | none => []
  | some s => [(usageOf used s, bytes)]

/-- The additions with `+` that an operation performs: the reservation of an insertion, and the
reservation or the rollback of a relocation. -/
def CacheOp.additions (op : CacheOp) (c : CacheState) : List (UInt64 × UInt64) :=
  match op with
  | insert obj =>
    match (c.insert obj).1 with
    | .ok () => reservation c.used obj.location.slot obj.bytes
    | .error _ => []
  | relocate k loc now =>
    match c.objects.get k with
    | none => []
    | some obj =>
      match (c.relocate k loc now).1 with
      | .ok () => reservation (c.takeOut k obj).used loc.slot obj.bytes
      | .error _ => reservation (c.takeOut k obj).used obj.location.slot obj.bytes
  | _ => []

/-- The addition does not overflow. -/
def Exact (p : UInt64 × UInt64) : Prop := p.1.toNat + p.2.toNat < UInt64.size

theorem CacheState.exact_reservation {c : CacheState} {slot : Option Slot} {bytes : UInt64}
    (hfits : ∀ n t, slot = some (n, t) → bytes ≤ c.availableSpace n t) :
    ∀ p ∈ reservation c.used slot bytes, Exact p := by
  intro p hp
  unfold reservation at hp
  split at hp
  next => simp at hp
  next s =>
    obtain rfl := List.mem_singleton.1 hp
    have hsum := UInt64.toNat_add_of_le (hfits s.1 s.2 rfl)
    show (c.usage s.1 s.2).toNat + bytes.toNat < UInt64.size
    rw [← hsum]
    exact UInt64.toNat_lt_size _

theorem CacheState.Accounted.exact_additions {c : CacheState} (h : c.Accounted) (op : CacheOp) :
    ∀ p ∈ op.additions c, Exact p := by
  intro p hp
  cases op with
  | insert obj =>
    rcases CacheState.insert_cases c obj with ⟨hok, -, hfits⟩ | ⟨e, herr⟩
    · simp only [CacheOp.additions, hok] at hp
      exact CacheState.exact_reservation hfits p hp
    · simp [CacheOp.additions, herr] at hp
  | relocate k loc now =>
    cases hget : c.objects.get k with
    | none => simp [CacheOp.additions, hget] at hp
    | some obj =>
      simp only [CacheOp.additions, hget] at hp
      rcases CacheState.relocate_cases hget loc now with ⟨hok, -, hfits⟩ | ⟨e, herr⟩
      · simp only [hok] at hp
        exact CacheState.exact_reservation hfits p hp
      · simp only [herr] at hp
        exact CacheState.exact_reservation (h.fits_takeOut hget) p hp
  | setCapacity => simp [CacheOp.additions] at hp
  | allocKvId => simp [CacheOp.additions] at hp
  | remove => simp [CacheOp.additions] at hp
  | updateAccess => simp [CacheOp.additions] at hp

/-! ## Histories -/

namespace CacheHistory

/-- Objects are resident only under ids that were used. -/
def Resident (h : CacheHistory) : Prop :=
  ∀ k o, h.cache.objects.get k = some o → k ∈ h.stored

variable {h : CacheHistory} {op : CacheOp}

theorem Resident.next (hr : h.Resident) (op : CacheOp) : (h.next op).Resident := by
  cases op with
  | setCapacity => exact hr
  | allocKvId => exact hr
  | insert obj =>
    intro k o hk
    rcases CacheState.insert_cases h.cache obj with ⟨hok, hstore, -⟩ | ⟨e, herr⟩
    · simp only [CacheHistory.next, CacheOp.apply, hok] at hk ⊢
      rw [hstore, CacheState.store, KeyedMap.get_insert] at hk
      split_ifs at hk with heq
      · exact heq ▸ List.mem_cons_self
      · exact List.mem_cons_of_mem _ (hr k o hk)
    · simp only [CacheHistory.next, CacheOp.apply, herr] at hk ⊢
      exact hr k o hk
  | remove k =>
    intro k' o hk'
    simp only [CacheHistory.next, CacheOp.apply, CacheState.remove] at hk'
    split at hk'
    · exact hr k' o hk'
    · rw [KeyedMap.get_remove] at hk'
      split_ifs at hk'
      exact hr k' o hk'
  | relocate k loc now =>
    intro k' o hk'
    simp only [CacheHistory.next, CacheOp.apply] at hk'
    cases hget : h.cache.objects.get k with
    | none =>
      rw [CacheState.relocate_of_get_none hget] at hk'
      exact hr k' o hk'
    | some obj =>
      obtain ⟨o', -, ho'⟩ := CacheState.exists_get_relocate hget loc now
      rw [ho'] at hk'
      split_ifs at hk' with heq
      · exact heq ▸ hr k obj hget
      · exact hr k' o hk'
  | updateAccess k now =>
    intro k' o hk'
    simp only [CacheHistory.next, CacheOp.apply] at hk'
    cases hget : h.cache.objects.get k with
    | none =>
      rw [CacheState.updateAccess_of_get_none hget] at hk'
      exact hr k' o hk'
    | some obj =>
      rw [CacheState.get_updateAccess hget] at hk'
      split_ifs at hk' with heq
      · exact heq ▸ hr k obj hget
      · exact hr k' o hk'

/-- A fresh id is not resident. -/
theorem Resident.get_eq_none (hr : h.Resident) {obj : KvObject}
    (hfresh : h.FreshInsert (.insert obj)) :
    h.cache.objects.get obj.kvId = none := by
  cases hget : h.cache.objects.get obj.kvId with
  | none => rfl
  | some o => exact absurd (hr _ o hget) hfresh.2

/-- What holds of the cache throughout a history. -/
structure Consistent (h : CacheHistory) : Prop where
  resident : h.Resident
  accounted : h.cache.Accounted
  indexed : h.cache.Indexed

theorem Consistent.next (hc : h.Consistent) (hop : h.Sound op) : (h.next op).Consistent := by
  obtain ⟨hfresh, hcap⟩ := hop
  refine ⟨hc.resident.next op, ?_, ?_⟩
  · cases op with
    | setCapacity => exact hc.accounted.setCapacity hcap
    | allocKvId => exact ⟨hc.accounted.usage, hc.accounted.capacity⟩
    | insert obj =>
      simp only [CacheHistory.next, CacheOp.apply]
      rcases CacheState.insert_cases h.cache obj with ⟨-, hstore, hfits⟩ | ⟨e, herr⟩
      · rw [hstore]
        exact hc.accounted.store (hc.resident.get_eq_none hfresh) hfits
      · rw [herr]
        exact hc.accounted
    | remove k => exact hc.accounted.remove k
    | relocate k loc now => exact hc.accounted.relocate k loc now
    | updateAccess k now => exact hc.accounted.updateAccess k now
  · cases op with
    | setCapacity => exact hc.indexed
    | allocKvId => exact hc.indexed
    | insert obj =>
      simp only [CacheHistory.next, CacheOp.apply]
      rcases CacheState.insert_cases h.cache obj with ⟨-, hstore, -⟩ | ⟨e, herr⟩
      · rw [hstore]
        exact hc.indexed.store (hc.resident.get_eq_none hfresh)
      · rw [herr]
        exact hc.indexed
    | remove k => exact hc.indexed.remove k
    | relocate k loc now => exact hc.indexed.relocate k loc now
    | updateAccess k now => exact hc.indexed.updateAccess k now

theorem consistent_start (iterOrder : IterOrder) : (start iterOrder).Consistent where
  resident k o hk := by simp [start, CacheState.new] at hk
  accounted := ⟨fun s => by simp [start, CacheState.new, usageOf], fun s => by
    simp [start, CacheState.new, usageOf, CacheState.capacity]⟩
  indexed key k hk := by simp [start, CacheState.new] at hk

theorem consistent_run {iterOrder : IterOrder} {ops : List CacheOp}
    (hops : Permits Sound (.start iterOrder) ops) : ((start iterOrder).run ops).Consistent :=
  hops.invariant (fun _ _ hc hop => hc.next hop) (consistent_start iterOrder)

end CacheHistory

/-- The objects of a tier, in whatever order they are enumerated, have the sizes of its shares. -/
theorem CacheState.sum_objectsInTier (c : CacheState) (n : NodeId) (t : TierKind) :
    ((c.objectsInTier n t).map fun o => o.bytes.toNat).sum = c.objects.sumBy (share (n, t)) := by
  have hfilter : ∀ l : List KvObject,
      ((l.filter fun o => o.location.matchesTier n t).map fun o => o.bytes.toNat).sum =
        (l.map (share (n, t))).sum := fun l => by
    induction l with
    | nil => rfl
    | cons o l ih =>
      rw [List.filter_cons, List.map_cons, List.sum_cons, ← ih, share]
      by_cases hm : o.location.matchesTier n t = true
      · rw [if_pos hm, if_pos (CacheLocation.matchesTier_iff.1 hm), List.map_cons, List.sum_cons]
      · rw [if_neg hm, if_neg (mt CacheLocation.matchesTier_iff.2 hm), zero_add]
  rw [CacheState.objectsInTier, hfilter, KeyedMap.sumBy, KeyedMap.values,
    ← show _ = c.objects.map.values from c.iterOrder.perm c.objects c.nextKvId]
  simp

/-- **Cache accounting is exact and look-ups are sound.** After any list of operations in which
insertions are under fresh ids and no capacity is set below the usage: the usage of each tier is the
sum of the sizes of its objects and at most its capacity, the next operation adds without
overflow, every index entry leads to a live object, and a look-up returns what was asked for. -/
theorem cache_accounted (iterOrder : IterOrder) (ops : List CacheOp)
    (hops : CacheHistory.Permits CacheHistory.Sound (.start iterOrder) ops) :
    let h := (CacheHistory.start iterOrder).run ops
    (∀ n t, (h.cache.usage n t).toNat =
        ((h.cache.objectsInTier n t).map fun o => o.bytes.toNat).sum ∧
      h.cache.usage n t ≤ h.cache.capacity n t) ∧
    (∀ op, h.Sound op → ∀ p ∈ op.additions h.cache, Exact p) ∧
    (∀ key k, h.cache.bySessionPrefix.lookup key = some k →
      ∃ o, h.cache.objects.get k = some o) ∧
    ∀ sessionId prefixTokens o, h.cache.lookup sessionId prefixTokens = some o →
      o.sessionId = sessionId ∧ o.prefixTokens = prefixTokens := by
  intro h
  have hc : h.Consistent := CacheHistory.consistent_run hops
  refine ⟨fun n t => ⟨?_, hc.accounted.capacity (n, t)⟩, fun op _ =>
    hc.accounted.exact_additions op,
    fun key k hk => ?_, fun sessionId prefixTokens o ho => ?_⟩
  · rw [CacheState.sum_objectsInTier]
    exact hc.accounted.usage (n, t)
  · obtain ⟨o, ho, -⟩ := hc.indexed key k hk
    exact ⟨o, ho⟩
  · obtain ⟨k, hk, hget⟩ := Option.bind_eq_some_iff.1 ho
    obtain ⟨o', ho', hkey⟩ := hc.indexed _ k hk
    obtain rfl := Option.some.inj (hget.symm.trans ho')
    exact Prod.mk.inj hkey

/-- An object of a session that lives in the GPU tier of node 0. -/
def gpuObject (kvId : KvId) (sessionId : UInt64) (prefixTokens : UInt32) (bytes : UInt64) :
    KvObject :=
  ⟨kvId, sessionId, "", prefixTokens, bytes, .gpu 0 0, 0, 0⟩

/-- An object is stored in the GPU tier and moved to the CPU tier. -/
theorem cache_accounted_relocate :
    let ops := [.setCapacity 0 .gpu 100, .setCapacity 0 .cpu 80, .allocKvId,
      .insert (gpuObject 0 1 8 60), .relocate 0 (.cpu 0) 5]
    let c := ((CacheHistory.start .ascending).run ops).cache
    (c.usage 0 .cpu).toNat = ((c.objectsInTier 0 .cpu).map fun o => o.bytes.toNat).sum ∧
      c.usage 0 .cpu = 60 :=
  ⟨((cache_accounted .ascending [.setCapacity 0 .gpu 100, .setCapacity 0 .cpu 80, .allocKvId,
        .insert (gpuObject 0 1 8 60), .relocate 0 (.cpu 0) 5]
      ⟨⟨trivial, by decide⟩, ⟨trivial, by decide⟩, ⟨trivial, trivial⟩,
        ⟨⟨by decide, by decide⟩, trivial⟩, ⟨trivial, trivial⟩, trivial⟩).1 0 .cpu).1,
    by decide⟩

end KvFlowSim
