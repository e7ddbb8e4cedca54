import KvFlowSim.Foundations.FiniteMap
import KvFlowSim.Foundations.SortByKey

/-!
# Maps whose values know their keys

A program often files a record under an identifier that the record itself carries. `KeyedMap key`
is the type of finite maps in which every value `v` is filed under `key v`; the invariant is a
field, so a value that is found under `k` has the key `k` (`key_of_get`) and no writer can break it.
-/

/-- The finite maps in which every value is filed under its own key. -/
structure KeyedMap {K V : Type} [DecidableEq K] (key : V → K) where
  map : FiniteMap K V
  keyed : ∀ k v, map.lookup k = some v → key v = k

namespace KeyedMap

variable {K V : Type} [DecidableEq K] {key : V → K}

def empty : KeyedMap key := ⟨∅, fun k v h => by simp at h⟩

def get (m : KeyedMap key) (k : K) : Option V := m.map.lookup k

theorem key_of_get {m : KeyedMap key} {k : K} {v : V} (h : m.get k = some v) : key v = k :=
  m.keyed k v h

/-- Files `v` under its own key. -/
def insert (m : KeyedMap key) (v : V) : KeyedMap key where
  map := m.map.insert (key v) v
  keyed k v' h := by
    rw [Finmap.lookup_insert_eq] at h
    split_ifs at h with hk
    · rw [hk, Option.some.inj h]
    · exact m.keyed k v' h

def remove (m : KeyedMap key) (k : K) : KeyedMap key where
  map := m.map.erase k
  keyed k' v h := by
    rw [Finmap.lookup_erase_eq] at h
    split_ifs at h
    exact m.keyed k' v h

def values (m : KeyedMap key) : Multiset V := m.map.values

def len (m : KeyedMap key) : ℕ := m.values.card

@[ext] theorem ext {m₁ m₂ : KeyedMap key} (h : ∀ k, m₁.get k = m₂.get k) : m₁ = m₂ := by
  obtain ⟨m₁, _⟩ := m₁
  obtain ⟨m₂, _⟩ := m₂
  obtain rfl : m₁ = m₂ := Finmap.ext_lookup h
  rfl

@[simp] theorem get_empty (k : K) : (empty : KeyedMap key).get k = none := Finmap.lookup_empty k

@[simp] theorem values_empty : (empty : KeyedMap key).values = 0 := rfl

theorem get_insert (m : KeyedMap key) (v : V) (k : K) :
    (m.insert v).get k = if k = key v then some v else m.get k :=
  Finmap.lookup_insert_eq _ _ _ _

theorem get_remove (m : KeyedMap key) (k x : K) :
    (m.remove k).get x = if x = k then none else m.get x :=
  Finmap.lookup_erase_eq _ _ _

theorem mem_values {m : KeyedMap key} {v : V} : v ∈ m.values ↔ m.get (key v) = some v := by
  refine Finmap.mem_values.trans ⟨fun ⟨k, h⟩ => ?_, fun h => ⟨_, h⟩⟩
  exact (m.keyed k v h).symm ▸ h

theorem values_insert (m : KeyedMap key) (v : V) :
    (m.insert v).values = v ::ₘ (m.remove (key v)).values :=
  Finmap.values_insert _ _ _

theorem values_eq_cons {m : KeyedMap key} {k : K} {v : V} (h : m.get k = some v) :
    m.values = v ::ₘ (m.remove k).values :=
  Finmap.values_eq_cons h

/-- The last value filed under a key counts. -/
theorem insert_insert (m : KeyedMap key) {v v' : V} (h : key v = key v') :
    (m.insert v).insert v' = m.insert v' :=
  ext fun x => by
    simp only [get_insert, h]
    split_ifs <;> rfl

theorem insert_of_get {m : KeyedMap key} {k : K} {v : V} (h : m.get k = some v) : m.insert v = m :=
  ext fun x => by
    rw [get_insert]
    split_ifs with hx
    · rw [hx, key_of_get h, h]
    · rfl

theorem remove_of_get_none {m : KeyedMap key} {k : K} (h : m.get k = none) : m.remove k = m :=
  ext fun x => by
    rw [get_remove]
    split_ifs with hx
    · rw [hx, h]
    · rfl

/-! ## Maps from lists -/

/-- Files the values one after another. -/
def ofList (l : List V) : KeyedMap key := l.foldl insert empty

theorem get_foldl_insert {l : List V} (hl : (l.map key).Nodup) (m : KeyedMap key) {k : K} {v : V} :
    (l.foldl insert m).get k = some v ↔
      (v ∈ l ∧ key v = k) ∨ (k ∉ l.map key ∧ m.get k = some v) := by
  induction l generalizing m with
  | nil => simp
  | cons a l ih =>
    obtain ⟨ha, hl⟩ := List.nodup_cons.1 hl
    rw [List.foldl_cons, ih hl, get_insert, List.map_cons, List.mem_cons, List.mem_cons]
    by_cases hk : k = key a
    · subst hk
      have hnot : ¬(v ∈ l ∧ key v = key a) := fun ⟨hv, heq⟩ => ha (heq ▸ List.mem_map_of_mem hv)
      rw [if_pos rfl]
      simp only [ha, hnot, false_or, not_false_eq_true, true_and, not_true_eq_false,
        false_and, or_false, Option.some.injEq]
      constructor
      · rintro rfl
        exact ⟨.inl rfl, rfl⟩
      · rintro ⟨rfl | hv, heq⟩
        · rfl
        · exact absurd ⟨hv, heq⟩ hnot
    · rw [if_neg hk]
      simp only [hk, false_or]
      refine or_congr_left (and_congr_left fun heq => ?_)
      exact ⟨.inr, fun h => h.resolve_left fun hva => hk (hva ▸ heq.symm)⟩

/-- The values of distinct keys are found under them. -/
theorem get_ofList {l : List V} (hl : (l.map key).Nodup) {k : K} {v : V} :
    (ofList l : KeyedMap key).get k = some v ↔ v ∈ l ∧ key v = k := by
  rw [ofList, get_foldl_insert hl, get_empty]
  simp

theorem ofList_eq_of_perm {l l' : List V} (hl : (l.map key).Nodup) (h : l'.Perm l) :
    (ofList l' : KeyedMap key) = ofList l :=
  ext fun k => Option.ext fun v => by
    rw [get_ofList hl, get_ofList ((h.map key).nodup_iff.2 hl), h.mem_iff]

/-! ## Sums over the values -/

/-- The sum of `w` over the values. -/
def sumBy (w : V → ℕ) (m : KeyedMap key) : ℕ := (m.values.map w).sum

variable {w : V → ℕ}

@[simp] theorem sumBy_empty : (empty : KeyedMap key).sumBy w = 0 := rfl

/-- A value splits off its share of the sum. -/
theorem sumBy_of_get {m : KeyedMap key} {k : K} {v : V} (h : m.get k = some v) :
    m.sumBy w = w v + (m.remove k).sumBy w := by
  rw [sumBy, values_eq_cons h, Multiset.map_cons, Multiset.sum_cons, sumBy]

theorem sumBy_insert (m : KeyedMap key) (v : V) :
    (m.insert v).sumBy w = w v + (m.remove (key v)).sumBy w := by
  rw [sumBy, values_insert, Multiset.map_cons, Multiset.sum_cons, sumBy]

/-- A new value adds its share. -/
theorem sumBy_insert_of_none {m : KeyedMap key} {v : V} (h : m.get (key v) = none) :
    (m.insert v).sumBy w = w v + m.sumBy w := by
  rw [sumBy_insert, remove_of_get_none h]

/-- A value filed in place of another of the same key and share. -/
theorem sumBy_insert_of_get {m : KeyedMap key} {v v' : V} (h : m.get (key v) = some v')
    (hw : w v = w v') : (m.insert v).sumBy w = m.sumBy w := by
  rw [sumBy_insert, sumBy_of_get h, hw]

/-! ## Enumeration -/

variable {κ : Type} [LinearOrder κ] {f : K → κ}

/-- The values in the order of their keys under `f`. -/
def sortedValues (hf : Function.Injective f) (m : KeyedMap key) : List V :=
  m.map.liftOn (fun l => (l.entries.sortByKey fun e => f e.1).map fun e => e.2) fun a b h => by
    refine congrArg (List.map _) (List.sortByKey_eq_of_perm ?_ h)
    have hkeys : (a.entries.map fun e => e.1).Nodup := a.nodupKeys
    simpa [Function.comp_def] using hkeys.map hf

theorem coe_sortedValues (hf : Function.Injective f) (m : KeyedMap key) :
    (m.sortedValues hf : Multiset V) = m.values := by
  obtain ⟨m, hm⟩ := m
  induction m using Finmap.induction_on with
  | H l => exact Multiset.coe_eq_coe.2 ((List.sortByKey_perm _ _).map _)

end KeyedMap
