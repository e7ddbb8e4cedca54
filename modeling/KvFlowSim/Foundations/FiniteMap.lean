import Mathlib.Data.Finmap
import Mathlib.Data.Multiset.Count

/-!
# Finite maps and their values

`Finmap` with a constant value type is the mathematical content of a hash map: it has lookups,
insertions and erasures and no order. This file adds the multiset of its values, which is what
sums and counts over a map range over. Two equations carry everything: an insertion replaces the
value at its key (`values_insert`), and a lookup splits off its value (`values_eq_cons`).
-/

/-- The finite maps from `K` to `V`. -/
abbrev FiniteMap (K V : Type*) := Finmap fun _ : K => V

namespace Finmap

variable {K V : Type*}

/-- The values of a finite map, with multiplicity and without an order. -/
def values (m : FiniteMap K V) : Multiset V := m.entries.map fun e => e.2

@[simp] theorem values_empty : (∅ : FiniteMap K V).values = 0 := rfl

variable [DecidableEq K]

theorem insert_erase_self (m : FiniteMap K V) (a : K) (b : V) :
    (m.erase a).insert a b = m.insert a b := by
  refine ext_lookup fun x => ?_
  by_cases hx : x = a
  · subst hx
    rw [lookup_insert, lookup_insert]
  · rw [lookup_insert_of_ne _ hx, lookup_insert_of_ne _ hx, lookup_erase_ne hx]

theorem insert_of_lookup {m : FiniteMap K V} {a : K} {b : V} (h : m.lookup a = some b) :
    m.insert a b = m := by
  refine ext_lookup fun x => ?_
  by_cases hx : x = a
  · subst hx
    rw [lookup_insert, h]
  · rw [lookup_insert_of_ne _ hx]

theorem values_insert (m : FiniteMap K V) (a : K) (b : V) :
    (m.insert a b).values = b ::ₘ (m.erase a).values := by
  rw [← insert_erase_self, values, entries_insert_of_notMem notMem_erase_self, Multiset.map_cons,
    values]

theorem values_eq_cons {m : FiniteMap K V} {a : K} {b : V} (h : m.lookup a = some b) :
    m.values = b ::ₘ (m.erase a).values := by
  rw [← values_insert, insert_of_lookup h]

theorem mem_values {m : FiniteMap K V} {b : V} : b ∈ m.values ↔ ∃ a, m.lookup a = some b := by
  simp only [values, Multiset.mem_map, Sigma.exists, lookup_eq_some_iff]
  exact ⟨fun ⟨a, c, h, e⟩ => ⟨a, e ▸ h⟩, fun ⟨a, h⟩ => ⟨a, b, h, rfl⟩⟩

theorem lookup_insert_eq (m : FiniteMap K V) (a x : K) (b : V) :
    (m.insert a b).lookup x = if x = a then some b else m.lookup x := by
  split_ifs with hx
  · subst hx
    exact lookup_insert m
  · exact lookup_insert_of_ne m hx

theorem lookup_erase_eq (m : FiniteMap K V) (a x : K) :
    (m.erase a).lookup x = if x = a then none else m.lookup x := by
  split_ifs with hx
  · subst hx
    exact lookup_erase x m
  · exact lookup_erase_ne hx

end Finmap
