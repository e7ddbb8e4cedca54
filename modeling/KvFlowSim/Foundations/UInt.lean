import Mathlib.Order.Lattice
import Mathlib.Tactic.Common

/-!
# Machine integers

The order on `UInt64` and `UInt32` as a Mathlib linear order, and the saturating operations on
the words. Times, sizes and identifiers are machine words throughout; `+` is the wrapping
addition, `satAdd`, `satSub` and `satMul` stop at the ends of the range. The lemmas give each
saturating operation its value over the natural numbers and the bounds that the scheduling
arguments use.
-/

instance UInt64.instLinearOrder : LinearOrder UInt64 where
  le_refl := UInt64.le_refl
  le_trans _ _ _ := UInt64.le_trans
  le_antisymm _ _ := UInt64.le_antisymm
  le_total := UInt64.le_total
  lt_iff_le_not_ge a b := by
    rw [UInt64.not_le]
    exact ⟨fun h => ⟨UInt64.le_of_lt h, h⟩, And.right⟩
  toMin := inferInstance
  toMax := inferInstance
  toOrd := inferInstance
  toDecidableLE := inferInstance
  toDecidableEq := inferInstance
  toDecidableLT := inferInstance

instance UInt32.instLinearOrder : LinearOrder UInt32 where
  le_refl := UInt32.le_refl
  le_trans _ _ _ := UInt32.le_trans
  le_antisymm _ _ := UInt32.le_antisymm
  le_total := UInt32.le_total
  lt_iff_le_not_ge a b := by
    rw [UInt32.not_le]
    exact ⟨fun h => ⟨UInt32.le_of_lt h, h⟩, And.right⟩
  toMin := inferInstance
  toMax := inferInstance
  toOrd := inferInstance
  toDecidableLE := inferInstance
  toDecidableEq := inferInstance
  toDecidableLT := inferInstance

namespace UInt64

/-- The largest word, `u64::MAX`. -/
def maxValue : UInt64 := 0xFFFFFFFFFFFFFFFF

/-- Saturating addition. -/
def satAdd (a b : UInt64) : UInt64 := .ofNat (min (a.toNat + b.toNat) maxValue.toNat)

/-- Saturating subtraction. -/
def satSub (a b : UInt64) : UInt64 := .ofNat (a.toNat - b.toNat)

/-- Saturating multiplication. -/
def satMul (a b : UInt64) : UInt64 := .ofNat (min (a.toNat * b.toNat) maxValue.toNat)

theorem toNat_maxValue : maxValue.toNat = 18446744073709551615 := rfl

theorem toNat_le_maxValue (a : UInt64) : a.toNat ≤ maxValue.toNat := by
  have := a.toNat_lt
  rw [toNat_maxValue]
  omega

theorem toNat_ofNat_min (n : ℕ) : (UInt64.ofNat (min n maxValue.toNat)).toNat =
    min n maxValue.toNat := by
  rw [toNat_maxValue]
  exact UInt64.toNat_ofNat_of_lt' (by simp only [UInt64.size]; omega)

@[simp] theorem toNat_satAdd (a b : UInt64) :
    (satAdd a b).toNat = min (a.toNat + b.toNat) maxValue.toNat :=
  toNat_ofNat_min _

@[simp] theorem toNat_satSub (a b : UInt64) : (satSub a b).toNat = a.toNat - b.toNat := by
  have := a.toNat_lt
  exact UInt64.toNat_ofNat_of_lt' (by simp only [UInt64.size]; omega)

@[simp] theorem toNat_satMul (a b : UInt64) :
    (satMul a b).toNat = min (a.toNat * b.toNat) maxValue.toNat :=
  toNat_ofNat_min _

theorem satAdd_assoc (a b c : UInt64) : satAdd (satAdd a b) c = satAdd a (satAdd b c) := by
  rw [← UInt64.toNat_inj]
  simp only [toNat_satAdd]
  omega

/-- Subtraction gives back what was added, up to the end of the range. -/
theorem satSub_satAdd (a b : UInt64) : satSub (satAdd a b) a = min b (maxValue - a) := by
  have ha := a.toNat_le_maxValue
  have hb := b.toNat_le_maxValue
  have hsub : (maxValue - a).toNat = maxValue.toNat - a.toNat :=
    UInt64.toNat_sub_of_le _ _ (UInt64.le_iff_toNat_le.2 ha)
  rw [← UInt64.toNat_inj, toNat_min, hsub, toNat_satSub, toNat_satAdd]
  omega

/-- Saturating addition never goes back. -/
theorem le_satAdd (a b : UInt64) : a ≤ satAdd a b := by
  have := a.toNat_le_maxValue
  rw [UInt64.le_iff_toNat_le, toNat_satAdd]
  omega

theorem satAdd_le_satAdd {a b : UInt64} (h : a ≤ b) (c : UInt64) : satAdd a c ≤ satAdd b c := by
  rw [UInt64.le_iff_toNat_le] at h ⊢
  rw [toNat_satAdd, toNat_satAdd]
  omega

theorem satAdd_mono {a b c d : UInt64} (h : a ≤ b) (h' : c ≤ d) : satAdd a c ≤ satAdd b d := by
  rw [UInt64.le_iff_toNat_le] at h h' ⊢
  rw [toNat_satAdd, toNat_satAdd]
  omega

theorem satSub_le_satSub {a b : UInt64} (h : a ≤ b) (c : UInt64) : satSub a c ≤ satSub b c := by
  rw [UInt64.le_iff_toNat_le] at h ⊢
  rw [toNat_satSub, toNat_satSub]
  omega

theorem satMul_le_satMul {a b : UInt64} (h : a ≤ b) (c : UInt64) : satMul a c ≤ satMul b c := by
  rw [UInt64.le_iff_toNat_le] at h ⊢
  have hmul := Nat.mul_le_mul_right c.toNat h
  rw [toNat_satMul, toNat_satMul]
  omega

/-- What fits into the space that is left is added without overflow. -/
theorem toNat_add_of_le {a b c : UInt64} (h : b ≤ satSub c a) :
    (a + b).toNat = a.toNat + b.toNat := by
  rw [UInt64.le_iff_toNat_le, toNat_satSub] at h
  have ha := a.toNat_lt
  have hc := c.toNat_lt
  rw [UInt64.toNat_add, Nat.mod_eq_of_lt (by omega)]

end UInt64

namespace UInt32

/-- The largest word, `u32::MAX`. -/
def maxValue : UInt32 := 0xFFFFFFFF

/-- Saturating addition. -/
def satAdd (a b : UInt32) : UInt32 := .ofNat (min (a.toNat + b.toNat) maxValue.toNat)

/-- Saturating multiplication. -/
def satMul (a b : UInt32) : UInt32 := .ofNat (min (a.toNat * b.toNat) maxValue.toNat)

theorem toNat_maxValue : maxValue.toNat = 4294967295 := rfl

theorem toNat_ofNat_min (n : ℕ) : (UInt32.ofNat (min n maxValue.toNat)).toNat =
    min n maxValue.toNat := by
  rw [toNat_maxValue]
  exact UInt32.toNat_ofNat_of_lt' (by simp only [UInt32.size]; omega)

@[simp] theorem toNat_satAdd (a b : UInt32) :
    (satAdd a b).toNat = min (a.toNat + b.toNat) maxValue.toNat :=
  toNat_ofNat_min _

@[simp] theorem toNat_satMul (a b : UInt32) :
    (satMul a b).toNat = min (a.toNat * b.toNat) maxValue.toNat :=
  toNat_ofNat_min _

/-- Saturating subtraction. -/
def satSub (a b : UInt32) : UInt32 := .ofNat (a.toNat - b.toNat)

@[simp] theorem toNat_satSub (a b : UInt32) : (satSub a b).toNat = a.toNat - b.toNat := by
  have := a.toNat_lt
  exact UInt32.toNat_ofNat_of_lt' (by simp only [UInt32.size]; omega)

end UInt32
