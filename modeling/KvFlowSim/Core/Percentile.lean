import KvFlowSim.Error
import KvFlowSim.Foundations.Binary64
import KvFlowSim.Foundations.Rank

/-!
# Percentiles

The statistics of a trace and of its latencies sort their values and pick the percentiles at indices
that are computed in floating-point numbers. The products are rounded, and the constants are not
what they are written as. The indices are the exact ones all the same (`percentileIdx_eq`), so each
percentile has the rank that it ought to have (`exists_ranked`).
-/

namespace KvFlowSim

open Float.Model Float.Model.UnpackedFloat Binary64

variable {α : Type}

/-- `x.ceil() as usize`, which saturates. -/
def ceilUsize : UnpackedFloat → ℕ
  | .notANumber => 0
  | .infinity .negative => 0
  | .infinity .positive => 2 ^ 64 - 1
  | x => min ⌈value x⌉₊ (2 ^ 64 - 1)

/-- `(last as f64 * q).ceil() as usize`. -/
def percentileIdx (last : ℕ) (q : Float) : ℕ :=
  ceilUsize ((UInt64.ofNat last).toFloat * q).toModel.unpack

/-- The element at an index of a slice. -/
def elementAt (values : List α) (idx : ℕ) : Except Panic α :=
  match values[idx]? with
  | none => .error .indexOutOfBounds
  | some v => .ok v

/-- `percentile` of `serving/metrics.rs` and of `trace/stats.rs`, which differ in the type of
the values. -/
def percentile (sortedValues : List α) (q : Float) : Except Panic α :=
  elementAt sortedValues
    (min (percentileIdx (sortedValues.length - 1) q) (sortedValues.length - 1))

/-! ## The indices -/

/-- The number `n * p / 100`, rounded up. -/
def percentOf (p n : ℕ) : ℕ := (n * p + 99) / 100

theorem percentOf_mono {p p' : ℕ} (h : p ≤ p') (n : ℕ) : percentOf p n ≤ percentOf p' n :=
  Nat.div_le_div_right (Nat.add_le_add_right (Nat.mul_le_mul_left n h) 99)

theorem percentOf_le {p : ℕ} (h : p ≤ 100) (n : ℕ) : percentOf p n ≤ n := by
  have hle := Nat.mul_le_mul_left n h
  rw [percentOf]
  omega

/-- The float `q` is what `p / 100` is rounded to, or a little less. -/
structure Percent (p : ℕ) (q : Float) : Prop where
  le : p ≤ 100
  unpack : ∃ c, ∃ h : 0 < c, q.toModel.unpack = .finite .positive c (-53) h ∧ c.log2 = 52 ∧
    100 * c ≤ p * 2 ^ 53 ∧ p * 2 ^ 53 ≤ 100 * c + 50

theorem percent_50 : Percent 50 0.50 :=
  ⟨by simp, 4503599627370496, by simp, by rfl, by simp [Nat.log2_eq_iff], by simp, by simp⟩

theorem percent_95 : Percent 95 0.95 :=
  ⟨by simp, 8556839292003942, by simp, by rfl, by simp [Nat.log2_eq_iff], by simp, by simp⟩

theorem percent_99 : Percent 99 0.99 :=
  ⟨by simp, 8917127262193582, by simp, by rfl, by simp [Nat.log2_eq_iff], by simp, by simp⟩

theorem ceilUsize_of_isFinite {u : UnpackedFloat} (h : u.isFinite) :
    ceilUsize u = min ⌈value u⌉₊ (2 ^ 64 - 1) := by
  cases u with
  | notANumber => cases h
  | infinity sign => cases h
  | zero sign => rfl
  | finite sign m e hm => rfl

/-- A number that lies a little below `n * p / 100` is rounded up alike. -/
theorem ceil_eq_percentOf {p n c : ℕ} {y : ℚ} (hn : n < 2 ^ 45) (hp : p ≤ 100)
    (hle : 100 * c ≤ p * 2 ^ 53) (hge : p * 2 ^ 53 ≤ 100 * c + 50)
    (hlower : (n * (c / 2 ^ 53) - n * (c / 2 ^ 53) / 2 ^ 53 : ℚ) ≤ y)
    (hupper : ∀ k : ℕ, k < 2 ^ 53 → (n * (c / 2 ^ 53) : ℚ) ≤ k → y ≤ k) : ⌈y⌉₊ = percentOf p n := by
  have hle' : (100 * c : ℚ) ≤ p * 2 ^ 53 := by exact_mod_cast hle
  have hge' : (p * 2 ^ 53 : ℚ) ≤ 100 * c + 50 := by exact_mod_cast hge
  have hn' : (n : ℚ) < 2 ^ 45 := by exact_mod_cast hn
  have hnonneg : (0 : ℚ) ≤ n := Nat.cast_nonneg n
  have hdiv : n * p ≤ 100 * percentOf p n ∧ 100 * percentOf p n < n * p + 100 := by
    rw [percentOf]
    omega
  have hsmall := percentOf_le hp n
  generalize percentOf p n = k at hdiv hsmall
  have hk : (n * p : ℚ) ≤ 100 * k := by exact_mod_cast hdiv.1
  have hx : (n * (c / 2 ^ 53) : ℚ) ≤ k := by
    have hmul := mul_le_mul_of_nonneg_left hle' hnonneg
    rw [← mul_div_assoc, div_le_iff₀ (by positivity)]
    linarith
  have hy : y ≤ k := hupper k (by omega) hx
  rcases k.eq_zero_or_pos with rfl | hpos
  · exact Nat.ceil_eq_zero.2 (by exact_mod_cast hy)
  refine (Nat.ceil_eq_iff hpos.ne').2 ⟨?_, hy⟩
  have hk' : (100 * k + 1 : ℚ) ≤ n * p + 100 := by exact_mod_cast hdiv.2
  rw [Nat.cast_sub hpos, Nat.cast_one]
  have hmul := mul_le_mul_of_nonneg_left hge' hnonneg
  have hfar : (n * p : ℚ) ≤ 100 * (n * (c / 2 ^ 53)) + 50 * n / 2 ^ 53 := by
    have hsame : (100 * (n * (c / 2 ^ 53)) + 50 * n / 2 ^ 53 : ℚ) =
        n * (100 * c + 50) / 2 ^ 53 := by
      ring
    rw [hsame, le_div_iff₀ (by positivity)]
    linarith
  have hnear : (k : ℚ) ≤ n := by exact_mod_cast hsmall
  linarith

/-- The float computation finds the index that is asked for. -/
theorem percentileIdx_eq {p n : ℕ} {q : Float} (hq : Percent p q) (hn : n < 2 ^ 45) :
    percentileIdx n q = percentOf p n := by
  obtain ⟨hp, c, hc, hunpack, hlog, hle, hge⟩ := hq
  have hnat : (UInt64.ofNat n).toNat = n := UInt64.toNat_ofNat_of_lt' (hn.trans (by norm_num))
  have hrounds : Rounds _ ((UInt64.ofNat n).toFloat * q).toModel.unpack :=
    mul_rounds (by omega) hc hunpack hlog (by norm_num) (by norm_num)
  have hpow : (2 : ℚ) ^ (-53 : ℤ) = 1 / 2 ^ 53 := by norm_num
  rw [hnat, hpow, mul_one_div] at hrounds
  have hceil := ceil_eq_percentOf hn hp hle hge hrounds.lower hrounds.upper
  have hsmall := percentOf_le hp n
  rw [percentileIdx, ceilUsize_of_isFinite hrounds.isFinite, hceil]
  omega

/-! ## The values at the indices -/

variable [LinearOrder α] {values : List α} {least greatest p50 p95 p99 : α}

/-- The least and the greatest value, and the values of the ranks that belong to the percentages. -/
structure Ranked (values : List α) (least greatest p50 p95 p99 : α) : Prop where
  least : values.HasRank 0 least
  greatest : values.HasRank (values.length - 1) greatest
  p50 : values.HasRank (percentOf 50 (values.length - 1)) p50
  p95 : values.HasRank (percentOf 95 (values.length - 1)) p95
  p99 : values.HasRank (percentOf 99 (values.length - 1)) p99

namespace Ranked

/-- They stand in order. -/
theorem ordered (h : Ranked values least greatest p50 p95 p99) :
    least ≤ p50 ∧ p50 ≤ p95 ∧ p95 ≤ p99 ∧ p99 ≤ greatest :=
  ⟨h.least.mono h.p50 (Nat.zero_le _), h.p50.mono h.p95 (percentOf_mono (by simp) _),
    h.p95.mono h.p99 (percentOf_mono (by simp) _), h.p99.mono h.greatest (percentOf_le (by simp) _)⟩

/-- The first and the last of them bound all values. -/
theorem bounds (h : Ranked values least greatest p50 p95 p99) {v : α} (hv : v ∈ values) :
    least ≤ v ∧ v ≤ greatest :=
  ⟨h.least.le_of_mem hv, h.greatest.ge_of_mem hv⟩

end Ranked

/-- An element of the sorted values, at an index that is in range. -/
theorem elementAt_sortByKey {k : ℕ} (hk : k < values.length) :
    ∃ v, elementAt (values.sortByKey id) k = .ok v ∧ values.HasRank k v := by
  have hlt : k < (values.sortByKey id).length := by rwa [(List.sortByKey_perm id values).length_eq]
  exact ⟨_, by rw [elementAt, List.getElem?_eq_getElem hlt], List.hasRank_sortByKey hlt⟩

theorem percentile_sortByKey {p : ℕ} {q : Float} (hq : Percent p q) (hne : values ≠ [])
    (hlength : values.length ≤ 2 ^ 45) : ∃ v, percentile (values.sortByKey id) q = .ok v ∧
      values.HasRank (percentOf p (values.length - 1)) v := by
  have hpos := List.length_pos_iff.2 hne
  have hle := percentOf_le hq.le (values.length - 1)
  rw [percentile, (List.sortByKey_perm id values).length_eq, percentileIdx_eq hq (by omega),
    min_eq_left hle]
  exact elementAt_sortByKey (by omega)

/-- **What is picked.** The statistics of up to `2 ^ 45` values are found, and have their ranks. -/
theorem exists_ranked (hne : values ≠ []) (hlength : values.length ≤ 2 ^ 45) :
    ∃ least greatest p50 p95 p99, elementAt (values.sortByKey id) 0 = .ok least ∧
      (values.sortByKey id).getLast? = some greatest ∧
      percentile (values.sortByKey id) 0.50 = .ok p50 ∧
      percentile (values.sortByKey id) 0.95 = .ok p95 ∧
      percentile (values.sortByKey id) 0.99 = .ok p99 ∧
      Ranked values least greatest p50 p95 p99 := by
  have hpos := List.length_pos_iff.2 hne
  obtain ⟨least, hleast, hleast'⟩ := elementAt_sortByKey hpos
  have hlast : values.length - 1 < values.length := by omega
  obtain ⟨greatest, hgreatest, hgreatest'⟩ := elementAt_sortByKey hlast
  obtain ⟨p50, h50, h50'⟩ := percentile_sortByKey percent_50 hne hlength
  obtain ⟨p95, h95, h95'⟩ := percentile_sortByKey percent_95 hne hlength
  obtain ⟨p99, h99, h99'⟩ := percentile_sortByKey percent_99 hne hlength
  refine ⟨least, greatest, p50, p95, p99, hleast, ?_, h50, h95, h99, hleast',
    hgreatest', h50', h95',
    h99'⟩
  rw [List.getLast?_eq_getElem?, (List.sortByKey_perm id values).length_eq]
  rw [elementAt] at hgreatest
  split at hgreatest
  next => cases hgreatest
  next v hv => rw [hv, Except.ok.inj hgreatest]

end KvFlowSim
