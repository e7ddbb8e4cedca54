import Mathlib

/-!
# Binary64 arithmetic on natural numbers

Lean's `Float` is given by a model that rounds as IEEE 754 says, without lemmas about it. Those that
bound the product of a natural number and a float are proved here, for positive numbers that are not
subnormal:

* `nearestEven m n` is `m / 2 ^ n`, rounded to the nearest number and to the even one of two
  (`nearestEven_spec`);
* a number is rounded to 53 bits (`roundWithAccuracy_spec`), so that the part `2 ^ -53` of it is
  lost at most and no natural number is passed (`Rounds`);
* numbers with 53 bits are packed without loss (`unpack_pack`);
* natural numbers below `2 ^ 53` are converted exactly (`ofNat_spec`), and their products are
  rounded once (`mul_rounds`).
-/

namespace Binary64

open Float.Model Float.Model.UnpackedFloat

/-! ## Rounding a shifted number -/

/-- What the two residual bits of `em` say about a rest `r` of `u`. -/
structure Residual (em : ExtendedMantissa) (r u : ℕ) : Prop where
  round : em.roundBit ↔ u ≤ 2 * r
  sticky : em.stickyBit ↔ r ≠ 0 ∧ 2 * r ≠ u

/-- One more bit of the mantissa goes over to the rest. -/
theorem Residual.shiftRightOne {em : ExtendedMantissa} {r u : ℕ} (h : Residual em r u)
    (hr : r < u) : Residual em.shiftRightOne (r + u * (em.mantissa % 2)) (2 * u) := by
  have hround : em.shiftRightOne.roundBit ↔ em.mantissa % 2 ≠ 0 := by
    simp [ExtendedMantissa.shiftRightOne]
  have hsticky : em.shiftRightOne.stickyBit ↔ em.roundBit ∨ em.stickyBit := by
    simp [ExtendedMantissa.shiftRightOne]
  rcases Nat.mod_two_eq_zero_or_one em.mantissa with hbit | hbit
  · constructor
    · rw [hround, hbit]
      omega
    · rw [hsticky, h.round, h.sticky, hbit]
      omega
  · constructor
    · rw [hround, hbit]
      omega
    · rw [hsticky, h.round, h.sticky, hbit]
      omega

/-- The number `m` with no bits beyond its last one. -/
def plain (m : ℕ) : ExtendedMantissa := ⟨m, false, false⟩

theorem shiftRight_succ (em : ExtendedMantissa) (n : ℕ) :
    em >>> (n + 1) = (em >>> n).shiftRightOne :=
  rfl

/-- A shift divides the mantissa, and the residual bits tell what is needed of the rest. -/
theorem shiftRight_spec (m n : ℕ) :
    (plain m >>> n).mantissa = m / 2 ^ n ∧ Residual (plain m >>> n) (m % 2 ^ n) (2 ^ n) := by
  induction n with
  | zero =>
    rw [pow_zero, Nat.div_one, Nat.mod_one]
    have hzero : plain m >>> 0 = plain m := rfl
    rw [hzero]
    exact ⟨rfl, by simp [plain], by simp [plain]⟩
  | succ n ih =>
    obtain ⟨hm, hres⟩ := ih
    have hlt : m % 2 ^ n < 2 ^ n := Nat.mod_lt _ (by positivity)
    have hnext := hres.shiftRightOne hlt
    rw [shiftRight_succ]
    refine ⟨?_, ?_⟩
    · rw [ExtendedMantissa.shiftRightOne, hm, Nat.div_div_eq_div_mul, pow_succ]
    · rwa [hm, ← Nat.mod_pow_succ, ← pow_succ'] at hnext

/-- The rounded mantissa is next to the truncated one, on the side that the rest tells. -/
theorem Residual.roundedMantissa {em : ExtendedMantissa} {r u : ℕ} (h : Residual em r u) :
    em.mantissa ≤ em.roundedMantissa ∧ em.roundedMantissa ≤ em.mantissa + 1 ∧
      (2 * r < u → em.roundedMantissa = em.mantissa) ∧
      (u < 2 * r → em.roundedMantissa = em.mantissa + 1) := by
  obtain ⟨q, roundBit, stickyBit⟩ := em
  have hround := h.round
  have hsticky := h.sticky
  cases roundBit <;> cases stickyBit <;>
    simp [ExtendedMantissa.roundedMantissa, ExtendedMantissa.accuracy,
      Accuracy.roundToNearestEven] at hround hsticky ⊢ <;> omega

/-- The number `m / 2 ^ n`, rounded to nearest, ties to even. -/
def nearestEven (m n : ℕ) : ℕ := (plain m >>> n).roundedMantissa

section NearestEven

variable (m n : ℕ)

/-- The truncated number, next to the rounded one. -/
theorem nearestEven_spec :
    m / 2 ^ n ≤ nearestEven m n ∧ nearestEven m n ≤ m / 2 ^ n + 1 ∧
      (2 * (m % 2 ^ n) < 2 ^ n → nearestEven m n = m / 2 ^ n) ∧
      (2 ^ n < 2 * (m % 2 ^ n) → nearestEven m n = m / 2 ^ n + 1) := by
  obtain ⟨hm, hres⟩ := shiftRight_spec m n
  have hrounded := hres.roundedMantissa
  rwa [hm] at hrounded

theorem nearestEven_zero : nearestEven m 0 = m := by
  have h := (nearestEven_spec m 0).2.2.1
  simpa [Nat.mod_one] using h

/-- At most half a unit is lost. -/
theorem two_mul_le_nearestEven : 2 * m ≤ 2 * (2 ^ n * nearestEven m n) + 2 ^ n := by
  obtain ⟨hle, -, -, hup⟩ := nearestEven_spec m n
  have hdiv := Nat.div_add_mod m (2 ^ n)
  have hmul := Nat.mul_le_mul_left (2 ^ n) hle
  by_cases hhalf : 2 ^ n < 2 * (m % 2 ^ n)
  · have hlt : m % 2 ^ n < 2 ^ n := Nat.mod_lt _ (by positivity)
    rw [hup hhalf, Nat.mul_add]
    omega
  · omega

variable {m n}

/-- Nothing is rounded past a multiple of the unit. -/
theorem nearestEven_mul_le {b : ℕ} (hb : 2 ^ n ∣ b) (h : m ≤ b) : 2 ^ n * nearestEven m n ≤ b := by
  obtain ⟨k, rfl⟩ := hb
  obtain ⟨-, hle, hdown, -⟩ := nearestEven_spec m n
  refine Nat.mul_le_mul_left (2 ^ n) ?_
  rcases (Nat.zero_le (m % 2 ^ n)).eq_or_lt with hrest | hrest
  · rw [hdown (by rw [← hrest]; positivity)]
    exact Nat.div_le_of_le_mul h
  · refine hle.trans (Nat.lt_of_mul_lt_mul_left (a := 2 ^ n) ?_)
    have hdiv := Nat.div_add_mod m (2 ^ n)
    omega

end NearestEven

/-! ## Rounding a positive float -/

/-- The number that a finite float stands for; zero for the others. -/
def value : UnpackedFloat → ℚ
  | .finite s m e _ => s.apply m * 2 ^ e
  | _ => 0

theorem value_positive {m : ℕ} {e : ℤ} (h : 0 < m) :
    value (.finite .positive m e h) = m * 2 ^ e := by
  simp [value, Sign.apply]

/-- The last bits that do not fit, when the exponent is not small. -/
theorem shiftToTargetExponent_exact (m : ℕ) {e : ℤ} (he : -1000 ≤ e) :
    shiftToTargetExponent .binary64 m e .exact =
      (plain m >>> (m.log2 - 52), e + (m.log2 - 52 : ℕ)) := by
  have hshift :
      (Format.binary64.targetExponent (totalExponent m e) - e).toNat = m.log2 - 52 := by
    simp only [Format.targetExponent, totalExponent, Format.mantissaBits, Format.minExponent]
    norm_num
    omega
  simp only [shiftToTargetExponent, shiftToExponent, hshift]
  rfl

theorem nearestEven_pos {m : ℕ} (hm : 0 < m) : 0 < nearestEven m (m.log2 - 52) := by
  have hle : 2 ^ (m.log2 - 52) ≤ m :=
    (Nat.pow_le_pow_right (by decide) (Nat.sub_le _ _)).trans (Nat.log2_self_le hm.ne')
  exact (Nat.div_pos hle (by positivity)).trans_le (nearestEven_spec m _).1

theorem nearestEven_le {m : ℕ} : nearestEven m (m.log2 - 52) ≤ 2 ^ 53 := by
  have hlt : m < 2 ^ (m.log2 - 52) * 2 ^ 53 := by
    rw [← pow_add]
    exact Nat.lt_log2_self.trans_le (Nat.pow_le_pow_right (by decide) (by omega))
  have hdiv : m / 2 ^ (m.log2 - 52) < 2 ^ 53 := Nat.div_lt_of_lt_mul hlt
  exact (nearestEven_spec m _).2.1.trans hdiv

theorem le_nearestEven {m : ℕ} (hm : 0 < m) (hlog : 52 ≤ m.log2) :
    2 ^ 52 ≤ nearestEven m (m.log2 - 52) := by
  refine le_trans ?_ (nearestEven_spec m _).1
  rw [Nat.le_div_iff_mul_le (by positivity), ← pow_add, show 52 + (m.log2 - 52) = m.log2 by omega]
  exact Nat.log2_self_le hm.ne'

/-- **Rounding.** The mantissa is rounded to 53 bits, and has them all if it had them. -/
theorem roundWithAccuracy_spec {m : ℕ} {e : ℤ} (hm : 0 < m) (he : -1000 ≤ e) :
    ∃ m' e' h, roundWithAccuracy .binary64 .positive m e .exact = .finite .positive m' e' h ∧
      (m' * 2 ^ e' : ℚ) = 2 ^ (m.log2 - 52) * nearestEven m (m.log2 - 52) * 2 ^ e ∧
      (52 ≤ m.log2 → m'.log2 = 52 ∧ e ≤ e' ∧ e' ≤ e + m.log2) := by
  set n := m.log2 - 52 with hn
  set r := nearestEven m n with hr
  have hpos : 0 < r := nearestEven_pos hm
  have hround : (plain m >>> n).roundedMantissa = r := rfl
  -- the rounded mantissa fits, or it is the next power of two
  rcases (nearestEven_le (m := m)).lt_or_eq with hlt | heq
  · have hlog : r.log2 < 53 := (Nat.log2_lt hpos.ne').2 hlt
    have hne : (plain r).mantissa ≠ 0 := hpos.ne'
    have hkeep : plain r >>> (r.log2 - 52) = plain r := by
      rw [show r.log2 - 52 = 0 by omega]
      rfl
    refine ⟨r, e + n, hpos, ?_, ?_, fun hlarge => ⟨?_, by omega, by omega⟩⟩
    · simp only [roundWithAccuracy, shiftToTargetExponent_exact m he, ← hn, hround,
        shiftToTargetExponent_exact r (e := e + n) (by omega), hkeep, dif_neg hne]
      simp [plain, show r.log2 - 52 = 0 by omega]
    · rw [zpow_add₀ two_ne_zero, zpow_natCast]
      ring
    · have hge := (Nat.le_log2 hpos.ne').2 (le_nearestEven hm hlarge)
      omega
  · have hpow : r = 2 ^ 53 := heq
    have hlog : r.log2 - 52 = 1 := by
      rw [hpow, Nat.log2_two_pow]
    have hhalf : (plain r >>> 1).mantissa = 2 ^ 52 := by
      rw [(shiftRight_spec r 1).1, hpow]
      norm_num
    refine ⟨2 ^ 52, e + n + 1, by positivity, ?_, ?_, fun hlarge => ⟨Nat.log2_two_pow, ?_, ?_⟩⟩
    · simp only [roundWithAccuracy, shiftToTargetExponent_exact m he, ← hn, hround,
        shiftToTargetExponent_exact r (e := e + n) (by omega), hlog, hhalf]
      rfl
    · rw [zpow_add₀ two_ne_zero, zpow_add₀ two_ne_zero, zpow_natCast, hpow]
      push_cast
      ring
    · omega
    · omega

/-- The float `u` is what the number `x` is rounded to: it is finite, at most the part `2 ^ -53` of
`x` is lost, and a natural number is not passed. -/
structure Rounds (x : ℚ) (u : UnpackedFloat) : Prop where
  isFinite : u.isFinite
  lower : x - x / 2 ^ 53 ≤ value u
  upper : ∀ k : ℕ, k < 2 ^ 53 → x ≤ k → value u ≤ k

theorem roundWithAccuracy_rounds {m : ℕ} {e : ℤ} (hm : 0 < m) (he : -1000 ≤ e) :
    Rounds (m * 2 ^ e) (roundWithAccuracy .binary64 .positive m e .exact) := by
  obtain ⟨m', e', h, hround, hvalue, -⟩ := roundWithAccuracy_spec hm he
  have hpow : (0 : ℚ) < 2 ^ e := by positivity
  rw [hround]
  by_cases hfits : m.log2 - 52 = 0
  · -- the mantissa fits, and is kept
    have hsame : (m' * 2 ^ e' : ℚ) = m * 2 ^ e := by
      rw [hvalue, hfits, nearestEven_zero, pow_zero, one_mul]
    have hnonneg : (0 : ℚ) ≤ m * 2 ^ e / 2 ^ 53 := by positivity
    refine ⟨rfl, ?_, fun k _ hx => ?_⟩
    · rw [value_positive, hsame]
      linarith
    · rw [value_positive, hsame]
      exact hx
  have hunit : 2 ^ (m.log2 - 52) * 2 ^ 52 ≤ m := by
    rw [← pow_add, show m.log2 - 52 + 52 = m.log2 by omega]
    exact Nat.log2_self_le hm.ne'
  generalize hn : m.log2 - 52 = n at hfits hvalue hunit
  have hunit' : (2 ^ n * 2 ^ 52 : ℚ) ≤ m := by exact_mod_cast hunit
  refine ⟨rfl, ?_, fun k hk hx => ?_⟩
  · have hlost : (2 * m : ℚ) ≤ 2 * (2 ^ n * nearestEven m n) + 2 ^ n := by
      exact_mod_cast two_mul_le_nearestEven m n
    have hlower : (m - m / 2 ^ 53 : ℚ) ≤ 2 ^ n * nearestEven m n := by linarith
    rw [value_positive, hvalue]
    calc (m * 2 ^ e - m * 2 ^ e / 2 ^ 53 : ℚ) = (m - m / 2 ^ 53) * 2 ^ e := by ring
      _ ≤ 2 ^ n * nearestEven m n * 2 ^ e := mul_le_mul_of_nonneg_right hlower hpow.le
  · -- the unit is no greater than one, and divides the natural number
    have hexp : e + n ≤ 0 := by
      by_contra hlt
      have hone : (2 : ℚ) ^ (53 : ℤ) ≤ 2 ^ (n + 52 + e : ℤ) :=
        zpow_le_zpow_right₀ one_le_two (by omega)
      have hle : (2 : ℚ) ^ (n + 52 + e : ℤ) ≤ k := by
        rw [zpow_add₀ two_ne_zero, zpow_add₀ two_ne_zero, zpow_natCast]
        exact (mul_le_mul_of_nonneg_right (by exact_mod_cast hunit) hpow.le).trans hx
      have hk' : (k : ℚ) < 2 ^ 53 := by exact_mod_cast hk
      exact absurd (hone.trans hle) (not_le.2 (by exact_mod_cast hk'))
    obtain ⟨f, hf⟩ := Int.eq_ofNat_of_zero_le (show 0 ≤ -e by omega)
    have he' : e = -(f : ℤ) := by omega
    rw [he', zpow_neg, zpow_natCast, ← div_eq_mul_inv, div_le_iff₀ (by positivity)] at hx
    have hdvd : 2 ^ n ∣ k * 2 ^ f := (Nat.pow_dvd_pow 2 (by omega)).mul_left k
    have hle : 2 ^ n * nearestEven m n ≤ k * 2 ^ f :=
      nearestEven_mul_le hdvd (by exact_mod_cast hx)
    rw [value_positive, hvalue, he', zpow_neg, zpow_natCast, ← div_eq_mul_inv,
      div_le_iff₀ (by positivity)]
    exact_mod_cast hle

/-! ## Packing -/

/-- A number with 53 bits and an exponent in range is packed without loss. -/
theorem unpack_pack {m : ℕ} {e : ℤ} (h : 0 < m) (hlog : m.log2 = 52) (he : -1000 ≤ e)
    (he' : e ≤ 900) :
    (Float.Model.pack (.finite .positive m e h)).unpack = .finite .positive m e h := by
  change UnpackedFloat.unpack .binary64 (UnpackedFloat.pack .binary64 _) = _
  obtain ⟨k, hk⟩ := Int.eq_ofNat_of_zero_le (show 0 ≤ e + 1075 by omega)
  have hexp : (e + (Format.binary64.exponentBias : ℤ) + (52 : ℕ)).toNat = k := by
    simp only [Format.exponentBias]
    norm_num
    omega
  have hpack : UnpackedFloat.pack .binary64 (.finite .positive m e h) =
      packComponents .binary64 .positive (BitVec.ofNat 11 k) (BitVec.ofNat 52 m) := by
    simp only [UnpackedFloat.pack, hlog, hexp, Format.mantissaBits]
    rw [if_neg (by norm_num; omega), if_pos trivial]
  have hmant : (1#1 ++ BitVec.ofNat 52 m).toNat = m := by
    have hlow : 2 ^ 52 ≤ m := hlog ▸ Nat.log2_self_le h.ne'
    have hhigh : m < 2 ^ 53 := (Nat.log2_lt h.ne').1 (by omega)
    rw [BitVec.toNat_append, BitVec.toNat_ofNat, ← Nat.shiftLeft_add_eq_or_of_lt (by omega)]
    simp
    omega
  have hnat : (BitVec.ofNat 11 k).toNat = k := by
    rw [BitVec.toNat_ofNat, Nat.mod_eq_of_lt]
    omega
  have hlast : BitVec.ofNat 11 k ≠ -1#11 := fun heq => by
    have := congrArg BitVec.toNat heq
    simp at this
    omega
  have hfirst : BitVec.ofNat 11 k ≠ 0#11 := fun heq => by
    have := congrArg BitVec.toNat heq
    simp at this
    omega
  rw [hpack]
  simp only [UnpackedFloat.unpack, unpackMantissa_packComponents, unpackExponent_packComponents,
    unpackSign_packComponents, hmant, hnat]
  rw [if_neg hlast, if_neg hfirst]
  congr 1
  simp only [Format.exponentBias]
  norm_num
  omega

theorem unpack_pack_zero : (Float.Model.pack (.zero .positive)).unpack = .zero .positive := by
  rfl

/-! ## Conversions and products -/

/-- Positive numbers of at most 53 bits are converted exactly, to a mantissa of 53 bits. -/
theorem ofNat_spec {n : ℕ} (hn : 0 < n) (hlt : n < 2 ^ 53) :
    ∃ m e h, UnpackedFloat.ofNat .binary64 n = .finite .positive m e h ∧ m.log2 = 52 ∧
    -52 ≤ e ∧ e ≤ 52 ∧
      (m * 2 ^ e : ℚ) = n := by
  have hlog : n.log2 ≤ 52 := by
    have := (Nat.log2_lt hn.ne').2 hlt
    omega
  have hgt : compare (n : ℤ) 0 = .gt := by
    rw [Int.compare_eq_gt]
    omega
  have hshift : (0 - Format.binary64.targetExponent (totalExponent n 0)).toNat = 52 - n.log2 := by
    simp only [Format.targetExponent, totalExponent, Format.mantissaBits, Format.minExponent]
    norm_num
    omega
  have hmant : 0 < n <<< (52 - n.log2) := by
    rw [Nat.shiftLeft_eq]
    positivity
  have hbits : (n <<< (52 - n.log2)).log2 = 52 := by
    rw [Nat.log2_eq_iff hmant.ne', Nat.shiftLeft_eq]
    have hlow := Nat.mul_le_mul_right (2 ^ (52 - n.log2)) (Nat.log2_self_le hn.ne')
    have hhigh := Nat.mul_lt_mul_of_pos_right (Nat.lt_log2_self (n := n))
      (show 0 < 2 ^ (52 - n.log2) by positivity)
    rw [← pow_add, show n.log2 + (52 - n.log2) = 52 by omega] at hlow
    rw [← pow_add, show n.log2 + 1 + (52 - n.log2) = 53 by omega] at hhigh
    exact ⟨hlow, hhigh⟩
  obtain ⟨m, e, h, hround, hvalue, hnormal⟩ :=
    roundWithAccuracy_spec hmant (e := 0 - (52 - n.log2 : ℕ)) (by omega)
  obtain ⟨hm, he, he'⟩ := hnormal (by omega)
  have hexact : (m * 2 ^ e : ℚ) = n := by
    rw [hvalue, hbits, nearestEven_zero, Nat.shiftLeft_eq, zero_sub, zpow_neg, zpow_natCast]
    push_cast
    field_simp
  refine ⟨m, e, h, ?_, hm, by omega, by omega, hexact⟩
  simp only [UnpackedFloat.ofNat, UnpackedFloat.ofInt, UnpackedFloat.normalize, hgt,
    UnpackedFloat.round, decreaseExponent, Int.toNat_natCast, hshift]
  exact hround

theorem unpack_toFloat (n : UInt64) :
    n.toFloat.toModel.unpack = (Float.Model.pack (UnpackedFloat.ofNat .binary64 n.toNat)).unpack :=
  rfl

theorem unpack_mul (x y : Float) : (x * y).toModel.unpack =
    (Float.Model.pack (UnpackedFloat.mul .binary64 x.toModel.unpack y.toModel.unpack)).unpack :=
  rfl

/-- **Products.** A number of at most 53 bits times a float is rounded once. -/
theorem mul_rounds {n : UInt64} {q : Float} {c : ℕ} {f : ℤ} (hn : n.toNat < 2 ^ 53) (hc : 0 < c)
    (hq : q.toModel.unpack = .finite .positive c f hc) (hlog : c.log2 = 52) (hf : -900 ≤ f)
    (hf' : f ≤ 700) : Rounds (n.toNat * (c * 2 ^ f)) (n.toFloat * q).toModel.unpack := by
  rw [unpack_mul, unpack_toFloat, hq]
  rcases n.toNat.eq_zero_or_pos with hzero | hpos
  · have hmul : UnpackedFloat.mul .binary64 (.zero .positive) (.finite .positive c f hc) =
        .zero .positive := rfl
    rw [hzero, show UnpackedFloat.ofNat .binary64 0 = .zero .positive from rfl,
      unpack_pack_zero, hmul, unpack_pack_zero]
    exact ⟨rfl, by simp [value], fun k _ _ => by simp [value]⟩
  obtain ⟨m, e, h, hof, hm, he, he', hvalue⟩ := ofNat_spec hpos hn
  rw [hof, unpack_pack h hm (by omega) (by omega)]
  have hprod : 0 < m * c := Nat.mul_pos h hc
  have hlow := Nat.mul_le_mul (Nat.log2_self_le h.ne') (Nat.log2_self_le hc.ne')
  have hhigh := Nat.mul_lt_mul'' (Nat.lt_log2_self (n := m)) (Nat.lt_log2_self (n := c))
  rw [hm, hlog, ← pow_add] at hlow hhigh
  have hlog' : m * c < 2 ^ 106 := hhigh
  have hbits := (Nat.le_log2 hprod.ne').2 hlow
  have hbits' := (Nat.log2_lt hprod.ne').2 hlog'
  have hrounds := roundWithAccuracy_rounds hprod (e := e + f) (by omega)
  obtain ⟨m', e'', h', hround, -, hnormal⟩ := roundWithAccuracy_spec hprod (e := e + f) (by omega)
  obtain ⟨hm', he₁, he₂⟩ := hnormal (by omega)
  have hmul : UnpackedFloat.mul .binary64 (.finite .positive m e h) (.finite .positive c f hc) =
      .finite .positive m' e'' h' := hround
  have hx : ((m * c : ℕ) * 2 ^ (e + f) : ℚ) = n.toNat * (c * 2 ^ f) := by
    rw [← hvalue, zpow_add₀ two_ne_zero]
    push_cast
    ring
  rw [hmul, unpack_pack h' hm' (by omega) (by omega), ← hx, ← hround]
  exact hrounds

end Binary64
