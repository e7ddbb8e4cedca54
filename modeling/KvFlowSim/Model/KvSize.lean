import KvFlowSim.Foundations.EventLoop
import KvFlowSim.Model.Compute

/-!
# KV sizes

`kv_bytes` saturates in the number of tokens, while `kv_bytes_per_token` multiplies five factors of
up to 32 bits without a check. The sizes are exact if and only if that product fits the word
(`sizesExact_iff`); `validate` does not see to it.
-/

namespace KvFlowSim

namespace ModelProfile

/-- The size of the KV of one token, over the natural numbers. -/
def perToken (p : ModelProfile) : ℕ :=
  2 * p.numLayers.toNat * p.numKvHeads.toNat * p.headDim.toNat * p.bytesPerElem.toNat

/-- The multiplications of `kv_bytes_per_token`, from left to right. -/
def products (p : ModelProfile) : List (UInt64 × UInt64) :=
  [(2, p.numLayers.toUInt64), (2 * p.numLayers.toUInt64, p.numKvHeads.toUInt64),
    (2 * p.numLayers.toUInt64 * p.numKvHeads.toUInt64, p.headDim.toUInt64),
    (2 * p.numLayers.toUInt64 * p.numKvHeads.toUInt64 * p.headDim.toUInt64,
      p.bytesPerElem.toUInt64)]

/-- No shape field of `p` exceeds that of `q`. -/
structure Within (p q : ModelProfile) : Prop where
  numLayers : p.numLayers ≤ q.numLayers
  numKvHeads : p.numKvHeads ≤ q.numKvHeads
  headDim : p.headDim ≤ q.headDim
  bytesPerElem : p.bytesPerElem ≤ q.bytesPerElem

/-- The sizes of a profile do not wrap: they are the products over the natural numbers, cut off at
the end of the range, no multiplication overflows on the way, and they grow with the tokens and with
every shape field. -/
structure SizesExact (p : ModelProfile) : Prop where
  kvBytes : ∀ tokens, (p.kvBytes tokens).toNat =
    min (p.perToken * tokens.toNat) UInt64.maxValue.toNat
  exact : ∀ m ∈ p.products, m.1.toNat * m.2.toNat < UInt64.size
  tokens : ∀ t t', t ≤ t' → p.kvBytes t ≤ p.kvBytes t'
  shape : ∀ q : ModelProfile, q.validate = .ok () → q.Within p →
    ∀ tokens, q.kvBytes tokens ≤ p.kvBytes tokens

variable {p q : ModelProfile}

theorem toNat_kvBytesPerToken (p : ModelProfile) :
    p.kvBytesPerToken.toNat = p.perToken % UInt64.size := by
  simp only [kvBytesPerToken, perToken, UInt64.toNat_mul, UInt32.toNat_toUInt64, UInt64.size,
    Nat.mod_mul_mod]
  rfl

/-- A valid profile has positive shape fields. -/
theorem pos_of_validate (h : p.validate = .ok ()) :
    0 < p.numLayers.toNat ∧ 0 < p.numKvHeads.toNat ∧ 0 < p.headDim.toNat ∧
      0 < p.bytesPerElem.toNat := by
  have hpos : ∀ {x : UInt32}, x ≠ 0 → 0 < x.toNat := fun hx =>
    Nat.pos_of_ne_zero fun h0 => hx (UInt32.toNat_inj.1 h0)
  unfold validate at h
  split_ifs at h with hempty hzero
  simp only [not_or] at hzero
  exact ⟨hpos hzero.1, hpos hzero.2.1, hpos hzero.2.2.1, hpos hzero.2.2.2⟩

theorem Within.perToken_le (h : p.Within q) : p.perToken ≤ q.perToken := by
  have h₁ := UInt32.le_iff_toNat_le.1 h.numLayers
  have h₂ := UInt32.le_iff_toNat_le.1 h.numKvHeads
  have h₃ := UInt32.le_iff_toNat_le.1 h.headDim
  have h₄ := UInt32.le_iff_toNat_le.1 h.bytesPerElem
  exact Nat.mul_le_mul (Nat.mul_le_mul (Nat.mul_le_mul (Nat.mul_le_mul_left 2 h₁) h₂) h₃) h₄

/-- The size per token, if it fits the word. -/
theorem toNat_kvBytes (h : p.perToken < UInt64.size) (tokens : UInt32) :
    (p.kvBytes tokens).toNat = min (p.perToken * tokens.toNat) UInt64.maxValue.toNat := by
  rw [kvBytes, UInt64.toNat_satMul, toNat_kvBytesPerToken, Nat.mod_eq_of_lt h,
    UInt32.toNat_toUInt64]

theorem exact_products (hvalid : p.validate = .ok ()) (h : p.perToken < UInt64.size) :
    ∀ m ∈ p.products, m.1.toNat * m.2.toNat < UInt64.size := by
  obtain ⟨-, hheads, hdim, hbytes⟩ := pos_of_validate hvalid
  -- a factor that follows is positive, so every product on the way is at most the last one
  have h₃ : 2 * p.numLayers.toNat * p.numKvHeads.toNat * p.headDim.toNat < UInt64.size :=
    (Nat.le_mul_of_pos_right _ hbytes).trans_lt h
  have h₂ : 2 * p.numLayers.toNat * p.numKvHeads.toNat < UInt64.size :=
    (Nat.le_mul_of_pos_right _ hdim).trans_lt h₃
  have h₁ : 2 * p.numLayers.toNat < UInt64.size := (Nat.le_mul_of_pos_right _ hheads).trans_lt h₂
  have hmul : ∀ {x y : UInt64} {a b : ℕ}, x.toNat = a → y.toNat = b → a * b < UInt64.size →
      (x * y).toNat = a * b := by
    rintro x y _ _ rfl rfl hlt
    rw [UInt64.toNat_mul]
    exact Nat.mod_eq_of_lt hlt
  have e₁ := hmul (x := 2) (y := p.numLayers.toUInt64) rfl rfl h₁
  have e₂ := hmul (y := p.numKvHeads.toUInt64) e₁ rfl h₂
  have e₃ := hmul (y := p.headDim.toUInt64) e₂ rfl h₃
  intro m hm
  simp only [products, List.mem_cons, List.not_mem_nil, or_false] at hm
  obtain rfl | rfl | rfl | rfl := hm
  · exact h₁
  · exact e₁ ▸ h₂
  · exact e₂ ▸ h₃
  · exact e₃ ▸ h

theorem kvBytes_mono (p : ModelProfile) {t t' : UInt32} (h : t ≤ t') :
    p.kvBytes t ≤ p.kvBytes t' := by
  have hmul := Nat.mul_le_mul_left p.kvBytesPerToken.toNat (UInt32.le_iff_toNat_le.1 h)
  rw [UInt64.le_iff_toNat_le, kvBytes, kvBytes, UInt64.toNat_satMul, UInt64.toNat_satMul,
    UInt32.toNat_toUInt64, UInt32.toNat_toUInt64]
  omega

/-- The sizes determine whether the product has wrapped: it is even, and the last word is odd. -/
theorem perToken_lt (h : (p.kvBytes 1).toNat = min (p.perToken * 1) UInt64.maxValue.toNat) :
    p.perToken < UInt64.size := by
  have heven : p.perToken =
      2 * (p.numLayers.toNat * p.numKvHeads.toNat * p.headDim.toNat * p.bytesPerElem.toNat) := by
    simp only [perToken, Nat.mul_assoc]
  have hone : (1 : UInt32).toUInt64.toNat = 1 := rfl
  rw [kvBytes, UInt64.toNat_satMul, toNat_kvBytesPerToken, hone, UInt64.toNat_maxValue,
    UInt64.size] at h
  rw [UInt64.size]
  omega

/-- **Sizes are exact if and only if the size of one token fits the word.** -/
theorem sizesExact_iff (modelId : String)
    (numLayers numKvHeads headDim bytesPerElem maxContextTokens : UInt32) (p : ModelProfile)
    (hnew : new modelId numLayers numKvHeads headDim bytesPerElem maxContextTokens = .ok p) :
    p.SizesExact ↔ p.perToken < UInt64.size := by
  obtain ⟨⟨⟩, hvalid, hp⟩ := Except.bind_eq_ok.1 hnew
  obtain rfl := Except.ok.inj hp
  refine ⟨fun h => perToken_lt (h.kvBytes 1), fun h => ⟨?_, ?_, fun t t' => kvBytes_mono _, ?_⟩⟩
  · exact toNat_kvBytes h
  · exact exact_products hvalid h
  · intro q _ hwithin tokens
    have hle := hwithin.perToken_le
    have hmul := Nat.mul_le_mul_right tokens.toNat hle
    rw [UInt64.le_iff_toNat_le, toNat_kvBytes h, toNat_kvBytes (hle.trans_lt h)]
    omega

theorem sizesExact_llama : llama8bBf16Gqa.SizesExact :=
  (sizesExact_iff "llama-8b-bf16-gqa" 32 8 128 2 131072 llama8bBf16Gqa rfl).2 (by decide)

/-- Four fields of 2^16 are accepted. They make 2^65 bytes per token, which wrap to none. -/
theorem sizes_wrap : ∃ p, new "wide" 65536 65536 65536 65536 1 = .ok p ∧ p.kvBytes 1 = 0 ∧
    ¬p.SizesExact := by
  refine ⟨⟨"wide", 65536, 65536, 65536, 65536, 1⟩, rfl, by decide, fun h => ?_⟩
  exact absurd (h.kvBytes 1) (by decide)

end ModelProfile

end KvFlowSim
