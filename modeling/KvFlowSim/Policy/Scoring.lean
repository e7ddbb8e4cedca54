import KvFlowSim.Policy.NetworkAware

/-!
# The scores of the tiers

`utility_for_tier` scores a tier whose transfer estimate fails as if its fetch took `i128::MAX`, and
then subtracts the pressure penalty. As the recompute cost is added first, there is room for a
penalty of at most that cost and one. A larger one leaves the range of `i128`, where the subtraction
wraps to its other end (or panics, in a build with overflow checks).

The scores do what they are for if no subtraction leaves the range and if the tiers whose estimate
fails are scored below all others (`SoundScores`); they do exactly if there is room
(`soundScores_iff`).
-/

namespace KvFlowSim

/-- The range of `i128`. -/
def InI128 (x : ℤ) : Prop := -i128Max - 1 ≤ x ∧ x ≤ i128Max

theorem i128Sub_of_inI128 {a b : ℤ} (h : InI128 (a - b)) : i128Sub a b = a - b := by
  obtain ⟨hlo, hhi⟩ := h
  unfold i128Max at hlo hhi
  have hsize : ((2 ^ 128 : ℕ) : ℤ) = 2 ^ 128 := rfl
  exact Int.bmod_eq_of_le_mul_two (by omega) (by omega)

namespace NetworkAwarePlacement

variable {C T : Type} [ComputeModel C] [TransferModel T]

/-- The tiers that `place` scores. -/
def candidates : List TierKind := [.gpu, .cpu, .remoteMemory, .remoteSsd]

/-- The path by which the KV of a tier is fetched. What is on the GPU needs no transfer. -/
def fetchPath : TierKind → Option TransferPath
  | .cpu => some .localCpuToGpu
  | .remoteMemory => some .remoteMemoryToGpu
  | .remoteSsd => some .remoteSsdToGpu
  | .gpu | .localSsd => none

/-- The transfer estimate for the tier fails. -/
def Fails (transfer : T) (bytes : UInt64) (tier : TierKind) : Prop :=
  ∃ path ∈ fetchPath tier, ∃ e, TransferModel.estimateDuration transfer path bytes = .error e

def recomputeCost (prefixTokens : UInt32) (compute : C) : ℤ :=
  (ComputeModel.prefillTimeNs compute prefixTokens).toNat

def fetchCost (transfer : T) (bytes : UInt64) (tier : TierKind) : ℤ :=
  match tier with
  | .gpu => 0
  | .cpu => durationOrMax transfer .localCpuToGpu bytes
  | .remoteMemory => durationOrMax transfer .remoteMemoryToGpu bytes
  | .remoteSsd => durationOrMax transfer .remoteSsdToGpu bytes
  | .localSsd => i128Max

def pressurePenalty (bytes : UInt64) (tier : TierKind) : ℤ :=
  match tier with
  | .gpu => 0
  | .cpu => (bytes.toNat / 100 : ℕ)
  | .remoteMemory => (bytes.toNat / 10 : ℕ)
  | _ => bytes.toNat

variable {transfer : T} {compute : C} {bytes : UInt64} {prefixTokens : UInt32} {tier : TierKind}

theorem utilityForTier_eq : utilityForTier tier bytes prefixTokens compute transfer =
    i128Sub (i128Sub (recomputeCost prefixTokens compute) (fetchCost transfer bytes tier))
      (pressurePenalty bytes tier) :=
  rfl

/-! ## The sizes of the terms -/

theorem toNat_bounds (x : UInt64) : (0 : ℤ) ≤ x.toNat ∧ (x.toNat : ℤ) < 2 ^ 64 := by
  have := x.toNat_lt
  omega

theorem recomputeCost_bounds (prefixTokens : UInt32) (compute : C) :
    0 ≤ recomputeCost prefixTokens compute ∧ recomputeCost prefixTokens compute < 2 ^ 64 :=
  toNat_bounds _

theorem pressurePenalty_bounds (bytes : UInt64) (tier : TierKind) :
    0 ≤ pressurePenalty bytes tier ∧ pressurePenalty bytes tier < 2 ^ 64 := by
  have := toNat_bounds bytes
  cases tier <;> simp only [pressurePenalty] <;> omega

theorem durationOrMax_bounds {path : TransferPath}
    (h : ¬∃ e, TransferModel.estimateDuration transfer path bytes = .error e) :
    0 ≤ durationOrMax transfer path bytes ∧ durationOrMax transfer path bytes < 2 ^ 64 := by
  unfold durationOrMax
  cases hd : TransferModel.estimateDuration transfer path bytes with
  | ok d => exact toNat_bounds d
  | error e => exact absurd ⟨e, hd⟩ h

/-- A fetch whose estimate succeeds costs a word. -/
theorem fetchCost_bounds (htier : tier ∈ candidates) (h : ¬Fails transfer bytes tier) :
    0 ≤ fetchCost transfer bytes tier ∧ fetchCost transfer bytes tier < 2 ^ 64 := by
  cases tier with
  | gpu => exact ⟨le_rfl, show (0 : ℤ) < 2 ^ 64 by decide⟩
  | cpu => exact durationOrMax_bounds fun ⟨e, he⟩ => h ⟨_, rfl, e, he⟩
  | remoteMemory => exact durationOrMax_bounds fun ⟨e, he⟩ => h ⟨_, rfl, e, he⟩
  | remoteSsd => exact durationOrMax_bounds fun ⟨e, he⟩ => h ⟨_, rfl, e, he⟩
  | localSsd => exact absurd htier (by decide)

/-- A fetch whose estimate fails costs the most there is. -/
theorem fetchCost_of_fails (h : Fails transfer bytes tier) :
    fetchCost transfer bytes tier = i128Max := by
  obtain ⟨path, hpath, e, he⟩ := h
  cases tier <;> cases hpath <;> simp only [fetchCost, durationOrMax, he]

/-! ## When the scores are sound -/

/-- The scores stay within `i128`, the tiers whose estimate fails have lower utility than the
others, and so they come after them. -/
structure SoundScores (bytes : UInt64) (prefixTokens : UInt32) (compute : C) (transfer : T) :
    Prop where
  inRange : ∀ tier ∈ candidates,
    InI128 (recomputeCost prefixTokens compute - fetchCost transfer bytes tier) ∧
      InI128 (recomputeCost prefixTokens compute - fetchCost transfer bytes tier -
        pressurePenalty bytes tier)
  behind : ∀ tier ∈ candidates, ∀ tier' ∈ candidates, Fails transfer bytes tier →
    ¬Fails transfer bytes tier' → utilityForTier tier bytes prefixTokens compute transfer <
      utilityForTier tier' bytes prefixTokens compute transfer
  last : (scored bytes prefixTokens compute transfer).Pairwise fun p q =>
    Fails transfer bytes p.1 → Fails transfer bytes q.1

/-- There is room for the tier's penalty. -/
def Room (bytes : UInt64) (prefixTokens : UInt32) (compute : C) (transfer : T) (tier : TierKind) :
    Prop :=
  Fails transfer bytes tier → pressurePenalty bytes tier ≤ recomputeCost prefixTokens compute + 1

theorem inI128_iff_room (htier : tier ∈ candidates) :
    (InI128 (recomputeCost prefixTokens compute - fetchCost transfer bytes tier) ∧
      InI128 (recomputeCost prefixTokens compute - fetchCost transfer bytes tier -
        pressurePenalty bytes tier)) ↔ Room bytes prefixTokens compute transfer tier := by
  have hr := recomputeCost_bounds prefixTokens compute
  have hp := pressurePenalty_bounds bytes tier
  unfold Room InI128 i128Max
  by_cases hfails : Fails transfer bytes tier
  · have hf := fetchCost_of_fails hfails
    unfold i128Max at hf
    simp only [hfails, forall_const]
    omega
  · have hf := fetchCost_bounds htier hfails
    simp only [hfails, false_imp_iff, iff_true]
    omega

/-- A score without overflow is what the exact subtraction gives. -/
theorem utilityForTier_of_room (htier : tier ∈ candidates)
    (hroom : Room bytes prefixTokens compute transfer tier) :
    utilityForTier tier bytes prefixTokens compute transfer =
      recomputeCost prefixTokens compute - fetchCost transfer bytes tier -
        pressurePenalty bytes tier := by
  obtain ⟨hfirst, hsecond⟩ := (inI128_iff_room htier).2 hroom
  rw [utilityForTier_eq, i128Sub_of_inI128 hfirst, i128Sub_of_inI128 hsecond]

theorem mem_scored {p : TierKind × ℤ} (hp : p ∈ scored bytes prefixTokens compute transfer) :
    p.1 ∈ candidates ∧ p.2 = utilityForTier p.1 bytes prefixTokens compute transfer := by
  have hmem := (List.sortByKey_perm (fun p : TierKind × ℤ => OrderDual.toDual p.2) _).mem_iff.1 hp
  obtain ⟨tier, htier, rfl⟩ := List.mem_map.1 hmem
  exact ⟨htier, rfl⟩

/-- Highest utility first. -/
theorem pairwise_scored : (scored bytes prefixTokens compute transfer).Pairwise fun p q =>
    q.2 ≤ p.2 :=
  List.pairwise_sortByKey (fun p : TierKind × ℤ => OrderDual.toDual p.2) _

theorem behind_of_room (hroom : ∀ tier ∈ candidates, Room bytes prefixTokens compute transfer tier)
    {tier' : TierKind} (htier : tier ∈ candidates) (htier' : tier' ∈ candidates)
    (hfails : Fails transfer bytes tier) (hok : ¬Fails transfer bytes tier') :
    utilityForTier tier bytes prefixTokens compute transfer <
      utilityForTier tier' bytes prefixTokens compute transfer := by
  rw [utilityForTier_of_room htier (hroom tier htier),
    utilityForTier_of_room htier' (hroom tier' htier'), fetchCost_of_fails hfails, i128Max]
  have hf := fetchCost_bounds htier' hok
  have hp := pressurePenalty_bounds bytes tier
  have hp' := pressurePenalty_bounds bytes tier'
  omega

theorem SoundScores.of_room
    (hroom : ∀ tier ∈ candidates, Room bytes prefixTokens compute transfer tier) :
    SoundScores bytes prefixTokens compute transfer where
  inRange tier htier := (inI128_iff_room htier).2 (hroom tier htier)
  behind _ htier _ htier' hfails hok := behind_of_room hroom htier htier' hfails hok
  last := by
    refine pairwise_scored.imp_of_mem fun {p q} hp hq hle hfails => ?_
    by_contra hok
    obtain ⟨htier, hutility⟩ := mem_scored hp
    obtain ⟨htier', hutility'⟩ := mem_scored hq
    have hlt := behind_of_room hroom htier htier' hfails hok
    rw [← hutility, ← hutility'] at hlt
    exact absurd hle (not_le.2 hlt)

/-- **When the scores of the tiers are sound.** Exactly if for every tier whose estimate fails the
penalty, a hundredth of the size for the CPU, a tenth for remote memory and all of it for the remote
SSD, is at most the time of the prefill and one. -/
theorem soundScores_iff : SoundScores bytes prefixTokens compute transfer ↔
    (Fails transfer bytes .cpu →
      bytes.toNat / 100 ≤ (ComputeModel.prefillTimeNs compute prefixTokens).toNat + 1) ∧
    (Fails transfer bytes .remoteMemory →
      bytes.toNat / 10 ≤ (ComputeModel.prefillTimeNs compute prefixTokens).toNat + 1) ∧
    (Fails transfer bytes .remoteSsd →
      bytes.toNat ≤ (ComputeModel.prefillTimeNs compute prefixTokens).toNat + 1) := by
  have hrooms : (∀ tier ∈ candidates, Room bytes prefixTokens compute transfer tier) ↔ _ :=
    List.forall_mem_cons.trans <| and_congr_right fun _ => List.forall_mem_cons.trans <|
      and_congr_right fun _ => List.forall_mem_cons.trans <| and_congr_right fun _ =>
        List.forall_mem_singleton
  have hgpu : Room bytes prefixTokens compute transfer .gpu := by
    rintro ⟨_, hpath, -⟩
    cases hpath
  constructor
  · intro h
    obtain ⟨-, hcpu, hmem, hssd⟩ := hrooms.1 fun tier htier =>
      (inI128_iff_room htier).1 (h.inRange tier htier)
    simp only [Room, pressurePenalty, recomputeCost] at hcpu hmem hssd
    exact ⟨fun hf => by exact_mod_cast hcpu hf, fun hf => by exact_mod_cast hmem hf,
      fun hf => by exact_mod_cast hssd hf⟩
  · rintro ⟨hcpu, hmem, hssd⟩
    refine .of_room (hrooms.2 ⟨hgpu, fun hf => ?_, fun hf => ?_, fun hf => ?_⟩)
    · have := hcpu hf
      simp only [pressurePenalty, recomputeCost]
      exact_mod_cast this
    · have := hmem hf
      simp only [pressurePenalty, recomputeCost]
      exact_mod_cast this
    · have := hssd hf
      simp only [pressurePenalty, recomputeCost]
      exact_mod_cast this

/-- A model of the remote SSD without bandwidth, under which no estimate for that tier succeeds. -/
def withoutSsd : AnalyticalTransferModel :=
  { AnalyticalTransferModel.rdma400g with remoteSsdBps := 0 }

/-- The KV of a single token is larger than the time of its prefill: the score of the remote SSD
wraps, and the tier that cannot be read comes first. -/
theorem not_soundScores_wraps :
    ¬SoundScores 131072 1 LinearComputeModel.conservative8b withoutSsd ∧
      (scored 131072 1 LinearComputeModel.conservative8b withoutSsd).map Prod.fst =
        [.remoteSsd, .gpu, .cpu, .remoteMemory] := by
  refine ⟨fun h => ?_, by decide +kernel⟩
  have hlt := h.behind .remoteSsd (by decide) .gpu (by decide) ⟨_, rfl, _, rfl⟩
    (by rintro ⟨_, hpath, -⟩; cases hpath)
  exact absurd hlt (by decide +kernel)

end NetworkAwarePlacement

end KvFlowSim
