import Mathlib.Data.Nat.Find
import Mathlib.Tactic.Ring
import KvFlowSim.Policy.Scoring
import KvFlowSim.Transfer.WhatIf

/-!
# Fetch or recompute

`decision.rs` compares the time to fetch the KV of a prefix with the time of its prefill.

* `decision_scores`: the decision is what the scores of the network-aware placement say of the tier
  that the path reads, but for the penalty of that tier. A fetch that is decided on pays off
  whenever it starts.
* `decision_breakEven`: with the linear compute model there is a break-even length. If the wire
  takes no longer for a token than the prefill does, the prefixes from that length on are fetched,
  and if it takes no less, those below it. More bandwidth or less latency never speaks against
  a fetch.
-/

/-- What numbers below a bound keep when they grow, they have from some number on. -/
theorem Nat.exists_threshold {p : ℕ → Prop} (bound : ℕ) (hp : ∀ m n, m ≤ n → p m → p n) :
    ∃ k, ∀ n < bound, p n ↔ k ≤ n := by
  classical
  by_cases hex : ∃ n, p n
  · exact ⟨Nat.find hex, fun n _ =>
      ⟨fun h => Nat.find_min' hex h, fun hle => hp _ n hle (Nat.find_spec hex)⟩⟩
  · refine ⟨bound, fun n hn => ⟨fun h => absurd ⟨n, h⟩ hex, fun hle => ?_⟩⟩
    omega

namespace KvFlowSim

/-- `KvDecision`. -/
inductive KvDecision
  | recomputePrefill
  | fetch (estimate : TransferEstimate)
  deriving DecidableEq

/-- `FetchVsRecompute`. -/
structure FetchVsRecompute where
  promptTokens : UInt32
  reusedPrefixTokens : UInt32
  kvBytes : UInt64
  recomputeNs : UInt64
  fetch : TransferEstimate
  decision : KvDecision
  deriving DecidableEq

namespace FetchVsRecompute

variable {C : Type} [ComputeModel C]

def evaluate (profile : ModelProfile) (compute : C) (transfer : AnalyticalTransferModel)
    (path : TransferPath) (promptTokens reusedPrefixTokens : UInt32) :
    Except KvFlowError FetchVsRecompute := do
  let reusedPrefixTokens := min reusedPrefixTokens promptTokens
  let kvBytes := profile.kvBytes reusedPrefixTokens
  let recomputeNs := ComputeModel.prefillTimeNs compute reusedPrefixTokens
  let fetch ← transfer.estimate 0 path kvBytes
  let decision :=
    if fetch.durationNs < recomputeNs then .fetch fetch else .recomputePrefill
  .ok { promptTokens, reusedPrefixTokens, kvBytes, recomputeNs, fetch, decision }

/-- `saved_ns`, in `i128`. -/
def savedNs (d : FetchVsRecompute) : ℤ := i128Sub d.recomputeNs.toNat d.fetch.durationNs.toNat

theorem savedNs_eq (d : FetchVsRecompute) :
    d.savedNs = d.recomputeNs.toNat - d.fetch.durationNs.toNat := by
  have hr := d.recomputeNs.toNat_lt
  have hf := d.fetch.durationNs.toNat_lt
  apply i128Sub_of_inI128
  unfold InI128 i128Max
  omega

variable {profile : ModelProfile} {compute : C} {transfer transfer' : AnalyticalTransferModel}
  {path : TransferPath} {promptTokens reusedPrefixTokens : UInt32} {bps bps' base base' : UInt64}
  {d : FetchVsRecompute}

/-- What is fetched at time 0, and how long that takes. -/
theorem exists_fetch (h : transfer.bandwidthAndLatency path = .ok (bps, base)) (bytes : UInt64) :
    ∃ est, transfer.estimate 0 path bytes = .ok est ∧ est.durationNs.toNat =
      min (base.toNat + bytes.toNat * 8 * 1000000000 / bps.toNat) UInt64.maxValue.toNat := by
  have hest : transfer.estimate 0 path bytes = .ok ⟨path, bytes, 0,
      (UInt64.satAdd 0 base).satAdd (serializationNs bytes bps), base, serializationNs bytes bps,
      bps⟩ := by
    simp only [AnalyticalTransferModel.estimate, h]
    rfl
  have hzero : (0 : UInt64).toNat = 0 := rfl
  have hbase := base.toNat_le_maxValue
  refine ⟨_, hest, ?_⟩
  simp only [TransferEstimate.durationNs, serializationNs, UInt64.toNat_satSub, UInt64.toNat_satAdd,
    UInt64.toNat_ofNat_min, hzero, Nat.zero_add, Nat.sub_zero, min_eq_left hbase]
  generalize bytes.toNat * 8 * 1000000000 / bps.toNat = wire
  omega

theorem evaluate_of_error {e : KvFlowError}
    (h : transfer.estimate 0 path (profile.kvBytes (min reusedPrefixTokens promptTokens)) =
      .error e) :
    evaluate profile compute transfer path promptTokens reusedPrefixTokens = .error e := by
  simp only [evaluate, h]
  rfl

theorem evaluate_of_ok (compute : C) {est : TransferEstimate}
    (h : transfer.estimate 0 path (profile.kvBytes (min reusedPrefixTokens promptTokens)) =
      .ok est) : evaluate profile compute transfer path promptTokens reusedPrefixTokens = .ok
      { promptTokens
        reusedPrefixTokens := min reusedPrefixTokens promptTokens
        kvBytes := profile.kvBytes (min reusedPrefixTokens promptTokens)
        recomputeNs := ComputeModel.prefillTimeNs compute (min reusedPrefixTokens promptTokens)
        fetch := est
        decision := if est.durationNs <
            ComputeModel.prefillTimeNs compute (min reusedPrefixTokens promptTokens) then .fetch est
          else .recomputePrefill } := by
  simp only [evaluate, h]
  rfl

/-- What a decision is made of. -/
theorem evaluate_eq_ok (h : evaluate profile compute transfer path promptTokens reusedPrefixTokens =
    .ok d) : d.recomputeNs = ComputeModel.prefillTimeNs compute d.reusedPrefixTokens ∧
      transfer.estimate 0 path d.kvBytes = .ok d.fetch ∧
      d.decision =
        if d.fetch.durationNs < d.recomputeNs then .fetch d.fetch else .recomputePrefill := by
  obtain ⟨fetch, hfetch, hd⟩ := Except.bind_eq_ok.1 h
  cases hd
  exact ⟨rfl, hfetch, rfl⟩

/-! ## The decision and the scores of the tiers -/

open NetworkAwarePlacement

/-- The decision agrees with the time that it saves, with the score of the tier, and with every
fetch along the path. -/
structure Agrees (compute : C) (transfer : AnalyticalTransferModel) (tier : TierKind)
    (path : TransferPath) (d : FetchVsRecompute) : Prop where
  fetches : d.decision = .fetch d.fetch ↔ 0 < d.savedNs
  recomputes : d.decision = .recomputePrefill ↔ d.savedNs ≤ 0
  utility : utilityForTier tier d.kvBytes d.reusedPrefixTokens compute transfer =
    d.savedNs - pressurePenalty d.kvBytes tier
  pays : d.decision = .fetch d.fetch →
    ∀ nowNs est, transfer.estimate nowNs path d.kvBytes = .ok est →
    est.durationNs < d.recomputeNs

theorem decision_iff (h : evaluate profile compute transfer path promptTokens reusedPrefixTokens =
    .ok d) : (d.decision = .fetch d.fetch ↔ 0 < d.savedNs) ∧
      (d.decision = .recomputePrefill ↔ d.savedNs ≤ 0) := by
  obtain ⟨-, -, hdecision⟩ := evaluate_eq_ok h
  rw [hdecision, savedNs_eq]
  by_cases hlt : d.fetch.durationNs < d.recomputeNs
  · have hlt' := UInt64.lt_iff_toNat_lt.1 hlt
    simp only [if_pos hlt, reduceCtorEq, true_iff, false_iff]
    omega
  · have hle := UInt64.le_iff_toNat_le.1 (not_lt.1 hlt)
    simp only [if_neg hlt, reduceCtorEq, true_iff, false_iff]
    omega

open NetworkAwarePlacement

/-- At time 0 the end of the time range is out of reach. -/
theorem estimateDuration_of_estimate {bytes : UInt64} {est : TransferEstimate}
    (h : transfer.estimate 0 path bytes = .ok est) :
    TransferModel.estimateDuration transfer path bytes = .ok est.durationNs := by
  have hscores := transfer.scoresFetch 0 path bytes
  cases hd : TransferModel.estimateDuration transfer path bytes with
  | error e =>
    obtain ⟨e', he'⟩ := hscores.fails.2 ⟨e, hd⟩
    cases h.symm.trans he'
  | ok duration =>
    have hstart : est.startNs.toNat = 0 := by
      obtain ⟨p, -, hest⟩ := Except.bind_eq_ok.1 h
      cases hest
      rfl
    rw [hscores.timeless est duration h hd
      (by rw [hstart, Nat.zero_add]; exact duration.toNat_le_maxValue)]

/-- No fetch takes longer than the one at time 0. -/
theorem durationNs_le {bytes nowNs : UInt64} {est est' : TransferEstimate}
    (h : transfer.estimate 0 path bytes = .ok est)
    (h' : transfer.estimate nowNs path bytes = .ok est') :
    est'.durationNs ≤ est.durationNs := by
  rw [(transfer.scoresFetch nowNs path bytes).duration est' est.durationNs h'
    (estimateDuration_of_estimate h)]
  exact min_le_left _ _

theorem agrees_of_evaluate {tier : TierKind} (hpath : path ∈ fetchPath tier)
    (h : evaluate profile compute transfer path promptTokens reusedPrefixTokens = .ok d) :
    Agrees compute transfer tier path d := by
  obtain ⟨hrecompute, hfetch, -⟩ := evaluate_eq_ok h
  obtain ⟨hfetches, hrecomputes⟩ := decision_iff h
  have hduration := estimateDuration_of_estimate hfetch
  refine ⟨hfetches, hrecomputes, ?_, fun hd nowNs est hest => ?_⟩
  · have htier : tier ∈ candidates := by cases tier <;> first | decide | cases hpath
    have hok : ¬Fails transfer d.kvBytes tier := by
      rintro ⟨path', hpath', e, he⟩
      obtain rfl := Option.mem_unique hpath hpath'
      cases hduration.symm.trans he
    have hcost : fetchCost transfer d.kvBytes tier = d.fetch.durationNs.toNat := by
      cases tier <;> cases hpath <;> simp only [fetchCost, durationOrMax, hduration]
    rw [utilityForTier_of_room htier fun hfails => absurd hfails hok, hcost, savedNs_eq,
      recomputeCost, hrecompute]
  · have hsaved := hfetches.1 hd
    rw [savedNs_eq] at hsaved
    refine (durationNs_le hfetch hest).trans_lt (UInt64.lt_iff_toNat_lt.2 ?_)
    omega

/-- **The decision and the scores agree.** There is no decision for a tier whose transfer estimate
fails. Otherwise the decision is to fetch exactly if that saves time, the placement scores the tier
with the time saved, but for the penalty, and a fetch that is decided on pays off whenever
it starts. -/
theorem decision_scores (profile : ModelProfile) (compute : C) (transfer : AnalyticalTransferModel)
    {tier : TierKind} {path : TransferPath} (hpath : path ∈ fetchPath tier)
    (promptTokens reusedPrefixTokens : UInt32) :
    ((∃ e, evaluate profile compute transfer path promptTokens reusedPrefixTokens = .error e) ∧
      Fails transfer (profile.kvBytes (min reusedPrefixTokens promptTokens)) tier) ∨
    ∃ d, evaluate profile compute transfer path promptTokens reusedPrefixTokens = .ok d ∧
      d.reusedPrefixTokens = min reusedPrefixTokens promptTokens ∧
      d.kvBytes = profile.kvBytes d.reusedPrefixTokens ∧ ¬Fails transfer d.kvBytes tier ∧
      Agrees compute transfer tier path d := by
  cases hest : transfer.estimate 0 path (profile.kvBytes (min reusedPrefixTokens promptTokens)) with
  | error e =>
    exact .inl ⟨⟨e, evaluate_of_error hest⟩, path, hpath,
      (transfer.scoresFetch 0 path _).fails.1 ⟨e, hest⟩⟩
  | ok est =>
    have h := evaluate_of_ok compute hest
    refine .inr ⟨_, h, rfl, rfl, ?_, agrees_of_evaluate hpath h⟩
    rintro ⟨path', hpath', e, he⟩
    obtain rfl := Option.mem_unique hpath hpath'
    cases (estimateDuration_of_estimate hest).symm.trans he

/-- A prompt of 4096 tokens, all of them reused, from remote memory. -/
theorem decision_scores_remote :
    ((∃ e, evaluate .llama8bBf16Gqa LinearComputeModel.conservative8b .rdma400g .remoteMemoryToGpu
        4096 4096 = .error e) ∧
      Fails AnalyticalTransferModel.rdma400g (ModelProfile.llama8bBf16Gqa.kvBytes (min 4096 4096))
        .remoteMemory) ∨
    ∃ d, evaluate .llama8bBf16Gqa LinearComputeModel.conservative8b .rdma400g .remoteMemoryToGpu
        4096 4096 = .ok d ∧
      d.reusedPrefixTokens = min 4096 4096 ∧
      d.kvBytes = ModelProfile.llama8bBf16Gqa.kvBytes d.reusedPrefixTokens ∧
      ¬Fails AnalyticalTransferModel.rdma400g d.kvBytes .remoteMemory ∧
      Agrees LinearComputeModel.conservative8b .rdma400g .remoteMemory .remoteMemoryToGpu d :=
  decision_scores .llama8bBf16Gqa LinearComputeModel.conservative8b .rdma400g rfl 4096 4096

/-! ## Break-even -/

/-- The decision is to fetch. -/
def Fetches (profile : ModelProfile) (compute : C) (transfer : AnalyticalTransferModel)
    (path : TransferPath) (promptTokens reusedPrefixTokens : UInt32) : Prop :=
  ∃ d, evaluate profile compute transfer path promptTokens reusedPrefixTokens = .ok d ∧
    d.decision = .fetch d.fetch

theorem fetches_iff (h : transfer.bandwidthAndLatency path = .ok (bps, base)) :
    Fetches profile compute transfer path promptTokens reusedPrefixTokens ↔
      min (base.toNat + (profile.kvBytes (min reusedPrefixTokens promptTokens)).toNat *
        8 * 1000000000 /
        bps.toNat) UInt64.maxValue.toNat <
      (ComputeModel.prefillTimeNs compute (min reusedPrefixTokens promptTokens)).toNat := by
  obtain ⟨est, hest, hduration⟩ :=
    exists_fetch h (profile.kvBytes (min reusedPrefixTokens promptTokens))
  have hd := evaluate_of_ok compute hest
  obtain ⟨hfetches, -⟩ := decision_iff hd
  rw [savedNs_eq] at hfetches
  dsimp only at hfetches
  rw [← hduration]
  constructor
  · rintro ⟨d', hd', hdecision⟩
    obtain rfl := Except.ok.inj (hd.symm.trans hd')
    have hsaved := hfetches.1 hdecision
    omega
  · intro hlt
    exact ⟨_, hd, hfetches.2 (by omega)⟩

/-- The time to fetch `n` tokens of `perToken` bytes, without an upper end. -/
def wireNs (perToken : ℕ) (bps base : UInt64) (n : ℕ) : ℕ :=
  base.toNat + perToken * n * 8 * 1000000000 / bps.toNat

/-- Neither the size of `n` tokens nor the time to fetch them reaches the end of its range. -/
def InRange (profile : ModelProfile) (bps base : UInt64) (n : ℕ) : Prop :=
  profile.kvBytesPerToken.toNat * n ≤ UInt64.maxValue.toNat ∧
    wireNs profile.kvBytesPerToken.toNat bps base n < UInt64.maxValue.toNat

theorem wireNs_add (perToken m k : ℕ) (bps base : UInt64) : wireNs perToken bps base (m + k) =
    base.toNat + (perToken * m * 8 * 1000000000 + k * (perToken * 8 * 1000000000)) / bps.toNat := by
  rw [wireNs, show perToken * (m + k) * 8 * 1000000000 =
    perToken * m * 8 * 1000000000 + k * (perToken * 8 * 1000000000) by ring]

/-- Over the natural numbers, to fetch `n` tokens is faster than to prefill them. -/
def Faster (profile : ModelProfile) (compute : LinearComputeModel) (bps base : UInt64)
    (n : ℕ) : Prop :=
  wireNs profile.kvBytesPerToken.toNat bps base n <
    compute.prefillBaseNs.toNat + compute.prefillPerTokenNs.toNat * n

/-- If a token takes no longer on the wire than in prefill, then what is faster stays faster. -/
theorem Faster.of_le {compute : LinearComputeModel} {m n : ℕ} (hbps : 0 < bps.toNat)
    (hrate : profile.kvBytesPerToken.toNat * 8 * 1000000000 ≤
      compute.prefillPerTokenNs.toNat * bps.toNat) (hle : m ≤ n)
    (h : Faster profile compute bps base m) : Faster profile compute bps base n := by
  obtain ⟨k, rfl⟩ := Nat.exists_eq_add_of_le hle
  have hdiv := Nat.div_le_div_right (c := bps.toNat) (Nat.add_le_add_left
    (Nat.mul_le_mul_left k hrate) (profile.kvBytesPerToken.toNat * m * 8 * 1000000000))
  rw [← Nat.mul_assoc k compute.prefillPerTokenNs.toNat, Nat.add_mul_div_right _ _ hbps] at hdiv
  have hwire := wireNs_add profile.kvBytesPerToken.toNat m k bps base
  unfold Faster at h ⊢
  unfold wireNs at h
  rw [Nat.mul_add, Nat.mul_comm _ k]
  omega

/-- If it takes no less, then what is faster has been so for all shorter prefixes. -/
theorem Faster.of_ge {compute : LinearComputeModel} {m n : ℕ} (hbps : 0 < bps.toNat)
    (hrate : compute.prefillPerTokenNs.toNat * bps.toNat ≤
      profile.kvBytesPerToken.toNat * 8 * 1000000000) (hle : m ≤ n)
    (h : Faster profile compute bps base n) : Faster profile compute bps base m := by
  obtain ⟨k, rfl⟩ := Nat.exists_eq_add_of_le hle
  have hdiv := Nat.div_le_div_right (c := bps.toNat) (Nat.add_le_add_left
    (Nat.mul_le_mul_left k hrate) (profile.kvBytesPerToken.toNat * m * 8 * 1000000000))
  rw [← Nat.mul_assoc k compute.prefillPerTokenNs.toNat, Nat.add_mul_div_right _ _ hbps] at hdiv
  have hwire := wireNs_add profile.kvBytesPerToken.toNat m k bps base
  unfold Faster at h ⊢
  unfold wireNs
  rw [Nat.mul_add, Nat.mul_comm _ k] at h
  omega

theorem fetches_iff_of_inRange {compute : LinearComputeModel}
    (h : transfer.bandwidthAndLatency path = .ok (bps, base))
    (hrange : InRange profile bps base (min reusedPrefixTokens promptTokens).toNat) :
    Fetches profile compute transfer path promptTokens reusedPrefixTokens ↔
      Faster profile compute bps base (min reusedPrefixTokens promptTokens).toNat := by
  obtain ⟨hsize, htime⟩ := hrange
  have hbytes : (profile.kvBytes (min reusedPrefixTokens promptTokens)).toNat =
      profile.kvBytesPerToken.toNat * (min reusedPrefixTokens promptTokens).toNat := by
    rw [ModelProfile.kvBytes, UInt64.toNat_satMul, UInt32.toNat_toUInt64, min_eq_left hsize]
  rw [fetches_iff h, hbytes, ← wireNs, min_eq_left htime.le, Faster]
  simp only [ComputeModel.prefillTimeNs, UInt64.toNat_satAdd, UInt64.toNat_satMul,
    UInt32.toNat_toUInt64]
  omega

theorem bps_pos (h : transfer.bandwidthAndLatency path = .ok (bps, base)) : 0 < bps.toNat := by
  unfold AnalyticalTransferModel.bandwidthAndLatency at h
  dsimp only at h
  split_ifs at h with hzero
  obtain ⟨rfl, -⟩ := Prod.mk.inj (Except.ok.inj h)
  exact Nat.pos_of_ne_zero fun h0 => hzero (UInt64.toNat_inj.1 h0)

/-- **Break-even.** If a token takes no longer on the wire than in prefill, there is a length from
which on prefixes are fetched, and if it takes no less, one below which they are. (Sizes and times
must stay in range.) Whatever is fetched is also fetched along a path with more bandwidth and
less latency. -/
theorem decision_breakEven (profile : ModelProfile) (compute : LinearComputeModel)
    (transfer : AnalyticalTransferModel) (path : TransferPath) {bps base : UInt64}
    (h : transfer.bandwidthAndLatency path = .ok (bps, base)) :
    (profile.kvBytesPerToken.toNat * 8 * 1000000000 ≤ compute.prefillPerTokenNs.toNat * bps.toNat →
      ∃ k, ∀ promptTokens reusedPrefixTokens,
        InRange profile bps base (min reusedPrefixTokens promptTokens).toNat →
        (Fetches profile compute transfer path promptTokens reusedPrefixTokens ↔
          k ≤ (min reusedPrefixTokens promptTokens).toNat)) ∧
    (compute.prefillPerTokenNs.toNat * bps.toNat ≤ profile.kvBytesPerToken.toNat * 8 * 1000000000 →
      ∃ k, ∀ promptTokens reusedPrefixTokens,
        InRange profile bps base (min reusedPrefixTokens promptTokens).toNat →
        (Fetches profile compute transfer path promptTokens reusedPrefixTokens ↔
          (min reusedPrefixTokens promptTokens).toNat < k)) ∧
    ∀ transfer' bps' base', transfer'.bandwidthAndLatency path = .ok (bps', base') →
      bps ≤ bps' → base' ≤ base → ∀ promptTokens reusedPrefixTokens,
        Fetches profile compute transfer path promptTokens reusedPrefixTokens →
        Fetches profile compute transfer' path promptTokens reusedPrefixTokens := by
  have hbps := bps_pos h
  refine ⟨fun hrate => ?_, fun hrate => ?_, ?_⟩
  · obtain ⟨k, hk⟩ := Nat.exists_threshold (p := Faster profile compute bps base) (2 ^ 32)
      fun _ _ => Faster.of_le hbps hrate
    exact ⟨k, fun promptTokens reusedPrefixTokens hrange =>
      (fetches_iff_of_inRange h hrange).trans (hk _ (UInt32.toNat_lt _))⟩
  · obtain ⟨k, hk⟩ := Nat.exists_threshold
      (p := fun n => ¬Faster profile compute bps base n) (2 ^ 32)
      fun _ _ hle => mt (Faster.of_ge hbps hrate hle)
    refine ⟨k, fun promptTokens reusedPrefixTokens hrange => ?_⟩
    rw [fetches_iff_of_inRange h hrange, ← not_le, ← hk _ (UInt32.toNat_lt _), not_not]
  · intro transfer' bps' base' h' hle hbase promptTokens reusedPrefixTokens hfetches
    rw [fetches_iff h] at hfetches
    rw [fetches_iff h']
    rw [UInt64.le_iff_toNat_le] at hle hbase
    have hdiv := Nat.div_le_div_left (a :=
      (profile.kvBytes (min reusedPrefixTokens promptTokens)).toNat * 8 * 1000000000) hle hbps
    omega

/-- Remote memory at 400 Gbit/s, where a token takes 2622 ns on the wire and 3500 ns in prefill. -/
theorem decision_breakEven_remote : ∃ k, ∀ promptTokens reusedPrefixTokens,
    InRange .llama8bBf16Gqa 400000000000 8000 (min reusedPrefixTokens promptTokens).toNat →
    (Fetches .llama8bBf16Gqa LinearComputeModel.conservative8b .rdma400g .remoteMemoryToGpu
      promptTokens reusedPrefixTokens ↔ k ≤ (min reusedPrefixTokens promptTokens).toNat) :=
  (decision_breakEven .llama8bBf16Gqa .conservative8b .rdma400g .remoteMemoryToGpu rfl).1
    (by decide)

end FetchVsRecompute

end KvFlowSim
