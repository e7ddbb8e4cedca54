import KvFlowSim.Core.Percentile
import KvFlowSim.Trace.Synthetic

/-!
# Trace statistics

`trace/stats.rs`: what is said about a trace (`trace_stats`), and about a synthetic one, whose
prompts and reused prefixes grow from turn to turn, so that a percentile is the value of a
turn (`synthetic_stats`).
-/

namespace KvFlowSim

/-- `FieldStats`. -/
structure FieldStats where
  min : UInt32
  max : UInt32
  mean : Float
  p50 : UInt32
  p95 : UInt32
  p99 : UInt32

namespace FieldStats

/-- `from_values`. The sum is one of `u64`, which wraps. -/
def fromValues (values : List UInt32) : Except Panic (Option FieldStats) := do
  if values = [] then
    return none
  let values := values.sortByKey id
  let sum : UInt64 := .ofNat (values.map UInt32.toNat).sum
  let min ← elementAt values 0
  let max ← match values.getLast? with
    | none => .error .unwrapNone
    | some v => .ok v
  let p50 ← percentile values 0.50
  let p95 ← percentile values 0.95
  let p99 ← percentile values 0.99
  return some { min, max, mean := sum.toFloat / values.length.toFloat, p50, p95, p99 }

/-- `from_values(..).unwrap()`. -/
def ofValues (values : List UInt32) : Except Panic FieldStats := do
  match ← fromValues values with
  | none => .error .unwrapNone
  | some stats => return stats

end FieldStats

/-- `TraceStats`. -/
structure TraceStats where
  requests : ℕ
  sessions : ℕ
  turns : ℕ
  promptTokens : FieldStats
  newPromptTokens : FieldStats
  reusedPrefixTokens : FieldStats
  outputTokens : FieldStats
  reuseRatioMean : Float

/-- The variables of the loop of `from_requests`. -/
structure TraceTally where
  sessions : Finset UInt64 := ∅
  turns : Finset (UInt64 × UInt32) := ∅
  promptTokens : List UInt32 := []
  newPromptTokens : List UInt32 := []
  reusedPrefixTokens : List UInt32 := []
  outputTokens : List UInt32 := []
  reuseRatioSum : Float := 0.0

namespace TraceTally

/-- The body of the loop. -/
def add (t : TraceTally) (req : LlmRequest) : TraceTally :=
  let reused := req.reusedPrefixTokens
  { sessions := insert req.sessionId t.sessions
    turns := insert (req.sessionId, req.turnId) t.turns
    promptTokens := t.promptTokens ++ [req.promptTokens]
    newPromptTokens := t.newPromptTokens ++ [req.newPromptTokens]
    reusedPrefixTokens := t.reusedPrefixTokens ++ [reused]
    outputTokens := t.outputTokens ++ [req.outputTokens]
    reuseRatioSum :=
      if req.promptTokens > 0 then
        t.reuseRatioSum + reused.toNat.toFloat / req.promptTokens.toNat.toFloat
      else t.reuseRatioSum }

end TraceTally

/-- `TraceStats::from_requests`. -/
def TraceStats.fromRequests (requests : List LlmRequest) : Except Panic (Option TraceStats) := do
  if requests = [] then
    return none
  let tally := requests.foldl TraceTally.add {}
  let promptTokens ← FieldStats.ofValues tally.promptTokens
  let newPromptTokens ← FieldStats.ofValues tally.newPromptTokens
  let reusedPrefixTokens ← FieldStats.ofValues tally.reusedPrefixTokens
  let outputTokens ← FieldStats.ofValues tally.outputTokens
  return some
    { requests := requests.length
      sessions := tally.sessions.card
      turns := tally.turns.card
      promptTokens, newPromptTokens, reusedPrefixTokens, outputTokens
      reuseRatioMean := tally.reuseRatioSum / requests.length.toFloat }

/-! ## What the statistics say -/

/-- What field statistics are to say of values. -/
structure FieldStats.Describes (s : FieldStats) (values : List UInt32) : Prop where
  ranked : Ranked values s.min s.max s.p50 s.p95 s.p99
  mean : s.mean = (UInt64.ofNat (values.map UInt32.toNat).sum).toFloat / values.length.toFloat

/-- What trace statistics are to say of a trace. -/
structure TraceStats.Describes (s : TraceStats) (trace : List LlmRequest) : Prop where
  requests : s.requests = trace.length
  sessions : s.sessions = (trace.map (·.sessionId)).dedup.length
  turns : s.turns = (trace.map fun q => (q.sessionId, q.turnId)).dedup.length
  promptTokens : s.promptTokens.Describes (trace.map (·.promptTokens))
  newPromptTokens : s.newPromptTokens.Describes (trace.map (·.newPromptTokens))
  reusedPrefixTokens : s.reusedPrefixTokens.Describes (trace.map LlmRequest.reusedPrefixTokens)
  outputTokens : s.outputTokens.Describes (trace.map (·.outputTokens))

theorem FieldStats.exists_ofValues {values : List UInt32} (hne : values ≠ [])
    (hlength : values.length ≤ 2 ^ 45) : ∃ s, ofValues values = .ok s ∧ s.Describes values := by
  have hperm := List.sortByKey_perm id values
  obtain ⟨min, max, p50, p95, p99, hmin, hmax, h50, h95, h99, hranked⟩ := exists_ranked hne hlength
  refine ⟨⟨min, max, (UInt64.ofNat (values.map UInt32.toNat).sum).toFloat / values.length.toFloat,
    p50, p95, p99⟩, ?_,
    hranked, rfl⟩
  simp only [ofValues, fromValues, if_neg hne, hmin, hmax, h50, h95, h99, hperm.length_eq,
    (hperm.map UInt32.toNat).sum_eq]
  rfl

/-- What the loop has collected. -/
theorem TraceTally.foldl_add (requests : List LlmRequest) (t : TraceTally) :
    let t' := requests.foldl add t
    t'.sessions = t.sessions ∪ (requests.map (·.sessionId)).toFinset ∧
      t'.turns = t.turns ∪ (requests.map fun q => (q.sessionId, q.turnId)).toFinset ∧
      t'.promptTokens = t.promptTokens ++ requests.map (·.promptTokens) ∧
      t'.newPromptTokens = t.newPromptTokens ++ requests.map (·.newPromptTokens) ∧
      t'.reusedPrefixTokens = t.reusedPrefixTokens ++ requests.map LlmRequest.reusedPrefixTokens ∧
      t'.outputTokens = t.outputTokens ++ requests.map (·.outputTokens) := by
  induction requests generalizing t with
  | nil => simp
  | cons q rest ih =>
    obtain ⟨hsessions, hturns, hprompt, hnew, hreused, houtput⟩ := ih (t.add q)
    refine ⟨?_, ?_, ?_, ?_, ?_, ?_⟩
    · rw [List.foldl_cons, hsessions]
      simp [add]
    · rw [List.foldl_cons, hturns]
      simp [add]
    · rw [List.foldl_cons, hprompt]
      simp [add]
    · rw [List.foldl_cons, hnew]
      simp [add]
    · rw [List.foldl_cons, hreused]
      simp [add]
    · rw [List.foldl_cons, houtput]
      simp [add]

/-- **Trace statistics.** A trace that is not empty has statistics. -/
theorem TraceStats.fromRequests_spec {requests : List LlmRequest} (hne : requests ≠ [])
    (hlength : requests.length ≤ 2 ^ 45) :
    ∃ s, fromRequests requests = .ok (some s) ∧ s.Describes requests := by
  have hmap : ∀ f : LlmRequest → UInt32, requests.map f ≠ [] := fun f h =>
    hne (List.map_eq_nil_iff.1 h)
  have hshort : ∀ f : LlmRequest → UInt32, (requests.map f).length ≤ 2 ^ 45 := fun f => by
    rwa [List.length_map]
  obtain ⟨prompt, hprompt, hprompt'⟩ :=
    FieldStats.exists_ofValues (hmap (·.promptTokens)) (hshort _)
  obtain ⟨new, hnew, hnew'⟩ := FieldStats.exists_ofValues (hmap (·.newPromptTokens)) (hshort _)
  obtain ⟨reused, hreused, hreused'⟩ :=
    FieldStats.exists_ofValues (hmap LlmRequest.reusedPrefixTokens) (hshort _)
  obtain ⟨output, houtput, houtput'⟩ :=
    FieldStats.exists_ofValues (hmap (·.outputTokens)) (hshort _)
  obtain ⟨htsessions, htturns, htprompt, htnew, htreused, htoutput⟩ :=
    TraceTally.foldl_add requests {}
  simp only [List.nil_append] at htprompt htnew htreused htoutput
  let tally := requests.foldl TraceTally.add {}
  refine ⟨⟨requests.length, tally.sessions.card, tally.turns.card, prompt, new, reused, output,
    tally.reuseRatioSum / requests.length.toFloat⟩, ?_, rfl, ?_, ?_, hprompt', hnew',
    hreused', houtput'⟩
  · simp only [fromRequests, if_neg hne, htprompt, htnew, htreused, htoutput, hprompt,
      hnew, hreused, houtput]
    rfl
  · rw [htsessions, Finset.empty_union, List.card_toFinset]
  · rw [htturns, Finset.empty_union, List.card_toFinset]

/-! ## Synthetic traces -/

namespace SyntheticTraceConfig

variable {config : SyntheticTraceConfig} {i j k : ℕ}

/-- What a turn reuses. -/
def reusedTokens (config : SyntheticTraceConfig) (turnId : UInt32) : UInt32 :=
  (config.promptTokens turnId).satSub (config.newPromptTokens turnId)

theorem promptTokens_mono {t t' : UInt32} (h : t ≤ t') :
    config.promptTokens t ≤ config.promptTokens t' := by
  rw [UInt32.le_iff_toNat_le] at h ⊢
  have hmul := Nat.mul_le_mul_right config.tokensAddedPerTurn.toNat h
  rw [promptTokens, promptTokens, UInt32.toNat_satAdd, UInt32.toNat_satAdd, UInt32.toNat_satMul,
    UInt32.toNat_satMul]
  omega

/-- A first turn reuses nothing, and the later ones more and more. -/
theorem reusedTokens_mono {t t' : UInt32} (h : t ≤ t') :
    config.reusedTokens t ≤ config.reusedTokens t' := by
  have hmono := UInt32.le_iff_toNat_le.1 (config.promptTokens_mono h)
  rw [UInt32.le_iff_toNat_le, reusedTokens, reusedTokens, UInt32.toNat_satSub, UInt32.toNat_satSub]
  by_cases hzero : t = 0
  · rw [newPromptTokens, if_pos hzero]
    omega
  · have hzero' : t' ≠ 0 := fun heq => hzero (by
      rw [heq, UInt32.le_iff_toNat_le] at h
      exact UInt32.toNat_inj.1 (Nat.le_zero.1 h))
    rw [newPromptTokens, newPromptTokens, if_neg hzero, if_neg hzero']
    omega

/-- The turn that stands at a position of the trace. -/
def turnAt (config : SyntheticTraceConfig) (i : ℕ) : UInt32 := .ofNat (i / config.sessions.toNat)

/-- A value that grows with the turns has its ranks at the positions of the trace. -/
theorem hasRank_turnAt {f : LlmRequest → UInt32} {g : UInt32 → UInt32}
    (hf : ∀ i, f (config.requestAt i) = g (config.turnAt i)) (hg : ∀ t t', t ≤ t' → g t ≤ g t')
    (hk : k < config.turnsPerSession.toNat * config.sessions.toNat) :
    (config.generate.map f).HasRank k (g (config.turnAt k)) := by
  have hmap : config.generate.map f =
      (List.range (config.turnsPerSession.toNat * config.sessions.toNat)).map
        fun i => g (config.turnAt i) := by
    rw [generate_eq, List.map_map]
    exact List.map_congr_left fun i _ => hf i
  have hsorted : (config.generate.map f).Pairwise (· ≤ ·) := by
    rw [hmap, List.pairwise_map]
    refine List.pairwise_lt_range.imp_of_mem fun {i j} hi hj hij => hg _ _ ?_
    rw [UInt32.le_iff_toNat_le]
    have hi' : (config.turnAt i).toNat = i / config.sessions.toNat :=
      toNat_turnId (List.mem_range.1 hi)
    have hj' : (config.turnAt j).toNat = j / config.sessions.toNat :=
      toNat_turnId (List.mem_range.1 hj)
    exact hi'.trans_le ((Nat.div_le_div_right hij.le).trans hj'.ge)
  have hlt : k < (config.generate.map f).length := by
    rw [hmap, List.length_map, List.length_range]
    exact hk
  have hrank := List.hasRank_getElem hsorted hlt
  simpa [hmap] using hrank

/-- All sessions take part in a trace that has turns. -/
theorem length_sessions (hturns : 0 < config.turnsPerSession) :
    (config.generate.map (·.sessionId)).dedup.length = config.sessions.toNat := by
  have hperm : (config.generate.map (·.sessionId)).dedup.Perm
      ((List.range config.sessions.toNat).map UInt64.ofNat) := by
    refine (List.perm_ext_iff_of_nodup (List.nodup_dedup _) ?_).2 fun id => ?_
    · refine List.Nodup.map_on (fun i hi j hj heq => ?_) List.nodup_range
      have hnat := congrArg UInt64.toNat heq
      rwa [UInt64.toNat_ofNat_of_lt' ((List.mem_range.1 hi).trans config.sessions.toNat_lt),
        UInt64.toNat_ofNat_of_lt' ((List.mem_range.1 hj).trans config.sessions.toNat_lt)] at hnat
    · rw [List.mem_dedup, List.mem_map, List.mem_map]
      constructor
      · rintro ⟨q, hq, rfl⟩
        have hpair := mem_turns.1 (List.mem_map_of_mem (f := fun r => (r.sessionId, r.turnId)) hq)
        refine ⟨q.sessionId.toNat, List.mem_range.2 ?_, UInt64.ofNat_toNat⟩
        exact UInt64.lt_iff_toNat_lt.1 hpair.1
      · rintro ⟨i, hi, rfl⟩
        have hlt : UInt64.ofNat i < config.sessions := by
          rw [UInt64.lt_iff_toNat_lt,
            UInt64.toNat_ofNat_of_lt' ((List.mem_range.1 hi).trans config.sessions.toNat_lt)]
          exact List.mem_range.1 hi
        obtain ⟨q, hq, heq⟩ := List.mem_map.1 (mem_turns.2 ⟨hlt, hturns⟩)
        exact ⟨q, hq, (Prod.mk.inj heq).1⟩
  rw [hperm.length_eq, List.length_map, List.length_range]

end SyntheticTraceConfig

open SyntheticTraceConfig

/-- The statistics of a field that grows with the turns are its values in the turns that stand at
the ranks. -/
structure FieldStats.OfTurns (s : FieldStats) (config : SyntheticTraceConfig) (last : ℕ)
    (g : UInt32 → UInt32) : Prop where
  min : s.min = g 0
  max : s.max = g (config.turnAt last)
  p50 : s.p50 = g (config.turnAt (percentOf 50 last))
  p95 : s.p95 = g (config.turnAt (percentOf 95 last))
  p99 : s.p99 = g (config.turnAt (percentOf 99 last))

theorem FieldStats.Describes.ofTurns {s : FieldStats} {config : SyntheticTraceConfig}
    {f : LlmRequest → UInt32} {g : UInt32 → UInt32} {last : ℕ}
    (h : s.Describes (config.generate.map f))
    (hlast : last + 1 = config.turnsPerSession.toNat * config.sessions.toNat)
    (hf : ∀ i, f (config.requestAt i) = g (config.turnAt i)) (hg : ∀ t t', t ≤ t' → g t ≤ g t') :
    s.OfTurns config last g := by
  have hlength : (config.generate.map f).length - 1 = last := by
    rw [List.length_map, length_generate, Nat.mul_comm]
    omega
  have hrank : ∀ {k : ℕ}, k ≤ last → (config.generate.map f).HasRank k (g (config.turnAt k)) :=
    fun hk => hasRank_turnAt hf hg (by omega)
  obtain ⟨hmin, hmax, h50, h95, h99⟩ := h.ranked
  rw [hlength] at hmax h50 h95 h99
  have hfirst : config.turnAt 0 = 0 := by simp [turnAt]
  refine ⟨?_, hmax.unique (hrank le_rfl), h50.unique (hrank (percentOf_le (by simp) _)),
    h95.unique (hrank (percentOf_le (by simp) _)), h99.unique (hrank (percentOf_le (by simp) _))⟩
  rw [hmin.unique (hrank (Nat.zero_le _)), hfirst]

/-- **The statistics of a synthetic trace.** They count its sessions and turns, and as prompts and
reused prefixes grow from turn to turn, each percentile of these is the value of a turn. -/
theorem synthetic_stats (config : SyntheticTraceConfig) (hsessions : 0 < config.sessions)
    (hturns : 0 < config.turnsPerSession)
    (hcount : config.sessions.toNat * config.turnsPerSession.toNat ≤ 2 ^ 45) :
    ∃ s, TraceStats.fromRequests config.generate = .ok (some s) ∧
      s.requests = config.sessions.toNat * config.turnsPerSession.toNat ∧
      s.sessions = config.sessions.toNat ∧
      s.turns = config.sessions.toNat * config.turnsPerSession.toNat ∧
      s.promptTokens.OfTurns config (config.sessions.toNat * config.turnsPerSession.toNat - 1)
        config.promptTokens ∧
      s.reusedPrefixTokens.OfTurns config (config.sessions.toNat * config.turnsPerSession.toNat - 1)
        config.reusedTokens ∧
      s.reusedPrefixTokens.min = 0 ∧
      s.outputTokens.OfTurns config (config.sessions.toNat * config.turnsPerSession.toNat - 1)
        (fun _ => config.outputTokens) := by
  have hpos : 0 < config.sessions.toNat * config.turnsPerSession.toNat :=
    Nat.mul_pos (UInt64.lt_iff_toNat_lt.1 hsessions) (UInt32.lt_iff_toNat_lt.1 hturns)
  have hne : config.generate ≠ [] := fun hnil => by
    have hlength := config.length_generate
    rw [hnil, List.length_nil] at hlength
    omega
  have hlast : config.sessions.toNat * config.turnsPerSession.toNat - 1 + 1 =
      config.turnsPerSession.toNat * config.sessions.toNat := by
    rw [Nat.mul_comm config.turnsPerSession.toNat]
    omega
  obtain ⟨s, hs, hdescribes⟩ :=
    TraceStats.fromRequests_spec hne (config.length_generate.trans_le hcount)
  have hreused := hdescribes.reusedPrefixTokens.ofTurns (g := config.reusedTokens) hlast
    (fun _ => rfl) fun _ _ => reusedTokens_mono
  refine ⟨s, hs, hdescribes.requests.trans length_generate,
    hdescribes.sessions.trans (length_sessions hturns), ?_,
    hdescribes.promptTokens.ofTurns hlast (fun _ => rfl) fun _ _ => promptTokens_mono, hreused, ?_,
    hdescribes.outputTokens.ofTurns hlast (fun _ => rfl) fun _ _ _ => le_rfl⟩
  · rw [hdescribes.turns, List.dedup_eq_self.2 nodup_turns, List.length_map, length_generate]
  · rw [hreused.min, reusedTokens, newPromptTokens, if_pos rfl, ← UInt32.toNat_inj,
      UInt32.toNat_satSub, Nat.sub_self]
    rfl

/-- Two sessions of three turns. -/
theorem synthetic_stats_six : ∃ s,
    TraceStats.fromRequests (generate ⟨2, 3, 0, 1000000, 100, 50, 10, "llama-8b"⟩) = .ok (some s) ∧
    s.requests = 6 ∧ s.sessions = 2 ∧ s.promptTokens.max = 200 ∧ s.reusedPrefixTokens.min = 0 ∧
    s.reusedPrefixTokens.max = 150 := by
  obtain ⟨s, hs, hrequests, hsessions, -, hprompt, hreused, hmin, -⟩ :=
    synthetic_stats ⟨2, 3, 0, 1000000, 100, 50, 10, "llama-8b"⟩ (by decide) (by decide) (by decide)
  exact ⟨s, hs, hrequests, hsessions, hprompt.max, hmin, hreused.max⟩

end KvFlowSim
