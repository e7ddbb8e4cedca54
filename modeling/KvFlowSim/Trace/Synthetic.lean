import KvFlowSim.Trace.Request

/-!
# Synthetic traces

`trace/synthetic.rs`: sessions that take turns, each with a prompt that continues the one before.
The two loops of the generator list the requests by turn and session (`generate_eq`), so a turn
looks up exactly the prefix that the turn before it leaves (`synthetic_reuses`).
-/

namespace KvFlowSim

/-- `SyntheticTraceConfig`. -/
structure SyntheticTraceConfig where
  sessions : UInt64
  turnsPerSession : UInt32
  startNs : UInt64
  interArrivalNs : UInt64
  initialPromptTokens : UInt32
  tokensAddedPerTurn : UInt32
  outputTokens : UInt32
  modelId : String

/-- The variables of the generator: `requests`, `request_id` and `arrival_ns`. -/
structure TraceGenerator where
  requests : List LlmRequest
  requestId : UInt64
  arrivalNs : UInt64

namespace SyntheticTraceConfig

def promptTokens (config : SyntheticTraceConfig) (turnId : UInt32) : UInt32 :=
  config.initialPromptTokens.satAdd (turnId.satMul config.tokensAddedPerTurn)

def newPromptTokens (config : SyntheticTraceConfig) (turnId : UInt32) : UInt32 :=
  if turnId = 0 then config.promptTokens turnId else config.tokensAddedPerTurn

/-- The body of the inner loop. -/
def pushRequest (config : SyntheticTraceConfig) (turnId : UInt32) (g : TraceGenerator)
    (sessionId : UInt64) : TraceGenerator where
  requests := g.requests ++
    [{ requestId := g.requestId
       sessionId := sessionId
       turnId := turnId
       arrivalNs := g.arrivalNs
       promptTokens := config.promptTokens turnId
       newPromptTokens := config.newPromptTokens turnId
       outputTokens := config.outputTokens
       modelId := config.modelId
       sloTtftNs := none
       sloTbtNs := none }]
  requestId := g.requestId + 1
  arrivalNs := g.arrivalNs.satAdd config.interArrivalNs

/-- `for session_id in 0..config.sessions`. -/
def pushTurn (config : SyntheticTraceConfig) (g : TraceGenerator) (turnId : UInt32) :
    TraceGenerator :=
  ((List.range config.sessions.toNat).map UInt64.ofNat).foldl (config.pushRequest turnId) g

/-- `generate_synthetic_trace`. -/
def generate (config : SyntheticTraceConfig) : List LlmRequest :=
  (((List.range config.turnsPerSession.toNat).map UInt32.ofNat).foldl config.pushTurn
    ⟨[], 0, config.startNs⟩).requests

/-! ## The requests of a trace -/

/-- The request at a position of the trace: the turns go round the sessions. -/
def requestAt (config : SyntheticTraceConfig) (i : ℕ) : LlmRequest where
  requestId := .ofNat i
  sessionId := .ofNat (i % config.sessions.toNat)
  turnId := .ofNat (i / config.sessions.toNat)
  arrivalNs := .ofNat (min (config.startNs.toNat + i * config.interArrivalNs.toNat)
    UInt64.maxValue.toNat)
  promptTokens := config.promptTokens (.ofNat (i / config.sessions.toNat))
  newPromptTokens := config.newPromptTokens (.ofNat (i / config.sessions.toNat))
  outputTokens := config.outputTokens
  modelId := config.modelId
  sloTtftNs := none
  sloTbtNs := none

/-- The generator before the request at a position. -/
def generatorAt (config : SyntheticTraceConfig) (i : ℕ) : TraceGenerator where
  requests := (List.range i).map config.requestAt
  requestId := .ofNat i
  arrivalNs := (config.requestAt i).arrivalNs

variable (config : SyntheticTraceConfig) {i j t : ℕ}

theorem arrivalNs_succ (i : ℕ) : (config.requestAt (i + 1)).arrivalNs =
    (config.requestAt i).arrivalNs.satAdd config.interArrivalNs := by
  have hmul : (i + 1) * config.interArrivalNs.toNat =
      i * config.interArrivalNs.toNat + config.interArrivalNs.toNat := Nat.succ_mul _ _
  simp only [requestAt]
  rw [← UInt64.toNat_inj, UInt64.toNat_satAdd, UInt64.toNat_ofNat_min, UInt64.toNat_ofNat_min, hmul]
  omega

/-- The body of the inner loop, at its position. -/
theorem pushRequest_generatorAt {s : ℕ} (hs : s < config.sessions.toNat) :
    config.pushRequest (.ofNat t) (config.generatorAt (t * config.sessions.toNat + s)) (.ofNat s) =
      config.generatorAt (t * config.sessions.toNat + s + 1) := by
  have hturn : (t * config.sessions.toNat + s) / config.sessions.toNat = t := by
    rw [Nat.mul_comm t, Nat.mul_add_div (by omega), Nat.div_eq_of_lt hs, Nat.add_zero]
  have hsession : (t * config.sessions.toNat + s) % config.sessions.toNat = s :=
    Nat.mul_add_mod_of_lt hs
  have hid := UInt64.ofNat_add (t * config.sessions.toNat + s) 1
  simp only [pushRequest, generatorAt, List.range_succ, List.map_append, List.map_singleton,
    arrivalNs_succ, hid]
  congr 3
  simp only [requestAt, hturn, hsession]

/-- The inner loop, from the request at which a turn starts. -/
theorem foldl_pushRequest (t : ℕ) {n : ℕ} (hn : n ≤ config.sessions.toNat) :
    ((List.range n).map UInt64.ofNat).foldl (config.pushRequest (.ofNat t))
        (config.generatorAt (t * config.sessions.toNat)) =
      config.generatorAt (t * config.sessions.toNat + n) := by
  induction n with
  | zero => rfl
  | succ n ih =>
    rw [List.range_succ, List.map_append, List.foldl_append, ih (by omega)]
    exact config.pushRequest_generatorAt (by omega)

/-- The outer loop. -/
theorem foldl_pushTurn (n : ℕ) :
    ((List.range n).map UInt32.ofNat).foldl config.pushTurn (config.generatorAt 0) =
      config.generatorAt (n * config.sessions.toNat) := by
  induction n with
  | zero => rw [Nat.zero_mul]; rfl
  | succ n ih =>
    rw [List.range_succ, List.map_append, List.foldl_append, ih, Nat.succ_mul]
    exact config.foldl_pushRequest n le_rfl

/-- The trace lists the requests by their positions. -/
theorem generate_eq : config.generate =
    (List.range (config.turnsPerSession.toNat * config.sessions.toNat)).map config.requestAt := by
  have hstart : (⟨[], 0, config.startNs⟩ : TraceGenerator) = config.generatorAt 0 := by
    have harrival : (config.requestAt 0).arrivalNs = config.startNs := by
      have hle := config.startNs.toNat_le_maxValue
      simp only [requestAt]
      rw [← UInt64.toNat_inj, UInt64.toNat_ofNat_min, Nat.zero_mul]
      omega
    rw [generatorAt, harrival]
    rfl
  rw [generate, hstart, foldl_pushTurn]
  rfl

variable {config}

/-- A position of the trace: its turn and its session. -/
theorem position_lt (hi : i < config.turnsPerSession.toNat * config.sessions.toNat) :
    i % config.sessions.toNat < config.sessions.toNat ∧
      i / config.sessions.toNat < config.turnsPerSession.toNat := by
  have hpos : 0 < config.sessions.toNat := Nat.pos_of_ne_zero fun h0 => by simp [h0] at hi
  exact ⟨Nat.mod_lt _ hpos, (Nat.div_lt_iff_lt_mul hpos).2 hi⟩

theorem toNat_sessionId (hi : i < config.turnsPerSession.toNat * config.sessions.toNat) :
    (config.requestAt i).sessionId.toNat = i % config.sessions.toNat :=
  UInt64.toNat_ofNat_of_lt' ((position_lt hi).1.trans config.sessions.toNat_lt)

theorem toNat_turnId (hi : i < config.turnsPerSession.toNat * config.sessions.toNat) :
    (config.requestAt i).turnId.toNat = i / config.sessions.toNat :=
  UInt32.toNat_ofNat_of_lt' ((position_lt hi).2.trans config.turnsPerSession.toNat_lt)

/-- Two positions with the same session and turn are the same. -/
theorem position_inj (hi : i < config.turnsPerSession.toNat * config.sessions.toNat)
    (hj : j < config.turnsPerSession.toNat * config.sessions.toNat)
    (hsession : (config.requestAt i).sessionId = (config.requestAt j).sessionId)
    (hturn : (config.requestAt i).turnId = (config.requestAt j).turnId) : i = j := by
  have hmod := congrArg UInt64.toNat hsession
  have hdiv := congrArg UInt32.toNat hturn
  rw [toNat_sessionId hi, toNat_sessionId hj] at hmod
  rw [toNat_turnId hi, toNat_turnId hj] at hdiv
  rw [← Nat.div_add_mod i config.sessions.toNat,
    ← Nat.div_add_mod j config.sessions.toNat, hmod, hdiv]

/-- Later positions come later in the order of the arrivals. -/
theorem arrivalKey_lt (hij : i < j) (hj : j < UInt64.size) :
    (config.requestAt i).arrivalKey < (config.requestAt j).arrivalKey := by
  have hmul := Nat.mul_le_mul_right config.interArrivalNs.toNat hij.le
  have harrival : (config.requestAt i).arrivalNs ≤ (config.requestAt j).arrivalNs := by
    simp only [requestAt]
    rw [UInt64.le_iff_toNat_le, UInt64.toNat_ofNat_min, UInt64.toNat_ofNat_min]
    omega
  have hid : (config.requestAt i).requestId < (config.requestAt j).requestId := by
    simp only [requestAt]
    rw [UInt64.lt_iff_toNat_lt, UInt64.toNat_ofNat_of_lt' (hij.trans hj),
      UInt64.toNat_ofNat_of_lt' hj]
    exact hij
  refine Prod.Lex.lt_iff.2 ?_
  rcases harrival.lt_or_eq with hlt | heq
  · exact .inl hlt
  · exact .inr ⟨heq, hid⟩

/-- The prompt of a turn, if no prompt of the trace is cut off. -/
theorem toNat_promptTokens {turnId : UInt32}
    (hfits : config.initialPromptTokens.toNat + turnId.toNat * config.tokensAddedPerTurn.toNat ≤
      UInt32.maxValue.toNat) :
    (config.promptTokens turnId).toNat =
      config.initialPromptTokens.toNat + turnId.toNat * config.tokensAddedPerTurn.toNat := by
  rw [promptTokens, UInt32.toNat_satAdd, UInt32.toNat_satMul]
  omega

/-- A first turn has nothing to reuse. -/
theorem reused_of_first (h : (config.requestAt i).turnId = 0) :
    (config.requestAt i).reusedPrefixTokens = 0 := by
  have hnew : (config.requestAt i).newPromptTokens = (config.requestAt i).promptTokens := if_pos h
  rw [LlmRequest.reusedPrefixTokens, hnew, ← UInt32.toNat_inj, UInt32.toNat_satSub, Nat.sub_self]
  rfl

/-- The turn before is one round of the sessions earlier. -/
theorem turn_before (hi : i < config.turnsPerSession.toNat * config.sessions.toNat)
    (h : (config.requestAt i).turnId ≠ 0) :
    config.sessions.toNat ≤ i ∧
      (config.requestAt (i - config.sessions.toNat)).sessionId = (config.requestAt i).sessionId ∧
      (config.requestAt (i - config.sessions.toNat)).turnId.toNat + 1 =
        (config.requestAt i).turnId.toNat := by
  have hpos : 0 < config.sessions.toNat := Nat.zero_lt_of_lt (position_lt hi).1
  have hround : config.sessions.toNat ≤ i := by
    by_contra hlt
    refine h (UInt32.toNat_inj.1 ?_)
    rw [toNat_turnId hi, Nat.div_eq_of_lt (not_le.1 hlt)]
    rfl
  refine ⟨hround, ?_, ?_⟩
  · simp only [requestAt]
    rw [← Nat.mod_eq_sub_mod hround]
  · rw [toNat_turnId hi, toNat_turnId ((Nat.sub_le _ _).trans_lt hi),
      Nat.div_eq_sub_div hpos hround]

/-- A later turn reuses the prompt of the turn before it. -/
theorem reused_of_later (hi : i < config.turnsPerSession.toNat * config.sessions.toNat)
    (htokens : config.initialPromptTokens.toNat +
      (config.turnsPerSession.toNat - 1) * config.tokensAddedPerTurn.toNat ≤ UInt32.maxValue.toNat)
    (h : (config.requestAt i).turnId ≠ 0) :
    (config.requestAt i).reusedPrefixTokens =
      (config.requestAt (i - config.sessions.toNat)).promptTokens := by
  obtain ⟨-, -, hturn⟩ := turn_before hi h
  have hlt := (position_lt hi).2
  rw [← toNat_turnId hi] at hlt
  have hfits : ∀ turnId : UInt32, turnId.toNat ≤ (config.requestAt i).turnId.toNat →
      (config.promptTokens turnId).toNat =
        config.initialPromptTokens.toNat + turnId.toNat * config.tokensAddedPerTurn.toNat := by
    intro turnId hle
    have hmul : turnId.toNat * config.tokensAddedPerTurn.toNat ≤
        (config.turnsPerSession.toNat - 1) * config.tokensAddedPerTurn.toNat :=
      Nat.mul_le_mul_right _ (by omega)
    exact toNat_promptTokens (by omega)
  have hnew : (config.requestAt i).newPromptTokens = config.tokensAddedPerTurn := if_neg h
  have hprompt := hfits _ le_rfl
  have hbefore := hfits (config.requestAt (i - config.sessions.toNat)).turnId (by omega)
  rw [← hturn, Nat.succ_mul] at hprompt
  rw [LlmRequest.reusedPrefixTokens, hnew, ← UInt32.toNat_inj, UInt32.toNat_satSub]
  change (config.promptTokens (config.requestAt i).turnId).toNat - _ =
    (config.promptTokens (config.requestAt (i - config.sessions.toNat)).turnId).toNat
  omega

/-- The session and the turn of a request. -/
theorem nodup_turns : (config.generate.map fun r => (r.sessionId, r.turnId)).Nodup := by
  rw [generate_eq, List.map_map]
  refine List.Nodup.map_on (fun i hi j hj heq => ?_) List.nodup_range
  obtain ⟨hsession, hturn⟩ := Prod.mk.inj heq
  exact position_inj (List.mem_range.1 hi) (List.mem_range.1 hj) hsession hturn

theorem mem_turns {sessionId : UInt64} {turnId : UInt32} :
    (sessionId, turnId) ∈ config.generate.map (fun r => (r.sessionId, r.turnId)) ↔
      sessionId < config.sessions ∧ turnId < config.turnsPerSession := by
  rw [generate_eq, List.map_map, List.mem_map]
  constructor
  · rintro ⟨i, hi, heq⟩
    obtain ⟨rfl, rfl⟩ := Prod.mk.inj heq
    have hi' := List.mem_range.1 hi
    rw [UInt64.lt_iff_toNat_lt, UInt32.lt_iff_toNat_lt, toNat_sessionId hi', toNat_turnId hi']
    exact position_lt hi'
  · rintro ⟨hsession, hturn⟩
    rw [UInt64.lt_iff_toNat_lt] at hsession
    rw [UInt32.lt_iff_toNat_lt] at hturn
    have hlt : turnId.toNat * config.sessions.toNat + sessionId.toNat <
        config.turnsPerSession.toNat * config.sessions.toNat :=
      calc turnId.toNat * config.sessions.toNat + sessionId.toNat
          < turnId.toNat * config.sessions.toNat + config.sessions.toNat :=
            Nat.add_lt_add_left hsession _
        _ = (turnId.toNat + 1) * config.sessions.toNat := (Nat.succ_mul _ _).symm
        _ ≤ config.turnsPerSession.toNat * config.sessions.toNat := Nat.mul_le_mul_right _ hturn
    refine ⟨_, List.mem_range.2 hlt, Prod.ext (UInt64.toNat_inj.1 ?_) (UInt32.toNat_inj.1 ?_)⟩
    · exact (toNat_sessionId hlt).trans (Nat.mul_add_mod_of_lt hsession)
    · refine (toNat_turnId hlt).trans ?_
      rw [Nat.mul_comm turnId.toNat, Nat.mul_add_div (by omega), Nat.div_eq_of_lt hsession,
        Nat.add_zero]

theorem length_generate :
    config.generate.length = config.sessions.toNat * config.turnsPerSession.toNat := by
  rw [generate_eq, List.length_map, List.length_range, Nat.mul_comm]

/-- The requests of the trace and their positions. -/
theorem getElem?_generate {req : LlmRequest} : config.generate[i]? = some req ↔
    i < config.turnsPerSession.toNat * config.sessions.toNat ∧ config.requestAt i = req := by
  rw [generate_eq, List.getElem?_map, Option.map_eq_some_iff]
  constructor
  · rintro ⟨i', hi', rfl⟩
    obtain ⟨hi, rfl⟩ := List.getElem?_eq_some_iff.1 hi'
    rw [List.length_range] at hi
    exact ⟨hi, by rw [List.getElem_range]⟩
  · rintro ⟨hi, rfl⟩
    exact ⟨i, List.getElem?_range hi, rfl⟩

/-- The requests of a trace whose ids fit their word come in the order of the arrivals. -/
theorem pairwise_generate
    (hsize : config.turnsPerSession.toNat * config.sessions.toNat < UInt64.size) :
    config.generate.Pairwise fun req req' => req.arrivalKey < req'.arrivalKey := by
  rw [generate_eq, List.pairwise_map]
  refine List.pairwise_lt_range.imp_of_mem fun _ hj hij => ?_
  exact arrivalKey_lt hij ((List.mem_range.1 hj).trans hsize)

theorem distinctIds_generate
    (hsize : config.turnsPerSession.toNat * config.sessions.toNat < UInt64.size) :
    DistinctIds config.generate := by
  rw [DistinctIds, generate_eq, List.map_map]
  refine List.Nodup.map_on (fun i hi j hj heq => ?_) List.nodup_range
  have hid := congrArg UInt64.toNat heq
  rwa [Function.comp_apply, Function.comp_apply, requestAt, requestAt,
    UInt64.toNat_ofNat_of_lt' ((List.mem_range.1 hi).trans hsize),
    UInt64.toNat_ofNat_of_lt' ((List.mem_range.1 hj).trans hsize)] at hid

end SyntheticTraceConfig

open SyntheticTraceConfig

/-- **A synthetic trace looks up exactly what the turn before stores.** If the ids and the prompts
of a trace fit their words, it has a request for each turn of each session, in the order of the
arrivals, and a turn reuses the whole prompt of the turn before it, which comes earlier. -/
theorem synthetic_reuses (config : SyntheticTraceConfig)
    (hcount : config.sessions.toNat * config.turnsPerSession.toNat ≤ UInt64.maxValue.toNat)
    (htokens : config.initialPromptTokens.toNat +
      (config.turnsPerSession.toNat - 1) * config.tokensAddedPerTurn.toNat ≤
        UInt32.maxValue.toNat) :
    config.generate.length = config.sessions.toNat * config.turnsPerSession.toNat ∧
      DistinctIds config.generate ∧
      (config.generate.Pairwise fun req req' => req.arrivalKey < req'.arrivalKey) ∧
      (∀ sessionId turnId,
        (config.generate.map fun req => (req.sessionId, req.turnId)).count (sessionId, turnId) =
          if sessionId < config.sessions ∧ turnId < config.turnsPerSession then 1 else 0) ∧
      (∀ req ∈ config.generate, req.turnId = 0 → req.reusedPrefixTokens = 0) ∧
      ∀ (i : ℕ) (req : LlmRequest), config.generate[i]? = some req → req.turnId ≠ 0 →
        ∃ j < i, ∃ before : LlmRequest,
          config.generate[j]? = some before ∧ before.sessionId = req.sessionId ∧
          before.turnId.toNat + 1 = req.turnId.toNat ∧
          req.reusedPrefixTokens = before.promptTokens := by
  have hmax := UInt64.toNat_maxValue
  have hsize : config.turnsPerSession.toNat * config.sessions.toNat < UInt64.size := by
    rw [Nat.mul_comm, UInt64.size]
    omega
  refine ⟨length_generate, distinctIds_generate hsize, pairwise_generate hsize,
    fun sessionId turnId => ?_, fun req hreq hturn => ?_, fun i req hi hturn => ?_⟩
  · split_ifs with hp
    · exact List.count_eq_one_of_mem nodup_turns (mem_turns.2 hp)
    · exact List.count_eq_zero_of_not_mem (mt mem_turns.1 hp)
  · obtain ⟨i, hi⟩ := List.getElem?_of_mem hreq
    obtain ⟨-, rfl⟩ := getElem?_generate.1 hi
    exact reused_of_first hturn
  · obtain ⟨hlt, rfl⟩ := getElem?_generate.1 hi
    obtain ⟨hround, hsession, hbefore⟩ := turn_before hlt hturn
    have hpos : 0 < config.sessions.toNat := Nat.zero_lt_of_lt (position_lt hlt).1
    have hget : config.generate[i - config.sessions.toNat]? =
        some (config.requestAt (i - config.sessions.toNat)) :=
      getElem?_generate.2 ⟨lt_of_le_of_lt (Nat.sub_le i config.sessions.toNat) hlt, rfl⟩
    exact ⟨i - config.sessions.toNat, by omega, _, hget, hsession, hbefore,
      reused_of_later hlt htokens hturn⟩

/-- Two sessions with three turns. -/
theorem synthetic_reuses_two :
    (SyntheticTraceConfig.mk 2 3 0 1000000 1024 256 128 "llama-8b").generate.length = 6 :=
  (synthetic_reuses ⟨2, 3, 0, 1000000, 1024, 256, 128, "llama-8b"⟩ (by decide) (by decide)).1

end KvFlowSim
