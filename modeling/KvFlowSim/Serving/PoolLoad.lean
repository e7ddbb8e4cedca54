import KvFlowSim.Serving.NoReuse

/-!
# The load of the no-reuse runner's pools

`noReuse_pools`: at no time does a fresh runner have more prefills or decodes under way than workers
of the kind, and while a request waits for its prefill all prefill workers are at work.
`noReuse_faster`: with more workers and faster compute no request is served later. Both are read off
the plan of the trace, which gives each stage as jobs in sequence (`Pool.Serves`).
-/

namespace KvFlowSim

open Pool

namespace RequestResult

/-- The request is being prefilled at the time `t`. -/
def Prefills (t : UInt64) (x : RequestResult) : Prop := x.prefillStartNs ≤ t ∧ t < x.prefillDoneNs

/-- The request is being decoded at the time `t`. -/
def Decodes (t : UInt64) (x : RequestResult) : Prop := x.decodeStartNs ≤ t ∧ t < x.finishNs

instance (t : UInt64) : DecidablePred (Prefills t) := fun _ => inferInstanceAs (Decidable (_ ∧ _))

instance (t : UInt64) : DecidablePred (Decodes t) := fun _ => inferInstanceAs (Decidable (_ ∧ _))

end RequestResult

/-- The results of a runner with the pools of `config`, in the order of arrival: how many prefills
and decodes are under way at a time, and when prefills start. -/
structure RespectsPools (config : ServingConfig) (results : List RequestResult) : Prop where
  prefill : ∀ t, results.countP (RequestResult.Prefills t) ≤ config.prefillWorkers
  decode : ∀ t, results.countP (RequestResult.Decodes t) ≤ config.decodeWorkers
  ordered : results.Pairwise fun x y => x.arrivalKey ≤ y.arrivalKey
  started : results.Pairwise fun x y => x.prefillStartNs ≤ y.prefillStartNs
  busy : ∀ x ∈ results, ∀ t, x.arrivalNs ≤ t → t < x.prefillStartNs →
    results.countP (RequestResult.Prefills t) = config.prefillWorkers

namespace NoReuseRunner

variable {C : Type} [ComputeModel C] {config : ServingConfig} {compute : C}
  {requests : List LlmRequest} {plan : List Planned}

/-- All workers of a new runner are free. -/
theorem countP_replicate_zero (n : ℕ) (t : UInt64) :
    (List.replicate n (0 : UInt64) : Multiset UInt64).countP (· ≤ t) = n := by
  rw [Multiset.coe_countP, List.countP_replicate, if_pos (decide_eq_true (UInt64.zero_le))]

theorem Plans.respectsPools (h : (new config compute).Plans (sortRequests requests) plan) :
    RespectsPools config.clamped (plan.map Planned.result) := by
  have hprefill : ∀ t, (plan.map Planned.result).countP (RequestResult.Prefills t) =
      (plan.map Planned.prefillBooking).countP (Booking.Runs t) := fun t => by
    rw [List.countP_map, List.countP_map]
    rfl
  have hdecode : ∀ t, (plan.map Planned.result).countP (RequestResult.Decodes t) =
      (plan.map Planned.decodeBooking).countP (Booking.Runs t) := fun t => by
    rw [List.countP_map, List.countP_map]
    rfl
  have hready : (plan.map Planned.prefillBooking).Pairwise fun i j => i.ready ≤ j.ready := by
    rw [List.pairwise_map]
    exact h.pairwise_request.imp fun hle => Prod.Lex.monotone_fst _ _ hle
  refine ⟨fun t => ?_, fun t => ?_, h.pairwise_result, ?_, ?_⟩
  · rw [hprefill]
    exact (h.prefill.countP_runs_le t).trans_eq (countP_replicate_zero _ t)
  · rw [hdecode]
    exact (h.decode.countP_runs_le t).trans_eq (countP_replicate_zero _ t)
  · have hstart := h.prefill.pairwise_start hready
    rw [List.pairwise_map] at hstart ⊢
    exact hstart
  · intro x hx t hxt hlt
    obtain ⟨e, he, rfl⟩ := List.mem_map.1 hx
    rw [(h.fits e he).arrivalNs_eq] at hxt
    rw [hprefill, h.prefill.countP_runs_eq hready (List.mem_map_of_mem he) hxt hlt]
    exact countP_replicate_zero _ t

end NoReuseRunner

/-- **The no-reuse baseline respects its worker pools.** A runner has at least one worker of each
kind. -/
theorem noReuse_pools {C : Type} [ComputeModel C] (config : ServingConfig) (compute : C)
    (requests : List LlmRequest) : ∃ results r,
    (NoReuseRunner.new config compute).run requests = .ok (results, r) ∧
      RespectsPools config.clamped results := by
  obtain ⟨plan, r, hrun, hplan⟩ :=
    NoReuseRunner.exists_plan (NoReuseRunner.staffed_new config compute) (sortRequests requests)
  exact ⟨_, r, hrun, hplan.respectsPools⟩

/-- With no workers configured there still is one, and it works. -/
theorem noReuse_unstaffed : ¬∀ (config : ServingConfig) (compute : LinearComputeModel)
    (requests : List LlmRequest), ∃ results r,
      (NoReuseRunner.new config compute).run requests = .ok (results, r) ∧
        RespectsPools config results := by
  intro h
  obtain ⟨results, r, hrun, hpools⟩ := h ⟨0, 0, 1⟩ .conservative8b [.cold 0 0 8 2]
  have hcount : ((NoReuseRunner.new ⟨0, 0, 1⟩ LinearComputeModel.conservative8b).run
      [.cold 0 0 8 2]).toOption.map (fun p => p.1.countP (RequestResult.Prefills 0)) = some 1 := by
    decide +kernel
  rw [hrun] at hcount
  have hone : results.countP (RequestResult.Prefills 0) = 1 := Option.some.inj hcount
  have hnone := hpools.prefill 0
  rw [hone] at hnone
  exact absurd hnone (by decide)

/-! ## More and faster hardware -/

/-- The request of `x` in another run, where no stage of it is later. -/
structure RequestResult.NoLater (x y : RequestResult) : Prop where
  request : y.requestId = x.requestId
  arrival : y.arrivalNs = x.arrivalNs
  prefillStart : y.prefillStartNs ≤ x.prefillStartNs
  prefillDone : y.prefillDoneNs ≤ x.prefillDoneNs
  decodeStart : y.decodeStartNs ≤ x.decodeStartNs
  firstToken : y.firstTokenNs ≤ x.firstTokenNs
  finish : y.finishNs ≤ x.finishNs

/-- The second config and compute model are at least as good as the first. -/
structure Upgrade {C C' : Type} [ComputeModel C] [ComputeModel C'] (config config' : ServingConfig)
    (compute : C) (compute' : C') : Prop where
  prefillWorkers : config.prefillWorkers ≤ config'.prefillWorkers
  decodeWorkers : config.decodeWorkers ≤ config'.decodeWorkers
  decodeBatchSize : config'.decodeBatchSize = config.decodeBatchSize
  prefillTime : ∀ promptTokens,
    ComputeModel.prefillTimeNs compute' promptTokens ≤
      ComputeModel.prefillTimeNs compute promptTokens
  decodeStepTime : ∀ activeSequences contextTokens,
    ComputeModel.decodeStepTimeNs compute' activeSequences contextTokens ≤
      ComputeModel.decodeStepTimeNs compute activeSequences contextTokens

theorem Upgrade.clamped {C C' : Type} [ComputeModel C] [ComputeModel C']
    {config config' : ServingConfig} {compute : C} {compute' : C'}
    (h : Upgrade config config' compute compute') :
    Upgrade config.clamped config'.clamped compute compute' where
  prefillWorkers := max_le_max_right 1 h.prefillWorkers
  decodeWorkers := max_le_max_right 1 h.decodeWorkers
  decodeBatchSize := congrArg (max · 1) h.decodeBatchSize
  prefillTime := h.prefillTime
  decodeStepTime := h.decodeStepTime

namespace NoReuseRunner

variable {C C' : Type} [ComputeModel C] [ComputeModel C'] {config config' : ServingConfig}
  {compute : C} {compute' : C'} {l : List LlmRequest} {plan plan' : List Planned}

/-- One request of the trace in both runs. -/
structure Paired (config config' : ServingConfig) (compute : C) (compute' : C') (e e' : Planned) :
    Prop where
  request : e'.request = e.request
  fits : e.Fits compute config
  fits' : e'.Fits compute' config'

variable {e e' : Planned}

/-- A prefill that starts no later ends no later. -/
theorem Paired.prefill (hup : Upgrade config config' compute compute')
    (h : Paired config config' compute compute' e e') :
    e'.prefillBooking.ready ≤ e.prefillBooking.ready ∧
      (e'.prefillBooking.start ≤ e.prefillBooking.start →
        e'.prefillBooking.finish ≤ e.prefillBooking.finish) := by
  obtain ⟨hreq, ⟨p, d, hx⟩, p', d', hx'⟩ := h
  refine ⟨le_of_eq (congrArg LlmRequest.arrivalNs hreq), fun hstart => ?_⟩
  simp only [Planned.prefillBooking, hx, hx', hreq, served] at hstart ⊢
  exact UInt64.satAdd_mono hstart (hup.prefillTime _)

/-- A decode that starts no later ends no later. -/
theorem Paired.decode (hup : Upgrade config config' compute compute')
    (h : Paired config config' compute compute' e e')
    (hdone : e'.result.prefillDoneNs ≤ e.result.prefillDoneNs) :
    e'.decodeBooking.ready ≤ e.decodeBooking.ready ∧
      (e'.decodeBooking.start ≤ e.decodeBooking.start →
        e'.decodeBooking.finish ≤ e.decodeBooking.finish) := by
  refine ⟨hdone, fun hstart => ?_⟩
  obtain ⟨hreq, ⟨p, d, hx⟩, p', d', hx'⟩ := h
  simp only [Planned.decodeBooking, hx, hx', hreq, served, hup.decodeBatchSize] at hstart ⊢
  exact UInt64.satAdd_mono hstart (UInt64.satMul_le_satMul (hup.decodeStepTime _ _) _)

theorem Paired.noLater (hup : Upgrade config config' compute compute')
    (h : Paired config config' compute compute' e e')
    (hprefill : e'.result.prefillStartNs ≤ e.result.prefillStartNs ∧
      e'.result.prefillDoneNs ≤ e.result.prefillDoneNs)
    (hdecode : e'.result.decodeStartNs ≤ e.result.decodeStartNs ∧
      e'.result.finishNs ≤ e.result.finishNs) : e.result.NoLater e'.result := by
  have hstart := hdecode.1
  obtain ⟨hreq, ⟨p, d, hx⟩, p', d', hx'⟩ := h
  refine ⟨?_, ?_, hprefill.1, hprefill.2, hdecode.1, ?_, hdecode.2⟩
  · simp only [hx, hx', hreq, served]
  · simp only [hx, hx', hreq, served]
  · simp only [hx, hx', hreq, served, hup.decodeBatchSize] at hstart ⊢
    exact UInt64.satAdd_mono hstart (hup.decodeStepTime _ _)

/-- The plans of two runners for one trace, request by request. -/
theorem Plans.forall₂ {r : NoReuseRunner C} {r' : NoReuseRunner C'} (h : r.Plans l plan)
    (h' : r'.Plans l plan') :
    List.Forall₂ (Paired r.config r'.config r.compute r'.compute) plan plan' := by
  have hrequests : List.Forall₂ (fun e e' : Planned => e'.request = e.request) plan plan' := by
    have heq : plan'.map Planned.request = plan.map Planned.request :=
      h'.requests.trans h.requests.symm
    rw [← List.forall₂_eq_eq_eq, List.forall₂_map_left_iff, List.forall₂_map_right_iff] at heq
    exact heq.flip
  have hfits := (List.forall₂_and_left (p := fun e => e.Fits r.compute r.config) plan plan').2
    ⟨h.fits, hrequests⟩
  have hfits' := (List.forall₂_and_left (p := fun e => e.Fits r'.compute r'.config) plan' plan).2
    ⟨h'.fits, hfits.flip⟩
  exact hfits'.flip.imp fun e e' ⟨hf', hf, hreq⟩ => ⟨hreq, hf, hf'⟩

/-- A stage of both runs, for which the second has at least as many workers. -/
theorem noLater_stage {n n' : ℕ} (hn : n ≤ n') {job : Planned → Booking UInt64}
    (h : Pool.Serves (List.replicate n (0 : UInt64) : Multiset UInt64) (plan.map job))
    (h' : Pool.Serves (List.replicate n' (0 : UInt64) : Multiset UInt64) (plan'.map job))
    (hjobs : List.Forall₂ (fun e e' => (job e').ready ≤ (job e).ready ∧
      ((job e').start ≤ (job e).start → (job e').finish ≤ (job e).finish)) plan plan') :
    List.Forall₂ (fun e e' => (job e').start ≤ (job e).start ∧ (job e').finish ≤ (job e).finish)
      plan plan' := by
  have hfree : ∀ t, (List.replicate n (0 : UInt64) : Multiset UInt64).countP (· ≤ t) ≤
      (List.replicate n' (0 : UInt64) : Multiset UInt64).countP (· ≤ t) := fun t => by
    rw [countP_replicate_zero, countP_replicate_zero]
    exact hn
  have hmono := h.mono h' hfree
    (List.forall₂_map_left_iff.2 (List.forall₂_map_right_iff.2 hjobs))
  exact List.forall₂_map_right_iff.1 (List.forall₂_map_left_iff.1 hmono)

theorem Plans.noLater (hup : Upgrade config config' compute compute')
    (h : (new config compute).Plans l plan) (h' : (new config' compute').Plans l plan') :
    List.Forall₂ (fun e e' => e.result.NoLater e'.result) plan plan' := by
  have hboth := h.forall₂ h'
  have hprefill := noLater_stage hup.clamped.prefillWorkers h.prefill h'.prefill
    (hboth.imp fun _ _ hee => hee.prefill hup.clamped)
  have hdecode := noLater_stage hup.clamped.decodeWorkers h.decode h'.decode
    (hboth.mp (fun _ _ hee hstage => hee.decode hup.clamped hstage.2) hprefill)
  have hstages := hprefill.mp (fun _ _ hstage hstage' => And.intro hstage hstage') hdecode
  exact hboth.mp (fun _ _ hee hee' => hee.noLater hup.clamped hee'.1 hee'.2) hstages

end NoReuseRunner

/-- **More or faster hardware never slows a request in the no-reuse baseline.** -/
theorem noReuse_faster {C C' : Type} [ComputeModel C] [ComputeModel C']
    (config config' : ServingConfig) (compute : C) (compute' : C')
    (hup : Upgrade config config' compute compute') (requests : List LlmRequest) :
    ∃ results r results' r',
      (NoReuseRunner.new config compute).run requests = .ok (results, r) ∧
      (NoReuseRunner.new config' compute').run requests = .ok (results', r') ∧
      results.map (·.requestId) = (sortRequests requests).map (·.requestId) ∧
      List.Forall₂ RequestResult.NoLater results results' := by
  obtain ⟨plan, r, hrun, hplan⟩ :=
    NoReuseRunner.exists_plan (NoReuseRunner.staffed_new config compute) (sortRequests requests)
  obtain ⟨plan', r', hrun', hplan'⟩ :=
    NoReuseRunner.exists_plan (NoReuseRunner.staffed_new config' compute') (sortRequests requests)
  refine ⟨_, r, _, r', hrun, hrun', ?_, ?_⟩
  · rw [← hplan.requests, List.map_map, List.map_map]
    exact List.map_congr_left fun e he => (hplan.fits e he).requestId_eq
  · exact List.forall₂_map_left_iff.2 (List.forall₂_map_right_iff.2 (hplan.noLater hup hplan'))

/-- A model of the same costs but with no base cost of a prefill. -/
def lowBaseCompute : LinearComputeModel :=
  { LinearComputeModel.conservative8b with prefillBaseNs := 0 }

theorem upgrade_lowBase :
    Upgrade ⟨1, 1, 1⟩ ⟨2, 2, 1⟩ LinearComputeModel.conservative8b lowBaseCompute where
  prefillWorkers := by decide
  decodeWorkers := by decide
  decodeBatchSize := rfl
  prefillTime n := by
    have hbase : lowBaseCompute.prefillBaseNs ≤
        LinearComputeModel.conservative8b.prefillBaseNs := by
      decide
    exact UInt64.satAdd_le_satAdd hbase _
  decodeStepTime _ _ := le_of_eq rfl

/-- A second GPU for each stage and a model without any base cost. -/
theorem noReuse_faster_upgraded : ∃ results r results' r',
    (NoReuseRunner.new ⟨1, 1, 1⟩ LinearComputeModel.conservative8b).run
      [.cold 0 0 8 2, .cold 1 0 8 2] = .ok (results, r) ∧
    (NoReuseRunner.new ⟨2, 2, 1⟩ lowBaseCompute).run [.cold 0 0 8 2, .cold 1 0 8 2] =
      .ok (results', r') ∧
    results.map (·.requestId) =
      (sortRequests [.cold 0 0 8 2, .cold 1 0 8 2]).map (·.requestId) ∧
    List.Forall₂ RequestResult.NoLater results results' :=
  noReuse_faster _ _ _ _ upgrade_lowBase _

end KvFlowSim
