import KvFlowSim.Foundations.Pool
import KvFlowSim.Serving.Runner

/-!
# The no-reuse runner and its pools

`NoReuseRunner` serves a request by booking the prefill worker and then the decode worker that is
free first. What it returns depends on the two pools of busy times only (`runOne_spec`), and of
these only on what is left of them when a request is ready (`Alike.runAll`).
-/

namespace KvFlowSim

open Pool

theorem earliestWorker_spec {workers : List UInt64} (h : workers ≠ []) :
    ∃ t, workers[earliestWorker workers]? = some t ∧ ∀ t' ∈ workers, t ≤ t' := by
  cases hmin : workers.zipIdx.argmin fun p => p.1 with
  | none =>
    rw [List.argmin_eq_none, List.zipIdx_eq_nil_iff] at hmin
    exact absurd hmin h
  | some p =>
    refine ⟨p.1, ?_, fun t' ht' => ?_⟩
    · rw [earliestWorker, hmin]
      exact List.mem_zipIdx_iff_getElem?.1 (List.argmin_mem hmin)
    · obtain ⟨i, hi⟩ := List.getElem?_of_mem ht'
      exact List.le_of_mem_argmin (a := (t', i)) (List.mem_zipIdx_iff_getElem?.2 hi) hmin

/-- The worker that is free first is booked. -/
theorem books_earliestWorker {workers : List UInt64} (h : workers ≠ []) :
    ∃ t, NoReuseRunner.busyAt workers (earliestWorker workers) = .ok t ∧
      ∀ t', Books (workers : Multiset UInt64) t t' (workers.set (earliestWorker workers) t') := by
  obtain ⟨t, ht, hle⟩ := earliestWorker_spec h
  refine ⟨t, by rw [NoReuseRunner.busyAt, ht], fun t' => ?_⟩
  obtain ⟨hlt, heq⟩ := List.getElem?_eq_some_iff.1 ht
  refine books_of_perm ?_ (List.set_perm_cons_eraseIdx hlt t') hle
  rw [← heq]
  exact (List.getElem_cons_eraseIdx_perm hlt).symm

namespace NoReuseRunner

variable {C : Type}

/-- The runner has a worker of either kind. -/
structure Staffed (r : NoReuseRunner C) : Prop where
  prefill : r.prefillBusyUntil ≠ []
  decode : r.decodeBusyUntil ≠ []

theorem staffed_new (config : ServingConfig) (compute : C) : (new config compute).Staffed := by
  have hpos : ∀ n : ℕ, max n 1 ≠ 0 := fun n => by omega
  constructor
  · exact fun h => hpos _ (List.replicate_eq_nil_iff _ |>.1 h)
  · exact fun h => hpos _ (List.replicate_eq_nil_iff _ |>.1 h)

variable [ComputeModel C]

/-- The result for a request whose prefill worker is free from `p` on and whose decode worker from
`d` on. -/
def served (compute : C) (config : ServingConfig) (req : LlmRequest) (p d : UInt64) :
    RequestResult :=
  let prefillStartNs := max req.arrivalNs p
  let prefillDoneNs := prefillStartNs.satAdd (ComputeModel.prefillTimeNs compute req.promptTokens)
  let decodeStartNs := max prefillDoneNs d
  let decodeStepNs :=
    ComputeModel.decodeStepTimeNs compute config.decodeBatchSize req.promptTokens
  { requestId := req.requestId
    sessionId := req.sessionId
    turnId := req.turnId
    arrivalNs := req.arrivalNs
    prefillStartNs
    prefillDoneNs
    decodeStartNs
    firstTokenNs := decodeStartNs.satAdd decodeStepNs
    finishNs := decodeStartNs.satAdd (decodeStepNs.satMul req.outputTokens.toUInt64)
    promptTokens := req.promptTokens
    outputTokens := req.outputTokens }

/-- `r'` is the runner `r` after it has served a request with the result `x`, on workers that were
free from `p` and `d` on. -/
structure Serves (r : NoReuseRunner C) (req : LlmRequest) (p d : UInt64) (x : RequestResult)
    (r' : NoReuseRunner C) : Prop where
  result : x = served r.compute r.config req p d
  compute : r'.compute = r.compute
  config : r'.config = r.config
  prefill : Books (r.prefillBusyUntil : Multiset UInt64) p x.prefillDoneNs r'.prefillBusyUntil
  decode : Books (r.decodeBusyUntil : Multiset UInt64) d x.finishNs r'.decodeBusyUntil

variable {r r' s s' : NoReuseRunner C} {req : LlmRequest} {x : RequestResult}
  {p d : UInt64}

/-- **One request.** -/
theorem runOne_spec (h : r.Staffed) (req : LlmRequest) :
    ∃ p d x r', r.runOne req = .ok (x, r') ∧ r.Serves req p d x r' := by
  obtain ⟨p, hp, hbooks⟩ := books_earliestWorker h.prefill
  obtain ⟨d, hd, hbooks'⟩ := books_earliestWorker h.decode
  let x := served r.compute r.config req p d
  let r' := { r with
    prefillBusyUntil := r.prefillBusyUntil.set (earliestWorker r.prefillBusyUntil) x.prefillDoneNs
    decodeBusyUntil := r.decodeBusyUntil.set (earliestWorker r.decodeBusyUntil) x.finishNs }
  refine ⟨p, d, x, r', ?_, rfl, rfl, rfl, hbooks _, hbooks' _⟩
  simp only [runOne, hp, hd, Except.ok_bind]
  rfl

theorem Serves.staffed (h : r.Serves req p d x r') : r'.Staffed := by
  have hne : ∀ {K K' : List UInt64} {m t : UInt64}, Books (K : Multiset UInt64) m t K' → K' ≠ [] :=
    fun hb hnil => by
      have heq := hb.eq
      rw [hnil] at heq
      exact absurd heq.symm (Multiset.cons_ne_zero)
  exact ⟨hne h.prefill, hne h.decode⟩

/-! ## The plan of a trace -/

end NoReuseRunner

/-- A request with the result that is planned for it. -/
structure Planned where
  request : LlmRequest
  result : RequestResult

namespace Planned

def id (e : Planned) : UInt64 := e.request.requestId

/-- The prefill as a job for a pool. -/
def prefillBooking (e : Planned) : Booking UInt64 :=
  ⟨e.request.arrivalNs, e.result.prefillStartNs, e.result.prefillDoneNs⟩

/-- The decode as a job for a pool. -/
def decodeBooking (e : Planned) : Booking UInt64 :=
  ⟨e.result.prefillDoneNs, e.result.decodeStartNs, e.result.finishNs⟩

/-- The result is one that the no-reuse runner gives, on some workers. -/
def Fits {C : Type} [ComputeModel C] (compute : C) (config : ServingConfig) (e : Planned) : Prop :=
  ∃ p d, e.result = NoReuseRunner.served compute config e.request p d

variable {C : Type} [ComputeModel C] {compute : C} {config : ServingConfig} {e : Planned}

theorem Fits.arrivalNs_eq (h : e.Fits compute config) :
    e.result.arrivalNs = e.request.arrivalNs := by
  obtain ⟨p, d, hresult⟩ := h
  rw [hresult]
  rfl

theorem Fits.requestId_eq (h : e.Fits compute config) :
    e.result.requestId = e.request.requestId := by
  obtain ⟨p, d, hresult⟩ := h
  rw [hresult]
  rfl

theorem Fits.arrivalKey_eq (h : e.Fits compute config) :
    e.result.arrivalKey = e.request.arrivalKey := by
  rw [RequestResult.arrivalKey, h.arrivalNs_eq, h.requestId_eq, LlmRequest.arrivalKey]

end Planned

namespace NoReuseRunner

variable {C : Type} [ComputeModel C] {r r' s s' : NoReuseRunner C} {req : LlmRequest}
  {x : RequestResult} {p d : UInt64}

/-- What the runner `r` does with the trace `l`: its results, and how its two pools come to them. -/
structure Plans (r : NoReuseRunner C) (l : List LlmRequest) (plan : List Planned) : Prop where
  requests : plan.map Planned.request = l
  fits : ∀ e ∈ plan, e.Fits r.compute r.config
  prefill : Pool.Serves (r.prefillBusyUntil : Multiset UInt64) (plan.map Planned.prefillBooking)
  decode : Pool.Serves (r.decodeBusyUntil : Multiset UInt64) (plan.map Planned.decodeBooking)

/-- Every run follows a plan. -/
theorem exists_plan (h : r.Staffed) (l : List LlmRequest) : ∃ plan r',
    runAll l r = .ok (plan.map Planned.result, r') ∧ r.Plans l plan := by
  induction l generalizing r with
  | nil => exact ⟨[], r, rfl, rfl, fun e he => absurd he List.not_mem_nil, .nil, .nil⟩
  | cons req rest ih =>
    obtain ⟨p, d, x, r₁, hrun, hserves⟩ := runOne_spec h req
    obtain ⟨plan, r', hall, hplan⟩ := ih hserves.staffed
    have hfits := hplan.fits
    rw [hserves.compute, hserves.config] at hfits
    refine ⟨⟨req, x⟩ :: plan, r', ?_, ?_, ?_, ?_, ?_⟩
    · rw [runAll, hrun, Except.ok_bind]
      dsimp only
      rw [hall]
      rfl
    · rw [List.map_cons, hplan.requests]
    · intro e he
      rcases List.mem_cons.1 he with rfl | he
      · exact ⟨p, d, hserves.result⟩
      · exact hfits e he
    · refine .cons (m := p) ?_ ?_ hserves.prefill hplan.prefill
      · exact congrArg RequestResult.prefillStartNs hserves.result
      · simp only [Planned.prefillBooking, hserves.result, served]
        exact UInt64.le_satAdd _ _
    · refine .cons (m := d) ?_ ?_ hserves.decode hplan.decode
      · simp only [Planned.decodeBooking, hserves.result, served]
      · simp only [Planned.decodeBooking, hserves.result, served]
        exact UInt64.le_satAdd _ _

/-- The plan of a trace is in the order of the arrivals, -/
theorem Plans.pairwise_request {requests : List LlmRequest} {plan : List Planned}
    (h : r.Plans (sortRequests requests) plan) :
    plan.Pairwise fun e e' => e.request.arrivalKey ≤ e'.request.arrivalKey := by
  have hsorted := List.pairwise_sortByKey LlmRequest.arrivalKey requests
  rwa [← sortRequests, ← h.requests, List.pairwise_map] at hsorted

/-- and so are its results. -/
theorem Plans.pairwise_result {requests : List LlmRequest} {plan : List Planned}
    (h : r.Plans (sortRequests requests) plan) :
    (plan.map Planned.result).Pairwise fun x y => x.arrivalKey ≤ y.arrivalKey := by
  refine List.pairwise_map.2 (h.pairwise_request.imp_of_mem fun he he' hle => ?_)
  rw [(h.fits _ he).arrivalKey_eq, (h.fits _ he').arrivalKey_eq]
  exact hle

/-! ## Left-over busy times -/

/-- Runners of one kind whose pools do not differ from the times on at which requests are ready. -/
structure Alike (readyP readyD : UInt64) (r s : NoReuseRunner C) : Prop where
  compute : s.compute = r.compute
  config : s.config = r.config
  prefill : SameFrom readyP (r.prefillBusyUntil : Multiset UInt64) s.prefillBusyUntil
  decode : SameFrom readyD (r.decodeBusyUntil : Multiset UInt64) s.decodeBusyUntil

theorem served_eq_of_clamped {readyP readyD p' d' : UInt64} {compute : C} (config : ServingConfig)
    (hP : readyP ≤ req.arrivalNs)
    (hD : readyD ≤ req.arrivalNs.satAdd (ComputeModel.prefillTimeNs compute req.promptTokens))
    (hp : max readyP p = max readyP p') (hd : max readyD d = max readyD d') :
    served compute config req p d = served compute config req p' d' := by
  have hstart : max req.arrivalNs p = max req.arrivalNs p' := by
    rw [← max_eq_left hP, max_assoc, hp, max_assoc]
  have hdone := hD.trans (UInt64.satAdd_le_satAdd (le_max_left req.arrivalNs p')
    (ComputeModel.prefillTimeNs compute req.promptTokens))
  have hdecode : ∀ {t}, readyD ≤ t → max t d = max t d' := fun ht => by
    rw [← max_eq_left ht, max_assoc, hd, max_assoc]
  simp only [served, hstart, hdecode hdone]

/-- One request, served by both. -/
theorem Alike.serves {readyP readyD p' d' : UInt64} {x' : RequestResult}
    (h : r.Alike readyP readyD s) (hP : readyP ≤ req.arrivalNs)
    (hD : readyD ≤ req.arrivalNs.satAdd (ComputeModel.prefillTimeNs r.compute req.promptTokens))
    (hr : r.Serves req p d x r') (hs : s.Serves req p' d' x' s') :
    x' = x ∧ r'.Alike readyP readyD s' := by
  have hx : x' = x := by
    rw [hr.result, hs.result, h.compute, h.config]
    exact (served_eq_of_clamped r.config hP hD (h.prefill.free_eq hr.prefill hs.prefill)
      (h.decode.free_eq hr.decode hs.decode)).symm
  subst hx
  exact ⟨rfl, by rw [hs.compute, hr.compute, h.compute], by rw [hs.config, hr.config, h.config],
    h.prefill.books hr.prefill hs.prefill, h.decode.books hr.decode hs.decode⟩

theorem fst_runAll_cons {rest : List LlmRequest} (h : r.runOne req = .ok (x, r')) :
    Prod.fst <$> runAll (req :: rest) r = (x :: ·) <$> Prod.fst <$> runAll rest r' := by
  simp only [runAll, h, Except.ok_bind]
  generalize runAll rest r' = y
  cases y <;> rfl

/-- The times at which a request can be ready for either stage. -/
def ReadyFrom (compute : C) (readyP readyD : UInt64) (req : LlmRequest) : Prop :=
  readyP ≤ req.arrivalNs ∧
    readyD ≤ req.arrivalNs.satAdd (ComputeModel.prefillTimeNs compute req.promptTokens)

theorem Alike.runAll {readyP readyD : UInt64} {l : List LlmRequest} (h : r.Alike readyP readyD s)
    (hr : r.Staffed) (hs : s.Staffed) (hl : ∀ req ∈ l, ReadyFrom r.compute readyP readyD req) :
    Prod.fst <$> runAll l s = Prod.fst <$> runAll l r := by
  induction l generalizing r s with
  | nil => rfl
  | cons req rest ih =>
    obtain ⟨p, d, x, r', hrun, hserves⟩ := runOne_spec hr req
    obtain ⟨p', d', x', s', hrun', hserves'⟩ := runOne_spec hs req
    obtain ⟨hP, hD⟩ := hl req List.mem_cons_self
    obtain ⟨rfl, h'⟩ := h.serves hP hD hserves hserves'
    rw [fst_runAll_cons hrun, fst_runAll_cons hrun', ih h' hserves.staffed hserves'.staffed]
    intro req' hreq'
    rw [hserves.compute]
    exact hl req' (List.mem_cons_of_mem _ hreq')

end NoReuseRunner

end KvFlowSim
