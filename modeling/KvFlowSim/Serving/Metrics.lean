import KvFlowSim.Serving.State
import Mathlib.Data.List.TakeWhile

/-!
# Service level objectives

`serving/metrics.rs`: a summary of the results of a run, of which two fields count the requests
whose objectives were missed. `apply_slos` sets these to zero and then counts, request by request,
until it comes to one without a result. What it leaves are the counts of the requests that come
before that one (`applySlos_eq`), so it is exact if there is none.
-/

namespace KvFlowSim

/-- `LatencyStats`. -/
structure LatencyStats where
  minNs : UInt64
  maxNs : UInt64
  meanNs : Float
  p50Ns : UInt64
  p95Ns : UInt64
  p99Ns : UInt64

/-- `ServingSummary`. The two counters cannot exceed the number of requests, and are
natural numbers. -/
structure ServingSummary where
  completedRequests : ℕ
  totalOutputTokens : UInt64
  makespanNs : UInt64
  throughputReqS : Float
  throughputTokenS : Float
  ttft : LatencyStats
  tbt : LatencyStats
  jct : LatencyStats
  sloViolationsTtft : ℕ
  sloViolationsTbt : ℕ

/-- `results_by_id`. -/
abbrev ResultsById := KeyedMap RequestResult.requestId

namespace ServingSummary

/-- One turn of `for req in requests { .. }`, once the result has been found. -/
def countRequest (s : ServingSummary) (req : LlmRequest) (result : RequestResult) :
    ServingSummary :=
  let s :=
    match req.sloTtftNs with
    | none => s
    | some slo =>
      if result.ttftNs > slo then { s with sloViolationsTtft := s.sloViolationsTtft + 1 } else s
  match req.sloTbtNs with
  | none => s
  | some slo =>
    if result.meanTbtNs > slo then { s with sloViolationsTbt := s.sloViolationsTbt + 1 } else s

/-- `for req in requests { .. }`, which returns early when there is no result. -/
def countRequests (byId : ResultsById) :
    List LlmRequest → ServingSummary → Option Unit × ServingSummary
  | [], s => (some (), s)
  | req :: rest, s =>
    match byId.get req.requestId with
    | none => (none, s)
    | some result => countRequests byId rest (s.countRequest req result)

/-- What is returned, and the summary that is left. -/
def applySlos (s : ServingSummary) (results : List RequestResult) (requests : List LlmRequest) :
    Option Unit × ServingSummary :=
  countRequests (KeyedMap.ofList results) requests
    { s with sloViolationsTtft := 0, sloViolationsTbt := 0 }

end ServingSummary

/-! ## What is to be counted -/

namespace LlmRequest

variable (results : List RequestResult) (q : LlmRequest)

/-- The request has a result. -/
def HasResult : Prop := ∃ x ∈ results, x.requestId = q.requestId

/-- The request carries the objective `slo`, and the latency of its result is longer. -/
def Misses (objective : Option UInt64) (latency : RequestResult → UInt64) : Prop :=
  ∃ slo ∈ objective, ∃ x ∈ results, x.requestId = q.requestId ∧ slo < latency x

/-- The first token took longer than it may. -/
def ViolatesTtft : Prop := q.Misses results q.sloTtftNs RequestResult.ttftNs

/-- The tokens took longer on average than they may. -/
def ViolatesTbt : Prop := q.Misses results q.sloTbtNs RequestResult.meanTbtNs

instance : DecidablePred (HasResult results) := fun _ => inferInstanceAs (Decidable (∃ _ ∈ _, _))

instance : DecidablePred (ViolatesTtft results) := fun q =>
  inferInstanceAs (Decidable (∃ slo ∈ q.sloTtftNs, _))

instance : DecidablePred (ViolatesTbt results) := fun q =>
  inferInstanceAs (Decidable (∃ slo ∈ q.sloTbtNs, _))

variable {results q} {x : RequestResult}

/-- The result of a request is unique. -/
theorem eq_of_requestId (hids : (results.map (·.requestId)).Nodup) {y : RequestResult}
    (hx : x ∈ results) (hxq : x.requestId = q.requestId) (hy : y ∈ results)
    (hyq : y.requestId = q.requestId) : y = x :=
  List.inj_on_of_nodup_map hids hy hx (hyq.trans hxq.symm)

theorem misses_iff (hids : (results.map (·.requestId)).Nodup) (hx : x ∈ results)
    (hxq : x.requestId = q.requestId) {objective : Option UInt64}
    {latency : RequestResult → UInt64} :
    q.Misses results objective latency ↔ ∃ slo ∈ objective, slo < latency x := by
  refine exists_congr fun slo => and_congr_right fun _ => ⟨?_, fun hlt => ⟨x, hx, hxq, hlt⟩⟩
  rintro ⟨y, hy, hyq, hlt⟩
  rwa [eq_of_requestId hids hx hxq hy hyq] at hlt

end LlmRequest

/-- The requests before the first one without a result. -/
def leading (results : List RequestResult) (requests : List LlmRequest) : List LlmRequest :=
  requests.takeWhile fun q => decide (q.HasResult results)

/-- Every request has a result. -/
def Covered (results : List RequestResult) (requests : List LlmRequest) : Prop :=
  ∀ q ∈ requests, q.HasResult results

instance (results : List RequestResult) : DecidablePred (Covered results) :=
  fun requests => inferInstanceAs (Decidable (∀ q ∈ requests, _))

namespace ServingSummary

variable {results results' : List RequestResult} {requests requests' : List LlmRequest}
  {s : ServingSummary}

/-- The summary with the violations among `counted` added to its counters. -/
def plus (s : ServingSummary) (results : List RequestResult) (counted : List LlmRequest) :
    ServingSummary :=
  { s with
    sloViolationsTtft := s.sloViolationsTtft + counted.countP (LlmRequest.ViolatesTtft results)
    sloViolationsTbt := s.sloViolationsTbt + counted.countP (LlmRequest.ViolatesTbt results) }

/-- The summary with its counters set to the violations among `counted`. -/
def counting (s : ServingSummary) (results : List RequestResult) (counted : List LlmRequest) :
    ServingSummary :=
  { s with
    sloViolationsTtft := counted.countP (LlmRequest.ViolatesTtft results)
    sloViolationsTbt := counted.countP (LlmRequest.ViolatesTbt results) }

theorem countRequest_eq (hids : (results.map (·.requestId)).Nodup) {q : LlmRequest}
    {x : RequestResult} (hx : x ∈ results) (hxq : x.requestId = q.requestId) :
    s.countRequest q x = s.plus results [q] := by
  have httft : q.ViolatesTtft results ↔ ∃ slo ∈ q.sloTtftNs, slo < x.ttftNs :=
    LlmRequest.misses_iff hids hx hxq
  have htbt : q.ViolatesTbt results ↔ ∃ slo ∈ q.sloTbtNs, slo < x.meanTbtNs :=
    LlmRequest.misses_iff hids hx hxq
  simp only [plus, List.countP_singleton, httft, htbt, countRequest]
  cases q.sloTtftNs <;> cases q.sloTbtNs <;> simp <;> split_ifs <;> rfl

theorem plus_append (s : ServingSummary) (results : List RequestResult) (l l' : List LlmRequest) :
    (s.plus results l).plus results l' = s.plus results (l ++ l') := by
  simp only [plus, List.countP_append, Nat.add_assoc]

/-- What the loop returns and leaves. -/
theorem countRequests_eq (hids : (results.map (·.requestId)).Nodup) (requests : List LlmRequest)
    (s : ServingSummary) : countRequests (KeyedMap.ofList results) requests s =
      (if Covered results requests then some () else none,
        s.plus results (leading results requests)) := by
  induction requests generalizing s with
  | nil => simp [countRequests, leading, Covered, plus]
  | cons q rest ih =>
    have hget : ∀ x, (KeyedMap.ofList results : ResultsById).get q.requestId = some x ↔
        x ∈ results ∧ x.requestId = q.requestId := fun x => KeyedMap.get_ofList hids
    cases hx : (KeyedMap.ofList results : ResultsById).get q.requestId with
    | none =>
      have hnone : ¬q.HasResult results := by
        rintro ⟨x, hx'⟩
        exact absurd (hx.symm.trans ((hget x).2 hx')) (Option.some_ne_none x).symm
      have hnot : ¬Covered results (q :: rest) := fun h => hnone (h q List.mem_cons_self)
      have hleading : leading results (q :: rest) = [] := by simp [leading, hnone]
      rw [countRequests, hx, if_neg hnot, hleading]
      rfl
    | some x =>
      obtain ⟨hmem, hid⟩ := (hget x).1 hx
      have hres : q.HasResult results := ⟨x, hmem, hid⟩
      have hcovered : Covered results (q :: rest) ↔ Covered results rest := by simp [Covered, hres]
      have hleading : leading results (q :: rest) = q :: leading results rest := by
        simp [leading, hres]
      simp only [countRequests, hx, ih, countRequest_eq hids hmem hid, plus_append,
        hcovered, hleading, List.singleton_append]

/-- What `apply_slos` returns and leaves. -/
theorem applySlos_eq (hids : (results.map (·.requestId)).Nodup) (requests : List LlmRequest)
    (s : ServingSummary) : s.applySlos results requests =
      (if Covered results requests then some () else none,
        s.counting results (leading results requests)) := by
  rw [applySlos, countRequests_eq hids]
  simp only [plus, counting, Nat.zero_add]

end ServingSummary

/-! ## Exact, and all or nothing -/

/-- What a call is to do: it succeeds if every request has a result, and then the counters say how
many requests miss their objectives, nothing else changes and the order of the lists does not
matter; if it fails, the summary is as it was. -/
structure SlosExact (s : ServingSummary) (results : List RequestResult)
    (requests : List LlmRequest) :
    Prop where
  isSome : (s.applySlos results requests).1.isSome ↔ Covered results requests
  counted : (s.applySlos results requests).1.isSome →
    (s.applySlos results requests).2 = s.counting results requests
  reordered : (s.applySlos results requests).1.isSome → ∀ results' requests',
    results'.Perm results → requests'.Perm requests →
      s.applySlos results' requests' = s.applySlos results requests
  unchanged : (s.applySlos results requests).1 = none → (s.applySlos results requests).2 = s

namespace ServingSummary

variable {results results' : List RequestResult} {requests requests' : List LlmRequest}
  {s : ServingSummary}

theorem isSome_applySlos (hids : (results.map (·.requestId)).Nodup) :
    (s.applySlos results requests).1.isSome ↔ Covered results requests := by
  rw [applySlos_eq hids]
  split_ifs with h
  · exact iff_of_true rfl h
  · exact iff_of_false Bool.false_ne_true h

theorem leading_of_covered (h : Covered results requests) : leading results requests = requests :=
  List.takeWhile_eq_self_iff.2 fun q hq => decide_eq_true (h q hq)

/-- The order of the lists does not matter to a call that succeeds. -/
theorem applySlos_perm (hids : (results.map (·.requestId)).Nodup) (h : Covered results requests)
    (hresults : results'.Perm results) (hrequests : requests'.Perm requests) :
    s.applySlos results' requests' = s.applySlos results requests := by
  have hsame : s.applySlos results' requests' = s.applySlos results requests' := by
    rw [applySlos, applySlos, KeyedMap.ofList_eq_of_perm hids hresults]
  have h' : Covered results requests' := fun q hq => h q (hrequests.mem_iff.1 hq)
  rw [hsame, applySlos_eq hids, applySlos_eq hids, if_pos h, if_pos h', leading_of_covered h,
    leading_of_covered h', counting, counting, hrequests.countP_eq, hrequests.countP_eq]

theorem counting_eq_self {counted : List LlmRequest} : s.counting results counted = s ↔
    s.sloViolationsTtft = counted.countP (LlmRequest.ViolatesTtft results) ∧
      s.sloViolationsTbt = counted.countP (LlmRequest.ViolatesTbt results) := by
  constructor
  · intro h
    exact ⟨(congrArg sloViolationsTtft h).symm, (congrArg sloViolationsTbt h).symm⟩
  · rintro ⟨httft, htbt⟩
    rw [counting, ← httft, ← htbt]

end ServingSummary

/-- **When `apply_slos` is exact and all or nothing.** It is if and only if every request has a
result, or the counters of the summary already are those of the requests before the first one
without a result. -/
theorem slosExact_iff (s : ServingSummary) (results : List RequestResult)
    (requests : List LlmRequest) (hids : (results.map (·.requestId)).Nodup) :
    SlosExact s results requests ↔ Covered results requests ∨
      s.sloViolationsTtft = (leading results requests).countP (LlmRequest.ViolatesTtft results) ∧
        s.sloViolationsTbt = (leading results requests).countP
          (LlmRequest.ViolatesTbt results) := by
  rw [← ServingSummary.counting_eq_self]
  have hsome : (s.applySlos results requests).1.isSome ↔ Covered results requests :=
    ServingSummary.isSome_applySlos hids
  have heq := ServingSummary.applySlos_eq hids requests s
  by_cases h : Covered results requests
  · refine iff_of_true ⟨hsome, fun _ => ?_, fun _ _ _ => s.applySlos_perm hids h, fun hnone => ?_⟩
      (.inl h)
    · rw [heq, ServingSummary.leading_of_covered h]
    · rw [heq, if_pos h] at hnone
      cases hnone
  · have hnot : ¬(s.applySlos results requests).1.isSome := fun hs => h (hsome.1 hs)
    have hnone : (s.applySlos results requests).1 = none := Option.not_isSome_iff_eq_none.1 hnot
    constructor
    · intro hexact
      have hsame := hexact.unchanged hnone
      rw [heq] at hsame
      exact .inr hsame
    · rintro (hcovered | hsame)
      · exact absurd hcovered h
      · refine ⟨hsome, fun hs => absurd hs hnot, fun hs => absurd hs hnot, fun _ => ?_⟩
        rw [heq]
        exact hsame

/-- A result of four tokens, of which the first took 13 and the others 5 ns each. -/
def fourTokens : RequestResult := ⟨1, 1, 0, 0, 0, 8, 8, 13, 28, 8, 4⟩

/-- A request with its objectives. -/
def demanding (requestId : UInt64) : LlmRequest :=
  { LlmRequest.cold requestId 0 8 4 with sloTtftNs := some 10, sloTbtNs := some 5 }

/-- A summary that counts three violations of either objective. -/
def threeViolations : ServingSummary where
  completedRequests := 1
  totalOutputTokens := 4
  makespanNs := 28
  throughputReqS := 0
  throughputTokenS := 0
  ttft := ⟨13, 13, 13, 13, 13, 13⟩
  tbt := ⟨5, 5, 5, 5, 5, 5⟩
  jct := ⟨28, 28, 28, 28, 28, 28⟩
  sloViolationsTtft := 3
  sloViolationsTbt := 3

/-- Two requests, asked in another order than that of their results. Both miss the objective for the
first token and one the objective between tokens. -/
theorem slosExact_two :
    SlosExact threeViolations [fourTokens, { fourTokens with requestId := 2, finishNs := 34 }]
      [demanding 2, demanding 1] :=
  (slosExact_iff threeViolations [fourTokens, { fourTokens with requestId := 2, finishNs := 34 }]
    [demanding 2, demanding 1] (by decide)).2 (.inl (by decide))

/-- The second request has no result. The call fails and leaves the counts of the first one. -/
theorem slos_overwritten :
    ([fourTokens].map (·.requestId)).Nodup ∧
      (threeViolations.applySlos [fourTokens] [demanding 1, demanding 2]).1 = none ∧
      (threeViolations.applySlos [fourTokens] [demanding 1, demanding 2]).2 ≠ threeViolations ∧
      ¬SlosExact threeViolations [fourTokens] [demanding 1, demanding 2] := by
  have hnone : (threeViolations.applySlos [fourTokens] [demanding 1, demanding 2]).1 = none := by
    decide +kernel
  have hone : (threeViolations.applySlos [fourTokens]
      [demanding 1, demanding 2]).2.sloViolationsTtft =
        1 := by
    decide +kernel
  have hne :
      (threeViolations.applySlos [fourTokens] [demanding 1, demanding 2]).2 ≠ threeViolations := by
    intro heq
    rw [heq] at hone
    exact absurd hone (by decide)
  exact ⟨by decide, hnone, hne, fun hexact => hne (hexact.unchanged hnone)⟩

end KvFlowSim
