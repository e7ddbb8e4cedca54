import KvFlowSim.Serving.AnyTrace
import KvFlowSim.Serving.Latency

/-!
# Summaries of runs

`ServingSummary::from_results` and what the runners' `run_summary` make of it. A summary says of its
results what it ought to (`Describes`), and a run has one if and only if it has results and every
request has one (`run_summaries`).
-/

namespace KvFlowSim

open Except

/-- `iter.min().unwrap()` or `iter.max().unwrap()`. -/
def unwrap (x : Option UInt64) : Except Panic UInt64 :=
  match x with
  | none => .error .unwrapNone
  | some v => .ok v

/-- `LatencyStats::from_values(..).unwrap()`. -/
def LatencyStats.ofValues (values : List UInt64) : Except Panic LatencyStats := do
  match ← LatencyStats.fromValues values with
  | none => .error .unwrapNone
  | some stats => return stats

namespace ServingSummary

/-- The sum of the tokens is one of `u64`. -/
def fromResults (results : List RequestResult) : Except Panic (Option ServingSummary) := do
  if results = [] then
    return none
  let startNs ← unwrap (results.map (·.arrivalNs)).min?
  let finishNs ← unwrap (results.map (·.finishNs)).max?
  let makespanNs := max (finishNs.satSub startNs) 1
  let totalOutputTokens := (results.map fun r => r.outputTokens.toUInt64).sum
  let ttft ← LatencyStats.ofValues (results.map RequestResult.ttftNs)
  let tbt ← LatencyStats.ofValues (results.map RequestResult.meanTbtNs)
  let jct ← LatencyStats.ofValues (results.map RequestResult.jctNs)
  return some
    { completedRequests := results.length
      totalOutputTokens
      makespanNs
      throughputReqS := results.length.toFloat * 1e9 / makespanNs.toFloat
      throughputTokenS := totalOutputTokens.toFloat * 1e9 / makespanNs.toFloat
      ttft, tbt, jct
      sloViolationsTtft := 0
      sloViolationsTbt := 0 }

def fromResultsWithSlos (results : List RequestResult) (requests : List LlmRequest) :
    Except Panic (Option ServingSummary) := do
  match ← fromResults results with
  | none => return none
  | some summary =>
    match summary.applySlos results requests with
    | (none, _) => return none
    | (some (), summary) => return some summary

end ServingSummary

variable {C P T : Type} [ComputeModel C] [PlacementPolicy P] [TransferModel T]

def EventDrivenRunner.runSummary (r : EventDrivenRunner C) (requests : List LlmRequest) :
    Except Panic (Option ServingSummary × EventDrivenRunner C) := do
  let (results, r) ← r.run requests
  return (← ServingSummary.fromResultsWithSlos results requests, r)

def NoReuseRunner.runSummary (r : NoReuseRunner C) (requests : List LlmRequest) :
    Except Panic (Option ServingSummary × NoReuseRunner C) := do
  let (results, r) ← r.run requests
  return (← ServingSummary.fromResultsWithSlos results requests, r)

/-- The summary comes with the hit counters. -/
def CacheAwareRunner.runSummary (r : CacheAwareRunner C P T) (requests : List LlmRequest) :
    Except Panic (Option (ServingSummary × CacheHitStats) × CacheAwareRunner C P T) := do
  let (results, r) ← r.run requests
  let summary ← ServingSummary.fromResultsWithSlos results requests
  return (summary.map fun summary => (summary, r.hits), r)

/-! ## What a summary says -/

namespace ServingSummary

/-- What a summary is to say of results, for the objectives of the requests. -/
structure Describes (s : ServingSummary) (results : List RequestResult)
    (requests : List LlmRequest) :
    Prop where
  completedRequests : s.completedRequests = results.length
  totalOutputTokens : s.totalOutputTokens.toNat = (results.map fun r => r.outputTokens.toNat).sum
  makespanNs : ∃ first ∈ results, ∃ last ∈ results,
    (∀ r ∈ results, first.arrivalNs ≤ r.arrivalNs ∧ r.finishNs ≤ last.finishNs) ∧
    s.makespanNs.toNat = max (last.finishNs.toNat - first.arrivalNs.toNat) 1
  throughputReqS : s.throughputReqS = results.length.toFloat * 1e9 / s.makespanNs.toFloat
  throughputTokenS : s.throughputTokenS = s.totalOutputTokens.toFloat * 1e9 / s.makespanNs.toFloat
  ttft : s.ttft.Describes (results.map RequestResult.ttftNs)
  tbt : s.tbt.Describes (results.map RequestResult.meanTbtNs)
  jct : s.jct.Describes (results.map RequestResult.jctNs)
  sloViolationsTtft : s.sloViolationsTtft = requests.countP (LlmRequest.ViolatesTtft results)
  sloViolationsTbt : s.sloViolationsTbt = requests.countP (LlmRequest.ViolatesTbt results)

variable {results : List RequestResult} {requests : List LlmRequest}

theorem exists_unwrap_min {values : List UInt64} (h : values ≠ []) :
    ∃ v ∈ values, unwrap values.min? = .ok v ∧ ∀ x ∈ values, v ≤ x := by
  cases hmin : values.min? with
  | none => exact absurd (List.min?_eq_none_iff.1 hmin) h
  | some v =>
    obtain ⟨hmem, hle⟩ := List.min?_eq_some_iff.1 hmin
    exact ⟨v, hmem, rfl, hle⟩

theorem exists_unwrap_max {values : List UInt64} (h : values ≠ []) :
    ∃ v ∈ values, unwrap values.max? = .ok v ∧ ∀ x ∈ values, x ≤ v := by
  cases hmax : values.max? with
  | none => exact absurd (List.max?_eq_none_iff.1 hmax) h
  | some v =>
    obtain ⟨hmem, hle⟩ := List.max?_eq_some_iff.1 hmax
    exact ⟨v, hmem, rfl, hle⟩

theorem exists_ofValues {values : List UInt64} (hne : values ≠ [])
    (hlength : values.length ≤ 2 ^ 45) :
    ∃ s, LatencyStats.ofValues values = .ok s ∧ s.Describes values := by
  obtain ⟨s, hs, hdescribes⟩ := LatencyStats.fromValues_spec hne hlength
  exact ⟨s, by rw [LatencyStats.ofValues, hs]; rfl, hdescribes⟩

theorem toNat_sum {values : List UInt64} (h : (values.map UInt64.toNat).sum < 2 ^ 64) :
    values.sum.toNat = (values.map UInt64.toNat).sum := by
  induction values with
  | nil => rfl
  | cons v rest ih =>
    rw [List.map_cons, List.sum_cons] at h ⊢
    rw [List.sum_cons, UInt64.toNat_add, ih (by omega), Nat.mod_eq_of_lt h]

/-- Fewer than `2 ^ 32` counters of 32 bits have a sum of 64 bits. -/
theorem toNat_sum_outputTokens (h : results.length < 2 ^ 32) :
    (results.map fun r : RequestResult => r.outputTokens.toUInt64).sum.toNat =
      (results.map fun r => r.outputTokens.toNat).sum := by
  have hbound : (results.map fun r => r.outputTokens.toNat).sum ≤
      results.length * (2 ^ 32 - 1) := by
    refine (List.sum_le_card_nsmul _ (2 ^ 32 - 1) fun n hn => ?_).trans (by simp)
    obtain ⟨r, -, rfl⟩ := List.mem_map.1 hn
    have := r.outputTokens.toNat_lt
    omega
  have hsame : (results.map fun r : RequestResult => r.outputTokens.toUInt64).map UInt64.toNat =
      results.map fun r => r.outputTokens.toNat := by
    simp
  rw [toNat_sum (by rw [hsame]; omega), hsame]

/-- **The summary of results.** -/
theorem fromResults_spec (hne : results ≠ []) (hlength : results.length < 2 ^ 32) :
    ∃ s, fromResults results = .ok (some s) ∧ s.Describes results [] := by
  have hmap : ∀ f : RequestResult → UInt64, results.map f ≠ [] := fun f h =>
    hne (List.map_eq_nil_iff.1 h)
  have hshort : ∀ f : RequestResult → UInt64, (results.map f).length ≤ 2 ^ 45 := fun f => by
    rw [List.length_map]
    omega
  obtain ⟨start, hstart, hmin, hfirst⟩ := exists_unwrap_min (hmap (·.arrivalNs))
  obtain ⟨finish, hfinish, hmax, hlast⟩ := exists_unwrap_max (hmap (·.finishNs))
  obtain ⟨ttft, httft, httft'⟩ := exists_ofValues (hmap RequestResult.ttftNs) (hshort _)
  obtain ⟨tbt, htbt, htbt'⟩ := exists_ofValues (hmap RequestResult.meanTbtNs) (hshort _)
  obtain ⟨jct, hjct, hjct'⟩ := exists_ofValues (hmap RequestResult.jctNs) (hshort _)
  obtain ⟨first, hfirst', rfl⟩ := List.mem_map.1 hstart
  obtain ⟨last, hlast', rfl⟩ := List.mem_map.1 hfinish
  let makespanNs := max (last.finishNs.satSub first.arrivalNs) 1
  let totalOutputTokens := (results.map fun r => r.outputTokens.toUInt64).sum
  refine ⟨⟨results.length, totalOutputTokens, makespanNs,
    results.length.toFloat * 1e9 / makespanNs.toFloat,
    totalOutputTokens.toFloat * 1e9 / makespanNs.toFloat, ttft, tbt, jct, 0, 0⟩, ?_,
    { completedRequests := rfl
      totalOutputTokens := toNat_sum_outputTokens hlength
      makespanNs := ⟨first, hfirst', last, hlast', fun r hr => ⟨?_, ?_⟩, ?_⟩
      throughputReqS := rfl
      throughputTokenS := rfl
      ttft := httft'
      tbt := htbt'
      jct := hjct'
      sloViolationsTtft := rfl
      sloViolationsTbt := rfl }⟩
  · simp only [fromResults, if_neg hne, hmin, hmax, httft, htbt, hjct]
    rfl
  · exact hfirst _ (List.mem_map_of_mem hr)
  · exact hlast _ (List.mem_map_of_mem hr)
  · have hmono : Monotone UInt64.toNat := fun _ _ h => UInt64.le_iff_toNat_le.1 h
    rw [hmono.map_max, UInt64.toNat_satSub]
    rfl

/-- The objectives of the requests are counted on top of it. -/
theorem Describes.counting {s : ServingSummary} (h : s.Describes results []) :
    (s.counting results requests).Describes results requests :=
  { h with sloViolationsTtft := rfl, sloViolationsTbt := rfl }

/-- **The summary with objectives.** There is one if there are results, and one for
every request. -/
theorem fromResultsWithSlos_spec (requests : List LlmRequest)
    (hids : (results.map (·.requestId)).Nodup) (hlength : results.length < 2 ^ 32) :
    (¬(results ≠ [] ∧ Covered results requests) ∧ fromResultsWithSlos results requests = .ok none) ∨
    (results ≠ [] ∧ Covered results requests) ∧ ∃ s,
      fromResultsWithSlos results requests = .ok (some s) ∧ s.Describes results requests := by
  by_cases hne : results = []
  · refine .inl ⟨fun h => h.1 hne, ?_⟩
    rw [hne]
    rfl
  obtain ⟨s, hs, hdescribes⟩ := fromResults_spec hne hlength
  have hslos := applySlos_eq hids requests s
  by_cases hcovered : Covered results requests
  · rw [if_pos hcovered, leading_of_covered hcovered] at hslos
    refine .inr ⟨⟨hne, hcovered⟩, _, ?_, hdescribes.counting⟩
    simp only [fromResultsWithSlos, hs, Except.ok_bind, hslos]
    rfl
  · rw [if_neg hcovered] at hslos
    refine .inl ⟨fun h => hcovered h.2, ?_⟩
    simp only [fromResultsWithSlos, hs, Except.ok_bind, hslos]
    rfl

end ServingSummary

/-! ## The summaries of runs -/

/-- What `run_summary` is to make of the results of a run. -/
structure Summarised (requests : List LlmRequest) (results : List RequestResult)
    (summary : Option ServingSummary) : Prop where
  isSome : summary.isSome ↔ results ≠ [] ∧ Covered results requests
  describes : ∀ s ∈ summary, s.Describes results requests

theorem exists_summarised (requests : List LlmRequest) {results : List RequestResult}
    (hids : (results.map (·.requestId)).Nodup) (hlength : results.length < 2 ^ 32) :
    ∃ summary, ServingSummary.fromResultsWithSlos results requests = .ok summary ∧
      Summarised requests results summary := by
  rcases ServingSummary.fromResultsWithSlos_spec requests hids hlength with
    ⟨hnot, hnone⟩ | ⟨hall, s, hs, hdescribes⟩
  · exact ⟨none, hnone, by simpa using hnot, by simp⟩
  · exact ⟨some s, hs, by simpa using hall, by simpa using hdescribes⟩

/-- A run has at most as many results as requests. -/
theorem ServingState.Accounts.length_le {requests : List LlmRequest} {results : List RequestResult}
    {s : ServingState} (h : ServingState.Accounts requests results s) :
    results.length ≤ requests.length := by
  have hsub : results.map (·.requestId) ⊆ requests.map (·.requestId) := fun id hid => by
    obtain ⟨x, hx, rfl⟩ := List.mem_map.1 hid
    obtain ⟨q, hq, hreports⟩ := h.reports x hx
    rw [hreports.requestId]
    exact List.mem_map_of_mem ((sortRequests_perm requests).mem_iff.1 (mem_of_lastOf hq).1)
  simpa using (List.subperm_of_subset h.once hsub).length_le

theorem map_requestId_eq {results : List RequestResult} {l : List LlmRequest}
    (h : List.Forall₂ RequestResult.Reports results l) :
    results.map (·.requestId) = l.map (·.requestId) := by
  induction h with
  | nil => rfl
  | cons hx _ ih => rw [List.map_cons, List.map_cons, hx.requestId, ih]

/-- **Summaries of runs.** Whatever the trace, `run_summary` does not panic. It returns a summary if
and only if there are results and every request has one, and the summary says what it ought to. -/
theorem run_summaries (requests : List LlmRequest) (hlength : requests.length < 2 ^ 32) :
    (∀ r : EventDrivenRunner C, r.cluster.DistinctNodeIds → ∃ results r' summary,
      r.run requests = .ok (results, r') ∧ r.runSummary requests = .ok (summary, r') ∧
      Summarised requests results summary) ∧
    (∀ r : CacheAwareRunner C P T, r.cluster.DistinctNodeIds → ∃ results r' summary,
      r.run requests = .ok (results, r') ∧
      r.runSummary requests = .ok (summary.map fun s => (s, r'.hits), r') ∧
      Summarised requests results summary) ∧
    ∀ r : NoReuseRunner C, r.Staffed → DistinctIds requests → ∃ results r' summary,
      r.run requests = .ok (results, r') ∧ r.runSummary requests = .ok (summary, r') ∧
      Summarised requests results summary ∧ (summary.isSome ↔ requests ≠ []) := by
  refine ⟨fun r h => ?_, fun r h => ?_, fun r h hids => ?_⟩
  · obtain ⟨results, r', hrun, haccounts⟩ := r.run_accounts h requests
    obtain ⟨summary, hs, hsummarised⟩ := exists_summarised requests haccounts.once
      (haccounts.length_le.trans_lt hlength)
    refine ⟨results, r', summary, hrun, ?_, hsummarised⟩
    simp only [EventDrivenRunner.runSummary, hrun, Except.ok_bind, hs]
    rfl
  · obtain ⟨results, r', hrun, haccounts⟩ := r.run_accounts h requests
    obtain ⟨summary, hs, hsummarised⟩ := exists_summarised requests haccounts.once
      (haccounts.length_le.trans_lt hlength)
    refine ⟨results, r', summary, hrun, ?_, hsummarised⟩
    simp only [CacheAwareRunner.runSummary, hrun, Except.ok_bind, hs]
    rfl
  · obtain ⟨results, r', hrun, -, hreports⟩ := r.run_reports h requests
    have hsame : results.map (·.requestId) = (sortRequests requests).map (·.requestId) :=
      map_requestId_eq hreports
    have hperm := (sortRequests_perm requests).map (·.requestId)
    rw [← hsame] at hperm
    have hlen : results.length = requests.length := by simpa using hperm.length_eq
    obtain ⟨summary, hs, hsummarised⟩ := exists_summarised requests
      (hperm.nodup_iff.2 hids) (hlen.trans_lt hlength)
    have hcovered : Covered results requests := fun q hq => by
      obtain ⟨x, hx, hid⟩ := List.mem_map.1 (hperm.mem_iff.2 (List.mem_map_of_mem hq))
      exact ⟨x, hx, hid⟩
    refine ⟨results, r', summary, hrun, ?_, hsummarised, ?_⟩
    · simp only [NoReuseRunner.runSummary, hrun, Except.ok_bind, hs]
      rfl
    · rw [hsummarised.isSome, and_iff_left hcovered, ← List.length_pos_iff, hlen,
        List.length_pos_iff]

theorem run_summaries_two : ∃ results r' summary,
    (EventDrivenRunner.new ⟨1, 1, 1⟩ (.singleNode 1 1) unitCompute).run
      [.cold 7 0 8 2, .cold 8 5 8 2] = .ok (results, r') ∧
    (EventDrivenRunner.new ⟨1, 1, 1⟩ (.singleNode 1 1) unitCompute).runSummary
      [.cold 7 0 8 2, .cold 8 5 8 2] = .ok (summary, r') ∧
    Summarised [.cold 7 0 8 2, .cold 8 5 8 2] results summary :=
  (run_summaries (P := RemoteLru) (T := AnalyticalTransferModel) [.cold 7 0 8 2, .cold 8 5 8 2]
    (by simp)).1 (.new ⟨1, 1, 1⟩ (.singleNode 1 1) unitCompute) (by decide)

/-- A run that completes everything has a summary. -/
theorem exists_summary_of_completesAll {cluster : ClusterTopology} {requests : List LlmRequest}
    {results : List RequestResult} {s : ServingState}
    (h : ServingState.CompletesAll cluster requests results s) (hprefill : cluster.Serves .prefill)
    (hdecode : cluster.Serves .decode) (hne : requests ≠ []) (hlength : requests.length < 2 ^ 32) :
    ∃ summary, ServingSummary.fromResultsWithSlos results requests = .ok (some summary) ∧
      summary.completedRequests = (requests.map (·.requestId)).dedup.length ∧
      summary.Describes results requests := by
  have hperm := h.served hprefill hdecode
  have hmem : ∀ q ∈ requests, q.requestId ∈ results.map (·.requestId) := fun q hq =>
    hperm.mem_iff.2 (List.mem_dedup.2 (List.mem_map_of_mem hq))
  have hcovered : Covered results requests := fun q hq => by
    obtain ⟨x, hx, hid⟩ := List.mem_map.1 (hmem q hq)
    exact ⟨x, hx, hid⟩
  have hsome : results ≠ [] := by
    rintro rfl
    obtain ⟨q, hq⟩ := List.exists_mem_of_ne_nil requests hne
    exact absurd (hmem q hq) List.not_mem_nil
  rcases ServingSummary.fromResultsWithSlos_spec requests h.accounts.once
    (h.accounts.length_le.trans_lt hlength) with ⟨hnot, -⟩ | ⟨-, summary, hs, hdescribes⟩
  · exact absurd ⟨hsome, hcovered⟩ hnot
  · refine ⟨summary, hs, ?_, hdescribes⟩
    rw [hdescribes.completedRequests, ← hperm.length_eq, List.length_map]

/-- **Whoever runs a trace may unwrap its summary.** On an idle cluster that has GPUs for both
roles, either runner returns a summary of any trace that is not empty, and all its requests
are completed. -/
theorem idle_runs_summarised (config : ServingConfig) (cluster : ClusterTopology) (compute : C)
    (iterOrder : IterOrder) (transfer : T) (profile : ModelProfile) (placement : P)
    (requests : List LlmRequest) (hnodes : cluster.DistinctNodeIds) (hidle : cluster.AllIdle)
    (hprefill : cluster.Serves .prefill) (hdecode : cluster.Serves .decode) (hne : requests ≠ [])
    (hlength : requests.length < 2 ^ 32) :
    (∃ summary r', (EventDrivenRunner.new config cluster compute).runSummary requests =
      .ok (some summary, r') ∧
      summary.completedRequests = (requests.map (·.requestId)).dedup.length) ∧
    ∃ summary r', (CacheAwareRunner.new iterOrder config cluster compute transfer profile
      placement).runSummary requests = .ok (some (summary, r'.hits), r') ∧
      summary.completedRequests = (requests.map (·.requestId)).dedup.length := by
  constructor
  · obtain ⟨results, r', hrun, hall⟩ :=
      EventDrivenRunner.run_completesAll config cluster compute hnodes hidle requests
    obtain ⟨summary, hs, hcompleted, -⟩ :=
      exists_summary_of_completesAll hall hprefill hdecode hne hlength
    refine ⟨summary, r', ?_, hcompleted⟩
    simp only [EventDrivenRunner.runSummary, hrun, Except.ok_bind, hs]
    rfl
  · obtain ⟨results, r', hrun, hall⟩ := CacheAwareRunner.run_completesAll iterOrder config cluster
      compute transfer profile placement hnodes hidle requests
    obtain ⟨summary, hs, hcompleted, -⟩ :=
      exists_summary_of_completesAll hall hprefill hdecode hne hlength
    refine ⟨summary, r', ?_, hcompleted⟩
    simp only [CacheAwareRunner.runSummary, hrun, Except.ok_bind, hs]
    rfl

theorem idle_runs_summarised_two : ∃ summary r',
    (EventDrivenRunner.new ⟨1, 1, 1⟩ (.singleNode 1 1) unitCompute).runSummary
      [.cold 7 0 8 2, .cold 8 5 8 2] = .ok (some summary, r') ∧ summary.completedRequests = 2 :=
  (idle_runs_summarised ⟨1, 1, 1⟩ (.singleNode 1 1) unitCompute .ascending
    AnalyticalTransferModel.rdma400g .llama8bBf16Gqa (RemoteLru.mk 0) [.cold 7 0 8 2, .cold 8 5 8 2]
    (by decide) (by decide) (by decide) (by decide) (by simp) (by simp)).1

end KvFlowSim
