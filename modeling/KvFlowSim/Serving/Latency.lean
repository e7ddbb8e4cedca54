import KvFlowSim.Core.Percentile
import KvFlowSim.Serving.Metrics

/-!
# Latency statistics

`LatencyStats::from_values`: what it says about the values (`latency_stats`).
-/

namespace KvFlowSim

/-- `LatencyStats::from_values`. The sum is one of `u128`, which does not overflow. -/
def LatencyStats.fromValues (values : List UInt64) : Except Panic (Option LatencyStats) := do
  if values = [] then
    return none
  let values := values.sortByKey id
  let sum := (values.map UInt64.toNat).sum
  let minNs ← elementAt values 0
  let maxNs ← match values.getLast? with
    | none => .error .unwrapNone
    | some v => .ok v
  let p50Ns ← percentile values 0.50
  let p95Ns ← percentile values 0.95
  let p99Ns ← percentile values 0.99
  return some { minNs, maxNs, meanNs := sum.toFloat / values.length.toFloat, p50Ns, p95Ns, p99Ns }

variable {values values' : List UInt64}

/-- What statistics are to say about values. -/
structure LatencyStats.Describes (s : LatencyStats) (values : List UInt64) : Prop where
  ranked : Ranked values s.minNs s.maxNs s.p50Ns s.p95Ns s.p99Ns
  meanNs : s.meanNs = (values.map UInt64.toNat).sum.toFloat / values.length.toFloat

theorem LatencyStats.fromValues_spec (hne : values ≠ []) (hlength : values.length ≤ 2 ^ 45) :
    ∃ s, fromValues values = .ok (some s) ∧ s.Describes values := by
  have hperm := List.sortByKey_perm id values
  obtain ⟨minNs, maxNs, p50Ns, p95Ns, p99Ns, hmin, hmax, h50, h95, h99, hranked⟩ :=
    exists_ranked hne hlength
  refine ⟨⟨minNs, maxNs, (values.map UInt64.toNat).sum.toFloat / values.length.toFloat,
    p50Ns, p95Ns, p99Ns⟩, ?_, hranked, rfl⟩
  simp only [fromValues, if_neg hne, hmin, hmax, h50, h95, h99, hperm.length_eq,
    (hperm.map UInt64.toNat).sum_eq]
  rfl

/-- The order of the values does not matter. -/
theorem LatencyStats.fromValues_perm (hp : values'.Perm values) :
    fromValues values' = fromValues values := by
  have hnil : values' = [] ↔ values = [] := by
    rw [← List.length_eq_zero_iff, hp.length_eq, List.length_eq_zero_iff]
  have hsort : values'.sortByKey id = values.sortByKey id := List.sortByKey_id_eq_of_perm hp
  simp only [fromValues, hnil, hsort]

/-- **Latency statistics.** There are none without values. Of up to `2 ^ 45` values the least one,
the greatest one and the percentiles of the exact ranks are reported, in whatever order the
values stand. -/
theorem latency_stats (values : List UInt64) (hlength : values.length ≤ 2 ^ 45) :
    (values = [] ∧ LatencyStats.fromValues values = .ok none) ∨
    ∃ s, LatencyStats.fromValues values = .ok (some s) ∧ s.Describes values ∧
      (∀ v ∈ values, s.minNs ≤ v ∧ v ≤ s.maxNs) ∧
      (s.minNs ≤ s.p50Ns ∧ s.p50Ns ≤ s.p95Ns ∧ s.p95Ns ≤ s.p99Ns ∧ s.p99Ns ≤ s.maxNs) ∧
      ∀ values', values'.Perm values → LatencyStats.fromValues values' = .ok (some s) := by
  by_cases hne : values = []
  · exact .inl ⟨hne, by rw [hne]; rfl⟩
  obtain ⟨s, hs, hdescribes⟩ := LatencyStats.fromValues_spec hne hlength
  refine .inr ⟨s, hs, hdescribes, fun v hv => hdescribes.ranked.bounds hv,
    hdescribes.ranked.ordered, ?_⟩
  intro values' hp
  rw [LatencyStats.fromValues_perm hp, hs]

theorem latency_stats_four : ∃ s, LatencyStats.fromValues [40, 10, 30, 20] = .ok (some s) ∧
    s.Describes [40, 10, 30, 20] := by
  rcases latency_stats [40, 10, 30, 20] (by simp) with ⟨hnil, -⟩ | ⟨s, hs, hdescribes, -⟩
  · cases hnil
  · exact ⟨s, hs, hdescribes⟩

end KvFlowSim
