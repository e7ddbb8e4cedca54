import KvFlowSim.Transfer.Queued
import KvFlowSim.Transfer.Table

/-!
# What-if scores and real fetches

`estimate_duration` answers without a state and without a time. It agrees with the duration of the
estimate for a real fetch, wherever that starts, up to the end of the time range (`scores_fetches`).
-/

namespace KvFlowSim

open TransferModel

/-- What `estimate_duration` says of a transfer is what `estimate` says at `nowNs`. -/
structure ScoresFetch {T : Type} [TransferModel T] (m : T) (nowNs : UInt64) (path : TransferPath)
    (bytes : UInt64) : Prop where
  fails : (∃ e, (estimate m nowNs path bytes).1 = .error e) ↔
    ∃ e, estimateDuration m path bytes = .error e
  duration : ∀ est d, (estimate m nowNs path bytes).1 = .ok est →
    estimateDuration m path bytes = .ok d → est.durationNs = min d (UInt64.maxValue - est.startNs)
  timeless : ∀ est d, (estimate m nowNs path bytes).1 = .ok est →
    estimateDuration m path bytes = .ok d →
    est.startNs.toNat + d.toNat ≤ UInt64.maxValue.toNat → est.durationNs = d

variable {nowNs bytes : UInt64} {path : TransferPath}

/-- An estimate that starts at `startNs` and takes `d`. -/
theorem ScoresFetch.of_sum {T : Type} [TransferModel T] {m : T}
    {est : TransferEstimate} {d : UInt64} (hest : (estimate m nowNs path bytes).1 = .ok est)
    (hd : estimateDuration m path bytes = .ok d) (hfinish : est.finishNs = est.startNs.satAdd d) :
    ScoresFetch m nowNs path bytes := by
  have hduration : est.durationNs = min d (UInt64.maxValue - est.startNs) := by
    rw [TransferEstimate.durationNs, hfinish, UInt64.satSub_satAdd]
  refine ⟨?_, fun est' d' hest' hd' => ?_, fun est' d' hest' hd' hle => ?_⟩
  · simp only [hest, hd, reduceCtorEq]
  · obtain rfl := Except.ok.inj (hest.symm.trans hest')
    obtain rfl := Except.ok.inj (hd.symm.trans hd')
    exact hduration
  · obtain rfl := Except.ok.inj (hest.symm.trans hest')
    obtain rfl := Except.ok.inj (hd.symm.trans hd')
    rw [TransferEstimate.durationNs, hfinish, ← UInt64.toNat_inj, UInt64.toNat_satSub,
      UInt64.toNat_satAdd]
    omega

/-- Both fail. -/
theorem ScoresFetch.of_error {T : Type} [TransferModel T] {m : T} {e e' : KvFlowError}
    (hest : (estimate m nowNs path bytes).1 = .error e)
    (hd : estimateDuration m path bytes = .error e') : ScoresFetch m nowNs path bytes := by
  refine ⟨?_, fun est d hest' => ?_, fun est d hest' => ?_⟩
  · simp only [hest, hd, Except.error.injEq, exists_eq']
  · cases hest.symm.trans hest'
  · cases hest.symm.trans hest'

theorem AnalyticalTransferModel.scoresFetch (m : AnalyticalTransferModel) (nowNs : UInt64)
    (path : TransferPath) (bytes : UInt64) : ScoresFetch m nowNs path bytes := by
  cases hpath : m.bandwidthAndLatency path with
  | error e =>
    have hest : (TransferModel.estimate m nowNs path bytes).1 = .error e := by
      simp only [TransferModel.estimate, AnalyticalTransferModel.estimate, hpath]
      rfl
    have hd : TransferModel.estimateDuration m path bytes = .error e := by
      simp only [TransferModel.estimateDuration, AnalyticalTransferModel.estimateDuration, hpath]
      rfl
    exact .of_error hest hd
  | ok p =>
    obtain ⟨bandwidthBps, base⟩ := p
    have hest : (TransferModel.estimate m nowNs path bytes).1 = .ok
        ⟨path, bytes, nowNs, (nowNs.satAdd base).satAdd (serializationNs bytes bandwidthBps), base,
          serializationNs bytes bandwidthBps, bandwidthBps⟩ := by
      simp only [TransferModel.estimate, AnalyticalTransferModel.estimate, hpath]
      rfl
    have hd : TransferModel.estimateDuration m path bytes =
        .ok (base.satAdd (serializationNs bytes bandwidthBps)) := by
      simp only [TransferModel.estimateDuration, AnalyticalTransferModel.estimateDuration, hpath]
      rfl
    exact .of_sum hest hd (UInt64.satAdd_assoc _ _ _)

theorem QueuedTransferModel.scoresFetch (m : QueuedTransferModel) (nowNs : UInt64)
    (path : TransferPath) (bytes : UInt64) : ScoresFetch m nowNs path bytes := by
  by_cases hzero : (m.bandwidthAndLatency path).1 = 0
  · have hest : (TransferModel.estimate m nowNs path bytes).1 =
        .error (.invalidTransferModel "bandwidth must be positive") := by
      simp only [TransferModel.estimate, QueuedTransferModel.estimate, if_pos hzero]
    have hd : TransferModel.estimateDuration m path bytes =
        .error (.invalidTransferModel "bandwidth must be positive") := by
      simp only [TransferModel.estimateDuration, QueuedTransferModel.estimateDuration, if_pos hzero]
    exact .of_error hest hd
  · -- whether the path is remote matters to the start only
    obtain ⟨est, hest, hfinish⟩ : ∃ est, (TransferModel.estimate m nowNs path bytes).1 = .ok est ∧
        est.finishNs = est.startNs.satAdd ((m.bandwidthAndLatency path).2.satAdd
          (serializationNs bytes (m.bandwidthAndLatency path).1)) := by
      simp only [TransferModel.estimate, QueuedTransferModel.estimate, if_neg hzero]
      exact ⟨_, rfl, UInt64.satAdd_assoc _ _ _⟩
    have hd : TransferModel.estimateDuration m path bytes =
        .ok ((m.bandwidthAndLatency path).2.satAdd
          (serializationNs bytes (m.bandwidthAndLatency path).1)) := by
      simp only [TransferModel.estimateDuration, QueuedTransferModel.estimateDuration, if_neg hzero]
    exact .of_sum hest hd hfinish

theorem TableCalibratedTransferModel.scoresFetch (m : TableCalibratedTransferModel) (nowNs : UInt64)
    (path : TransferPath) (bytes : UInt64) : ScoresFetch m nowNs path bytes := by
  cases hentry : m.table.lookup (path, bytes) with
  | none =>
    have hest : (TransferModel.estimate m nowNs path bytes).1 =
        (TransferModel.estimate m.fallback nowNs path bytes).1 := by
      simp only [TransferModel.estimate, TableCalibratedTransferModel.estimate, hentry]
    have hd : TransferModel.estimateDuration m path bytes =
        TransferModel.estimateDuration m.fallback path bytes := by
      simp only [TransferModel.estimateDuration,
        TableCalibratedTransferModel.estimateDuration, hentry]
    have h := m.fallback.scoresFetch nowNs path bytes
    exact ⟨by rw [hest, hd]; exact h.fails, by rw [hest, hd]; exact h.duration,
      by rw [hest, hd]; exact h.timeless⟩
  | some latencyNs =>
    have hest : (TransferModel.estimate m nowNs path bytes).1 =
        .ok ⟨path, bytes, nowNs, nowNs.satAdd latencyNs, latencyNs, 0, 0⟩ := by
      simp only [TransferModel.estimate, TableCalibratedTransferModel.estimate, hentry]
    have hd : TransferModel.estimateDuration m path bytes = .ok latencyNs := by
      simp only [TransferModel.estimateDuration,
        TableCalibratedTransferModel.estimateDuration, hentry]
    exact .of_sum hest hd rfl

/-- **What-if scores agree with real fetches**, in every state of the three transfer models. -/
theorem scores_fetches (nowNs : UInt64) (path : TransferPath) (bytes : UInt64) :
    (∀ m : AnalyticalTransferModel, ScoresFetch m nowNs path bytes) ∧
      (∀ m : QueuedTransferModel, ScoresFetch m nowNs path bytes) ∧
      ∀ m : TableCalibratedTransferModel, ScoresFetch m nowNs path bytes :=
  ⟨fun m => m.scoresFetch nowNs path bytes, fun m => m.scoresFetch nowNs path bytes,
    fun m => m.scoresFetch nowNs path bytes⟩

end KvFlowSim
