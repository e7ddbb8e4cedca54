import Mathlib.Order.Interval.Set.Disjoint
import Mathlib.Order.CompletePartialOrder
import KvFlowSim.Transfer.Queued

/-!
# The queued transfer model as a FIFO queue

A queued model answers like an analytical model that is asked at the time at which the NIC is free
(`QueuedTransferModel.estimate_eq`). Over any calls the NIC is never free earlier than before, and
it serves one remote transfer after another (`queued_fifo`).
-/

namespace KvFlowSim

/-- A call of `estimate`. -/
structure EstimateCall where
  nowNs : UInt64
  path : TransferPath
  bytes : UInt64

/-- A call of `estimate` that has been answered, with the models before and after it. -/
structure EstimateAnswer where
  before : QueuedTransferModel
  call : EstimateCall
  result : Except KvFlowError TransferEstimate
  after : QueuedTransferModel

namespace QueuedTransferModel

/-- The analytical model of the same parameters. -/
def analytical (m : QueuedTransferModel) : AnalyticalTransferModel where
  localGpuBps := m.localGpuBps
  localCpuBps := m.localCpuBps
  remoteMemoryBps := m.remoteMemoryBps
  remoteSsdBps := m.remoteSsdBps
  localGpuBaseNs := m.localGpuBaseNs
  localCpuBaseNs := m.localCpuBaseNs
  remoteMemoryBaseNs := m.remoteMemoryBaseNs
  remoteSsdBaseNs := m.remoteSsdBaseNs

/-- The answers to a sequence of calls. -/
def answers (m : QueuedTransferModel) : List EstimateCall → List EstimateAnswer
  | [] => []
  | call :: calls =>
    let (result, after) := m.estimate call.nowNs call.path call.bytes
    ⟨m, call, result, after⟩ :: after.answers calls

/-- When a transfer starts: a remote one waits for the NIC. -/
def startFor (m : QueuedTransferModel) (nowNs : UInt64) (path : TransferPath) : UInt64 :=
  if isRemote path then max nowNs m.nicBusyUntilNs else nowNs

end QueuedTransferModel

/-- The time that a transfer takes on the wire, cut off at the end of the time range. -/
def TransferEstimate.window (est : TransferEstimate) : Set UInt64 :=
  Set.Ico est.startNs (est.startNs.satAdd est.serializationNs)

namespace EstimateAnswer

/-- The answer is that of the analytical model `m`, behind the NIC. -/
structure Refines (m : AnalyticalTransferModel) (a : EstimateAnswer) : Prop where
  params : a.before.analytical = m ∧ a.after.analytical = m
  fails : ∀ e, a.result = .error e ↔ m.estimate a.call.nowNs a.call.path a.call.bytes = .error e
  failed : ∀ e, a.result = .error e → a.after = a.before
  atOnce : isRemote a.call.path = false →
    a.result = m.estimate a.call.nowNs a.call.path a.call.bytes ∧ a.after = a.before
  queued : isRemote a.call.path = true →
    a.result = m.estimate (max a.call.nowNs a.before.nicBusyUntilNs) a.call.path a.call.bytes
  nic : a.before.nicBusyUntilNs ≤ a.after.nicBusyUntilNs

/-- The later of two remote transfers starts when the NIC has done with the earlier one. -/
def InOrder (a b : EstimateAnswer) : Prop :=
  ∀ est est', a.result = .ok est → b.result = .ok est' →
    isRemote a.call.path = true → isRemote b.call.path = true →
      est.startNs.satAdd est.serializationNs ≤ est'.startNs ∧ Disjoint est.window est'.window

end EstimateAnswer

namespace QueuedTransferModel

variable {m : QueuedTransferModel} {call : EstimateCall} {calls : List EstimateCall}
  {a : EstimateAnswer} {nowNs bytes : UInt64} {path : TransferPath}

theorem analytical_estimate (m : QueuedTransferModel) (nowNs : UInt64) (path : TransferPath)
    (bytes : UInt64) : m.analytical.estimate nowNs path bytes =
      if (m.bandwidthAndLatency path).1 = 0 then
        .error (.invalidTransferModel "bandwidth must be positive")
      else
        let (bandwidthBps, baseLatencyNs) := m.bandwidthAndLatency path
        let serializationNs := serializationNs bytes bandwidthBps
        .ok { path, bytes, startNs := nowNs,
              finishNs := (nowNs.satAdd baseLatencyNs).satAdd serializationNs,
              baseLatencyNs, serializationNs, bandwidthBps } := by
  have hpath : m.analytical.bandwidthAndLatency path =
      if (m.bandwidthAndLatency path).1 = 0 then
        .error (.invalidTransferModel "bandwidth must be positive")
      else .ok (m.bandwidthAndLatency path) := by
    cases path <;> rfl
  rw [AnalyticalTransferModel.estimate, hpath]
  split_ifs <;> rfl

/-- The answer is that of the analytical model at the start of the transfer. -/
theorem estimate_fst (m : QueuedTransferModel) (nowNs : UInt64) (path : TransferPath)
    (bytes : UInt64) :
    (m.estimate nowNs path bytes).1 = m.analytical.estimate (m.startFor nowNs path) path bytes := by
  rw [analytical_estimate]
  simp only [estimate, startFor]
  split_ifs <;> rfl

/-- The NIC is taken until the end of a remote transfer, and nothing else changes. -/
theorem estimate_snd (m : QueuedTransferModel) (nowNs : UInt64) (path : TransferPath)
    (bytes : UInt64) :
    (m.estimate nowNs path bytes).2 = m ∧
        (isRemote path = false ∨ ∃ e, (m.estimate nowNs path bytes).1 = .error e) ∨
      isRemote path = true ∧ ∃ est, (m.estimate nowNs path bytes).1 = .ok est ∧
        est.startNs = max nowNs m.nicBusyUntilNs ∧ (m.estimate nowNs path bytes).2 =
          { m with nicBusyUntilNs := est.startNs.satAdd est.serializationNs } := by
  simp only [estimate]
  split_ifs with hzero hremote
  · exact .inl ⟨rfl, .inr ⟨_, rfl⟩⟩
  · exact .inr ⟨hremote, _, rfl, rfl, rfl⟩
  · exact .inl ⟨rfl, .inl (Bool.not_eq_true _ ▸ hremote)⟩

/-- Whether an estimate fails does not depend on the time. -/
theorem analytical_error (m : QueuedTransferModel) (nowNs nowNs' : UInt64) {e : KvFlowError}
    (h : m.analytical.estimate nowNs path bytes = .error e) :
    m.analytical.estimate nowNs' path bytes = .error e := by
  rw [analytical_estimate] at h ⊢
  split_ifs at h ⊢
  exact h

/-- **One call.** -/
theorem estimate_refines (m : QueuedTransferModel) (call : EstimateCall) :
    EstimateAnswer.Refines m.analytical ⟨m, call, (m.estimate call.nowNs call.path call.bytes).1,
      (m.estimate call.nowNs call.path call.bytes).2⟩ := by
  have hresult := m.estimate_fst call.nowNs call.path call.bytes
  have hspec := m.estimate_snd call.nowNs call.path call.bytes
  refine ⟨⟨rfl, ?_⟩, fun e => ?_, fun e he => ?_, fun hlocal => ⟨?_, ?_⟩, fun hremote => ?_, ?_⟩
  · rcases hspec with ⟨hsame, -⟩ | ⟨-, est, -, -, hsome⟩
    · exact congrArg analytical hsame
    · exact (congrArg analytical hsome).trans rfl
  · refine ⟨fun he => ?_, fun he => ?_⟩
    · exact m.analytical_error _ _ (hresult.symm.trans he)
    · exact hresult.trans (m.analytical_error _ _ he)
  · rcases hspec with ⟨hsame, -⟩ | ⟨-, est, hok, -, -⟩
    · exact hsame
    · cases hok.symm.trans he
  · exact hresult.trans (by rw [startFor, hlocal, if_neg Bool.false_ne_true])
  · rcases hspec with ⟨hsame, -⟩ | ⟨hremote, -⟩
    · exact hsame
    · cases hlocal.symm.trans hremote
  · exact hresult.trans (by rw [startFor, if_pos hremote])
  · rcases hspec with ⟨hsame, -⟩ | ⟨-, est, -, hstart, hsome⟩
    · exact (congrArg nicBusyUntilNs hsame).ge
    · refine le_trans ?_ (congrArg nicBusyUntilNs hsome).ge
      exact ((le_max_right _ _).trans hstart.ge).trans (UInt64.le_satAdd _ _)

theorem answers_cons (m : QueuedTransferModel) (call : EstimateCall) (calls : List EstimateCall) :
    m.answers (call :: calls) =
      ⟨m, call, (m.estimate call.nowNs call.path call.bytes).1,
        (m.estimate call.nowNs call.path call.bytes).2⟩ ::
      (m.estimate call.nowNs call.path call.bytes).2.answers calls := rfl

theorem map_call_answers (m : QueuedTransferModel) (calls : List EstimateCall) :
    (m.answers calls).map EstimateAnswer.call = calls := by
  induction calls generalizing m with
  | nil => rfl
  | cons call calls ih => rw [answers_cons, List.map_cons, ih]

/-- Every answer is that of the analytical model of the first parameters, and given when the NIC is
not free earlier than at first. -/
theorem refines_of_mem (ha : a ∈ m.answers calls) :
    a.Refines m.analytical ∧ m.nicBusyUntilNs ≤ a.before.nicBusyUntilNs := by
  induction calls generalizing m with
  | nil => exact absurd ha List.not_mem_nil
  | cons call calls ih =>
    have hfirst := m.estimate_refines call
    rw [answers_cons] at ha
    rcases List.mem_cons.1 ha with rfl | ha
    · exact ⟨hfirst, le_rfl⟩
    · obtain ⟨hrefines, hle⟩ := ih ha
      have hparams : (m.estimate call.nowNs call.path call.bytes).2.analytical = m.analytical :=
        hfirst.params.2
      exact ⟨hparams ▸ hrefines, hfirst.nic.trans hle⟩

/-- A remote transfer takes the NIC from its start to the end of its window. -/
theorem nic_of_remote (ha : a ∈ m.answers calls) {est : TransferEstimate} (hok : a.result = .ok est)
    (hremote : isRemote a.call.path = true) :
    a.before.nicBusyUntilNs ≤ est.startNs ∧
      a.after.nicBusyUntilNs = est.startNs.satAdd est.serializationNs := by
  induction calls generalizing m with
  | nil => exact absurd ha List.not_mem_nil
  | cons call calls ih =>
    rw [answers_cons] at ha
    rcases List.mem_cons.1 ha with rfl | ha
    · rcases m.estimate_snd call.nowNs call.path call.bytes with ⟨-, hlocal | ⟨e, he⟩⟩ |
        ⟨-, est', hok', hstart, hsome⟩
      · cases hlocal.symm.trans hremote
      · cases he.symm.trans hok
      · obtain rfl := Except.ok.inj (hok'.symm.trans hok)
        exact ⟨(le_max_right _ _).trans hstart.ge, congrArg nicBusyUntilNs hsome⟩
    · exact ih ha

/-- The answers come one after another. -/
theorem pairwise_answers (m : QueuedTransferModel) (calls : List EstimateCall) :
    (m.answers calls).Pairwise fun a b => a.after.nicBusyUntilNs ≤ b.before.nicBusyUntilNs := by
  induction calls generalizing m with
  | nil => exact .nil
  | cons call calls ih =>
    rw [answers_cons]
    exact List.pairwise_cons.2 ⟨fun b hb => (refines_of_mem hb).2, ih _⟩

theorem inOrder_of_nic {b : EstimateAnswer} (ha : a ∈ m.answers calls) (hb : b ∈ m.answers calls)
    (hle : a.after.nicBusyUntilNs ≤ b.before.nicBusyUntilNs) : a.InOrder b := by
  intro est est' hok hok' hremote hremote'
  have hend := (nic_of_remote ha hok hremote).2
  have hstart := (nic_of_remote hb hok' hremote').1
  have hbefore : est.startNs.satAdd est.serializationNs ≤ est'.startNs :=
    hend.ge.trans (hle.trans hstart)
  refine ⟨hbefore, Set.disjoint_left.2 fun t ht ht' => ?_⟩
  exact absurd (ht.2.trans_le hbefore) (not_lt.2 ht'.1)

/-- **The queued model is the analytical model behind one FIFO NIC.** -/
theorem queued_fifo (m : QueuedTransferModel) (calls : List EstimateCall) :
    (m.answers calls).map EstimateAnswer.call = calls ∧
      (∀ a ∈ m.answers calls, a.Refines m.analytical) ∧
      (m.answers calls).Pairwise fun a b =>
        a.after.nicBusyUntilNs ≤ b.before.nicBusyUntilNs ∧ a.InOrder b := by
  refine ⟨m.map_call_answers calls, fun a ha => (refines_of_mem ha).1, ?_⟩
  refine (m.pairwise_answers calls).imp_of_mem fun ha hb hle => ⟨hle, inOrder_of_nic ha hb hle⟩

end QueuedTransferModel

end KvFlowSim
