import KvFlowSim.Transfer.Model

/-!
# The queued transfer model

`transfer/queued.rs`: the analytical model behind a NIC that remote transfers share. A remote
estimate starts when the NIC is free and keeps it busy for the time on the wire.
-/

namespace KvFlowSim

/-- `QueuedTransferModel`. -/
structure QueuedTransferModel where
  localGpuBps : UInt64
  localCpuBps : UInt64
  remoteMemoryBps : UInt64
  remoteSsdBps : UInt64
  localGpuBaseNs : UInt64
  localCpuBaseNs : UInt64
  remoteMemoryBaseNs : UInt64
  remoteSsdBaseNs : UInt64
  nicBusyUntilNs : UInt64
  deriving DecidableEq

def isRemote : TransferPath → Bool
  | .remoteMemoryToGpu | .remoteSsdToGpu => true
  | _ => false

namespace QueuedTransferModel

def rdma400g : QueuedTransferModel where
  localGpuBps := 900000000000
  localCpuBps := 200000000000
  remoteMemoryBps := 400000000000
  remoteSsdBps := 64000000000
  localGpuBaseNs := 500
  localCpuBaseNs := 2000
  remoteMemoryBaseNs := 8000
  remoteSsdBaseNs := 80000
  nicBusyUntilNs := 0

/-- The `match path` at the head of both estimates. -/
def bandwidthAndLatency (m : QueuedTransferModel) : TransferPath → UInt64 × UInt64
  | .localGpuToGpu => (m.localGpuBps, m.localGpuBaseNs)
  | .localCpuToGpu => (m.localCpuBps, m.localCpuBaseNs)
  | .remoteMemoryToGpu => (m.remoteMemoryBps, m.remoteMemoryBaseNs)
  | .remoteSsdToGpu => (m.remoteSsdBps, m.remoteSsdBaseNs)

def estimate (m : QueuedTransferModel) (nowNs : UInt64) (path : TransferPath) (bytes : UInt64) :
    Except KvFlowError TransferEstimate × QueuedTransferModel :=
  let (bandwidthBps, baseLatencyNs) := m.bandwidthAndLatency path
  if bandwidthBps = 0 then (.error (.invalidTransferModel "bandwidth must be positive"), m)
  else
    let serializationNs := serializationNs bytes bandwidthBps
    let (startNs, m) :=
      if isRemote path then
        let start := max nowNs m.nicBusyUntilNs
        (start, { m with nicBusyUntilNs := start.satAdd serializationNs })
      else (nowNs, m)
    let finishNs := (startNs.satAdd baseLatencyNs).satAdd serializationNs
    (.ok { path, bytes, startNs, finishNs, baseLatencyNs, serializationNs, bandwidthBps }, m)

def estimateDuration (m : QueuedTransferModel) (path : TransferPath) (bytes : UInt64) :
    Except KvFlowError UInt64 :=
  let (bandwidthBps, baseLatencyNs) := m.bandwidthAndLatency path
  if bandwidthBps = 0 then .error (.invalidTransferModel "bandwidth must be positive")
  else .ok (baseLatencyNs.satAdd (serializationNs bytes bandwidthBps))

end QueuedTransferModel

instance : TransferModel QueuedTransferModel where
  estimate := QueuedTransferModel.estimate
  estimateDuration := QueuedTransferModel.estimateDuration

/-- Models of the same parameters answer alike from `since` on if their NICs are busy until the same
time or are both free by then. -/
theorem QueuedTransferModel.alike {since : UInt64} {m m' : QueuedTransferModel}
    (hparams : m' = { m with nicBusyUntilNs := m'.nicBusyUntilNs })
    (hnic : max since m'.nicBusyUntilNs = max since m.nicBusyUntilNs) :
    TransferModel.Alike since m m' := by
  refine ⟨fun a b => b = { a with nicBusyUntilNs := b.nicBusyUntilNs } ∧
    max since b.nicBusyUntilNs = max since a.nicBusyUntilNs, ⟨hparams, hnic⟩, ?_⟩
  rintro a b ⟨hab, hnic⟩
  have hpath : b.bandwidthAndLatency = a.bandwidthAndLatency := by
    funext path
    rw [hab]
    cases path <;> rfl
  refine ⟨?_, fun nowNs path bytes hnow => ?_⟩
  · funext path bytes
    simp only [TransferModel.estimateDuration, QueuedTransferModel.estimateDuration, hpath]
  · have hstart : max nowNs b.nicBusyUntilNs = max nowNs a.nicBusyUntilNs := by
      rw [← max_eq_left hnow, max_assoc, hnic, max_assoc]
    simp only [TransferModel.estimate, QueuedTransferModel.estimate, hpath, hstart]
    split_ifs
    · exact ⟨rfl, hab, hnic⟩
    · exact ⟨rfl, by rw [hab], rfl⟩
    · exact ⟨rfl, hab, hnic⟩

end KvFlowSim
