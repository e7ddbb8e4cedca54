import KvFlowSim.Foundations.UInt
import KvFlowSim.Error

/-!
# Transfer models

`transfer/mod.rs` and `transfer/analytical.rs`: the trait `TransferModel`, whose `estimate` may
advance a queue inside the model while `estimate_duration` cannot, and the analytical model with a
bandwidth and a base latency for each path.
-/

namespace KvFlowSim

/-- `TransferPath`. -/
inductive TransferPath
  | localGpuToGpu
  | localCpuToGpu
  | remoteMemoryToGpu
  | remoteSsdToGpu
  deriving DecidableEq

/-- `TransferEstimate`. -/
structure TransferEstimate where
  path : TransferPath
  bytes : UInt64
  startNs : UInt64
  finishNs : UInt64
  baseLatencyNs : UInt64
  serializationNs : UInt64
  bandwidthBps : UInt64
  deriving DecidableEq

def TransferEstimate.durationNs (est : TransferEstimate) : UInt64 := est.finishNs.satSub est.startNs

/-- The trait `TransferModel`. `estimate` takes `&mut self`, so it also returns the model left. -/
class TransferModel (T : Type) where
  estimate : T → UInt64 → TransferPath → UInt64 → Except KvFlowError TransferEstimate × T
  estimateDuration : T → TransferPath → UInt64 → Except KvFlowError UInt64

namespace TransferModel

variable {T : Type} [TransferModel T] {since nowNs : UInt64} {m m' : T}

/-- From `since` on two models answer alike, now and whatever they are asked. -/
def Alike (since : UInt64) (m m' : T) : Prop :=
  ∃ R : T → T → Prop, R m m' ∧ ∀ a b, R a b → estimateDuration b = estimateDuration a ∧
    ∀ nowNs path bytes, since ≤ nowNs →
      (estimate b nowNs path bytes).1 = (estimate a nowNs path bytes).1 ∧
        R (estimate a nowNs path bytes).2 (estimate b nowNs path bytes).2

theorem Alike.refl (since : UInt64) (m : T) : Alike since m m :=
  ⟨Eq, rfl, by rintro a _ rfl; exact ⟨rfl, fun _ _ _ _ => ⟨rfl, rfl⟩⟩⟩

theorem Alike.estimateDuration (h : Alike since m m') :
    TransferModel.estimateDuration m' = TransferModel.estimateDuration m := by
  obtain ⟨R, hR, hstep⟩ := h
  exact (hstep m m' hR).1

theorem Alike.estimate (h : Alike since m m') (hnow : since ≤ nowNs) (path : TransferPath)
    (bytes : UInt64) :
    (estimate m' nowNs path bytes).1 = (estimate m nowNs path bytes).1 ∧
      Alike since (estimate m nowNs path bytes).2 (estimate m' nowNs path bytes).2 := by
  obtain ⟨R, hR, hstep⟩ := h
  obtain ⟨hanswer, hR'⟩ := (hstep m m' hR).2 nowNs path bytes hnow
  exact ⟨hanswer, R, hR', hstep⟩

end TransferModel

/-- `AnalyticalTransferModel`. -/
structure AnalyticalTransferModel where
  localGpuBps : UInt64
  localCpuBps : UInt64
  remoteMemoryBps : UInt64
  remoteSsdBps : UInt64
  localGpuBaseNs : UInt64
  localCpuBaseNs : UInt64
  remoteMemoryBaseNs : UInt64
  remoteSsdBaseNs : UInt64
  deriving DecidableEq

def AnalyticalTransferModel.rdma400g : AnalyticalTransferModel where
  localGpuBps := 900000000000
  localCpuBps := 200000000000
  remoteMemoryBps := 400000000000
  remoteSsdBps := 64000000000
  localGpuBaseNs := 500
  localCpuBaseNs := 2000
  remoteMemoryBaseNs := 8000
  remoteSsdBaseNs := 80000

/-- The time on the wire, `bytes * 8 * 10^9 / bandwidth` in `u128`, cut off at `u64::MAX`. The
product of a word with `8 * 10^9` fits `u128`. -/
def serializationNs (bytes bandwidthBps : UInt64) : UInt64 :=
  .ofNat (min (bytes.toNat * 8 * 1000000000 / bandwidthBps.toNat) UInt64.maxValue.toNat)

namespace AnalyticalTransferModel

def bandwidthAndLatency (m : AnalyticalTransferModel) (path : TransferPath) :
    Except KvFlowError (UInt64 × UInt64) :=
  let (bandwidthBps, baseLatencyNs) := match path with
    | .localGpuToGpu => (m.localGpuBps, m.localGpuBaseNs)
    | .localCpuToGpu => (m.localCpuBps, m.localCpuBaseNs)
    | .remoteMemoryToGpu => (m.remoteMemoryBps, m.remoteMemoryBaseNs)
    | .remoteSsdToGpu => (m.remoteSsdBps, m.remoteSsdBaseNs)
  if bandwidthBps = 0 then .error (.invalidTransferModel "bandwidth must be positive")
  else .ok (bandwidthBps, baseLatencyNs)

def estimate (m : AnalyticalTransferModel) (nowNs : UInt64) (path : TransferPath) (bytes : UInt64) :
    Except KvFlowError TransferEstimate := do
  let (bandwidthBps, baseLatencyNs) ← m.bandwidthAndLatency path
  let serializationNs := serializationNs bytes bandwidthBps
  let finishNs := (nowNs.satAdd baseLatencyNs).satAdd serializationNs
  .ok { path, bytes, startNs := nowNs, finishNs, baseLatencyNs, serializationNs, bandwidthBps }

def estimateDuration (m : AnalyticalTransferModel) (path : TransferPath) (bytes : UInt64) :
    Except KvFlowError UInt64 := do
  let (bandwidthBps, baseLatencyNs) ← m.bandwidthAndLatency path
  .ok (baseLatencyNs.satAdd (serializationNs bytes bandwidthBps))

end AnalyticalTransferModel

instance : TransferModel AnalyticalTransferModel where
  estimate m nowNs path bytes := (m.estimate nowNs path bytes, m)
  estimateDuration := AnalyticalTransferModel.estimateDuration

end KvFlowSim
