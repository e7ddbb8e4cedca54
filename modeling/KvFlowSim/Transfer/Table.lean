import KvFlowSim.Foundations.FiniteMap
import KvFlowSim.Transfer.Model

/-!
# The calibrated transfer model

`transfer/table.rs`: measured latencies by path and size, and an analytical model for what has not
been measured.
-/

namespace KvFlowSim

/-- `TableCalibratedTransferModel`. -/
structure TableCalibratedTransferModel where
  table : FiniteMap (TransferPath × UInt64) UInt64
  fallback : AnalyticalTransferModel

namespace TableCalibratedTransferModel

def new (fallback : AnalyticalTransferModel) : TableCalibratedTransferModel where
  table := ∅
  fallback := fallback

def addEntry (m : TableCalibratedTransferModel) (path : TransferPath) (bytes latencyNs : UInt64) :
    TableCalibratedTransferModel :=
  { m with table := m.table.insert (path, bytes) latencyNs }

def estimate (m : TableCalibratedTransferModel) (nowNs : UInt64) (path : TransferPath)
    (bytes : UInt64) : Except KvFlowError TransferEstimate :=
  match m.table.lookup (path, bytes) with
  | some latencyNs =>
    .ok { path, bytes, startNs := nowNs, finishNs := nowNs.satAdd latencyNs,
          baseLatencyNs := latencyNs, serializationNs := 0, bandwidthBps := 0 }
  | none => m.fallback.estimate nowNs path bytes

def estimateDuration (m : TableCalibratedTransferModel) (path : TransferPath) (bytes : UInt64) :
    Except KvFlowError UInt64 :=
  match m.table.lookup (path, bytes) with
  | some latencyNs => .ok latencyNs
  | none => m.fallback.estimateDuration path bytes

end TableCalibratedTransferModel

instance : TransferModel TableCalibratedTransferModel where
  estimate m nowNs path bytes := (m.estimate nowNs path bytes, m)
  estimateDuration := TableCalibratedTransferModel.estimateDuration

end KvFlowSim
