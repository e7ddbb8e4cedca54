import KvFlowSim.Serving.State

/-!
# The baseline runner

`serving/runner.rs`: requests are served one after another in the order of their arrival, each
reserving the prefill and the decode worker that is free first.
-/

namespace KvFlowSim

/-- `NoReuseRunner`. -/
structure NoReuseRunner (C : Type) where
  config : ServingConfig
  compute : C
  prefillBusyUntil : List UInt64
  decodeBusyUntil : List UInt64

/-- The index of the smallest busy time, the first on a tie; `0` for no workers. -/
def earliestWorker (workers : List UInt64) : ℕ :=
  ((workers.zipIdx.argmin fun p => p.1).map fun p => p.2).getD 0

namespace NoReuseRunner

variable {C : Type} [ComputeModel C]

def new (config : ServingConfig) (compute : C) : NoReuseRunner C where
  config := config.clamped
  compute := compute
  prefillBusyUntil := List.replicate config.clamped.prefillWorkers 0
  decodeBusyUntil := List.replicate config.clamped.decodeWorkers 0

/-- `workers[idx]`. -/
def busyAt (workers : List UInt64) (idx : ℕ) : Except Panic UInt64 :=
  match workers[idx]? with
  | none => .error .indexOutOfBounds
  | some t => .ok t

def runOne (r : NoReuseRunner C) (req : LlmRequest) :
    Except Panic (RequestResult × NoReuseRunner C) := do
  let prefillIdx := earliestWorker r.prefillBusyUntil
  let prefillStartNs := max req.arrivalNs (← busyAt r.prefillBusyUntil prefillIdx)
  let prefillDoneNs :=
    prefillStartNs.satAdd (ComputeModel.prefillTimeNs r.compute req.promptTokens)
  let decodeIdx := earliestWorker r.decodeBusyUntil
  let decodeStartNs := max prefillDoneNs (← busyAt r.decodeBusyUntil decodeIdx)
  let decodeStepNs :=
    ComputeModel.decodeStepTimeNs r.compute r.config.decodeBatchSize req.promptTokens
  let firstTokenNs := decodeStartNs.satAdd decodeStepNs
  let finishNs := decodeStartNs.satAdd (decodeStepNs.satMul req.outputTokens.toUInt64)
  .ok ({ requestId := req.requestId
         sessionId := req.sessionId
         turnId := req.turnId
         arrivalNs := req.arrivalNs
         prefillStartNs
         prefillDoneNs
         decodeStartNs
         firstTokenNs
         finishNs
         promptTokens := req.promptTokens
         outputTokens := req.outputTokens },
    { r with
      prefillBusyUntil := r.prefillBusyUntil.set prefillIdx prefillDoneNs
      decodeBusyUntil := r.decodeBusyUntil.set decodeIdx finishNs })

/-- `sorted.iter().map(|req| self.run_one(req)).collect()`. -/
def runAll : List LlmRequest → NoReuseRunner C → Except Panic (List RequestResult × NoReuseRunner C)
  | [], r => .ok ([], r)
  | req :: rest, r => do
    let (result, r) ← r.runOne req
    let (results, r) ← runAll rest r
    .ok (result :: results, r)

def run (r : NoReuseRunner C) (requests : List LlmRequest) :
    Except Panic (List RequestResult × NoReuseRunner C) :=
  runAll (sortRequests requests) r

end NoReuseRunner

end KvFlowSim
