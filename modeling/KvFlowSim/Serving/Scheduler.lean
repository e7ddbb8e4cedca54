import KvFlowSim.Foundations.EventLoop
import KvFlowSim.Serving.State

/-!
# The event-driven runner

`serving/scheduler.rs`: prefill and decode workers as GPUs of a cluster, each request served in
first come, first served order by an event loop.
-/

namespace KvFlowSim

/-- `EventDrivenRunner`. -/
structure EventDrivenRunner (C : Type) extends ServingState where
  compute : C
  config : ServingConfig

namespace EventDrivenRunner

variable {C : Type} [ComputeModel C]

def new (config : ServingConfig) (cluster : ClusterTopology) (compute : C) :
    EventDrivenRunner C where
  toServingState := .new cluster
  compute := compute
  config := config.clamped

/-- Applies an operation of the shared state. -/
def onState (r : EventDrivenRunner C) (f : ServingState → Except Panic ServingState) :
    Except Panic (EventDrivenRunner C) :=
  (fun s => { r with toServingState := s }) <$> f r.toServingState

def tryAssignPrefill (r : EventDrivenRunner C) (nowNs : UInt64) :
    Except Panic (EventDrivenRunner C) :=
  r.onState (·.tryAssign r.compute r.config .prefill nowNs)

def tryAssignDecode (r : EventDrivenRunner C) (nowNs : UInt64) :
    Except Panic (EventDrivenRunner C) :=
  r.onState (·.tryAssign r.compute r.config .decode nowNs)

def onArrival (r : EventDrivenRunner C) (nowNs requestId : UInt64) :
    Except Panic (EventDrivenRunner C) :=
  r.onState (·.startOrQueue r.compute r.config .prefill requestId nowNs)

def onPrefillDone (r : EventDrivenRunner C) (nowNs requestId : UInt64) (nodeId : NodeId)
    (gpuIdx : ℕ) : Except Panic (EventDrivenRunner C) := do
  let r ← r.onState (·.releaseGpu nodeId gpuIdx nowNs)
  let r ← r.onState (·.startOrQueueDecode r.compute r.config requestId nowNs)
  let r ← r.tryAssignPrefill nowNs
  r.tryAssignDecode nowNs

def onDecodeDone (r : EventDrivenRunner C) (nowNs requestId : UInt64) (nodeId : NodeId)
    (gpuIdx : ℕ) : Except Panic (EventDrivenRunner C) := do
  let r ← r.onState (·.releaseGpu nodeId gpuIdx nowNs)
  let r ← r.onState fun s => .ok (s.finish requestId)
  let r ← r.tryAssignDecode nowNs
  r.tryAssignPrefill nowNs

def fetchPanic : Panic :=
  .explicit "EventDrivenRunner does not support KV fetch events; use CacheAwareRunner"

def handleEvent (r : EventDrivenRunner C) (nowNs : UInt64) :
    ServingEvent → Except Panic (EventDrivenRunner C)
  | .requestArrival requestId => r.onArrival nowNs requestId
  | .prefillDone requestId nodeId gpuIdx => r.onPrefillDone nowNs requestId nodeId gpuIdx
  | .fetchDone _ => .error fetchPanic
  | .decodeDone requestId nodeId gpuIdx => r.onDecodeDone nowNs requestId nodeId gpuIdx

/-- One turn of `while let Some((now_ns, event)) = self.sim.step() { .. }`. -/
def step (r : EventDrivenRunner C) : Except Panic (Option (EventDrivenRunner C)) :=
  match r.sim.step with
  | none => .ok none
  | some (nowNs, event, sim) => some <$> { r with sim }.handleEvent nowNs event

/-- `clear_state`. -/
def clearState (r : EventDrivenRunner C) : EventDrivenRunner C :=
  { r with toServingState := r.toServingState.clear }

/-- The runner at the start of its event loop. -/
def start (r : EventDrivenRunner C) (requests : List LlmRequest) : EventDrivenRunner C :=
  { r.clearState with
    toServingState := r.clearState.toServingState.enterAll (sortRequests requests) }

/-- `run`. The event loop is given four events for each request, which is all it needs. -/
def run (r : EventDrivenRunner C) (requests : List LlmRequest) :
    Except Panic (List RequestResult × EventDrivenRunner C) := do
  let r ← EventLoop.run step (4 * requests.length) (r.start requests)
  let (results, s) := r.takeResults
  .ok (results, { r with toServingState := s })

end EventDrivenRunner

end KvFlowSim
