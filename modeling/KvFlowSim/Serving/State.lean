import KvFlowSim.Foundations.KeyedMap
import KvFlowSim.Core.Simulator
import KvFlowSim.Cluster.Topology
import KvFlowSim.Model.Compute
import KvFlowSim.Trace.Request
import KvFlowSim.Cache.Object

/-!
# The state of a serving run

What the event-driven and the cache-aware runner have in common: `serving/event.rs`,
`serving/inflight.rs`, the configuration and the results of `serving/runner.rs`, and from
`serving/scheduler.rs` the functions `start_prefill` and `start_decode` and the queue handling,
which `serving/cache_runner.rs` repeats word for word.

Prefill and decode are handled alike, so what is done for either is written once over a `Stage`: the
role it needs, its queue, its completion event and the function that starts it.
-/

namespace KvFlowSim

/-- `ServingConfig`. -/
structure ServingConfig where
  prefillWorkers : ℕ
  decodeWorkers : ℕ
  decodeBatchSize : UInt32
  deriving DecidableEq

/-- Every runner raises the three numbers to at least one. -/
def ServingConfig.clamped (config : ServingConfig) : ServingConfig where
  prefillWorkers := max config.prefillWorkers 1
  decodeWorkers := max config.decodeWorkers 1
  decodeBatchSize := max config.decodeBatchSize 1

/-- `RequestResult`. -/
structure RequestResult where
  requestId : UInt64
  sessionId : UInt64
  turnId : UInt32
  arrivalNs : UInt64
  prefillStartNs : UInt64
  prefillDoneNs : UInt64
  decodeStartNs : UInt64
  firstTokenNs : UInt64
  finishNs : UInt64
  promptTokens : UInt32
  outputTokens : UInt32
  deriving DecidableEq

namespace RequestResult

def arrivalKey (r : RequestResult) : ArrivalKey := toLex (r.arrivalNs, r.requestId)

def ttftNs (r : RequestResult) : UInt64 := r.firstTokenNs.satSub r.arrivalNs

def jctNs (r : RequestResult) : UInt64 := r.finishNs.satSub r.arrivalNs

/-- A quotient by zero is zero, as `checked_div(..).unwrap_or(0)` has it. -/
def meanTbtNs (r : RequestResult) : UInt64 :=
  if r.outputTokens ≤ 1 then 0
  else r.finishNs.satSub r.firstTokenNs / (r.outputTokens.satSub 1).toUInt64

end RequestResult

/-- The events that drive the simulation. -/
inductive ServingEvent
  | requestArrival (requestId : UInt64)
  | prefillDone (requestId : UInt64) (nodeId : NodeId) (gpuIdx : ℕ)
  | fetchDone (requestId : UInt64)
  | decodeDone (requestId : UInt64) (nodeId : NodeId) (gpuIdx : ℕ)
  deriving DecidableEq

/-- A request while it is being processed. -/
structure InFlightRequest where
  request : LlmRequest
  prefillStartNs : Option UInt64
  prefillDoneNs : Option UInt64
  decodeStartNs : Option UInt64
  firstTokenNs : Option UInt64
  finishNs : Option UInt64
  prefillNode : Option NodeId
  prefillGpu : Option ℕ
  decodeNode : Option NodeId
  decodeGpu : Option ℕ
  prefillTokens : UInt32
  /-- The tier from which a KV is being fetched. -/
  pendingFetchTier : Option TierKind
  deriving DecidableEq

namespace InFlightRequest

def new (request : LlmRequest) : InFlightRequest where
  request := request
  prefillStartNs := none
  prefillDoneNs := none
  decodeStartNs := none
  firstTokenNs := none
  finishNs := none
  prefillNode := none
  prefillGpu := none
  decodeNode := none
  decodeGpu := none
  prefillTokens := 0
  pendingFetchTier := none

def intoResult (r : InFlightRequest) : RequestResult where
  requestId := r.request.requestId
  sessionId := r.request.sessionId
  turnId := r.request.turnId
  arrivalNs := r.request.arrivalNs
  prefillStartNs := r.prefillStartNs.getD r.request.arrivalNs
  prefillDoneNs := r.prefillDoneNs.getD r.request.arrivalNs
  decodeStartNs := r.decodeStartNs.getD r.request.arrivalNs
  firstTokenNs := r.firstTokenNs.getD r.request.arrivalNs
  finishNs := r.finishNs.getD r.request.arrivalNs
  promptTokens := r.request.promptTokens
  outputTokens := r.request.outputTokens

/-- The id under which the request is in flight. -/
def id (r : InFlightRequest) : UInt64 := r.request.requestId

end InFlightRequest

/-- The `in_flight` map: it is filled with new requests and `request` never changes. -/
abbrev InFlightMap := KeyedMap InFlightRequest.id

/-! ## Starting a job -/

variable {C : Type} [ComputeModel C]

def startPrefill (sim : Simulator ServingEvent) (cluster : ClusterTopology) (compute : C)
    (inflight : InFlightRequest) (nodeId : NodeId) (gpuIdx : ℕ) (nowNs : UInt64) :
    Except Panic (Simulator ServingEvent × ClusterTopology × InFlightRequest) := do
  let promptTokens :=
    if inflight.prefillTokens = 0 then inflight.request.promptTokens else inflight.prefillTokens
  let duration := ComputeModel.prefillTimeNs compute promptTokens
  let doneNs := nowNs.satAdd duration
  let cluster ← cluster.setBusyUntil nodeId gpuIdx doneNs
  .ok (sim.schedule doneNs (.prefillDone inflight.request.requestId nodeId gpuIdx), cluster,
    { inflight with
      prefillStartNs := some nowNs
      prefillDoneNs := some doneNs
      prefillNode := some nodeId
      prefillGpu := some gpuIdx })

def startDecode (sim : Simulator ServingEvent) (cluster : ClusterTopology) (compute : C)
    (config : ServingConfig) (inflight : InFlightRequest) (nodeId : NodeId) (gpuIdx : ℕ)
    (nowNs : UInt64) :
    Except Panic (Simulator ServingEvent × ClusterTopology × InFlightRequest) := do
  let stepNs :=
    ComputeModel.decodeStepTimeNs compute config.decodeBatchSize inflight.request.promptTokens
  let totalDecodeNs := stepNs.satMul inflight.request.outputTokens.toUInt64
  let finishNs := nowNs.satAdd totalDecodeNs
  let firstTokenNs := nowNs.satAdd stepNs
  let cluster ← cluster.setBusyUntil nodeId gpuIdx finishNs
  .ok (sim.schedule finishNs (.decodeDone inflight.request.requestId nodeId gpuIdx), cluster,
    { inflight with
      decodeStartNs := some nowNs
      firstTokenNs := some firstTokenNs
      finishNs := some finishNs
      decodeNode := some nodeId
      decodeGpu := some gpuIdx })

/-- The two stages of serving a request. -/
inductive Stage
  | prefill
  | decode
  deriving DecidableEq

namespace Stage

def role : Stage → WorkerRole
  | prefill => .prefill
  | decode => .decode

/-- The completion event of the stage. -/
def doneEvent : Stage → UInt64 → NodeId → ℕ → ServingEvent
  | prefill => .prefillDone
  | decode => .decodeDone

def start (stage : Stage) (sim : Simulator ServingEvent) (cluster : ClusterTopology) (compute : C)
    (config : ServingConfig) (inflight : InFlightRequest) (nodeId : NodeId) (gpuIdx : ℕ)
    (nowNs : UInt64) : Except Panic (Simulator ServingEvent × ClusterTopology × InFlightRequest) :=
  match stage with
  | prefill => startPrefill sim cluster compute inflight nodeId gpuIdx nowNs
  | decode => startDecode sim cluster compute config inflight nodeId gpuIdx nowNs

end Stage

/-! ## The shared state and its operations -/

/-- The fields that both event-driven runners have. -/
structure ServingState where
  sim : Simulator ServingEvent
  cluster : ClusterTopology
  inFlight : InFlightMap
  prefillQueue : List UInt64
  decodeQueue : List UInt64
  results : List RequestResult

namespace ServingState

def new (cluster : ClusterTopology) : ServingState := ⟨.new, cluster, .empty, [], [], []⟩

def queue (s : ServingState) : Stage → List UInt64
  | .prefill => s.prefillQueue
  | .decode => s.decodeQueue

def setQueue (s : ServingState) : Stage → List UInt64 → ServingState
  | .prefill, q => { s with prefillQueue := q }
  | .decode, q => { s with decodeQueue := q }

/-- What `clear_state` does to the shared fields. -/
def clear (s : ServingState) : ServingState :=
  { s with sim := .new, inFlight := .empty, prefillQueue := [], decodeQueue := [], results := [] }

/-- Schedules the arrival of a request and puts it in flight. -/
def enter (s : ServingState) (req : LlmRequest) : ServingState :=
  { s with
    sim := s.sim.schedule req.arrivalNs (.requestArrival req.requestId)
    inFlight := s.inFlight.insert (.new req) }

/-- `for req in &sorted { .. }`. -/
def enterAll (s : ServingState) (sorted : List LlmRequest) : ServingState := sorted.foldl enter s

/-- What `run` returns: the results by arrival. -/
def takeResults (s : ServingState) : List RequestResult × ServingState :=
  (s.results.sortByKey RequestResult.arrivalKey, { s with results := [] })

variable (compute : C) (config : ServingConfig) (stage : Stage)

/-- `if let Some(inflight) = self.in_flight.get_mut(&request_id) { start_..(..) }`. -/
def start (s : ServingState) (requestId : UInt64) (gpu : NodeId × ℕ) (nowNs : UInt64) :
    Except Panic ServingState :=
  match s.inFlight.get requestId with
  | none => .ok s
  | some inflight => do
    let (sim, cluster, inflight) ←
      stage.start s.sim s.cluster compute config inflight gpu.1 gpu.2 nowNs
    .ok { s with sim, cluster, inFlight := s.inFlight.insert inflight }

/-- Starts the stage on an idle GPU or else queues the request for it. -/
def startOrQueue (s : ServingState) (requestId : UInt64) (nowNs : UInt64) :
    Except Panic ServingState := do
  match ← s.cluster.findIdleGpuFor nowNs stage.role with
  | some gpu => s.start compute config stage requestId gpu nowNs
  | none => .ok (s.setQueue stage (s.queue stage ++ [requestId]))

/-- `if let Some(inflight) = self.in_flight.get_mut(&request_id) { .. }`, after a prefill. -/
def startOrQueueDecode (s : ServingState) (requestId : UInt64) (nowNs : UInt64) :
    Except Panic ServingState :=
  match s.inFlight.get requestId with
  | none => .ok s
  | some _ => s.startOrQueue compute config .decode requestId nowNs

/-- The loop of `try_assign_prefill` and `try_assign_decode`; the list is the stage's queue. -/
def assign (nowNs : UInt64) : List UInt64 → ServingState → Except Panic ServingState
  | [], s => .ok s
  | requestId :: rest, s => do
    match ← s.cluster.findIdleGpuFor nowNs stage.role with
    | none => .ok s
    | some gpu =>
      let s ← (s.setQueue stage rest).start compute config stage requestId gpu nowNs
      assign nowNs rest s

def tryAssign (s : ServingState) (nowNs : UInt64) : Except Panic ServingState :=
  assign compute config stage nowNs (s.queue stage) s

/-- `if let Some(node) = self.cluster.node_mut(node_id) { node.gpus[gpu_idx].busy_until_ns =
now_ns }`. -/
def releaseGpu (s : ServingState) (nodeId : NodeId) (gpuIdx : ℕ) (nowNs : UInt64) :
    Except Panic ServingState := do
  let cluster ← s.cluster.setBusyUntil nodeId gpuIdx nowNs
  .ok { s with cluster }

/-- `if let Some(inflight) = self.in_flight.remove(&request_id) { self.results.push(..) }`. -/
def finish (s : ServingState) (requestId : UInt64) : ServingState :=
  match s.inFlight.get requestId with
  | none => s
  | some inflight =>
    { s with
      inFlight := s.inFlight.remove requestId
      results := s.results ++ [inflight.intoResult] }

/-! ## The start of a run -/

theorem enterAll_cons (s : ServingState) (req : LlmRequest) (rest : List LlmRequest) :
    s.enterAll (req :: rest) = (s.enter req).enterAll rest := rfl

@[simp] theorem cluster_enterAll (s : ServingState) (l : List LlmRequest) :
    (s.enterAll l).cluster = s.cluster := by
  induction l generalizing s with
  | nil => rfl
  | cons req rest ih => exact ih (s.enter req)

@[simp] theorem results_enterAll (s : ServingState) (l : List LlmRequest) :
    (s.enterAll l).results = s.results := by
  induction l generalizing s with
  | nil => rfl
  | cons req rest ih => exact ih (s.enter req)

@[simp] theorem queue_enterAll (s : ServingState) (l : List LlmRequest) (stage : Stage) :
    (s.enterAll l).queue stage = s.queue stage := by
  induction l generalizing s with
  | nil => rfl
  | cons req rest ih => exact (ih (s.enter req)).trans (by cases stage <;> rfl)

@[simp] theorem nowNs_enterAll (s : ServingState) (l : List LlmRequest) :
    (s.enterAll l).sim.nowNs = s.sim.nowNs := by
  induction l generalizing s with
  | nil => rfl
  | cons req rest ih => exact ih (s.enter req)

/-- The pending events of the start are the arrivals. -/
theorem kinds_enterAll (s : ServingState) (l : List LlmRequest) :
    (s.enterAll l).sim.pending.map (·.kind) =
      s.sim.pending.map (·.kind) ++ l.map fun req => .requestArrival req.requestId := by
  induction l generalizing s with
  | nil => simp [enterAll]
  | cons req rest ih =>
    rw [enterAll_cons, ih]
    simp [enter]

/-- The records of the start are new ones. -/
theorem get_enterAll (s : ServingState) (l : List LlmRequest) {id : UInt64} {r : InFlightRequest}
    (h : (s.enterAll l).inFlight.get id = some r) :
    s.inFlight.get id = some r ∨ ∃ req ∈ l, r = .new req := by
  induction l generalizing s with
  | nil => exact .inl h
  | cons req rest ih =>
    rcases ih (s.enter req) h with h | ⟨req', hreq', rfl⟩
    · rw [enter, KeyedMap.get_insert] at h
      split_ifs at h
      · exact .inr ⟨req, List.mem_cons_self, (Option.some.inj h).symm⟩
      · exact .inl h
    · exact .inr ⟨req', List.mem_cons_of_mem _ hreq', rfl⟩

/-- Every request of the trace is in flight at the start. -/
theorem isSome_get_enterAll (s : ServingState) (l : List LlmRequest) {id : UInt64}
    (h : (s.inFlight.get id).isSome ∨ id ∈ l.map (·.requestId)) :
    ((s.enterAll l).inFlight.get id).isSome := by
  induction l generalizing s with
  | nil => simpa [enterAll] using h
  | cons req rest ih =>
    refine ih (s.enter req) ?_
    rw [enter, KeyedMap.get_insert]
    split_ifs with hid
    · exact .inl rfl
    · refine h.imp_right fun hmem => (List.mem_cons.1 hmem).resolve_left hid

end ServingState

end KvFlowSim
