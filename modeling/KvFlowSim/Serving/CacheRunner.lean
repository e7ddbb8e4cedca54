import KvFlowSim.Foundations.EventLoop
import KvFlowSim.Serving.State
import KvFlowSim.Policy.Placement

/-!
# The cache-aware runner

`serving/cache_runner.rs`: the event loop with a look-up in the KV cache on arrival, a fetch event
for the hits that are not on a GPU, and a placement after each prefill. The handlers repeat those of
the event-driven runner where no cache is involved.

The counters of `CacheHitStats` grow by one at a time and are natural numbers here. The bytes and
tokens that the runner adds up are words, with the wrapping or saturating addition of the source.
-/

namespace KvFlowSim

/-- `CacheHitStats`. -/
structure CacheHitStats where
  hitsGpu : ℕ := 0
  hitsCpu : ℕ := 0
  hitsRemote : ℕ := 0
  misses : ℕ := 0
  fetchErrors : ℕ := 0
  placementErrors : ℕ := 0
  pendingFetches : ℕ := 0
  deriving DecidableEq

/-- `CacheAwareRunner`. -/
structure CacheAwareRunner (C P T : Type) extends ServingState where
  compute : C
  transfer : T
  profile : ModelProfile
  cache : CacheState
  placement : P
  config : ServingConfig
  hits : CacheHitStats
  evictedBytes : UInt64
  recomputedTokens : UInt64
  fetchedBytes : UInt64

namespace CacheAwareRunner

variable {C P T : Type} [ComputeModel C] [PlacementPolicy P] [TransferModel T]

/-- The capacities that a node brings to the cache. -/
def addCapacities (cache : CacheState) (node : ServingNode) : CacheState :=
  ((((cache.setCapacity node.nodeId .gpu node.totalHbmBytes).setCapacity
    node.nodeId .cpu node.cpuMemBytes).setCapacity
    node.nodeId .localSsd node.localSsdBytes).setCapacity
    node.nodeId .remoteMemory node.cpuMemBytes).setCapacity
    node.nodeId .remoteSsd node.localSsdBytes

/-- `new`; the seed of the hasher, which the source draws here, is the argument `iterOrder`. -/
def new (iterOrder : IterOrder) (config : ServingConfig) (cluster : ClusterTopology) (compute : C)
    (transfer : T) (profile : ModelProfile) (placement : P) : CacheAwareRunner C P T where
  toServingState := .new cluster
  compute := compute
  transfer := transfer
  profile := profile
  cache := cluster.nodes.foldl addCapacities (.new iterOrder)
  placement := placement
  config := config.clamped
  hits := {}
  evictedBytes := 0
  recomputedTokens := 0
  fetchedBytes := 0

/-- Applies an operation of the shared state. -/
def onState (r : CacheAwareRunner C P T) (f : ServingState → Except Panic ServingState) :
    Except Panic (CacheAwareRunner C P T) :=
  (fun s => { r with toServingState := s }) <$> f r.toServingState

/-- Writes the record of a request that is in flight. -/
def setInFlight (r : CacheAwareRunner C P T) (inflight : InFlightRequest) :
    CacheAwareRunner C P T :=
  { r with inFlight := r.inFlight.insert inflight }

def tryAssignPrefill (r : CacheAwareRunner C P T) (nowNs : UInt64) :
    Except Panic (CacheAwareRunner C P T) :=
  r.onState (·.tryAssign r.compute r.config .prefill nowNs)

def tryAssignDecode (r : CacheAwareRunner C P T) (nowNs : UInt64) :
    Except Panic (CacheAwareRunner C P T) :=
  r.onState (·.tryAssign r.compute r.config .decode nowNs)

/-- `start_or_queue_remaining_prefill`. -/
def startOrQueueRemainingPrefill (r : CacheAwareRunner C P T) (nowNs requestId : UInt64) :
    Except Panic (CacheAwareRunner C P T) :=
  match r.inFlight.get requestId with
  | none => .ok r
  | some inflight =>
    let tokensToPrefill := inflight.request.newPromptTokens
    if tokensToPrefill = 0 then
      r.onState (·.startOrQueue r.compute r.config .decode requestId nowNs)
    else
      let r := r.setInFlight { inflight with prefillTokens := tokensToPrefill }
      let r := { r with recomputedTokens := r.recomputedTokens + tokensToPrefill.toUInt64 }
      r.onState (·.startOrQueue r.compute r.config .prefill requestId nowNs)

def degradeToMiss (r : CacheAwareRunner C P T) (nowNs requestId : UInt64) :
    Except Panic (CacheAwareRunner C P T) :=
  let hadPending := ((r.inFlight.get requestId).bind (·.pendingFetchTier)).isSome
  let hits := if hadPending then { r.hits with pendingFetches := r.hits.pendingFetches - 1 }
    else r.hits
  let r := { r with hits := { hits with misses := hits.misses + 1 } }
  match r.inFlight.get requestId with
  | none => .ok r
  | some inflight =>
    let promptTokens := inflight.request.promptTokens
    let r := r.setInFlight { inflight with pendingFetchTier := none, prefillTokens := promptTokens }
    let r := { r with recomputedTokens := r.recomputedTokens.satAdd promptTokens.toUInt64 }
    r.onState (·.startOrQueue r.compute r.config .prefill requestId nowNs)

/-- The path of a fetch, for the locations from which one is made. -/
def fetchPath : CacheLocation → Option TransferPath
  | .cpu .. => some .localCpuToGpu
  | .remoteMemory .. => some .remoteMemoryToGpu
  | .remoteSsd .. => some .remoteSsdToGpu
  | _ => none

def countFetchError (r : CacheAwareRunner C P T) : CacheAwareRunner C P T :=
  { r with hits := { r.hits with fetchErrors := r.hits.fetchErrors + 1 } }

def handleFetch (r : CacheAwareRunner C P T) (nowNs requestId : UInt64) (kv : KvObject) :
    Except Panic (CacheAwareRunner C P T) :=
  match fetchPath kv.location with
  | none => r.countFetchError.degradeToMiss nowNs requestId
  | some path =>
    let (estimate, transfer) := TransferModel.estimate r.transfer nowNs path kv.bytes
    let r := { r with transfer }
    match estimate with
    | .error _ => r.countFetchError.degradeToMiss nowNs requestId
    | .ok e =>
      .ok { r with
        fetchedBytes := r.fetchedBytes + kv.bytes
        sim := r.sim.schedule e.finishNs (.fetchDone requestId) }

/-- The end of `on_arrival`: a miss, or nothing to reuse. -/
def missOnArrival (r : CacheAwareRunner C P T) (nowNs : UInt64) (inflight : InFlightRequest) :
    Except Panic (CacheAwareRunner C P T) :=
  let promptTokens := inflight.request.promptTokens
  let r := { r with
    hits := { r.hits with misses := r.hits.misses + 1 }
    recomputedTokens := r.recomputedTokens + promptTokens.toUInt64 }
  let r := r.setInFlight { inflight with prefillTokens := promptTokens }
  r.onState (·.startOrQueue r.compute r.config .prefill inflight.id nowNs)

/-- The branches of `on_arrival` that wait for a fetch: the credit is deferred
to `on_fetch_done`. -/
def fetchOnArrival (r : CacheAwareRunner C P T) (nowNs : UInt64) (inflight : InFlightRequest)
    (fetchTier : TierKind) (kv : KvObject) : Except Panic (CacheAwareRunner C P T) :=
  let r := { r with hits := { r.hits with pendingFetches := r.hits.pendingFetches + 1 } }
  let r := r.setInFlight { inflight with pendingFetchTier := some fetchTier }
  r.handleFetch nowNs inflight.id kv

/-- The immediate hit of `on_arrival`. -/
def hitOnArrival (r : CacheAwareRunner C P T) (nowNs : UInt64) (inflight : InFlightRequest)
    (kv : KvObject) : Except Panic (CacheAwareRunner C P T) :=
  let r := { r with
    hits := { r.hits with hitsGpu := r.hits.hitsGpu + 1 }
    cache := r.cache.updateAccess kv.kvId nowNs }
  r.startOrQueueRemainingPrefill nowNs inflight.id

/-- The KV that `on_arrival` finds for a request. -/
def reusableKv (r : CacheAwareRunner C P T) (inflight : InFlightRequest) : Option KvObject :=
  let reused := inflight.request.reusedPrefixTokens
  if 0 < reused then r.cache.lookup inflight.request.sessionId reused else none

def onArrival (r : CacheAwareRunner C P T) (nowNs requestId : UInt64) :
    Except Panic (CacheAwareRunner C P T) :=
  match r.inFlight.get requestId with
  | none => .ok r
  | some inflight =>
    match r.reusableKv inflight with
    | none => r.missOnArrival nowNs inflight
    | some kv =>
      match kv.location with
      | .gpu .. => r.hitOnArrival nowNs inflight kv
      | .cpu .. => r.fetchOnArrival nowNs inflight .cpu kv
      | .remoteMemory .. => r.fetchOnArrival nowNs inflight .remoteMemory kv
      | .remoteSsd .. => r.fetchOnArrival nowNs inflight .remoteSsd kv
      | _ => r.missOnArrival nowNs inflight

/-- The KV store step of `on_prefill_done`. -/
def storeKv (r : CacheAwareRunner C P T) (nowNs requestId : UInt64) : CacheAwareRunner C P T :=
  match r.inFlight.get requestId with
  | none => r
  | some inflight =>
    let prefixTokens := inflight.request.promptTokens
    if 0 < prefixTokens then
      let bytes := r.profile.kvBytes prefixTokens
      let (kvId, cache) := r.cache.allocKvId
      let placed := PlacementPolicy.place r.placement kvId inflight.request.sessionId prefixTokens
        bytes nowNs r.cluster cache r.compute r.transfer
      let r := { r with
        placement := placed.policy, cache := placed.cache, transfer := placed.transfer }
      match placed.result with
      | .ok (_, evicted) =>
        { r with evictedBytes := evicted.foldl (fun sum kv => sum.satAdd kv.bytes) r.evictedBytes }
      | .error _ =>
        { r with hits := { r.hits with placementErrors := r.hits.placementErrors + 1 } }
    else r

def onPrefillDone (r : CacheAwareRunner C P T) (nowNs requestId : UInt64) (nodeId : NodeId)
    (gpuIdx : ℕ) : Except Panic (CacheAwareRunner C P T) := do
  let r ← r.onState (·.releaseGpu nodeId gpuIdx nowNs)
  let r := r.storeKv nowNs requestId
  let r ← r.onState (·.startOrQueueDecode r.compute r.config requestId nowNs)
  let r ← r.tryAssignPrefill nowNs
  r.tryAssignDecode nowNs

/-- Credits the hit that `tier` was stashed for. -/
def creditFetch (hits : CacheHitStats) (tier : TierKind) : CacheHitStats :=
  let hits := { hits with pendingFetches := hits.pendingFetches - 1 }
  match tier with
  | .cpu => { hits with hitsCpu := hits.hitsCpu + 1 }
  | .remoteMemory | .remoteSsd => { hits with hitsRemote := hits.hitsRemote + 1 }
  | _ => hits

/-- The first half of `on_fetch_done`: takes the pending marker and credits the hit. -/
def takeFetch (r : CacheAwareRunner C P T) (requestId : UInt64) : CacheAwareRunner C P T :=
  match r.inFlight.get requestId with
  | none => r
  | some inflight =>
    match inflight.pendingFetchTier with
    | none => r
    | some tier =>
      { r.setInFlight { inflight with pendingFetchTier := none } with
        hits := creditFetch r.hits tier }

def onFetchDone (r : CacheAwareRunner C P T) (nowNs requestId : UInt64) :
    Except Panic (CacheAwareRunner C P T) := do
  let r := r.takeFetch requestId
  let r ← r.startOrQueueRemainingPrefill nowNs requestId
  let r ← r.tryAssignDecode nowNs
  r.tryAssignPrefill nowNs

def onDecodeDone (r : CacheAwareRunner C P T) (nowNs requestId : UInt64) (nodeId : NodeId)
    (gpuIdx : ℕ) : Except Panic (CacheAwareRunner C P T) := do
  let r ← r.onState (·.releaseGpu nodeId gpuIdx nowNs)
  let r ← r.onState fun s => .ok (s.finish requestId)
  let r ← r.tryAssignDecode nowNs
  r.tryAssignPrefill nowNs

def handleEvent (r : CacheAwareRunner C P T) (nowNs : UInt64) :
    ServingEvent → Except Panic (CacheAwareRunner C P T)
  | .requestArrival requestId => r.onArrival nowNs requestId
  | .prefillDone requestId nodeId gpuIdx => r.onPrefillDone nowNs requestId nodeId gpuIdx
  | .fetchDone requestId => r.onFetchDone nowNs requestId
  | .decodeDone requestId nodeId gpuIdx => r.onDecodeDone nowNs requestId nodeId gpuIdx

/-- One turn of `while let Some((now_ns, event)) = self.sim.step() { .. }`. -/
def step (r : CacheAwareRunner C P T) : Except Panic (Option (CacheAwareRunner C P T)) :=
  match r.sim.step with
  | none => .ok none
  | some (nowNs, event, sim) => some <$> { r with sim }.handleEvent nowNs event

/-- `clear_state`. The cache contents are kept across runs (warm cache). -/
def clearState (r : CacheAwareRunner C P T) : CacheAwareRunner C P T :=
  { r with
    toServingState := r.toServingState.clear
    hits := {}
    evictedBytes := 0
    recomputedTokens := 0
    fetchedBytes := 0 }

/-- The runner at the start of its event loop. -/
def start (r : CacheAwareRunner C P T) (requests : List LlmRequest) : CacheAwareRunner C P T :=
  { r.clearState with
    toServingState := r.clearState.toServingState.enterAll (sortRequests requests) }

/-- `run`. The event loop is given four events for each request, which is all it needs. -/
def run (r : CacheAwareRunner C P T) (requests : List LlmRequest) :
    Except Panic (List RequestResult × CacheAwareRunner C P T) := do
  let r ← EventLoop.run step (4 * requests.length) (r.start requests)
  let (results, s) := r.takeResults
  .ok (results, { r with toServingState := s })

end CacheAwareRunner

end KvFlowSim
