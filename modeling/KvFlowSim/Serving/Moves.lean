import KvFlowSim.Foundations.EventLoop
import KvFlowSim.Serving.State

/-!
# Requests in motion

An abstract view of both event-driven runners. While an event is handled at most one request is held
in the hand: it came out of the event or out of a queue, and it leaves the hand onto a GPU, into a
queue, into a fetch or into the results. A `Move` is one such transfer, and the *budget* of the
held request counts the events that it may still cause, so that a request never goes back a stage.

An `Advance` is what handling one event amounts to: the completion event of a GPU releases it, then
requests move until the hand is empty. After every event but an arrival the queues have been
drained: a queue is empty or all GPUs of its role are busy.

The file ends with the moves that the operations of `ServingState` amount to. That the two runners
advance in this sense is proved with the runners, and what follows from it is proved here once for
both.
-/

namespace KvFlowSim

open Relation

namespace ServingEvent

def requestId : ServingEvent → UInt64
  | requestArrival id | prefillDone id _ _ | fetchDone id | decodeDone id _ _ => id

/-- The GPU whose job the event completes. -/
def completion : ServingEvent → Option (NodeId × ℕ)
  | prefillDone _ n i | decodeDone _ n i => some (n, i)
  | requestArrival _ | fetchDone _ => none

/-- The number of events a request still goes through, at most, from this one on. -/
def weight : ServingEvent → ℕ
  | requestArrival _ => 4
  | fetchDone _ => 3
  | prefillDone .. => 2
  | decodeDone .. => 1

end ServingEvent

namespace Stage

/-- The weight of a request that waits for the stage or undergoes it. -/
def weight : Stage → ℕ
  | prefill => 2
  | decode => 1

theorem forall_iff {p : Stage → Prop} : (∀ stage, p stage) ↔ p .prefill ∧ p .decode :=
  ⟨fun h => ⟨h .prefill, h .decode⟩, fun h stage => by cases stage; exacts [h.1, h.2]⟩

theorem role_eq (stage : Stage) : stage.role = .prefill ∨ stage.role = .decode := by
  cases stage
  · exact .inl rfl
  · exact .inr rfl

@[simp] theorem requestId_doneEvent (stage : Stage) (id : UInt64) (n : NodeId) (i : ℕ) :
    (stage.doneEvent id n i).requestId = id := by
  cases stage <;> rfl

@[simp] theorem completion_doneEvent (stage : Stage) (id : UInt64) (n : NodeId) (i : ℕ) :
    (stage.doneEvent id n i).completion = some (n, i) := by
  cases stage <;> rfl

@[simp] theorem weight_doneEvent (stage : Stage) (id : UInt64) (n : NodeId) (i : ℕ) :
    (stage.doneEvent id n i).weight = stage.weight := by
  cases stage <;> rfl

end Stage

/-! ## Jobs -/

/-- One stage of one request on a GPU, from `startNs` to `doneNs`. -/
structure Job where
  requestId : UInt64
  stage : Stage
  nodeId : NodeId
  gpuIdx : ℕ
  startNs : UInt64
  doneNs : UInt64
  deriving DecidableEq

/-- The job that the record of a request shows for a stage, once it has been started. -/
def InFlightRequest.job (r : InFlightRequest) : Stage → Option Job
  | .prefill =>
    match r.prefillNode, r.prefillGpu, r.prefillStartNs, r.prefillDoneNs with
    | some n, some i, some start, some done => some ⟨r.id, .prefill, n, i, start, done⟩
    | _, _, _, _ => none
  | .decode =>
    match r.decodeNode, r.decodeGpu, r.decodeStartNs, r.finishNs with
    | some n, some i, some start, some done => some ⟨r.id, .decode, n, i, start, done⟩
    | _, _, _, _ => none

/-- `r'` is the record `r` after job `j` was written into it. -/
structure InFlightRequest.Started (r : InFlightRequest) (j : Job) (r' : InFlightRequest) :
    Prop where
  request : r'.request = r.request
  pendingFetchTier : r'.pendingFetchTier = r.pendingFetchTier
  job : ∀ stage, r'.job stage = if stage = j.stage then some j else r.job stage

/-- What starting a stage does: the GPU is busy until a time that is not past, its completion event
is scheduled for then, and the record shows the job. -/
theorem Stage.start_spec {C : Type} [ComputeModel C] {compute : C} {config : ServingConfig}
    {stage : Stage} {sim sim' : Simulator ServingEvent} {cluster cluster' : ClusterTopology}
    {r r' : InFlightRequest} {n : NodeId} {i : ℕ} {now : UInt64}
    (h : stage.start sim cluster compute config r n i now = .ok (sim', cluster', r')) :
    ∃ done, now ≤ done ∧ cluster.setBusyUntil n i done = .ok cluster' ∧
      sim' = sim.schedule done (stage.doneEvent r.id n i) ∧
      r.Started ⟨r.id, stage, n, i, now, done⟩ r' := by
  cases stage with
  | prefill =>
    obtain ⟨c, hc, h⟩ := Except.bind_eq_ok.1 h
    cases h
    exact ⟨_, UInt64.le_satAdd _ _, hc, rfl, rfl, rfl, fun stage => by cases stage <;> rfl⟩
  | decode =>
    obtain ⟨c, hc, h⟩ := Except.bind_eq_ok.1 h
    cases h
    exact ⟨_, UInt64.le_satAdd _ _, hc, rfl, rfl, rfl, fun stage => by cases stage <;> rfl⟩

namespace ServingState

/-! ## Moves -/

/-- The request in the hand, with its budget. -/
abbrev Held := Option (UInt64 × ℕ)

/-- One transfer of a request at time `now`. Fetches are scheduled only by runners that are
`fetching`. -/
inductive Move (fetching : Prop) (now : UInt64) : ServingState × Held → ServingState × Held → Prop
  /-- Onto a GPU that was found idle. -/
  | start {s : ServingState} {id : UInt64} {budget : ℕ} {stage : Stage} {n : NodeId} {i : ℕ}
      {done : UInt64} {cluster : ClusterTopology} {r r' : InFlightRequest}
      (hbudget : stage.weight ≤ budget)
      (hgpu : s.cluster.findIdleGpuFor now stage.role = .ok (some (n, i)))
      (hdone : now ≤ done) (hcluster : s.cluster.setBusyUntil n i done = .ok cluster)
      (hr : s.inFlight.get id = some r) (hr' : r.Started ⟨id, stage, n, i, now, done⟩ r') :
      Move fetching now (s, some (id, budget))
        ({ s with
            sim := s.sim.schedule done (stage.doneEvent id n i)
            cluster := cluster
            inFlight := s.inFlight.insert r' }, none)
  /-- Into the queue of a stage, as all GPUs of its role are busy. -/
  | enqueue {s : ServingState} {id : UInt64} {budget : ℕ} {stage : Stage}
      (hbudget : stage.weight ≤ budget)
      (hgpu : s.cluster.findIdleGpuFor now stage.role = .ok none) :
      Move fetching now (s, some (id, budget)) (s.setQueue stage (s.queue stage ++ [id]), none)
  /-- Out of the queue of a stage. -/
  | dequeue {s : ServingState} {id : UInt64} {stage : Stage} {rest : List UInt64}
      (hqueue : s.queue stage = id :: rest) :
      Move fetching now (s, none) (s.setQueue stage rest, some (id, stage.weight))
  /-- Into a fetch. -/
  | fetch {s : ServingState} {id : UInt64} {budget : ℕ} {t : UInt64} (hfetching : fetching)
      (hbudget : 3 ≤ budget) :
      Move fetching now (s, some (id, budget))
        ({ s with sim := s.sim.schedule t (.fetchDone id) }, none)
  /-- Into the results. -/
  | finish {s : ServingState} {id : UInt64} {budget : ℕ} {r : InFlightRequest}
      (hr : s.inFlight.get id = some r) :
      Move fetching now (s, some (id, budget)) (s.finish id, none)
  /-- A request that is not in flight is let go. -/
  | drop {s : ServingState} {id : UInt64} {budget : ℕ} (hr : s.inFlight.get id = none) :
      Move fetching now (s, some (id, budget)) (s, none)
  /-- The notes on a request change, other than its jobs. -/
  | note {s : ServingState} {held : Held} {id : UInt64} {r r' : InFlightRequest}
      (hr : s.inFlight.get id = some r) (hrequest : r'.request = r.request)
      (hjob : r'.job = r.job) :
      Move fetching now (s, held) ({ s with inFlight := s.inFlight.insert r' }, held)

/-- Any number of moves at one time. -/
abbrev Moves (fetching : Prop) (now : UInt64) : ServingState × Held → ServingState × Held → Prop :=
  ReflTransGen (Move fetching now)

/-- An invariant of every move is an invariant of any number of them. -/
theorem Moves.invariant {fetching : Prop} {now : UInt64} {I : ServingState × Held → Prop}
    (hmove : ∀ x y, I x → Move fetching now x y → I y) {x y : ServingState × Held}
    (h : Moves fetching now x y) (hx : I x) : I y := by
  induction h with
  | refl => exact hx
  | tail _ hlast ih => exact hmove _ _ ih hlast

/-- All GPUs of a role are busy at time `now`. -/
def AllBusy (s : ServingState) (now : UInt64) (role : WorkerRole) : Prop :=
  ∀ n i gpu, s.cluster.gpuAt n i = some gpu → gpu.serves role = true → now < gpu.busyUntilNs

/-- The queue of a stage has been served as far as possible. -/
def Drained (s : ServingState) (now : UInt64) (stage : Stage) : Prop :=
  s.queue stage = [] ∨ s.AllBusy now stage.role

/-- The completion event of a GPU releases it. -/
def Released (now : UInt64) (kind : ServingEvent) (s s' : ServingState) : Prop :=
  match kind.completion with
  | none => s' = s
  | some (n, i) => s.releaseGpu n i now = .ok s'

/-- The effect of handling an event at time `now`. -/
def Handles (fetching : Prop) (now : UInt64) (kind : ServingEvent) (s s' : ServingState) : Prop :=
  ∃ s₁, Released now kind s s₁ ∧
    Moves fetching now (s₁, some (kind.requestId, kind.weight - 1)) (s', none) ∧
    (s₁.cluster.DistinctNodeIds → (∀ id, kind ≠ .requestArrival id) →
      ∀ stage, s'.Drained now stage)

/-- The step of the abstract machine: the next event is handled. -/
def Advance (fetching : Prop) (s s' : ServingState) : Prop :=
  ∃ now kind sim, s.sim.step = some (now, kind, sim) ∧ Handles fetching now kind { s with sim } s'

/-- A step handles the event that is next. -/
theorem Advance.handles {fetching : Prop} {now : UInt64} {kind : ServingEvent}
    {sim : Simulator ServingEvent} {s s' : ServingState} (h : Advance fetching s s')
    (hnext : s.sim.step = some (now, kind, sim)) : Handles fetching now kind { s with sim } s' := by
  obtain ⟨_, _, _, hnext', hhandles⟩ := h
  obtain ⟨rfl, rfl, rfl⟩ := by simpa using hnext.symm.trans hnext'
  exact hhandles

/-! ## The fields of an updated state -/

variable {s s' : ServingState} {stage : Stage} {q : List UInt64}

theorem queue_setQueue (s : ServingState) (stage other : Stage) (q : List UInt64) :
    (s.setQueue stage q).queue other = if other = stage then q else s.queue other := by
  cases stage <;> cases other <;> rfl

@[simp] theorem queue_setQueue_self (s : ServingState) (stage : Stage) (q : List UInt64) :
    (s.setQueue stage q).queue stage = q := by
  rw [queue_setQueue, if_pos rfl]

@[simp] theorem sim_setQueue : (s.setQueue stage q).sim = s.sim := by cases stage <;> rfl

@[simp] theorem cluster_setQueue : (s.setQueue stage q).cluster = s.cluster := by
  cases stage <;> rfl

@[simp] theorem inFlight_setQueue : (s.setQueue stage q).inFlight = s.inFlight := by
  cases stage <;> rfl

@[simp] theorem results_setQueue : (s.setQueue stage q).results = s.results := by
  cases stage <;> rfl

@[simp] theorem setQueue_queue (s : ServingState) (stage : Stage) :
    s.setQueue stage (s.queue stage) = s := by
  cases stage <;> rfl

@[simp] theorem setQueue_setQueue (s : ServingState) (stage : Stage) (q q' : List UInt64) :
    (s.setQueue stage q).setQueue stage q' = s.setQueue stage q' := by
  cases stage <;> rfl

@[simp] theorem sim_finish (s : ServingState) (id : UInt64) : (s.finish id).sim = s.sim := by
  unfold finish; split <;> rfl

@[simp] theorem cluster_finish (s : ServingState) (id : UInt64) :
    (s.finish id).cluster = s.cluster := by
  unfold finish; split <;> rfl

@[simp] theorem queue_finish (s : ServingState) (id : UInt64) (stage : Stage) :
    (s.finish id).queue stage = s.queue stage := by
  unfold finish; split <;> cases stage <;> rfl

/-! ## What moves keep -/

variable {fetching : Prop} {now : UInt64} {x y : ServingState × Held}

theorem Move.distinctNodeIds (h : Move fetching now x y) (hd : x.1.cluster.DistinctNodeIds) :
    y.1.cluster.DistinctNodeIds := by
  cases h with
  | start _ _ _ hcluster => exact hd.setBusyUntil hcluster
  | finish => simpa using hd
  | enqueue => simpa using hd
  | dequeue => simpa using hd
  | fetch => exact hd
  | drop => exact hd
  | note => exact hd

theorem Moves.distinctNodeIds (h : Moves fetching now x y) (hd : x.1.cluster.DistinctNodeIds) :
    y.1.cluster.DistinctNodeIds :=
  h.invariant (I := fun x => x.1.cluster.DistinctNodeIds)
    (fun _ _ hx hm => hm.distinctNodeIds hx) hd

/-- While all GPUs of a role are busy, no job is started on one of them. -/
theorem Move.allBusy (h : Move fetching now x y) (hd : x.1.cluster.DistinctNodeIds)
    {role : WorkerRole} (hb : x.1.AllBusy now role) : y.1.AllBusy now role := by
  cases h with
  | @start s id budget stage n i done cluster r r' _ hgpu _ hcluster =>
    intro m j gpu hgpu' hrole
    obtain ⟨idle, hidle, hle, -⟩ := ClusterTopology.idle_of_findIdleGpuFor hd hgpu
    by_cases hmj : m = n ∧ j = i
    · obtain ⟨rfl, rfl⟩ := hmj
      have hset := ClusterTopology.setBusyUntil_self hcluster
      rw [hidle, Option.map_some] at hset
      obtain rfl := Option.some.inj (hgpu'.symm.trans hset)
      exact absurd hle (hb m j idle hidle hrole).not_ge
    · rw [ClusterTopology.setBusyUntil_ne hcluster hmj] at hgpu'
      exact hb m j gpu hgpu' hrole
  | finish => simpa [AllBusy] using hb
  | enqueue => simpa [AllBusy] using hb
  | dequeue => simpa [AllBusy] using hb
  | fetch => exact hb
  | drop => exact hb
  | note => exact hb

theorem allBusy_of_findIdleGpuFor {role : WorkerRole} (hd : s.cluster.DistinctNodeIds)
    (h : s.cluster.findIdleGpuFor now role = .ok none) : s.AllBusy now role :=
  fun _ _ _ hgpu hrole => ClusterTopology.busy_of_findIdleGpuFor hd h hgpu hrole

/-- A queue that has been drained at some time stays so at that time. -/
theorem Move.drained (h : Move fetching now x y) (hd : x.1.cluster.DistinctNodeIds) {stage : Stage}
    (hx : x.1.Drained now stage) : y.1.Drained now stage := by
  rcases hx with hq | hb
  · cases h with
    | start => exact .inl (by cases stage <;> exact hq)
    | @enqueue s id budget stage' _ hgpu =>
      by_cases hst : stage = stage'
      · subst hst
        exact .inr (by simpa [AllBusy] using allBusy_of_findIdleGpuFor hd hgpu)
      · exact .inl (by rw [queue_setQueue, if_neg hst]; exact hq)
    | @dequeue s id stage' rest hqueue =>
      refine .inl ?_
      rw [queue_setQueue]
      split_ifs with hst
      · subst hst
        simp [hqueue] at hq
      · exact hq
    | fetch => exact .inl (by cases stage <;> exact hq)
    | finish => exact .inl (by simpa using hq)
    | drop => exact .inl hq
    | note => exact .inl (by cases stage <;> exact hq)
  · exact .inr (h.allBusy hd hb)

theorem Moves.drained (h : Moves fetching now x y) (hd : x.1.cluster.DistinctNodeIds)
    {stage : Stage} (hx : x.1.Drained now stage) : y.1.Drained now stage :=
  (h.invariant (I := fun x => x.1.cluster.DistinctNodeIds ∧ x.1.Drained now stage)
    (fun _ _ hx hm => ⟨hm.distinctNodeIds hx.1, hm.drained hx.1 hx.2⟩) ⟨hd, hx⟩).2

/-! ## The operations as moves -/

variable {C : Type} [ComputeModel C] {compute : C} {config : ServingConfig} {id : UInt64}
  {budget : ℕ}

theorem start_moves {n : NodeId} {i : ℕ} (hbudget : stage.weight ≤ budget)
    (hgpu : s.cluster.findIdleGpuFor now stage.role = .ok (some (n, i)))
    (h : s.start compute config stage id (n, i) now = .ok s') :
    Moves fetching now (s, some (id, budget)) (s', none) := by
  unfold start at h
  split at h
  next hr =>
    obtain rfl := Except.ok.inj h
    exact .single (.drop hr)
  next r hr =>
    obtain ⟨⟨sim, cluster, r'⟩, hstart, h⟩ := Except.bind_eq_ok.1 h
    obtain ⟨done, hdone, hcluster, rfl, hr'⟩ := Stage.start_spec hstart
    obtain rfl := Except.ok.inj h
    have hid : r.id = id := KeyedMap.key_of_get hr
    subst hid
    exact .single (.start hbudget hgpu hdone hcluster hr hr')

theorem startOrQueue_moves (h : s.startOrQueue compute config stage id now = .ok s')
    (hbudget : stage.weight ≤ budget) :
    Moves fetching now (s, some (id, budget)) (s', none) := by
  obtain ⟨gpu, hgpu, h⟩ := Except.bind_eq_ok.1 h
  cases gpu with
  | some gpu => exact start_moves hbudget hgpu h
  | none =>
    obtain rfl := Except.ok.inj h
    exact .single (.enqueue hbudget hgpu)

theorem startOrQueueDecode_moves (h : s.startOrQueueDecode compute config id now = .ok s')
    (hbudget : 1 ≤ budget) : Moves fetching now (s, some (id, budget)) (s', none) := by
  unfold startOrQueueDecode at h
  split at h
  next hr =>
    obtain rfl := Except.ok.inj h
    exact .single (.drop hr)
  next => exact startOrQueue_moves h hbudget

theorem queue_start {gpu : NodeId × ℕ} (h : s.start compute config stage id gpu now = .ok s')
    (other : Stage) : s'.queue other = s.queue other := by
  unfold start at h
  split at h
  · obtain rfl := Except.ok.inj h
    rfl
  · obtain ⟨_, -, h⟩ := Except.bind_eq_ok.1 h
    obtain rfl := Except.ok.inj h
    cases other <;> rfl

theorem assign_moves {q : List UInt64} (hq : s.queue stage = q)
    (h : assign compute config stage now q s = .ok s') :
    Moves fetching now (s, none) (s', none) ∧
      (s.cluster.DistinctNodeIds → s'.Drained now stage) := by
  induction q generalizing s with
  | nil =>
    obtain rfl := Except.ok.inj h
    exact ⟨.refl, fun _ => .inl hq⟩
  | cons id rest ih =>
    obtain ⟨gpu, hgpu, h⟩ := Except.bind_eq_ok.1 h
    cases gpu with
    | none =>
      obtain rfl := Except.ok.inj h
      exact ⟨.refl, fun hd => .inr (allBusy_of_findIdleGpuFor hd hgpu)⟩
    | some gpu =>
      obtain ⟨s₁, h₁, h⟩ := Except.bind_eq_ok.1 h
      have hmoves : Moves fetching now (s, none) (s₁, none) :=
        .head (.dequeue hq) (start_moves le_rfl (by simpa using hgpu) h₁)
      have hrest : s₁.queue stage = rest := by rw [queue_start h₁, queue_setQueue_self]
      obtain ⟨htail, hdrained⟩ := ih hrest h
      exact ⟨hmoves.trans htail, fun hd => hdrained (hmoves.distinctNodeIds hd)⟩

theorem tryAssign_moves (h : s.tryAssign compute config stage now = .ok s') :
    Moves fetching now (s, none) (s', none) ∧
      (s.cluster.DistinctNodeIds → s'.Drained now stage) :=
  assign_moves rfl h

end ServingState

end KvFlowSim
