import KvFlowSim.Serving.NoPanic
import KvFlowSim.Policy.Lru
import Mathlib.Tactic.Abel

/-!
# No request is lost or duplicated

Every request of a trace is in one place at any time: in a pending event, in a queue, or in the
results. A move takes the held request to its next place, so the multiset of the requests in all
places is that of the trace throughout a run (`Tracked`). Each event lowers the number of events
that are still to come (`load`), so a run ends; and when no event is left the queues are empty,
because a request that waits would be attended by a completion event.
-/

namespace KvFlowSim

open Relation

namespace ServingState

/-! ## How many events are left -/

/-- An upper bound on the number of events still to come. -/
def load (s : ServingState) : ℕ :=
  (s.sim.pending.map fun ev => ev.kind.weight).sum + 2 * s.prefillQueue.length +
    s.decodeQueue.length

/-- The budget in the hand. -/
def budget : Held → ℕ
  | none => 0
  | some (_, b) => b

variable {fetching : Prop} {now : UInt64} {x y : ServingState × Held} {s s' s₁ : ServingState}

theorem load_setQueue (s : ServingState) (stage : Stage) (q : List UInt64) :
    (s.setQueue stage q).load + stage.weight * (s.queue stage).length =
      s.load + stage.weight * q.length := by
  cases stage <;> simp only [load, setQueue, queue, Stage.weight] <;> omega

@[simp] theorem load_finish (s : ServingState) (id : UInt64) : (s.finish id).load = s.load := by
  unfold finish
  split <;> rfl

theorem Move.load_le (h : Move fetching now x y) :
    y.1.load + budget y.2 ≤ x.1.load + budget x.2 := by
  cases h with
  | @start s id b stage n i done cluster r r' hbudget =>
    simp only [load, budget, Simulator.pending_schedule, List.map_append, List.map_cons,
      List.map_nil, List.sum_append, List.sum_cons, List.sum_nil, Stage.weight_doneEvent]
    omega
  | @enqueue s id b stage hbudget =>
    have := load_setQueue s stage (s.queue stage ++ [id])
    simp only [List.length_append, List.length_singleton, Nat.mul_add] at this
    simp only [budget]
    omega
  | @dequeue s id stage rest hqueue =>
    have := load_setQueue s stage rest
    simp only [hqueue, List.length_cons, Nat.mul_add] at this
    simp only [budget]
    omega
  | @fetch s id b t _ hbudget =>
    simp only [load, budget, Simulator.pending_schedule, List.map_append, List.map_cons,
      List.map_nil, List.sum_append, List.sum_cons, List.sum_nil, ServingEvent.weight]
    omega
  | finish => simp only [load_finish, budget]; omega
  | drop => simp only [budget]; omega
  | note => exact le_rfl

theorem Moves.load_le (h : Moves fetching now x y) :
    y.1.load + budget y.2 ≤ x.1.load + budget x.2 :=
  h.invariant (I := fun z => z.1.load + budget z.2 ≤ x.1.load + budget x.2)
    (fun _ _ hz hm => hm.load_le.trans hz) le_rfl

theorem ServingEvent.weight_pos (kind : ServingEvent) : 0 < kind.weight := by
  cases kind <;> exact Nat.succ_pos _

/-- An event lowers the load. -/
theorem Advance.load_lt (h : Advance fetching s s') : s'.load < s.load := by
  obtain ⟨now, kind, sim, hstep, s₁, hrel, hmoves, -⟩ := h
  obtain ⟨ev, rfl, hperm, -⟩ := Simulator.step_spec hstep
  have hload : s.load = s₁.load + ev.kind.weight := by
    rw [hrel.eq]
    have hsum := (hperm.map fun ev => ev.kind.weight).sum_eq
    simp only [load, hsum, List.map_cons, List.sum_cons]
    omega
  have hpos := ServingEvent.weight_pos ev.kind
  have hle := hmoves.load_le
  simp only [budget] at hle
  omega

/-! ## Where the requests are -/

/-- The requests that are still being processed. -/
def active (x : ServingState × Held) : Multiset UInt64 :=
  (x.1.sim.pending.map fun ev => ev.kind.requestId : Multiset UInt64) + x.1.prefillQueue +
    x.1.decodeQueue + (x.2.map Prod.fst).toList

/-- The requests that have a result. -/
def done (s : ServingState) : Multiset UInt64 := (s.results.map (·.requestId) : Multiset UInt64)

/-- Each request of `ids` is in one place, and in flight unless it is done. -/
structure Tracked (ids : Multiset UInt64) (x : ServingState × Held) : Prop where
  places : active x + x.1.done = ids
  inFlight : ∀ id ∈ active x, (x.1.inFlight.get id).isSome

theorem active_setQueue (s : ServingState) (held : Held) (stage : Stage) (q : List UInt64) :
    active (s.setQueue stage q, held) + (s.queue stage : Multiset UInt64) =
      active (s, held) + (q : Multiset UInt64) := by
  cases stage <;> simp only [active, setQueue, queue] <;> abel

@[simp] theorem active_held (s : ServingState) (id : UInt64) (b : ℕ) :
    active (s, some (id, b)) = id ::ₘ active (s, none) := by
  simp only [active, Option.map_some, Option.map_none, Option.toList_some, Option.toList_none,
    Multiset.coe_nil, add_zero, Multiset.coe_singleton]
  rw [add_comm, Multiset.singleton_add]

/-- A move carries the held request to its next place. -/
theorem Move.tracked {ids : Multiset UInt64} (hids : ids.Nodup) (h : Move fetching now x y)
    (hx : Tracked ids x) : Tracked ids y := by
  obtain ⟨hplaces, hin⟩ := hx
  cases h with
  | @start s id b stage n i done cluster r r' _ _ _ _ hr hr' =>
    have hactive : active ({ s with
        sim := s.sim.schedule done (stage.doneEvent id n i)
        cluster := cluster
        inFlight := s.inFlight.insert r' }, none) = active (s, some (id, b)) := by
      rw [active_held]
      simp only [active, Simulator.pending_schedule, List.map_append, List.map_cons, List.map_nil,
        Stage.requestId_doneEvent, ← Multiset.coe_add, Multiset.coe_singleton,
        ← Multiset.singleton_add]
      abel
    refine ⟨by rw [hactive]; exact hplaces, fun id' hmem => ?_⟩
    rw [hactive] at hmem
    simp only [KeyedMap.get_insert]
    split_ifs
    · rfl
    · exact hin id' hmem
  | @enqueue s id b stage =>
    have hactive : active (s.setQueue stage (s.queue stage ++ [id]), none) =
        active (s, some (id, b)) := by
      have := active_setQueue s none stage (s.queue stage ++ [id])
      rw [← Multiset.coe_add, Multiset.coe_singleton, ← add_assoc, add_right_comm] at this
      rw [add_right_cancel this, active_held, ← Multiset.singleton_add, add_comm]
    refine ⟨by rw [hactive]; simpa [ServingState.done] using hplaces, fun id' hmem => ?_⟩
    rw [hactive] at hmem
    simpa using hin id' hmem
  | @dequeue s id stage rest hqueue =>
    have hactive : active (s.setQueue stage rest, some (id, stage.weight)) = active (s, none) := by
      have := active_setQueue s none stage rest
      rw [hqueue, ← Multiset.cons_coe, ← Multiset.singleton_add, ← add_assoc] at this
      rw [active_held, ← add_right_cancel this, ← Multiset.singleton_add, add_comm]
    refine ⟨by rw [hactive]; simpa [ServingState.done] using hplaces, fun id' hmem => ?_⟩
    rw [hactive] at hmem
    simpa using hin id' hmem
  | @fetch s id b t =>
    have hactive : active ({ s with sim := s.sim.schedule t (.fetchDone id) }, none) =
        active (s, some (id, b)) := by
      rw [active_held]
      simp only [active, Simulator.pending_schedule, List.map_append, List.map_cons, List.map_nil,
        ServingEvent.requestId, ← Multiset.coe_add, Multiset.coe_singleton,
        ← Multiset.singleton_add]
      abel
    exact ⟨by rw [hactive]; exact hplaces, fun id' hmem => hin id' (hactive ▸ hmem)⟩
  | @finish s id b r hr =>
    have hid : r.id = id := KeyedMap.key_of_get hr
    have hactive : active (s.finish id, none) = active (s, none) := by
      simp only [ServingState.finish, hr, active]
    have hdone : (s.finish id).done = id ::ₘ s.done := by
      simp only [ServingState.finish, hr, ServingState.done, List.map_append, List.map_cons,
        List.map_nil, ← Multiset.coe_add, Multiset.coe_singleton, InFlightRequest.intoResult]
      rw [add_comm, Multiset.singleton_add]
      exact congrArg (· ::ₘ _) hid
    rw [active_held, Multiset.cons_add] at hplaces
    refine ⟨by rw [hactive, hdone, Multiset.add_cons]; exact hplaces, fun id' hmem => ?_⟩
    rw [hactive] at hmem
    -- the finished request is in no other place
    have hne : id' ≠ id := by
      rintro rfl
      rw [← hplaces, Multiset.nodup_cons] at hids
      exact hids.1 (Multiset.mem_add.2 (.inl hmem))
    simp only [ServingState.finish, hr, KeyedMap.get_remove, if_neg hne]
    exact hin id' (by rw [active_held]; exact Multiset.mem_cons_of_mem hmem)
  | @drop s id b hr =>
    have := hin id (by rw [active_held]; exact Multiset.mem_cons_self _ _)
    simp [hr] at this
  | @note s held id r r' hr hrequest =>
    refine ⟨hplaces, fun id' hmem => ?_⟩
    simp only [KeyedMap.get_insert]
    split_ifs
    · rfl
    · exact hin id' hmem

/-- The next event puts its request into the hand. -/
theorem Tracked.pop {ids : Multiset UInt64} {kind : ServingEvent} {sim : Simulator ServingEvent}
    (h : Tracked ids (s, none)) (hstep : s.sim.step = some (now, kind, sim)) (b : ℕ) :
    Tracked ids ({ s with sim := sim }, some (kind.requestId, b)) := by
  obtain ⟨ev, rfl, hperm, -⟩ := Simulator.step_spec hstep
  have hactive : active ({ s with sim := sim }, some (ev.kind.requestId, b)) =
    active (s, none) := by
    have hpending : (s.sim.pending.map fun ev => ev.kind.requestId : Multiset UInt64) =
        ev.kind.requestId ::ₘ (sim.pending.map fun ev => ev.kind.requestId : Multiset UInt64) :=
      Multiset.coe_eq_coe.2 (hperm.map _)
    rw [active_held]
    simp only [active, hpending, Multiset.cons_add]
  refine ⟨hactive ▸ h.places, fun id hmem => ?_⟩
  exact h.inFlight id (hactive ▸ hmem)

/-- The request in the hand is in no other place. -/
theorem Tracked.held_notMem {ids : Multiset UInt64} {id : UInt64} {b : ℕ} (hids : ids.Nodup)
    (h : Tracked ids (s, some (id, b))) : id ∉ active (s, none) := by
  have hnodup := hids
  rw [← h.places, active_held, Multiset.cons_add, Multiset.nodup_cons] at hnodup
  exact fun hmem => hnodup.1 (Multiset.mem_add.2 (.inl hmem))

theorem Advance.tracked {ids : Multiset UInt64} (hids : ids.Nodup) (h : Advance fetching s s')
    (hs : Tracked ids (s, none)) : Tracked ids (s', none) := by
  obtain ⟨now, kind, sim, hstep, s₁, hrel, hmoves, -⟩ := h
  refine hmoves.invariant (fun _ _ hx hm => hm.tracked hids hx) ?_
  have hpop := hs.pop hstep (kind.weight - 1)
  rw [hrel.eq]
  exact ⟨hpop.places, hpop.inFlight⟩

/-! ## Runs -/

/-- Some GPU of each role is there to serve the queues. -/
def CanServe (s : ServingState) : Prop :=
  ∀ stage : Stage, ∃ n i gpu, s.cluster.gpuAt n i = some gpu ∧ gpu.serves stage.role = true

theorem CanServe.of_roles (hs : s.CanServe) (hroles : ∀ n i gpu, s.cluster.gpuAt n i = some gpu →
    ∃ gpu', s'.cluster.gpuAt n i = some gpu' ∧ gpu'.role = gpu.role) : s'.CanServe := by
  intro stage
  obtain ⟨n, i, gpu, hgpu, hrole⟩ := hs stage
  obtain ⟨gpu', hgpu', hrole'⟩ := hroles n i gpu hgpu
  exact ⟨n, i, gpu', hgpu', by simpa [GpuResource.serves, hrole'] using hrole⟩

theorem Advance.canServe (h : Advance fetching s s') (hs : s.CanServe) : s'.CanServe := by
  obtain ⟨now, kind, sim, hstep, s₁, hrel, hmoves, -⟩ := h
  refine hmoves.invariant (I := fun x => x.1.CanServe)
    (fun _ _ hx hm => hx.of_roles fun _ _ _ => hm.gpuAt_role) ?_
  exact CanServe.of_roles hs fun _ _ _ => hrel.gpuAt_role

/-- What holds between any two events of a run on the requests `ids`. -/
structure Serving (fetching : Prop) (ids : Multiset UInt64) (s : ServingState) : Prop where
  scheduled : s.Scheduled
  attended : s.Attended
  fetches : FetchesOnlyIf fetching s
  canServe : s.CanServe
  tracked : Tracked ids (s, none)

theorem Advance.serving {ids : Multiset UInt64} (hids : ids.Nodup) (h : Advance fetching s s')
    (hs : Serving fetching ids s) : Serving fetching ids s' where
  scheduled := h.scheduled hs.scheduled
  attended := h.attended hs.scheduled hs.attended
  fetches := h.fetchesOnlyIf hs.fetches
  canServe := h.canServe hs.canServe
  tracked := h.tracked hids hs.tracked

/-- When no event is left nothing waits: all requests are done. -/
theorem Serving.done_eq {ids : Multiset UInt64} (hs : Serving fetching ids s)
    (hend : s.sim.pending = []) : s.done = ids := by
  have hqueue : ∀ stage, s.queue stage = [] := fun stage => by
    by_contra hne
    obtain ⟨n, i, gpu, hgpu, hrole⟩ := hs.canServe stage
    obtain ⟨ev, hev, -⟩ := hs.attended stage hne n i gpu hgpu hrole
    simp [hend] at hev
  have hactive : active (s, none) = 0 := by
    have hp : s.prefillQueue = [] := hqueue .prefill
    have hd : s.decodeQueue = [] := hqueue .decode
    simp [active, hend, hp, hd]
  simpa [hactive] using hs.tracked.places

/-- The ids of a trace. -/
def ids (requests : List LlmRequest) : Multiset UInt64 :=
  (requests.map (·.requestId) : Multiset UInt64)

/-- At the start every request is in one place, its arrival. -/
theorem tracked_start (cluster : ClusterTopology) (l : List LlmRequest) :
    Tracked (ids l) ((ServingState.new cluster).enterAll l, none) := by
  have hq : ∀ stage, ((ServingState.new cluster).enterAll l).queue stage = [] := fun stage => by
    rw [queue_enterAll]
    cases stage <;> rfl
  have hp : ((ServingState.new cluster).enterAll l).prefillQueue = [] := hq .prefill
  have hdq : ((ServingState.new cluster).enterAll l).decodeQueue = [] := hq .decode
  have hpending : (((ServingState.new cluster).enterAll l).sim.pending.map
      fun ev => ev.kind.requestId) = l.map (·.requestId) := by
    have := congrArg (List.map ServingEvent.requestId)
      (kinds_enterAll (ServingState.new cluster) l)
    simpa [ServingState.new, Function.comp_def, ServingEvent.requestId] using this
  have hactive : active ((ServingState.new cluster).enterAll l, none) = ids l := by
    simp [active, hp, hdq, hpending, ids]
  refine ⟨by rw [hactive]; simp [ServingState.done, ServingState.new], fun id hmem => ?_⟩
  rw [hactive] at hmem
  exact isSome_get_enterAll _ l (.inr (Multiset.mem_coe.1 hmem))

theorem serving_start {cluster : ClusterTopology} (hd : cluster.DistinctNodeIds)
    (hidle : cluster.AllIdle) (hprefill : cluster.Serves .prefill)
    (hdecode : cluster.Serves .decode) (l : List LlmRequest) :
    Serving fetching (ids l) ((ServingState.new cluster).enterAll l) where
  scheduled := scheduled_start hd hidle l
  attended := attended_start cluster l
  fetches := fetchesOnlyIf_start cluster l
  canServe := by
    intro stage
    rw [cluster_enterAll]
    cases stage
    · exact hprefill.gpuAt hd
    · exact hdecode.gpuAt hd
  tracked := tracked_start cluster l

theorem load_start (cluster : ClusterTopology) (l : List LlmRequest) :
    ((ServingState.new cluster).enterAll l).load = 4 * l.length := by
  have hp : ((ServingState.new cluster).enterAll l).queue .prefill =
      [] := by rw [queue_enterAll]; rfl
  have hd : ((ServingState.new cluster).enterAll l).queue .decode =
      [] := by rw [queue_enterAll]; rfl
  have hpending : (((ServingState.new cluster).enterAll l).sim.pending.map
      fun ev => ev.kind.weight) = l.map fun _ => 4 := by
    have := congrArg (List.map ServingEvent.weight) (kinds_enterAll (ServingState.new cluster) l)
    simpa [ServingState.new, Function.comp_def, ServingEvent.weight] using this
  simp only [queue] at hp hd
  simp [load, hp, hd, hpending, mul_comm]

/-! ## The seven places -/

end ServingState

namespace ServingEvent

def isArrivalOf (id : UInt64) : ServingEvent → Bool
  | requestArrival id' => id' = id
  | _ => false

def isFetchDoneOf (id : UInt64) : ServingEvent → Bool
  | fetchDone id' => id' = id
  | _ => false

def isPrefillDoneOf (id : UInt64) : ServingEvent → Bool
  | prefillDone id' _ _ => id' = id
  | _ => false

def isDecodeDoneOf (id : UInt64) : ServingEvent → Bool
  | decodeDone id' _ _ => id' = id
  | _ => false

/-- An event of a request is of one kind. -/
theorem one_kind (kind : ServingEvent) (id : UInt64) :
    (if kind.isArrivalOf id = true then 1 else 0) +
      (if kind.isFetchDoneOf id = true then 1 else 0) +
      (if kind.isPrefillDoneOf id = true then 1 else 0) +
      (if kind.isDecodeDoneOf id = true then 1 else 0) =
      if kind.requestId = id then 1 else 0 := by
  cases kind <;>
    simp only [isArrivalOf, isFetchDoneOf, isPrefillDoneOf, isDecodeDoneOf, requestId,
      decide_eq_true_eq, Bool.false_eq_true, if_false, add_zero, zero_add] <;>
    congr

end ServingEvent

namespace ServingState

/-- How many entries a request has in each place: the pending arrivals, the pending fetches, the
prefill queue, the pending prefill completions, the decode queue, the pending decode completions
and the results. -/
def entries (s : ServingState) (id : UInt64) : List ℕ :=
  [s.sim.pending.countP fun ev => ev.kind.isArrivalOf id,
    s.sim.pending.countP fun ev => ev.kind.isFetchDoneOf id,
    s.prefillQueue.count id,
    s.sim.pending.countP fun ev => ev.kind.isPrefillDoneOf id,
    s.decodeQueue.count id,
    s.sim.pending.countP fun ev => ev.kind.isDecodeDoneOf id,
    s.results.countP fun r => r.requestId = id]

theorem countP_kinds (l : List (Event ServingEvent)) (id : UInt64) :
    l.countP (fun ev => ev.kind.isArrivalOf id) + l.countP (fun ev => ev.kind.isFetchDoneOf id) +
      l.countP (fun ev => ev.kind.isPrefillDoneOf id) +
      l.countP (fun ev => ev.kind.isDecodeDoneOf id) =
      (l.map fun ev => ev.kind.requestId).count id := by
  induction l with
  | nil => rfl
  | cons ev l ih =>
    have hkind := ev.kind.one_kind id
    simp only [List.countP_cons, List.map_cons, List.count_cons, ← ih, beq_iff_eq]
    omega

theorem sum_entries (s : ServingState) (id : UInt64) :
    (s.entries id).sum = (active (s, none) + s.done).count id := by
  have hresults : (s.results.map (·.requestId)).count id =
      s.results.countP fun r => r.requestId = id := by
    simp [List.count, List.countP_map, Function.comp_def, beq_eq_decide]
  have hkinds := countP_kinds s.sim.pending id
  simp only [entries, List.sum_cons, List.sum_nil, active, done, Multiset.count_add,
    Multiset.coe_count, Option.map_none, Option.toList_none, List.count_nil, hresults, ← hkinds]
  omega

/-- A run serves every request of the trace once: at any time it has one entry in all, the run ends
within four events for each request, and then there is one result for each request. -/
structure ServedOnce {σ : Type} (step : σ → Except Panic (Option σ)) (state : σ → ServingState)
    (start : σ) (requests : List LlmRequest) : Prop where
  one_place : ∀ s, EventLoop.Reach step start s → ∀ req ∈ requests,
    ((state s).entries req.requestId).sum = 1
  bounded : ∀ n s, EventLoop.after step (fun _ => true) n start = some s → n ≤ 4 * requests.length
  ends : ∃ s, EventLoop.run step (4 * requests.length) start = .ok s ∧ step s = .ok none ∧
    ((state s).results.map (·.requestId)).Perm (requests.map (·.requestId))

/-- A loop that is given as many events as the load counts runs until no event is left. -/
theorem ServingLoop.run_halted {σ : Type} {step : σ → Except Panic (Option σ)}
    {state : σ → ServingState} (hloop : ServingLoop fetching step state) {n : ℕ} {start s : σ}
    (hload : (state start).load ≤ n) (h : EventLoop.run step n start = .ok s) :
    step s = .ok none := by
  have hzero : ∀ s, (state s).load = 0 → step s = .ok none := fun s hs => by
    rw [hloop.halted]
    rcases hp : (state s).sim.pending with _ | ⟨ev, rest⟩
    · rfl
    · have hpos := ServingEvent.weight_pos ev.kind
      simp only [load, hp, List.map_cons, List.sum_cons] at hs
      omega
  exact EventLoop.run_halted (fun s s' h => (hloop.advance s s' h).load_lt) hzero hload h

theorem servedOnce_of_loop {σ : Type} {step : σ → Except Panic (Option σ)}
    {state : σ → ServingState} {start : σ} {requests : List LlmRequest}
    (hloop : ServingLoop fetching step state) (hids : DistinctIds requests)
    (hstart : Serving fetching (ids requests) (state start))
    (hload : (state start).load = 4 * requests.length) :
    ServedOnce step state start requests := by
  have hnodup : (ids requests).Nodup := Multiset.coe_nodup.2 hids
  have hstep : ∀ s s', Serving fetching (ids requests) (state s) → EventLoop.Step step s s' →
      Serving fetching (ids requests) (state s') :=
    fun s s' hs h => (hloop.advance s s' h).serving hnodup hs
  have hload_lt : ∀ s s', EventLoop.Step step s s' → (state s').load < (state s).load :=
    fun s s' h => (hloop.advance s s' h).load_lt
  refine ⟨fun s hreach req hreq => ?_, fun n s h => ?_, ?_⟩
  · have hs := hreach.invariant
      (I := fun s => Serving fetching (ids requests) (state s)) hstep hstart
    rw [sum_entries, hs.tracked.places]
    exact Multiset.count_eq_one_of_mem hnodup (Multiset.mem_coe.2 (List.mem_map_of_mem hreq))
  · have hle := EventLoop.after_measure (μ := fun s => (state s).load) hload_lt h
    omega
  · obtain ⟨s, hs⟩ := EventLoop.run_isOk (I := fun s => Serving fetching (ids requests) (state s))
      hstep (fun s hs => hloop.returns s hs.scheduled hs.fetches) (4 * requests.length) hstart
    have hend := hloop.run_halted hload.le hs
    have hserving := (EventLoop.run_reach hs).invariant
      (I := fun s => Serving fetching (ids requests) (state s)) hstep hstart
    exact ⟨s, hs, hend, Multiset.coe_eq_coe.1 (hserving.done_eq ((hloop.halted s).1 hend))⟩

theorem ids_sortRequests (requests : List LlmRequest) :
    ids (sortRequests requests) = ids requests :=
  Multiset.coe_eq_coe.2 ((sortRequests_perm requests).map _)

end ServingState

/-! ## Both runners -/

section

open ServingState

variable {C P T : Type} [ComputeModel C]

theorem EventDrivenRunner.run_eq {r r' : EventDrivenRunner C} {requests : List LlmRequest}
    (h : EventLoop.run step (4 * requests.length) (r.start requests) = .ok r') :
    ∃ r'', r.run requests = .ok (r'.results.sortByKey RequestResult.arrivalKey, r'') :=
  ⟨_, by rw [run, h]; rfl⟩

variable [PlacementPolicy P] [TransferModel T]

theorem CacheAwareRunner.run_eq {r r' : CacheAwareRunner C P T} {requests : List LlmRequest}
    (h : EventLoop.run step (4 * requests.length) (r.start requests) = .ok r') :
    ∃ r'', r.run requests = .ok (r'.results.sortByKey RequestResult.arrivalKey, r'') :=
  ⟨_, by rw [run, h]; rfl⟩

variable (config : ServingConfig) (cluster : ClusterTopology) (compute : C) (iterOrder : IterOrder)
  (transfer : T) (profile : ModelProfile) (placement : P) (requests : List LlmRequest)

/-- **No request is lost or duplicated.** On an idle cluster that has a GPU for either role, each
runner serves every request of a trace with distinct ids once, whatever the models and the policy
answer, and `run` returns one result for each request. -/
theorem requests_servedOnce (hids : DistinctIds requests) (hnodes : cluster.DistinctNodeIds)
    (hidle : cluster.AllIdle) (hprefill : cluster.Serves .prefill)
    (hdecode : cluster.Serves .decode) :
    (ServedOnce EventDrivenRunner.step (fun r => r.toServingState)
        ((EventDrivenRunner.new config cluster compute).start requests) requests ∧
      ∃ results r, (EventDrivenRunner.new config cluster compute).run requests =
        .ok (results, r) ∧ (results.map (·.requestId)).Perm (requests.map (·.requestId))) ∧
    (ServedOnce CacheAwareRunner.step (fun r => r.toServingState)
        ((CacheAwareRunner.new iterOrder config cluster compute transfer profile placement).start
          requests) requests ∧
      ∃ results r,
        (CacheAwareRunner.new iterOrder config cluster compute transfer profile placement).run
          requests = .ok (results, r) ∧
        (results.map (·.requestId)).Perm (requests.map (·.requestId))) := by
  have hlength := (sortRequests_perm requests).length_eq
  have hserving : ∀ fetching, Serving fetching (ids requests)
      ((ServingState.new cluster).enterAll (sortRequests requests)) := fun fetching =>
    ids_sortRequests requests ▸ serving_start hnodes hidle hprefill hdecode _
  have hload := load_start cluster (sortRequests requests)
  rw [hlength] at hload
  constructor
  · have hserved : ServedOnce EventDrivenRunner.step (fun r => r.toServingState)
        ((EventDrivenRunner.new config cluster compute).start requests) requests :=
      servedOnce_of_loop EventDrivenRunner.servingLoop hids (hserving False) hload
    obtain ⟨r', hr', -, hperm⟩ := hserved.ends
    obtain ⟨r, hr⟩ := EventDrivenRunner.run_eq hr'
    exact ⟨hserved, _, r, hr, ((List.sortByKey_perm _ _).map _).trans hperm⟩
  · have hserved : ServedOnce CacheAwareRunner.step (fun r => r.toServingState)
        ((CacheAwareRunner.new iterOrder config cluster compute transfer profile placement).start
          requests) requests :=
      servedOnce_of_loop CacheAwareRunner.servingLoop hids (hserving True) hload
    obtain ⟨r', hr', -, hperm⟩ := hserved.ends
    obtain ⟨r, hr⟩ := CacheAwareRunner.run_eq hr'
    exact ⟨hserved, _, r, hr, ((List.sortByKey_perm _ _).map _).trans hperm⟩

end

/-- Two simultaneous requests for one GPU of either role. -/
theorem requests_servedOnce_pair :
    ServingState.ServedOnce EventDrivenRunner.step (fun r => r.toServingState)
      ((EventDrivenRunner.new ⟨1, 1, 1⟩ (.singleNode 1 1) LinearComputeModel.conservative8b).start
        [.cold 0 0 8 2, .cold 1 0 8 2]) [.cold 0 0 8 2, .cold 1 0 8 2] ∧
    ServingState.ServedOnce CacheAwareRunner.step (fun r => r.toServingState)
      ((CacheAwareRunner.new .ascending ⟨1, 1, 1⟩ (.singleNode 1 1)
        LinearComputeModel.conservative8b AnalyticalTransferModel.rdma400g .llama8bBf16Gqa
        (RemoteLru.mk 0)).start [.cold 0 0 8 2, .cold 1 0 8 2])
      [.cold 0 0 8 2, .cold 1 0 8 2] :=
  have h := requests_servedOnce ⟨1, 1, 1⟩ (.singleNode 1 1) LinearComputeModel.conservative8b
    .ascending AnalyticalTransferModel.rdma400g .llama8bBf16Gqa (RemoteLru.mk 0)
    [.cold 0 0 8 2, .cold 1 0 8 2] (by decide) (by decide) (by decide) (by decide) (by decide)
  ⟨h.1.1, h.2.1⟩

end KvFlowSim
