import KvFlowSim.Serving.InTime
import KvFlowSim.Serving.NoReuse

/-!
# Following a plan

The no-reuse runner plans for each request when it is served. This file says what it means that a
state of the event-driven runner follows such a plan (`Follows`): the jobs that are still to be
started are the rest of the plan, for the two pools as they are now. Serving the queues keeps to the
plan (`Follows.tryAssign`).
-/

namespace KvFlowSim

open Pool

/-- Each GPU serves one stage at most. -/
def ClusterTopology.Dedicated (c : ClusterTopology) : Prop :=
  ∀ gpu ∈ c.gpus, gpu.serves .prefill = true → gpu.serves .decode = false

instance (c : ClusterTopology) : Decidable c.Dedicated := inferInstanceAs (Decidable (∀ gpu ∈ _, _))

theorem ClusterTopology.Dedicated.setBusyUntil {c c' : ClusterTopology} {n : NodeId}
    {i : ℕ} {t : UInt64} {gpu : GpuResource} (h : c.Dedicated)
    (hset : c.setBusyUntil n i t = .ok c') (hgpu : c.gpuAt n i = some gpu) : c'.Dedicated := by
  obtain ⟨pre, post, hpre, hpost⟩ := gpus_setBusyUntil hset hgpu
  intro other hother
  rw [hpost, List.mem_append, List.mem_cons] at hother
  rw [Dedicated, hpre] at h
  rcases hother with hother | rfl | hother
  · exact h other (List.mem_append_left _ hother)
  · exact h gpu (List.mem_append_right _ List.mem_cons_self)
  · exact h other (List.mem_append_right _ (List.mem_cons_of_mem _ hother))

/-- The stage of a planned request as a job. -/
def Planned.booking (e : Planned) : Stage → Booking UInt64
  | .prefill => e.prefillBooking
  | .decode => e.decodeBooking

/-- How far the requests of a plan have come: decoding or done, waiting for decode, in prefill,
waiting for prefill, and not arrived. -/
structure Progress where
  decoded : List Planned
  ready : List Planned
  prefilling : List Planned
  waiting : List Planned
  coming : List Planned

namespace Progress

/-- The requests whose prefill has been started. -/
def prefilled (g : Progress) : List Planned := g.decoded ++ g.ready ++ g.prefilling

/-- The requests whose decode has not been started. -/
def undecoded (g : Progress) : List Planned := g.ready ++ g.prefilling ++ g.waiting ++ g.coming

def all (g : Progress) : List Planned := g.decoded ++ g.undecoded

end Progress

/-- The record `r` shows the planned times of a request, as far as its stages have been started. -/
structure InFlightRequest.Shows (e : Planned) (prefilled decoded : Prop) (r : InFlightRequest) :
    Prop where
  request : r.request = e.request
  tokens : r.prefillTokens = 0
  prefill : prefilled → r.prefillStartNs = some e.result.prefillStartNs ∧
    r.prefillDoneNs = some e.result.prefillDoneNs
  decode : decoded → r.decodeStartNs = some e.result.decodeStartNs ∧
    r.firstTokenNs = some e.result.firstTokenNs ∧ r.finishNs = some e.result.finishNs

namespace ServingEvent

/-- The request that arrives. -/
def arrival : ServingEvent → Option UInt64
  | requestArrival id => some id
  | _ => none

/-- The request whose prefill is done. -/
def prefill : ServingEvent → Option UInt64
  | prefillDone id _ _ => some id
  | _ => none

end ServingEvent

/-- The tokens that a prefill of the request computes. -/
def InFlightRequest.tokensToPrefill (r : InFlightRequest) : UInt32 :=
  if r.prefillTokens = 0 then r.request.promptTokens else r.prefillTokens

/-- The pending events that `f` selects: their requests and times. -/
def Simulator.timesOf (sim : Simulator ServingEvent) (f : ServingEvent → Option UInt64) :
    List (UInt64 × UInt64) :=
  sim.pending.filterMap fun ev => (f ev.kind).map fun id => (id, ev.timeNs)

namespace ServingState

/-- The state `s` follows the plan. -/
structure Follows (plan : List Planned) (g : Progress) (s : ServingState) : Prop where
  all : g.all.Perm plan
  inSequence : s.sim.InSequence
  notPast : ∀ ev ∈ s.sim.pending, s.sim.nowNs ≤ ev.timeNs
  prefillBookings : Serves (s.cluster.pool .prefill)
    ((g.waiting ++ g.coming).map Planned.prefillBooking)
  decodeBookings : Serves (s.cluster.pool .decode) (g.undecoded.map Planned.decodeBooking)
  prefillQueue : s.prefillQueue = g.waiting.map Planned.id
  decodeQueue : s.decodeQueue = g.ready.map Planned.id
  arrivals : s.sim.timesOf ServingEvent.arrival = g.coming.map fun e => (e.id, e.request.arrivalNs)
  prefills : s.sim.timesOf ServingEvent.prefill =
    g.prefilling.map fun e => (e.id, e.result.prefillDoneNs)
  sorted : g.coming.Pairwise fun e e' => e.request.arrivalNs ≤ e'.request.arrivalNs
  arrived : ∀ e ∈ g.waiting, e.request.arrivalNs ≤ s.sim.nowNs
  ended : ∀ e ∈ g.ready, e.result.prefillDoneNs ≤ s.sim.nowNs
  decodes : ∀ ev ∈ s.sim.pending, ∀ id n i, ev.kind = .decodeDone id n i →
    id ∈ g.decoded.map Planned.id
  present : ∀ e ∈ g.undecoded, (s.inFlight.get e.id).isSome
  records : ∀ e ∈ plan, ∀ r, s.inFlight.get e.id = some r →
    r.Shows e (e ∈ g.prefilled) (e ∈ g.decoded)
  results : ∀ y ∈ s.results, y ∈ plan.map Planned.result

variable {C : Type} [ComputeModel C] {compute : C} {config : ServingConfig} {plan : List Planned}
  {g : Progress} {s s' : ServingState} {e e' : Planned} {rest : List Planned} {n : NodeId} {i : ℕ}
  {now : UInt64}

theorem eq_of_id (hids : (plan.map Planned.id).Nodup) (he : e ∈ plan) (he' : e' ∈ plan)
    (hid : e.id = e'.id) : e = e' :=
  List.inj_on_of_nodup_map hids he he' hid

/-- What starting a stage of a request in flight does. -/
theorem start_ok {stage : Stage} {r : InFlightRequest} {id : UInt64}
    (hr : s.inFlight.get id = some r) (h : s.start compute config stage id (n, i) now = .ok s') :
    ∃ sim cluster r',
      stage.start s.sim s.cluster compute config r n i now = .ok (sim, cluster, r') ∧
        s' = { s with sim, cluster, inFlight := s.inFlight.insert r' } := by
  unfold start at h
  rw [hr] at h
  obtain ⟨⟨sim, cluster, r'⟩, hstart, h⟩ := Except.bind_eq_ok.1 h
  cases h
  exact ⟨sim, cluster, r', hstart, rfl⟩

/-- What starting a prefill does. -/
theorem start_prefill_ok {r : InFlightRequest} {id : UInt64} (hr : s.inFlight.get id = some r)
    (h : s.start compute config .prefill id (n, i) now = .ok s') :
    let done := now.satAdd (ComputeModel.prefillTimeNs compute r.tokensToPrefill)
    ∃ cluster, s.cluster.setBusyUntil n i done = .ok cluster ∧
      s' = { s with
        sim := s.sim.schedule done (.prefillDone id n i)
        cluster := cluster
        inFlight := s.inFlight.insert { r with
          prefillStartNs := some now, prefillDoneNs := some done, prefillNode := some n
          prefillGpu := some i } } := by
  obtain rfl : r.id = id := KeyedMap.key_of_get hr
  obtain ⟨sim, cluster, r', hstart, rfl⟩ := start_ok hr h
  obtain ⟨c, hc, hstart⟩ := Except.bind_eq_ok.1 hstart
  cases hstart
  exact ⟨cluster, hc, rfl⟩

/-- What starting a decode does. -/
theorem start_decode_ok {r : InFlightRequest} {id : UInt64} (hr : s.inFlight.get id = some r)
    (h : s.start compute config .decode id (n, i) now = .ok s') :
    let step := ComputeModel.decodeStepTimeNs compute config.decodeBatchSize r.request.promptTokens
    let finish := now.satAdd (step.satMul r.request.outputTokens.toUInt64)
    ∃ cluster, s.cluster.setBusyUntil n i finish = .ok cluster ∧
      s' = { s with
        sim := s.sim.schedule finish (.decodeDone id n i)
        cluster := cluster
        inFlight := s.inFlight.insert { r with
          decodeStartNs := some now, firstTokenNs := some (now.satAdd step), finishNs := some finish
          decodeNode := some n, decodeGpu := some i } } := by
  obtain rfl : r.id = id := KeyedMap.key_of_get hr
  obtain ⟨sim, cluster, r', hstart, rfl⟩ := start_ok hr h
  obtain ⟨c, hc, hstart⟩ := Except.bind_eq_ok.1 hstart
  cases hstart
  exact ⟨cluster, hc, rfl⟩

@[simp] theorem timesOf_schedule (sim : Simulator ServingEvent) (t : UInt64) (kind : ServingEvent)
    (f : ServingEvent → Option UInt64) :
    (sim.schedule t kind).timesOf f = sim.timesOf f ++ ((f kind).map fun id => (id, t)).toList := by
  simp only [Simulator.timesOf, Simulator.pending_schedule, List.filterMap_append]
  cases hf : f kind <;> simp [hf]

theorem notPast_schedule {sim : Simulator ServingEvent} {t : UInt64} {kind : ServingEvent}
    (h : ∀ ev ∈ sim.pending, sim.nowNs ≤ ev.timeNs) (ht : sim.nowNs ≤ t) :
    ∀ ev ∈ (sim.schedule t kind).pending, (sim.schedule t kind).nowNs ≤ ev.timeNs := by
  intro ev hev
  rcases List.mem_append.1 hev with hev | hev
  · exact h ev hev
  · obtain rfl := List.mem_singleton.1 hev
    exact ht

/-- The prefill of the first waiting request is started as planned. -/
theorem Follows.startPrefill (hids : (plan.map Planned.id).Nodup)
    (hfits : ∀ e ∈ plan, e.Fits compute config) (hd : s.cluster.DistinctNodeIds)
    (hdedicated : s.cluster.Dedicated) (hclock : s.sim.nowNs = now)
    (h : Follows plan { g with waiting := e :: rest }
      (s.setQueue .prefill (e.id :: s.prefillQueue))) (hgpu :
      s.cluster.findIdleGpuFor now .prefill = .ok (some (n, i)))
    (hstart : ∀ gpu, s.cluster.gpuAt n i = some gpu → max e.request.arrivalNs gpu.busyUntilNs = now)
    (hrun : s.start compute config .prefill e.id (n, i) now = .ok s') :
    Follows plan { g with prefilling := g.prefilling ++ [e], waiting := rest } s' := by
  have he : e ∈ plan := h.all.mem_iff.1 (by simp [Progress.all, Progress.undecoded])
  obtain ⟨p, d, hserved⟩ := hfits e he
  obtain ⟨r, hr⟩ : ∃ r, s.inFlight.get e.id = some r :=
    Option.isSome_iff_exists.1 (h.present e (by simp [Progress.undecoded]))
  have hshows := h.records e he r hr
  have htokens : r.tokensToPrefill = r.request.promptTokens := if_pos hshows.tokens
  have hrun' := start_prefill_ok hr hrun
  simp only [htokens] at hrun'
  obtain ⟨cluster, hcluster, rfl⟩ := hrun'
  rw [hshows.request] at hcluster
  obtain ⟨gpu, hat, hrole, -, hbooked⟩ := ClusterTopology.books_of_findIdleGpuFor hd hgpu hcluster
  -- the plan has the job on a worker that is free at the same time
  obtain ⟨m, K', hplanned, hbooks, hrest⟩ := h.prefillBookings.head
  obtain rfl := Books.free_eq hbooks hbooked
  have hxstart : e.result.prefillStartNs = now := hplanned.trans (hstart gpu hat)
  have hxdone : e.result.prefillDoneNs =
      now.satAdd (ComputeModel.prefillTimeNs compute e.request.promptTokens) := by
    rw [← hxstart, hserved]
    rfl
  have hbooks : Books (s.cluster.pool .prefill) gpu.busyUntilNs e.result.prefillDoneNs K' := hbooks
  rw [hxdone] at hbooks
  obtain rfl := hbooks.unique hbooked
  have hundecoded :
      ({ g with prefilling := g.prefilling ++ [e], waiting := rest } : Progress).undecoded =
      ({ g with waiting := e :: rest } : Progress).undecoded := by
    simp [Progress.undecoded]
  have hqueue : e.id :: s.prefillQueue = (e :: rest).map Planned.id := h.prefillQueue
  refine ⟨?_, h.inSequence.schedule _ _, ?_, hrest, ?_, List.tail_eq_of_cons_eq hqueue,
    h.decodeQueue,
    ?_, ?_, h.sorted, fun e' he' => h.arrived e' (List.mem_cons_of_mem _ he'), h.ended, ?_, ?_, ?_,
    h.results⟩
  · rw [Progress.all, hundecoded]
    exact h.all
  · exact notPast_schedule h.notPast (hclock.le.trans (UInt64.le_satAdd _ _))
  · rw [hundecoded]
    have hserves := hdedicated gpu (ClusterTopology.mem_gpus_of_gpuAt hat) hrole
    exact ClusterTopology.pool_setBusyUntil hcluster hat hserves ▸ h.decodeBookings
  · exact (timesOf_schedule _ _ _ _).trans ((List.append_nil _).trans h.arrivals)
  · have hprefills : s.sim.timesOf ServingEvent.prefill = _ := h.prefills
    simp only [timesOf_schedule, ServingEvent.prefill, Option.map_some,
      Option.toList_some, hprefills, List.map_append, List.map_cons, List.map_nil,
      hshows.request, hxdone]
  · intro ev hev id m j hkind
    rcases List.mem_append.1 hev with hev | hev
    · exact h.decodes ev hev id m j hkind
    · obtain rfl := List.mem_singleton.1 hev
      exact absurd hkind (by simp)
  · intro e' he'
    rw [KeyedMap.get_insert]
    split_ifs
    · rfl
    · exact h.present e' (hundecoded ▸ he')
  · intro e' he' r' hr'
    rw [KeyedMap.get_insert] at hr'
    split_ifs at hr' with hid
    · obtain rfl := Option.some.inj hr'
      obtain rfl : e' = e := eq_of_id hids he' he
        (hid.trans (congrArg LlmRequest.requestId hshows.request))
      refine ⟨hshows.request, hshows.tokens, fun _ => ?_, hshows.decode⟩
      rw [hxstart, hxdone, hshows.request]
      exact ⟨rfl, rfl⟩
    · have hold := h.records e' he' r' hr'
      refine ⟨hold.request, hold.tokens, fun hmem => hold.prefill ?_, hold.decode⟩
      have hne : e' ≠ e := by
        rintro rfl
        exact hid (congrArg LlmRequest.requestId hshows.request).symm
      simpa [Progress.prefilled, hne] using hmem

/-- The decode of the first request that is ready is started as planned. -/
theorem Follows.startDecode (hids : (plan.map Planned.id).Nodup)
    (hfits : ∀ e ∈ plan, e.Fits compute config) (hd : s.cluster.DistinctNodeIds)
    (hdedicated : s.cluster.Dedicated) (hclock : s.sim.nowNs = now)
    (h : Follows plan { g with ready := e :: rest } (s.setQueue .decode (e.id :: s.decodeQueue)))
    (hgpu : s.cluster.findIdleGpuFor now .decode = .ok (some (n, i)))
    (hstart : ∀ gpu, s.cluster.gpuAt n i = some gpu →
      max e.result.prefillDoneNs gpu.busyUntilNs = now)
    (hrun : s.start compute config .decode e.id (n, i) now = .ok s') :
    Follows plan { g with decoded := g.decoded ++ [e], ready := rest } s' := by
  have he : e ∈ plan := h.all.mem_iff.1 (by simp [Progress.all, Progress.undecoded])
  obtain ⟨p, d, hserved⟩ := hfits e he
  obtain ⟨r, hr⟩ : ∃ r, s.inFlight.get e.id = some r :=
    Option.isSome_iff_exists.1 (h.present e (by simp [Progress.undecoded]))
  have hshows := h.records e he r hr
  obtain ⟨cluster, hcluster, rfl⟩ := start_decode_ok hr hrun
  rw [hshows.request] at hcluster
  obtain ⟨gpu, hat, hrole, -, hbooked⟩ := ClusterTopology.books_of_findIdleGpuFor hd hgpu hcluster
  obtain ⟨m, K', hplanned, hbooks, hrest⟩ := h.decodeBookings.head
  obtain rfl := Books.free_eq hbooks hbooked
  have hxstart : e.result.decodeStartNs = now := hplanned.trans (hstart gpu hat)
  have hxfirst : e.result.firstTokenNs = now.satAdd
      (ComputeModel.decodeStepTimeNs compute config.decodeBatchSize e.request.promptTokens) := by
    rw [← hxstart, hserved]
    rfl
  have hxfinish : e.result.finishNs = now.satAdd ((ComputeModel.decodeStepTimeNs compute
      config.decodeBatchSize e.request.promptTokens).satMul e.request.outputTokens.toUInt64) := by
    rw [← hxstart, hserved]
    rfl
  have hbooks : Books (s.cluster.pool .decode) gpu.busyUntilNs e.result.finishNs K' := hbooks
  rw [hxfinish] at hbooks
  obtain rfl := hbooks.unique hbooked
  have hqueue : e.id :: s.decodeQueue = (e :: rest).map Planned.id := h.decodeQueue
  refine ⟨?_, h.inSequence.schedule _ _, ?_, ?_, hrest, h.prefillQueue,
    List.tail_eq_of_cons_eq hqueue,
    ?_, ?_, h.sorted, h.arrived, fun e' he' => h.ended e' (List.mem_cons_of_mem _ he'), ?_, ?_, ?_,
    h.results⟩
  · have hall := h.all
    simpa [Progress.all, Progress.undecoded] using hall
  · exact notPast_schedule h.notPast (hclock.le.trans (UInt64.le_satAdd _ _))
  · have hserves : gpu.serves .prefill = false := by
      rw [← Bool.not_eq_true]
      intro hprefill
      have hnot := hdedicated gpu (ClusterTopology.mem_gpus_of_gpuAt hat) hprefill
      exact Bool.false_ne_true (hnot.symm.trans hrole)
    exact ClusterTopology.pool_setBusyUntil hcluster hat hserves ▸ h.prefillBookings
  · exact (timesOf_schedule _ _ _ _).trans ((List.append_nil _).trans h.arrivals)
  · exact (timesOf_schedule _ _ _ _).trans ((List.append_nil _).trans h.prefills)
  · intro ev hev id m j hkind
    rcases List.mem_append.1 hev with hev | hev
    · have hold := h.decodes ev hev id m j hkind
      rw [List.map_append]
      exact List.mem_append_left _ hold
    · obtain rfl := List.mem_singleton.1 hev
      obtain rfl := (ServingEvent.decodeDone.inj hkind).1
      simp
  · intro e' he'
    rw [KeyedMap.get_insert]
    split_ifs
    · rfl
    · exact h.present e' (List.mem_cons_of_mem _ he')
  · intro e' he' r' hr'
    rw [KeyedMap.get_insert] at hr'
    split_ifs at hr' with hid
    · obtain rfl := Option.some.inj hr'
      obtain rfl : e' = e := eq_of_id hids he' he
        (hid.trans (congrArg LlmRequest.requestId hshows.request))
      refine ⟨hshows.request, hshows.tokens, fun _ => hshows.prefill ?_, fun _ => ?_⟩
      · simp [Progress.prefilled]
      · rw [hxstart, hxfirst, hxfinish, hshows.request]
        exact ⟨rfl, rfl, rfl⟩
    · have hold := h.records e' he' r' hr'
      have hne : e' ≠ e := by
        rintro rfl
        exact hid (congrArg LlmRequest.requestId hshows.request).symm
      refine ⟨hold.request, hold.tokens, fun hmem => hold.prefill ?_, fun hmem => hold.decode ?_⟩
      · simpa [Progress.prefilled] using hmem
      · simpa [hne] using hmem

/-! ## Serving the queues -/

/-- What holds while an event is handled at time `now`: while requests wait for a stage, no GPU of
its role was free before `now`. -/
structure Settled (now : UInt64) (s : ServingState) : Prop where
  distinct : s.cluster.DistinctNodeIds
  dedicated : s.cluster.Dedicated
  clock : s.sim.nowNs = now
  saturated : ∀ stage : Stage, s.queue stage ≠ [] → ∀ t ∈ s.cluster.pool stage.role, now ≤ t

theorem Move.settled {fetching : Prop} {x y : ServingState × Held} (h : Move fetching now x y)
    (hx : x.1.Settled now) : y.1.Settled now := by
  refine ⟨h.distinctNodeIds hx.distinct, ?_, h.nowNs.trans hx.clock, ?_⟩
  · cases h with
    | start _ hgpu _ hcluster =>
      obtain ⟨gpu, hat, -⟩ := ClusterTopology.idle_of_findIdleGpuFor hx.distinct hgpu
      exact hx.dedicated.setBusyUntil hcluster hat
    | enqueue => simpa using hx.dedicated
    | dequeue => simpa using hx.dedicated
    | finish => simpa using hx.dedicated
    | fetch => exact hx.dedicated
    | drop => exact hx.dedicated
    | note => exact hx.dedicated
  · intro stage hq t ht
    have hbusy : x.1.AllBusy now stage.role → ∀ t ∈ x.1.cluster.pool stage.role, now ≤ t := by
      intro hall t ht
      obtain ⟨gpu, hmem, hrole, rfl⟩ := ClusterTopology.mem_pool.1 ht
      obtain ⟨m, j, hat⟩ := ClusterTopology.gpuAt_of_mem_gpus hx.distinct hmem
      exact (hall m j gpu hat hrole).le
    have hold : ∀ t ∈ x.1.cluster.pool stage.role, now ≤ t :=
      (h.queue hx.distinct hq).elim (hx.saturated stage) hbusy
    cases h with
    | @start s id b stage' m j done cluster r r' _ hgpu hdone hcluster =>
      obtain ⟨gpu, hat, -⟩ := ClusterTopology.idle_of_findIdleGpuFor hx.distinct hgpu
      rcases ClusterTopology.mem_pool_of_setBusyUntil hcluster hat ht with rfl | ht
      · exact hdone
      · exact hold t ht
    | enqueue => exact hold t (by simpa using ht)
    | dequeue => exact hold t (by simpa using ht)
    | finish => exact hold t (by simpa using ht)
    | fetch => exact hold t ht
    | drop => exact hold t ht
    | note => exact hold t ht

theorem Moves.settled {fetching : Prop} {x y : ServingState × Held} (h : Moves fetching now x y)
    (hx : x.1.Settled now) : y.1.Settled now :=
  h.invariant (I := fun z => z.1.Settled now) (fun _ _ hz hm => hm.settled hz) hx

/-- The first request of a queue is started as planned. -/
theorem Follows.dequeue {stage : Stage} {id : UInt64} {ids : List UInt64}
    (hids : (plan.map Planned.id).Nodup) (hfits : ∀ e ∈ plan, e.Fits compute config)
    (hs : s.Settled now) (h : Follows plan g s) (hq : s.queue stage = id :: ids)
    (hgpu : s.cluster.findIdleGpuFor now stage.role = .ok (some (n, i)))
    (hrun : (s.setQueue stage ids).start compute config stage id (n, i) now = .ok s') :
    ∃ g', Follows plan g' s' := by
  have hself : (s.setQueue stage ids).setQueue stage (id :: ids) = s := by
    rw [setQueue_setQueue, ← hq, setQueue_queue]
  have hdue : ∀ gpu, s.cluster.gpuAt n i = some gpu → gpu.busyUntilNs = now := by
    intro gpu hat
    obtain ⟨gpu', hat', hidle, hrole, -⟩ := ClusterTopology.idle_of_findIdleGpuFor hs.distinct hgpu
    obtain rfl := Option.some.inj (hat.symm.trans hat')
    refine le_antisymm hidle (hs.saturated stage (by rw [hq]; exact List.cons_ne_nil _ _) _ ?_)
    exact ClusterTopology.mem_pool.2 ⟨gpu, ClusterTopology.mem_gpus_of_gpuAt hat, hrole, rfl⟩
  cases stage with
  | prefill =>
    obtain ⟨e, rest, hwaiting, rfl, rfl⟩ := List.map_eq_cons_iff.1 (h.prefillQueue.symm.trans hq)
    refine ⟨{ g with prefilling := g.prefilling ++ [e], waiting := rest },
      Follows.startPrefill (s := s.setQueue .prefill (rest.map Planned.id)) (g := g) hids hfits
        hs.distinct hs.dedicated hs.clock ?_ hgpu (fun gpu hat => ?_) hrun⟩
    · rw [← hwaiting]
      exact hself.symm ▸ h
    · rw [hdue gpu hat]
      exact max_eq_right (hs.clock ▸ h.arrived e (hwaiting ▸ List.mem_cons_self))
  | decode =>
    obtain ⟨e, rest, hready, rfl, rfl⟩ := List.map_eq_cons_iff.1 (h.decodeQueue.symm.trans hq)
    refine ⟨{ g with decoded := g.decoded ++ [e], ready := rest },
      Follows.startDecode (s := s.setQueue .decode (rest.map Planned.id)) (g := g) hids hfits
        hs.distinct hs.dedicated hs.clock ?_ hgpu (fun gpu hat => ?_) hrun⟩
    · rw [← hready]
      exact hself.symm ▸ h
    · rw [hdue gpu hat]
      exact max_eq_right (hs.clock ▸ h.ended e (hready ▸ List.mem_cons_self))

theorem Follows.assign {stage : Stage} {ids : List UInt64} (hids : (plan.map Planned.id).Nodup)
    (hfits : ∀ e ∈ plan, e.Fits compute config) (hs : s.Settled now) (h : Follows plan g s)
    (hq : s.queue stage = ids) (hrun : assign compute config stage now ids s = .ok s') :
    ∃ g', Follows plan g' s' := by
  induction ids generalizing s g with
  | nil =>
    obtain rfl := Except.ok.inj hrun
    exact ⟨g, h⟩
  | cons id ids ih =>
    obtain ⟨gpu, hgpu, hrun⟩ := Except.bind_eq_ok.1 hrun
    cases gpu with
    | none =>
      obtain rfl := Except.ok.inj hrun
      exact ⟨g, h⟩
    | some gpu =>
      obtain ⟨s₁, hstart, hrun⟩ := Except.bind_eq_ok.1 hrun
      obtain ⟨g₁, h₁⟩ := h.dequeue hids hfits hs hq hgpu hstart
      have hmoves : Moves False now (s, none) (s₁, none) :=
        .head (.dequeue hq) (start_moves le_rfl (by simpa using hgpu) hstart)
      have hrest : s₁.queue stage = ids := by rw [queue_start hstart, queue_setQueue_self]
      exact ih (hmoves.settled hs) h₁ hrest hrun

/-- Serving a queue keeps to the plan. -/
theorem Follows.tryAssign {stage : Stage} (hids : (plan.map Planned.id).Nodup)
    (hfits : ∀ e ∈ plan, e.Fits compute config) (hs : s.Settled now) (h : Follows plan g s)
    (hrun : s.tryAssign compute config stage now = .ok s') : ∃ g', Follows plan g' s' :=
  h.assign hids hfits hs rfl hrun

end ServingState

end KvFlowSim
