import KvFlowSim.Serving.Conservation
import KvFlowSim.Serving.Following

/-!
# The event-driven runner and the no-reuse runner

As long as every event is `inTurn`, a step of the event-driven runner keeps a state that follows the
plan of the no-reuse runner (`Follows`, `step_onPlan`): the requests are started in the planned
order, at the planned times. A run whose events are all in turn ends with the results of the plan.
-/

namespace KvFlowSim

open Pool

namespace ServingEvent

/-- The stage for which the event makes its request ready. -/
def readies : ServingEvent → Option Stage
  | requestArrival _ => some .prefill
  | prefillDone _ _ _ => some .decode
  | _ => none

end ServingEvent

/-- The times that an event selected by `f` leaves. -/
theorem Simulator.InSequence.timesOf_step {sim sim' : Simulator ServingEvent} {now : UInt64}
    {kind : ServingEvent} (h : sim.InSequence) (hpast : ∀ ev ∈ sim.pending, sim.nowNs ≤ ev.timeNs)
    (hstep : sim.step = some (now, kind, sim')) (f : ServingEvent → Option UInt64) :
    (f kind = none → sim'.timesOf f = sim.timesOf f) ∧ ∀ id, f kind = some id →
      ∃ A B, sim.timesOf f = A ++ (id, now) :: B ∧ sim'.timesOf f = A ++ B ∧
      ∀ p ∈ A, now < p.2 := by
  obtain ⟨-, pre, ev, post, rfl, hpending, hpending', hnow, hpre, -⟩ := h.step hstep
  have hev : now = ev.timeNs := by
    rw [hnow]
    refine max_eq_right (hpast ev ?_)
    rw [hpending]
    exact List.mem_append_right _ List.mem_cons_self
  refine ⟨fun hnone => ?_, fun id hsome => ?_⟩
  · simp only [timesOf, hpending, hpending', List.filterMap_append, List.filterMap_cons, hnone,
      Option.map_none]
  · refine ⟨pre.filterMap fun ev => (f ev.kind).map fun id => (id, ev.timeNs),
      post.filterMap fun ev => (f ev.kind).map fun id => (id, ev.timeNs), ?_, ?_, fun p hp => ?_⟩
    · rw [timesOf, hpending, List.filterMap_append, List.filterMap_cons, hsome, hev]
      rfl
    · rw [timesOf, hpending', List.filterMap_append]
    · obtain ⟨x, hx, hp⟩ := List.mem_filterMap.1 hp
      obtain ⟨id', -, rfl⟩ := Option.map_eq_some_iff.1 hp
      exact hev ▸ hpre x hx

/-- If the events selected by `f` stand in the order of their times, then the first of them comes
first. -/
theorem Simulator.InSequence.timesOf_step_first {sim sim' : Simulator ServingEvent}
    {now id : UInt64} {kind : ServingEvent} (h : sim.InSequence)
    (hpast : ∀ ev ∈ sim.pending, sim.nowNs ≤ ev.timeNs) (hstep : sim.step = some (now, kind, sim'))
    {f : ServingEvent → Option UInt64} (hf : f kind = some id)
    (hsorted : (sim.timesOf f).Pairwise fun p p' => p.2 ≤ p'.2) :
    sim.timesOf f = (id, now) :: sim'.timesOf f := by
  obtain ⟨A, B, hA, hB, hlate⟩ := (h.timesOf_step hpast hstep f).2 id hf
  rw [hA, List.pairwise_append] at hsorted
  -- what stands ahead of the event is due later
  have hnil : A = [] := List.eq_nil_iff_forall_not_mem.2 fun p hp =>
    (hlate p hp).not_ge (hsorted.2.2 p hp _ List.mem_cons_self)
  rw [hA, hB, hnil]
  rfl

namespace ServingState

/-- How many GPUs of a stage are idle. -/
def idleGpus (s : ServingState) (now : UInt64) (stage : Stage) : ℕ :=
  (s.cluster.pool stage.role).countP (· ≤ now)

/-- How many prefills that were started before that of `id` are still going on. -/
def prefillsAhead (s : ServingState) (id : UInt64) : ℕ :=
  ((s.sim.timesOf ServingEvent.prefill).takeWhile fun p => p.1 ≠ id).length

/-- Nothing is out of turn at the next event. It does not shorten a busy time; the request that it
makes ready for a stage is started only if no other waits for the stage; and if it is done with its
prefill ahead of others, there are idle decode GPUs for all of them. -/
def inTurn (s : ServingState) : Bool :=
  s.releasesIdle &&
    match s.sim.step with
    | none => true
    | some (now, kind, _) =>
      (kind.readies.all fun stage => s.queue stage = [] || s.idleGpus now stage = 0) &&
        kind.prefill.all fun id => s.prefillsAhead id = 0 ||
        s.prefillsAhead id < s.idleGpus now .decode

variable {C : Type} [ComputeModel C] {compute : C} {config : ServingConfig} {plan : List Planned}
  {g : Progress} {s s' : ServingState} {e : Planned} {n : NodeId} {i : ℕ} {now id : UInt64}
  {kind : ServingEvent} {sim : Simulator ServingEvent}

theorem inTurn_releasesIdle (h : s.inTurn = true) : s.releasesIdle = true :=
  (Bool.and_eq_true_iff.1 h).1

theorem inTurn_queue (h : s.inTurn = true) (hstep : s.sim.step = some (now, kind, sim))
    {stage : Stage} (hstage : kind.readies = some stage) :
    s.queue stage = [] ∨ s.idleGpus now stage = 0 := by
  have h := (Bool.and_eq_true_iff.1 h).2
  simp only [hstep, hstage, Option.all_some, Bool.and_eq_true, Bool.or_eq_true,
    decide_eq_true_eq] at h
  exact h.1

theorem inTurn_prefillsAhead (h : s.inTurn = true) (hstep : s.sim.step = some (now, kind, sim))
    (hkind : kind.prefill = some id) :
    s.prefillsAhead id = 0 ∨ s.prefillsAhead id < s.idleGpus now .decode := by
  have h := (Bool.and_eq_true_iff.1 h).2
  simp only [hstep, hkind, Option.all_some, Bool.and_eq_true, Bool.or_eq_true,
    decide_eq_true_eq] at h
  exact h.2

theorem idleGpus_ne_zero (hd : s.cluster.DistinctNodeIds) {stage : Stage} {gpu : NodeId × ℕ}
    (hgpu : s.cluster.findIdleGpuFor now stage.role = .ok (some gpu)) :
    s.idleGpus now stage ≠ 0 := by
  obtain ⟨idle, hat, hidle, hrole, -⟩ := ClusterTopology.idle_of_findIdleGpuFor hd hgpu
  intro hzero
  have hmem := ClusterTopology.mem_pool.2 ⟨idle, ClusterTopology.mem_gpus_of_gpuAt hat, hrole, rfl⟩
  exact Multiset.countP_eq_zero.1 hzero _ hmem hidle

/-! ## Taking out the next event -/

/-- The next arrival is that of the first request to come. It joins the requests that wait. -/
theorem Follows.pop_arrival (h : Follows plan g s)
    (hstep : s.sim.step = some (now, .requestArrival id, sim)) :
    ∃ e rest, g.coming = e :: rest ∧ e.id = id ∧ e.request.arrivalNs = now ∧
      Follows plan { g with waiting := g.waiting ++ [e], coming := rest }
        (({ s with sim := sim } : ServingState).setQueue .prefill (s.prefillQueue ++ [id])) := by
  obtain ⟨hle, hclock, hmem, hpast⟩ := Simulator.step_notPast hstep h.notPast
  have htimes : (s.sim.timesOf ServingEvent.arrival).Pairwise fun p p' => p.2 ≤ p'.2 := by
    rw [h.arrivals]
    exact List.pairwise_map.2 h.sorted
  have hfirst := h.inSequence.timesOf_step_first h.notPast hstep rfl htimes
  rw [h.arrivals] at hfirst
  obtain ⟨e, rest, hcoming, he, hrest⟩ := List.map_eq_cons_iff.1 hfirst
  obtain ⟨rfl, harrival⟩ := Prod.mk.inj he
  obtain ⟨hsame, -⟩ := h.inSequence.timesOf_step h.notPast hstep ServingEvent.prefill
  have hundecoded : ({ g with waiting := g.waiting ++ [e], coming := rest } : Progress).undecoded =
      g.undecoded := by
    simp [Progress.undecoded, hcoming]
  refine ⟨e, rest, hcoming, rfl, harrival, ?_, (h.inSequence.step hstep).1, hpast, ?_, ?_, ?_,
    h.decodeQueue, hrest.symm, (hsame rfl).trans h.prefills, ?_, ?_,
    fun e' he' => (h.ended e' he').trans (hle.trans hclock.ge), fun ev hev =>
    h.decodes ev (hmem ev hev),
    ?_, h.records, h.results⟩
  · rw [Progress.all, hundecoded]
    exact h.all
  · have hbookings := h.prefillBookings
    rw [hcoming] at hbookings
    simpa using hbookings
  · rw [hundecoded]
    exact h.decodeBookings
  · have hqueue := h.prefillQueue
    simp [setQueue, hqueue]
  · have hsorted := h.sorted
    rw [hcoming] at hsorted
    exact hsorted.tail
  · intro e' he'
    rcases List.mem_append.1 he' with he' | he'
    · exact (h.arrived e' he').trans (hle.trans hclock.ge)
    · obtain rfl := List.mem_singleton.1 he'
      exact (harrival.trans hclock.symm).le
  · rw [hundecoded]
    exact h.present

/-- The prefills ahead of one that is going on. -/
theorem Follows.prefillsAhead_eq (hids : (plan.map Planned.id).Nodup) (h : Follows plan g s)
    {A B : List Planned} (hprefilling : g.prefilling = A ++ e :: B) :
    s.prefillsAhead e.id = A.length := by
  have hnodup : ((A ++ e :: B).map Planned.id).Nodup := by
    have hall : (g.all.map Planned.id).Nodup := (h.all.map _).nodup_iff.2 hids
    refine List.Nodup.sublist (List.Sublist.map _ ?_) hall
    rw [← hprefilling]
    simp only [Progress.all, Progress.undecoded, List.append_assoc]
    exact (List.sublist_append_left _ _).trans
      ((List.sublist_append_right _ _).trans (List.sublist_append_right _ _))
  rw [List.map_append, List.nodup_append] at hnodup
  have hne : ∀ a ∈ A, a.id ≠ e.id := fun a ha =>
    hnodup.2.2 _ (List.mem_map_of_mem ha) _ (List.mem_map_of_mem List.mem_cons_self)
  rw [prefillsAhead, h.prefills, hprefilling, List.map_append, List.map_cons,
    List.takeWhile_append_of_pos,
    List.takeWhile_cons_of_neg, List.append_nil, List.length_map]
  · simp
  · intro p hp
    obtain ⟨a, ha, rfl⟩ := List.mem_map.1 hp
    simpa using hne a ha

/-- The prefill that is done was going on; those ahead of it are done later. The request joins those
that are ready. -/
theorem Follows.pop_prefillDone (hids : (plan.map Planned.id).Nodup) (h : Follows plan g s)
    (hturn : s.inTurn = true) (hstep : s.sim.step = some (now, .prefillDone id n i, sim)) :
    ∃ e A B, e.id = id ∧ e.result.prefillDoneNs = now ∧
      Follows plan { g with ready := g.ready ++ [e], prefilling := A ++ B }
        (({ s with sim := sim } : ServingState).setQueue .decode (s.decodeQueue ++ [id])) := by
  obtain ⟨hle, hclock, hmem, hpast⟩ := Simulator.step_notPast hstep h.notPast
  obtain ⟨-, htimes⟩ := h.inSequence.timesOf_step h.notPast hstep ServingEvent.prefill
  obtain ⟨A', B', hA', hB', hlate⟩ := htimes id rfl
  rw [h.prefills] at hA'
  obtain ⟨A, B₁, hprefilling, rfl, hB₁⟩ := List.map_eq_append_iff.1 hA'
  obtain ⟨e, B, rfl, he, rfl⟩ := List.map_eq_cons_iff.1 hB₁
  obtain ⟨rfl, hdone⟩ := Prod.mk.inj he
  obtain ⟨hsame, -⟩ := h.inSequence.timesOf_step h.notPast hstep ServingEvent.arrival
  have hmoved : (g.ready ++ [e] ++ (A ++ B)).Perm (g.ready ++ g.prefilling) := by
    rw [hprefilling, List.append_assoc, List.singleton_append]
    exact List.perm_middle.symm.append_left _
  have hundecoded :
      ({ g with ready := g.ready ++ [e], prefilling := A ++ B } : Progress).undecoded.Perm
        g.undecoded := (hmoved.append_right _).append_right _
  have hprefilled :
      ({ g with ready := g.ready ++ [e], prefilling := A ++ B } : Progress).prefilled.Perm
        g.prefilled := by
    simp only [Progress.prefilled, List.append_assoc]
    simpa using hmoved.append_left g.decoded
  refine ⟨e, A, B, rfl, hdone, (hundecoded.append_left _).trans h.all, (h.inSequence.step hstep).1,
    hpast,
    h.prefillBookings, ?_, h.prefillQueue, ?_, (hsame rfl).trans h.arrivals, ?_, h.sorted,
    fun e' he' => (h.arrived e' he').trans (hle.trans hclock.ge), ?_,
    fun ev hev => h.decodes ev (hmem ev hev), fun e' he' => h.present e' (hundecoded.mem_iff.1 he'),
    fun e' he' r hr => ?_, h.results⟩
  · have hbookings := h.decodeBookings
    simp only [Progress.undecoded, hprefilling] at hbookings
    rcases List.eq_nil_or_concat A with rfl | hA
    · simpa [Progress.undecoded] using hbookings
    -- there are others ahead, so there are GPUs for all of them and none is waiting
    have hahead := inTurn_prefillsAhead hturn hstep rfl
    rw [h.prefillsAhead_eq hids hprefilling] at hahead
    have hlength : A.length ≠ 0 := by
      obtain ⟨_, _, rfl⟩ := hA
      simp
    have hfree := hahead.resolve_left hlength
    have hqueue : s.decodeQueue = [] :=
      (inTurn_queue hturn hstep rfl).resolve_right (by omega)
    have hready : g.ready = [] := List.map_eq_nil_iff.1 (h.decodeQueue.symm.trans hqueue)
    have hfront : Serves (s.cluster.pool .decode)
        (A.map Planned.decodeBooking ++
          e.decodeBooking :: (B ++ g.waiting ++ g.coming).map Planned.decodeBooking) := by
      simpa [hready] using hbookings
    have hmove := hfront.move_front (fun j hj => ?_) (.inr ?_)
    · simpa [Progress.undecoded, hready] using hmove
    · obtain ⟨a, ha, rfl⟩ := List.mem_map.1 hj
      exact hdone.le.trans (hlate _ (List.mem_map_of_mem ha)).le
    · rw [List.length_map]
      change A.length < Multiset.countP (· ≤ e.result.prefillDoneNs) _
      rw [hdone]
      exact hfree
  · have hqueue := h.decodeQueue
    simp [setQueue, hqueue]
  · rw [List.map_append]
    exact hB'
  · intro e' he'
    rcases List.mem_append.1 he' with he' | he'
    · exact (h.ended e' he').trans (hle.trans hclock.ge)
    · obtain rfl := List.mem_singleton.1 he'
      exact (hdone.trans hclock.symm).le
  · have hold := h.records e' he' r hr
    exact ⟨hold.request, hold.tokens, fun hm => hold.prefill (hprefilled.mem_iff.1 hm), hold.decode⟩

theorem Follows.pop_decodeDone (h : Follows plan g s)
    (hstep : s.sim.step = some (now, .decodeDone id n i, sim)) :
    Follows plan g { s with sim := sim } ∧ id ∈ g.decoded.map Planned.id := by
  obtain ⟨hle, hclock, hmem, hpast⟩ := Simulator.step_notPast hstep h.notPast
  obtain ⟨harrivals, -⟩ := h.inSequence.timesOf_step h.notPast hstep ServingEvent.arrival
  obtain ⟨hprefills, -⟩ := h.inSequence.timesOf_step h.notPast hstep ServingEvent.prefill
  obtain ⟨ev, hkind, hperm, -⟩ := Simulator.step_spec hstep
  refine ⟨⟨h.all, (h.inSequence.step hstep).1, hpast, h.prefillBookings, h.decodeBookings,
    h.prefillQueue,
    h.decodeQueue, (harrivals rfl).trans h.arrivals, (hprefills rfl).trans h.prefills, h.sorted,
    fun e' he' => (h.arrived e' he').trans (hle.trans hclock.ge),
    fun e' he' => (h.ended e' he').trans (hle.trans hclock.ge),
    fun ev hev => h.decodes ev (hmem ev hev), h.present, h.records, h.results⟩, ?_⟩
  exact h.decodes ev (hperm.mem_iff.2 List.mem_cons_self) id n i hkind

theorem Shows.intoResult {r : InFlightRequest} (hfits : e.Fits compute config)
    (h : r.Shows e True True) : r.intoResult = e.result := by
  obtain ⟨p, d, hserved⟩ := hfits
  obtain ⟨hstart, hdone⟩ := h.prefill trivial
  obtain ⟨hdecode, hfirst, hfinish⟩ := h.decode trivial
  rw [InFlightRequest.intoResult, h.request, hstart, hdone, hdecode, hfirst, hfinish, hserved]
  rfl

/-- A request that is done has the planned result. -/
theorem Follows.finish (hids : (plan.map Planned.id).Nodup)
    (hfits : ∀ e ∈ plan, e.Fits compute config) (h : Follows plan g s)
    (hid : id ∈ g.decoded.map Planned.id) : Follows plan g (s.finish id) := by
  obtain ⟨e, he, rfl⟩ := List.mem_map.1 hid
  unfold ServingState.finish
  split
  · exact h
  next r hr =>
    have hplan : e ∈ plan := h.all.mem_iff.1 (List.mem_append_left _ he)
    have hshows := h.records e hplan r hr
    have hresult : r.intoResult = e.result := by
      refine Shows.intoResult (hfits e hplan) ⟨hshows.request, hshows.tokens, fun _ =>
        hshows.prefill ?_,
        fun _ => hshows.decode he⟩
      simp [Progress.prefilled, he]
    refine ⟨h.all, h.inSequence, h.notPast, h.prefillBookings, h.decodeBookings, h.prefillQueue,
      h.decodeQueue,
      h.arrivals, h.prefills, h.sorted, h.arrived, h.ended, h.decodes, fun e' he' => ?_,
      fun e' he' r' hr' => ?_, fun y hy => ?_⟩
    · have hne : e'.id ≠ e.id := by
        have hnodup : (g.all.map Planned.id).Nodup := (h.all.map _).nodup_iff.2 hids
        rw [Progress.all, List.map_append, List.nodup_append] at hnodup
        exact (hnodup.2.2 _ (List.mem_map_of_mem he) _ (List.mem_map_of_mem he')).symm
      rw [KeyedMap.get_remove, if_neg hne]
      exact h.present e' he'
    · rw [KeyedMap.get_remove] at hr'
      split_ifs at hr'
      exact h.records e' he' r' hr'
    · rcases List.mem_append.1 hy with hy | hy
      · exact h.results y hy
      · obtain rfl := List.mem_singleton.1 hy
        exact hresult ▸ List.mem_map_of_mem hplan

/-! ## Handling an event -/

/-- The request that has become ready for a stage is started as planned, or waits. -/
theorem Follows.startOrQueue {stage : Stage} (hids : (plan.map Planned.id).Nodup)
    (hfits : ∀ e ∈ plan, e.Fits compute config) (hs : s.Settled now)
    (h : Follows plan g (s.setQueue stage (s.queue stage ++ [id])))
    (hready : ∀ e ∈ plan, e.id = id → (e.booking stage).ready = now)
    (hqueue : s.queue stage = [] ∨ s.idleGpus now stage = 0)
    (hrun : s.startOrQueue compute config stage id now = .ok s') : ∃ g', Follows plan g' s' := by
  obtain ⟨gpu, hgpu, hrun⟩ := Except.bind_eq_ok.1 hrun
  cases gpu with
  | none =>
    obtain rfl := Except.ok.inj hrun
    exact ⟨g, h⟩
  | some gpu =>
    have hnil := hqueue.resolve_right (idleGpus_ne_zero hs.distinct hgpu)
    have hidle : ∀ t, t = now → ∀ idle, s.cluster.gpuAt gpu.1 gpu.2 = some idle →
        max t idle.busyUntilNs = now := by
      rintro t rfl idle hat
      obtain ⟨idle', hat', hle, -⟩ := ClusterTopology.idle_of_findIdleGpuFor hs.distinct hgpu
      obtain rfl := Option.some.inj (hat.symm.trans hat')
      exact max_eq_left hle
    rw [hnil] at h
    cases stage with
    | prefill =>
      obtain ⟨e, hwaiting, rfl⟩ := List.map_eq_singleton_iff.1 h.prefillQueue.symm
      have he : e ∈ plan := h.all.mem_iff.1 (by simp [Progress.all, Progress.undecoded, hwaiting])
      refine ⟨{ g with prefilling := g.prefilling ++ [e], waiting := [] },
        Follows.startPrefill (s := s) (g := g) hids hfits hs.distinct hs.dedicated hs.clock ?_ hgpu
          (hidle _ (hready e he rfl)) hrun⟩
      have hqueue : s.prefillQueue = [] := hnil
      rw [hqueue, ← hwaiting]
      exact h
    | decode =>
      obtain ⟨e, hready', rfl⟩ := List.map_eq_singleton_iff.1 h.decodeQueue.symm
      have he : e ∈ plan := h.all.mem_iff.1 (by simp [Progress.all, Progress.undecoded, hready'])
      refine ⟨{ g with decoded := g.decoded ++ [e], ready := [] },
        Follows.startDecode (s := s) (g := g) hids hfits hs.distinct hs.dedicated hs.clock ?_ hgpu
          (hidle _ (hready e he rfl)) hrun⟩
      have hqueue : s.decodeQueue = [] := hnil
      rw [hqueue, ← hready']
      exact h

/-- What holds between any two events of a run that follows the plan. -/
structure OnPlan (plan : List Planned) (s : ServingState) : Prop where
  scheduled : s.Scheduled
  attended : s.Attended
  inTime : s.InTime
  dedicated : s.cluster.Dedicated
  follows : ∃ g, Follows plan g s

theorem OnPlan.settled (h : OnPlan plan s) (hstep : s.sim.step = some (now, kind, sim)) :
    ({ s with sim := sim } : ServingState).Settled now where
  distinct := h.scheduled.distinct
  dedicated := h.dedicated
  clock := by
    obtain ⟨-, -, -, -, hsim, -⟩ := Simulator.step_spec hstep
    exact hsim
  saturated stage hq t ht := by
    have hqueue : s.queue stage ≠ [] := by cases stage <;> exact hq
    exact h.attended.le_of_mem_pool h.inTime h.scheduled.distinct hstep hqueue ht

end ServingState

namespace EventDrivenRunner

open ServingState

variable {C : Type} [ComputeModel C] {plan : List Planned} {r r' : EventDrivenRunner C}
  {now id : UInt64} {n : NodeId} {i : ℕ} {sim : Simulator ServingEvent}

theorem onArrival_follows (hids : (plan.map Planned.id).Nodup)
    (hfits : ∀ e ∈ plan, e.Fits r.compute r.config) (h : OnPlan plan r.toServingState)
    (hturn : r.inTurn = true) (hstep : r.sim.step = some (now, .requestArrival id, sim))
    (hrun : { r with sim := sim }.onArrival now id = .ok r') :
    (∃ g, Follows plan g r'.toServingState) ∧ ∀ e ∈ plan, e.Fits r'.compute r'.config := by
  obtain ⟨s, hs, rfl⟩ := onState_eq_ok.1 hrun
  obtain ⟨g, hg⟩ := h.follows
  obtain ⟨e, rest, hcoming, rfl, harrival, hpop⟩ := hg.pop_arrival hstep
  have he : e ∈ plan := hg.all.mem_iff.1 (by simp [Progress.all, Progress.undecoded, hcoming])
  refine ⟨Follows.startOrQueue hids hfits (h.settled hstep) hpop (fun e' he' hid => ?_)
    (inTurn_queue hturn hstep rfl) hs, hfits⟩
  obtain rfl := eq_of_id hids he' he hid
  exact harrival

theorem onPrefillDone_follows (hids : (plan.map Planned.id).Nodup)
    (hfits : ∀ e ∈ plan, e.Fits r.compute r.config) (h : OnPlan plan r.toServingState)
    (hturn : r.inTurn = true) (hstep : r.sim.step = some (now, .prefillDone id n i, sim))
    (hrun : { r with sim := sim }.onPrefillDone now id n i = .ok r') :
    (∃ g, Follows plan g r'.toServingState) ∧ ∀ e ∈ plan, e.Fits r'.compute r'.config := by
  obtain ⟨s₁, s₂, s₃, s₄, hrel, hs₂, hs₃, hs₄, rfl⟩ := onPrefillDone_ok hrun
  obtain rfl := h.inTime.released (inTurn_releasesIdle hturn) hstep hrel
  obtain ⟨g, hg⟩ := h.follows
  obtain ⟨e, A, B, rfl, hdone, hpop⟩ := hg.pop_prefillDone hids hturn hstep
  have he : e ∈ plan := hpop.all.mem_iff.1 (by simp [Progress.all, Progress.undecoded])
  have hsettled := h.settled hstep
  have hmoves : Moves False now (_, some (e.id, 1)) (s₂, none) :=
    startOrQueueDecode_moves hs₂ le_rfl
  obtain ⟨g₂, hg₂⟩ : ∃ g, Follows plan g s₂ := by
    obtain ⟨rec, hrec⟩ := Option.isSome_iff_exists.1 (hpop.present e (by simp [Progress.undecoded]))
    have hrec : r.inFlight.get e.id = some rec := hrec
    simp only [startOrQueueDecode, hrec] at hs₂
    refine Follows.startOrQueue hids hfits hsettled hpop (fun e' he' hid => ?_)
      (inTurn_queue hturn hstep rfl) hs₂
    obtain rfl := eq_of_id hids he' he hid
    exact hdone
  obtain ⟨hmoves₃, -⟩ : Moves False now (s₂, none) (s₃, none) ∧ _ := tryAssign_moves hs₃
  have hsettled₂ := hmoves.settled hsettled
  obtain ⟨g₃, hg₃⟩ := hg₂.tryAssign hids hfits hsettled₂ hs₃
  exact ⟨hg₃.tryAssign hids hfits (hmoves₃.settled hsettled₂) hs₄, hfits⟩

theorem onDecodeDone_follows (hids : (plan.map Planned.id).Nodup)
    (hfits : ∀ e ∈ plan, e.Fits r.compute r.config) (h : OnPlan plan r.toServingState)
    (hturn : r.inTurn = true) (hstep : r.sim.step = some (now, .decodeDone id n i, sim))
    (hrun : { r with sim := sim }.onDecodeDone now id n i = .ok r') :
    (∃ g, Follows plan g r'.toServingState) ∧ ∀ e ∈ plan, e.Fits r'.compute r'.config := by
  obtain ⟨s₁, s₃, s₄, hrel, hs₃, hs₄, rfl⟩ := onDecodeDone_ok hrun
  obtain rfl := h.inTime.released (inTurn_releasesIdle hturn) hstep hrel
  obtain ⟨g, hg⟩ := h.follows
  obtain ⟨hpop, hdecoded⟩ := hg.pop_decodeDone hstep
  have hmoves : Moves False now (_, some (id, 0)) (ServingState.finish _ id, none) :=
    finish_moves { r.toServingState with sim := sim } id 0
  have hsettled := hmoves.settled (h.settled hstep)
  obtain ⟨hmoves₃, -⟩ : Moves False now (_, none) (s₃, none) ∧ _ := tryAssign_moves hs₃
  obtain ⟨g₃, hg₃⟩ := (hpop.finish hids hfits hdecoded).tryAssign hids hfits hsettled hs₃
  exact ⟨hg₃.tryAssign hids hfits (hmoves₃.settled hsettled) hs₄, hfits⟩

/-- **One event.** If nothing is out of turn, the runner keeps to the plan. -/
theorem step_onPlan (hids : (plan.map Planned.id).Nodup)
    (hfits : ∀ e ∈ plan, e.Fits r.compute r.config) (h : OnPlan plan r.toServingState)
    (hturn : r.inTurn = true) (hstep : EventLoop.Step step r r') :
    OnPlan plan r'.toServingState ∧ ∀ e ∈ plan, e.Fits r'.compute r'.config := by
  have hadvance := step_advance hstep
  have hd := h.scheduled.distinct
  have hdedicated : r'.cluster.Dedicated := by
    obtain ⟨now, kind, sim, hsim, s₁, hrel, hmoves, -⟩ := hadvance
    obtain rfl := h.inTime.released (inTurn_releasesIdle hturn) hsim hrel
    exact (hmoves.settled (h.settled hsim)).dedicated
  suffices (∃ g, Follows plan g r'.toServingState) ∧ ∀ e ∈ plan, e.Fits r'.compute r'.config from
    ⟨⟨hadvance.scheduled h.scheduled, hadvance.attended h.scheduled h.attended,
      hadvance.inTime hd (inTurn_releasesIdle hturn) h.inTime, hdedicated, this.1⟩, this.2⟩
  obtain ⟨now, kind, sim, hsim, hrun⟩ := step_ok hstep
  cases kind with
  | requestArrival id => exact onArrival_follows hids hfits h hturn hsim hrun
  | prefillDone id n i => exact onPrefillDone_follows hids hfits h hturn hsim hrun
  | fetchDone id => exact absurd hrun (by simp [handleEvent])
  | decodeDone id n i => exact onDecodeDone_follows hids hfits h hturn hsim hrun

end EventDrivenRunner

/-! ## The start of a run -/

namespace ServingState

theorem inSequence_enterAll {s : ServingState} (h : s.sim.InSequence) (l : List LlmRequest) :
    (s.enterAll l).sim.InSequence := by
  induction l generalizing s with
  | nil => exact h
  | cons req rest ih => exact ih (s := s.enter req) (h.schedule _ _)

/-- The arrivals of a trace, with their times. -/
theorem timesOf_enterAll (s : ServingState) (l : List LlmRequest)
    (f : ServingEvent → Option UInt64) :
    (s.enterAll l).sim.timesOf f = s.sim.timesOf f ++ l.flatMap fun req =>
      ((f (.requestArrival req.requestId)).map fun id => (id, req.arrivalNs)).toList := by
  induction l generalizing s with
  | nil => simp [enterAll]
  | cons req rest ih =>
    rw [enterAll_cons, ih, enter, timesOf_schedule, List.flatMap_cons, List.append_assoc]

theorem follows_start {cluster : ClusterTopology} {plan : List Planned} {l : List LlmRequest}
    (hrequests : plan.map Planned.request = l) (hids : DistinctIds l)
    (hsorted : l.Pairwise fun req req' => req.arrivalNs ≤ req'.arrivalNs)
    (hprefill : Serves (cluster.pool .prefill) (plan.map Planned.prefillBooking))
    (hdecode : Serves (cluster.pool .decode) (plan.map Planned.decodeBooking)) :
    Follows plan ⟨[], [], [], [], plan⟩ ((ServingState.new cluster).enterAll l) := by
  have hqueue : ∀ stage, ((ServingState.new cluster).enterAll l).queue stage = [] := fun stage => by
    rw [queue_enterAll]
    cases stage <;> rfl
  have hcluster := cluster_enterAll (ServingState.new cluster) l
  have hnow := nowNs_enterAll (ServingState.new cluster) l
  refine ⟨.rfl, inSequence_enterAll Simulator.inSequence_new l, fun ev hev => ?_, ?_, ?_,
    hqueue .prefill,
    hqueue .decode, ?_, ?_, ?_, fun e he => absurd he List.not_mem_nil,
    fun e he => absurd he List.not_mem_nil, fun ev hev id n i hkind => ?_, fun e he => ?_,
    fun e he r hr => ?_, fun y hy => ?_⟩
  · rw [hnow]
    exact UInt64.zero_le
  · rw [hcluster]
    exact hprefill
  · rw [hcluster]
    exact hdecode
  · rw [timesOf_enterAll, ← hrequests]
    simp [Simulator.timesOf, ServingState.new, ServingEvent.arrival, List.flatMap_map, Planned.id,
      ← List.map_eq_flatMap]
  · rw [timesOf_enterAll]
    simp [Simulator.timesOf, ServingState.new, ServingEvent.prefill]
  · rw [← hrequests] at hsorted
    have hplan := List.pairwise_map.1 hsorted
    exact hplan
  · obtain ⟨req, -, hkind'⟩ := kind_of_mem_start hev
    exact absurd (hkind.symm.trans hkind') (by simp)
  · refine isSome_get_enterAll _ l (.inr ?_)
    rw [← hrequests, List.map_map]
    exact List.mem_map_of_mem he
  · rcases get_enterAll _ l hr with hr' | ⟨req, hreq, rfl⟩
    · exact absurd hr' (by simp [ServingState.new])
    · have hid : (InFlightRequest.new req).id = e.id := KeyedMap.key_of_get hr
      have he' : e.request ∈ l := hrequests ▸ List.mem_map_of_mem he
      refine ⟨List.inj_on_of_nodup_map hids hreq he' hid, rfl, fun h => ?_, fun h => ?_⟩
      · exact absurd h (by simp [Progress.prefilled])
      · exact absurd h List.not_mem_nil
  · rw [results_enterAll] at hy
    exact absurd hy List.not_mem_nil

end ServingState

/-! ## The two runners -/

/-- The cluster has as many GPUs of either role as the configuration has workers. They are idle, and
none serves both roles. -/
structure ClusterTopology.Mirrors (c : ClusterTopology) (config : ServingConfig) : Prop where
  distinct : c.DistinctNodeIds
  idle : c.AllIdle
  dedicated : c.Dedicated
  prefill : (c.pool .prefill).card = config.clamped.prefillWorkers
  decode : (c.pool .decode).card = config.clamped.decodeWorkers

section

open ServingState

variable {C : Type} [ComputeModel C] {config : ServingConfig}
  {cluster : ClusterTopology} {compute : C} {requests : List LlmRequest} {plan : List Planned}

/-- A run starts on the plan of the no-reuse runner. -/
theorem onPlan_start (hids : DistinctIds requests) (hmirrors : cluster.Mirrors config)
    (hplan : (NoReuseRunner.new config compute).Plans (sortRequests requests) plan) :
    OnPlan plan ((EventDrivenRunner.new config cluster compute).start requests).toServingState := by
  have hpool : ∀ role n, (cluster.pool role).card = n →
      cluster.pool role = (List.replicate n 0 : List UInt64) := fun role n hcard => by
    rw [hmirrors.idle.pool_eq role, hcard, Multiset.coe_replicate]
  have hsorted := List.pairwise_sortByKey LlmRequest.arrivalKey requests
  exact
    { scheduled := scheduled_start hmirrors.distinct hmirrors.idle _
      attended := attended_start _ _
      inTime := inTime_start _ _
      dedicated := by
        change ((ServingState.new cluster).enterAll _).cluster.Dedicated
        rw [cluster_enterAll]
        exact hmirrors.dedicated
      follows := by
        have hids' : DistinctIds (sortRequests requests) :=
          ((sortRequests_perm requests).map _).nodup_iff.2 hids
        refine ⟨_, follows_start hplan.requests hids' (hsorted.imp fun hle => ?_) ?_ ?_⟩
        · exact (Prod.Lex.le_iff.1 hle).elim (fun hlt => hlt.le) fun heq => heq.1.le
        · exact (hpool _ _ hmirrors.prefill).symm ▸ hplan.prefill
        · exact (hpool _ _ hmirrors.decode).symm ▸ hplan.decode }

/-- Results of the plan, one for each request, sort to what the no-reuse runner returns. -/
theorem sort_of_plan {r : NoReuseRunner C} {results : List RequestResult}
    (hids : DistinctIds requests) (hplan : r.Plans (sortRequests requests) plan)
    (hdone : (results.map (·.requestId)).Perm (requests.map (·.requestId)))
    (hresults : ∀ y ∈ results, y ∈ plan.map Planned.result) :
    results.sortByKey RequestResult.arrivalKey = plan.map Planned.result := by
  have hnodup : (results.map (·.requestId)).Nodup := hdone.nodup_iff.2 hids
  have hlength : results.length = (plan.map Planned.result).length := by
    have hlen := hdone.length_eq
    have hlen' := congrArg List.length hplan.requests
    rw [List.length_map, List.length_map] at hlen
    rw [List.length_map, (sortRequests_perm requests).length_eq] at hlen'
    rw [List.length_map]
    exact hlen.trans hlen'.symm
  have hperm : results.Perm (plan.map Planned.result) :=
    (List.subperm_of_subset hnodup.of_map hresults).perm_of_length_le hlength.ge
  have hkeys : (results.map RequestResult.arrivalKey).Nodup := by
    refine List.Nodup.of_map (fun k : ArrivalKey => (ofLex k).2) ?_
    rw [List.map_map]
    exact hnodup
  rw [List.sortByKey_eq_of_perm hkeys hperm]
  exact List.sortByKey_eq_self hplan.pairwise_result

end

open ServingState in
/-- **The event-driven runner is equivalent to the no-reuse runner** on a cluster with as many GPUs
as the latter has workers, in every run in which nothing is out of turn. -/
theorem eventDriven_eq_noReuse {C : Type} [ComputeModel C] (config : ServingConfig)
    (cluster : ClusterTopology) (compute : C) (requests : List LlmRequest)
    (hids : DistinctIds requests) (hmirrors : cluster.Mirrors config)
    (hturn : ∀ r, EventLoop.Reach EventDrivenRunner.step
      ((EventDrivenRunner.new config cluster compute).start requests) r → r.inTurn = true) :
    ∃ results r r', (EventDrivenRunner.new config cluster compute).run requests = .ok (results, r) ∧
      (NoReuseRunner.new config compute).run requests = .ok (results, r') := by
  obtain ⟨plan, r', hrun, hPlans⟩ :=
    NoReuseRunner.exists_plan (NoReuseRunner.staffed_new config compute) (sortRequests requests)
  have hplan : (plan.map Planned.id).Nodup := by
    have hids' : DistinctIds (sortRequests requests) :=
      ((sortRequests_perm requests).map _).nodup_iff.2 hids
    rw [DistinctIds, ← hPlans.requests, List.map_map] at hids'
    exact hids'
  have hserves : ∀ role n, (cluster.pool role).card = max n 1 → cluster.Serves role :=
    fun role n hcard => ClusterTopology.serves_of_card_pos (by rw [hcard]; omega)
  have hserving : Serving False (ids requests)
      ((EventDrivenRunner.new config cluster compute).start requests).toServingState :=
    ids_sortRequests requests ▸ serving_start hmirrors.distinct hmirrors.idle
      (hserves _ _ hmirrors.prefill) (hserves _ _ hmirrors.decode) _
  have hload := load_start cluster (sortRequests requests)
  rw [(sortRequests_perm requests).length_eq] at hload
  obtain ⟨s, hs, -, hdone⟩ :=
    (servedOnce_of_loop EventDrivenRunner.servingLoop hids hserving hload).ends
  -- the run keeps to the plan
  obtain ⟨-, hfollows, -⟩ := (EventLoop.run_reach hs).invariant
    (I := fun r => EventLoop.Reach EventDrivenRunner.step _ r ∧ OnPlan plan r.toServingState ∧
      ∀ e ∈ plan, e.Fits r.compute r.config)
    (fun r r' ⟨hreach, hr, hf⟩ hstep => ⟨hreach.tail hstep,
      EventDrivenRunner.step_onPlan hplan hf hr (hturn r hreach) hstep⟩)
    ⟨.refl, onPlan_start hids hmirrors hPlans, hPlans.fits⟩
  obtain ⟨g, hg⟩ := hfollows.follows
  obtain ⟨r, hr⟩ := EventDrivenRunner.run_eq hs
  exact ⟨_, r, r', sort_of_plan hids hPlans hdone hg.results ▸ hr, hrun⟩

/-- Request 1 leaves its prefill ahead of request 0, but there is a decode GPU for either. -/
theorem eventDriven_eq_noReuse_overtaken : ∃ results r r',
    (EventDrivenRunner.new ⟨2, 2, 1⟩ (.singleNode 2 2) unitCompute).run
      [.cold 0 0 20 3, .cold 1 1 5 1, .cold 2 7 9 2] = .ok (results, r) ∧
    (NoReuseRunner.new ⟨2, 2, 1⟩ unitCompute).run [.cold 0 0 20 3, .cold 1 1 5 1, .cold 2 7 9 2] =
      .ok (results, r') := by
  have halways : EventLoop.always EventDrivenRunner.step (fun r => r.inTurn) 13
      ((EventDrivenRunner.new ⟨2, 2, 1⟩ (.singleNode 2 2) unitCompute).start
        [.cold 0 0 20 3, .cold 1 1 5 1, .cold 2 7 9 2]) = true := by
    decide +kernel
  exact eventDriven_eq_noReuse ⟨2, 2, 1⟩ (.singleNode 2 2) unitCompute _ (by decide)
    ⟨by decide, by decide, by decide, by decide, by decide⟩ fun r hr => hr.of_always halways

/-- Request 1 arrives at the instant at which request 0 leaves the only prefill GPU, and starts
before the completion of request 0 is handled, which frees the GPU for request 2. -/
theorem eventDriven_ne_noReuse :
    DistinctIds [.cold 0 0 10 1, .cold 1 10 10 1, .cold 2 10 10 1] ∧
    (ClusterTopology.singleNode 1 1).Mirrors ⟨1, 1, 1⟩ ∧
    ¬∃ results r r', (EventDrivenRunner.new ⟨1, 1, 1⟩ (.singleNode 1 1) unitCompute).run
        [.cold 0 0 10 1, .cold 1 10 10 1, .cold 2 10 10 1] = .ok (results, r) ∧
      (NoReuseRunner.new ⟨1, 1, 1⟩ unitCompute).run
        [.cold 0 0 10 1, .cold 1 10 10 1, .cold 2 10 10 1] = .ok (results, r') := by
  refine ⟨by decide, ⟨by decide, by decide, by decide, by decide, by decide⟩, ?_⟩
  rintro ⟨results, r, r', hr, hr'⟩
  have hstarts : ((EventDrivenRunner.new ⟨1, 1, 1⟩ (.singleNode 1 1) unitCompute).run
        [.cold 0 0 10 1, .cold 1 10 10 1, .cold 2 10 10 1]).toOption.map
          (fun p => p.1.map (·.prefillStartNs)) = some [0, 10, 10] := by
    decide +kernel
  have hstarts' : ((NoReuseRunner.new ⟨1, 1, 1⟩ unitCompute).run
        [.cold 0 0 10 1, .cold 1 10 10 1, .cold 2 10 10 1]).toOption.map
          (fun p => p.1.map (·.prefillStartNs)) = some [0, 10, 20] := by
    decide +kernel
  rw [hr] at hstarts
  rw [hr'] at hstarts'
  have heq := Option.some.inj (hstarts.symm.trans hstarts')
  exact absurd heq (by decide)

end KvFlowSim
