import KvFlowSim.Serving.Equivalence

/-!
# First come, first served

The requests of a trace stand in one line, in the order of their arrivals: those whose prefill has
been started, those that wait for it and those that have not arrived (`Line`). An event keeps the
line (`EventDrivenRunner.step_inLine`) unless an arrival takes an idle GPU while others wait for
one, that is unless it `overtakes`. A completion that is due at the instant of the arrival, and
handled after it, makes that possible (`prefill_overtakes`).
-/

namespace KvFlowSim

/-- The prefills have been started in the order of the arrivals. -/
def FirstCome (results : List RequestResult) : Prop :=
  ∀ a ∈ results, ∀ b ∈ results, a.arrivalKey < b.arrivalKey → a.prefillStartNs ≤ b.prefillStartNs

instance (results : List RequestResult) : Decidable (FirstCome results) :=
  inferInstanceAs (Decidable (∀ a ∈ results, ∀ b ∈ results, _))

/-- The line for prefill: the requests that have been started, each with the time, those that wait
and those that are still to come. -/
structure Line where
  started : List (LlmRequest × UInt64)
  waiting : List LlmRequest
  coming : List LlmRequest

namespace Line

/-- The requests that have not been started. -/
def ahead (g : Line) : List LlmRequest := g.waiting ++ g.coming

def all (g : Line) : List LlmRequest := g.started.map Prod.fst ++ g.ahead

end Line

namespace ServingState

/-- The next event is an arrival that finds an idle GPU although others wait for one. -/
def overtakes (s : ServingState) : Bool :=
  match s.sim.step with
  | some (now, .requestArrival _, _) =>
    !s.prefillQueue.isEmpty &&
      match s.cluster.findIdleGpuFor now .prefill with
      | .ok (some _) => true
      | _ => false
  | _ => false

/-- In the state `s` the trace `l` stands in the line `g`. -/
structure InLine (l : List LlmRequest) (g : Line) (s : ServingState) : Prop where
  all : g.all = l
  inSequence : s.sim.InSequence
  notPast : ∀ ev ∈ s.sim.pending, s.sim.nowNs ≤ ev.timeNs
  prefillQueue : s.prefillQueue = g.waiting.map (·.requestId)
  arrivals : s.sim.timesOf ServingEvent.arrival = g.coming.map fun req =>
    (req.requestId, req.arrivalNs)
  inOrder : g.started.Pairwise fun p p' => p.2 ≤ p'.2
  past : ∀ p ∈ g.started, p.2 ≤ s.sim.nowNs
  present : ∀ req ∈ g.ahead, (s.inFlight.get req.requestId).isSome
  records : ∀ id r, s.inFlight.get id = some r →
    r.request ∈ l ∧ ∀ t, (r.request, t) ∈ g.started → r.prefillStartNs = some t
  results : ∀ y ∈ s.results, ∃ p ∈ g.started, y.arrivalKey = p.1.arrivalKey ∧ y.prefillStartNs = p.2

variable {C : Type} [ComputeModel C] {compute : C} {config : ServingConfig} {l : List LlmRequest}
  {g : Line} {s s' : ServingState} {req : LlmRequest} {rest : List LlmRequest} {n : NodeId} {i : ℕ}
  {now id : UInt64} {kind : ServingEvent} {sim : Simulator ServingEvent}

theorem eq_of_requestId (hids : DistinctIds l) {req req' : LlmRequest} (h : req ∈ l) (h' : req' ∈ l)
    (hid : req.requestId = req'.requestId) : req = req' :=
  List.inj_on_of_nodup_map hids h h' hid

/-- A request that has not been started is still being processed. -/
theorem InLine.mem_active (h : InLine l g s) (hreq : req ∈ g.ahead) :
    req.requestId ∈ active (s, none) := by
  simp only [active, Multiset.mem_add, Multiset.mem_coe]
  rcases List.mem_append.1 hreq with hreq | hreq
  · exact .inl (.inl (.inr (h.prefillQueue ▸ List.mem_map_of_mem hreq)))
  · have hmem : (req.requestId, req.arrivalNs) ∈ s.sim.timesOf ServingEvent.arrival := by
      rw [h.arrivals]
      exact List.mem_map_of_mem (f := fun req => (req.requestId, req.arrivalNs)) hreq
    obtain ⟨ev, hev, harrival⟩ := List.mem_filterMap.1 hmem
    refine .inl (.inl (.inl (List.mem_map.2 ⟨ev, hev, ?_⟩)))
    cases hkind : ev.kind with
    | requestArrival id =>
      rw [hkind] at harrival
      exact (Prod.mk.inj (Option.some.inj harrival)).1
    | prefillDone id n i => simp [hkind, ServingEvent.arrival] at harrival
    | fetchDone id => simp [hkind, ServingEvent.arrival] at harrival
    | decodeDone id n i => simp [hkind, ServingEvent.arrival] at harrival

/-! ## Starting a job -/

/-- The first of those that wait is started. -/
theorem InLine.startPrefill (hids : DistinctIds l) (hclock : s.sim.nowNs = now)
    (h : InLine l { g with waiting := req :: rest }
      (s.setQueue .prefill (req.requestId :: s.prefillQueue)))
    (hrun : s.start compute config .prefill req.requestId (n, i) now = .ok s') :
    InLine l { g with started := g.started ++ [(req, now)], waiting := rest } s' := by
  have hreq : req ∈ l := by
    rw [← h.all]
    exact List.mem_append_right _ List.mem_cons_self
  obtain ⟨r, hr⟩ : ∃ r, s.inFlight.get req.requestId = some r :=
    Option.isSome_iff_exists.1 (h.present req List.mem_cons_self)
  have hid : r.id = req.requestId := KeyedMap.key_of_get hr
  obtain rfl : r.request = req := eq_of_requestId hids (h.records _ r hr).1 hreq hid
  obtain ⟨cluster, -, rfl⟩ := start_prefill_ok hr hrun
  have hqueue : r.request.requestId :: s.prefillQueue = _ := h.prefillQueue
  have harrivals : s.sim.timesOf ServingEvent.arrival = _ := h.arrivals
  refine ⟨?_, h.inSequence.schedule _ _, ?_, List.tail_eq_of_cons_eq hqueue, ?_, ?_, ?_, ?_, ?_, ?_⟩
  · have hall := h.all
    simpa [Line.all, Line.ahead] using hall
  · exact notPast_schedule h.notPast (hclock.le.trans (UInt64.le_satAdd _ _))
  · rw [timesOf_schedule, harrivals]
    exact List.append_nil _
  · rw [List.pairwise_append]
    refine ⟨h.inOrder, List.pairwise_singleton _ _, fun p hp p' hp' => ?_⟩
    obtain rfl := List.mem_singleton.1 hp'
    exact (h.past p hp).trans hclock.le
  · intro p hp
    rcases List.mem_append.1 hp with hp | hp
    · exact h.past p hp
    · obtain rfl := List.mem_singleton.1 hp
      exact hclock.ge
  · intro req' hreq'
    rw [KeyedMap.get_insert]
    split_ifs
    · rfl
    · exact h.present req' (List.mem_cons_of_mem _ hreq')
  · intro id r' hr'
    rw [KeyedMap.get_insert] at hr'
    split_ifs at hr' with hid
    · obtain rfl := Option.some.inj hr'
      refine ⟨hreq, fun t ht => ?_⟩
      rcases List.mem_append.1 ht with ht | ht
      · -- it stands in the line once
        have hnodup : ((g.started.map Prod.fst ++ (r.request :: rest ++ g.coming)).map
            (·.requestId)).Nodup := by
          have hall : g.started.map Prod.fst ++ (r.request :: rest ++ g.coming) = l := h.all
          rw [hall]
          exact hids
        have hstarted : r.request ∈ g.started.map Prod.fst := List.mem_map_of_mem (f := Prod.fst) ht
        exact absurd rfl ((List.nodup_append.1 hnodup.of_map).2.2 _ hstarted _ List.mem_cons_self)
      · obtain ⟨-, rfl⟩ := Prod.mk.inj (List.mem_singleton.1 ht)
        rfl
    · obtain ⟨hmem, hstart⟩ := h.records id r' hr'
      refine ⟨hmem, fun t ht => ?_⟩
      rcases List.mem_append.1 ht with ht | ht
      · exact hstart t ht
      · have hrequest : r'.request = r.request := (Prod.mk.inj (List.mem_singleton.1 ht)).1
        refine absurd ?_ hid
        exact (KeyedMap.key_of_get hr').symm.trans (congrArg LlmRequest.requestId hrequest)
  · intro y hy
    obtain ⟨p, hp, hkey⟩ := h.results y hy
    exact ⟨p, List.mem_append_left _ hp, hkey⟩

/-- A decode changes nothing in the line. -/
theorem InLine.startDecode (hclock : s.sim.nowNs = now) (h : InLine l g s)
    (hrun : s.start compute config .decode id (n, i) now = .ok s') : InLine l g s' := by
  cases hr : s.inFlight.get id with
  | none =>
    simp only [start, hr] at hrun
    obtain rfl := Except.ok.inj hrun
    exact h
  | some r =>
    obtain ⟨cluster, -, rfl⟩ := start_decode_ok hr hrun
    refine ⟨h.all, h.inSequence.schedule _ _, ?_, h.prefillQueue, ?_, h.inOrder, h.past, ?_, ?_,
      h.results⟩
    · exact notPast_schedule h.notPast (hclock.le.trans (UInt64.le_satAdd _ _))
    · rw [timesOf_schedule, h.arrivals]
      exact List.append_nil _
    · intro req hreq
      rw [KeyedMap.get_insert]
      split_ifs
      · rfl
      · exact h.present req hreq
    · intro id' r' hr'
      rw [KeyedMap.get_insert] at hr'
      split_ifs at hr'
      · obtain rfl := Option.some.inj hr'
        exact h.records id r hr
      · exact h.records id' r' hr'

/-- A queue of decodes changes nothing in the line. -/
theorem InLine.setDecodeQueue (h : InLine l g s) (q : List UInt64) :
    InLine l g (s.setQueue .decode q) :=
  ⟨h.all, h.inSequence, h.notPast, h.prefillQueue, h.arrivals, h.inOrder, h.past,
    h.present, h.records,
    h.results⟩

/-- The release of a GPU changes nothing in the line. -/
theorem InLine.releaseGpu (h : InLine l g s) (hrun : s.releaseGpu n i now = .ok s') :
    InLine l g s' := by
  obtain ⟨cluster, -, hrun⟩ := Except.bind_eq_ok.1 hrun
  obtain rfl := Except.ok.inj hrun
  exact ⟨h.all, h.inSequence, h.notPast, h.prefillQueue, h.arrivals, h.inOrder, h.past, h.present,
    h.records, h.results⟩

/-- The finished request was started before. -/
theorem InLine.finish {ids : Multiset UInt64} {b : ℕ} (hids : ids.Nodup)
    (htracked : Tracked ids (s, some (id, b))) (h : InLine l g s) : InLine l g (s.finish id) := by
  have hne : ∀ req ∈ g.ahead, req.requestId ≠ id := by
    rintro req hreq rfl
    exact htracked.held_notMem hids (h.mem_active hreq)
  cases hr : s.inFlight.get id with
  | none => simpa only [ServingState.finish, hr] using h
  | some r =>
    simp only [ServingState.finish, hr]
    refine ⟨h.all, h.inSequence, h.notPast, h.prefillQueue, h.arrivals, h.inOrder,
      h.past, ?_, ?_, ?_⟩
    · intro req hreq
      rw [KeyedMap.get_remove, if_neg (hne req hreq)]
      exact h.present req hreq
    · intro id' r' hr'
      rw [KeyedMap.get_remove] at hr'
      split_ifs at hr'
      exact h.records id' r' hr'
    · intro y hy
      rcases List.mem_append.1 hy with hy | hy
      · exact h.results y hy
      · obtain rfl := List.mem_singleton.1 hy
        obtain ⟨hmem, hstart⟩ := h.records id r hr
        rw [← h.all] at hmem
        rcases List.mem_append.1 hmem with hmem | hmem
        · obtain ⟨p, hp, hrequest⟩ := List.mem_map.1 hmem
          have hstart := hstart p.2 (hrequest ▸ hp)
          refine ⟨p, hp, ?_, ?_⟩
          · rw [hrequest]
            rfl
          · simp [InFlightRequest.intoResult, hstart]
        · exact absurd (KeyedMap.key_of_get hr) (hne _ hmem)

/-! ## Taking out the next event -/

/-- An event that is no arrival changes nothing in the line. -/
theorem InLine.pop (h : InLine l g s) (hstep : s.sim.step = some (now, kind, sim))
    (hkind : kind.arrival = none) : InLine l g { s with sim := sim } := by
  obtain ⟨hle, hclock, -, hpast⟩ := Simulator.step_notPast hstep h.notPast
  obtain ⟨hsame, -⟩ := h.inSequence.timesOf_step h.notPast hstep ServingEvent.arrival
  exact ⟨h.all, (h.inSequence.step hstep).1, hpast, h.prefillQueue, (hsame hkind).trans h.arrivals,
    h.inOrder, fun p hp => (h.past p hp).trans (hle.trans hclock.ge), h.present,
    h.records, h.results⟩

/-- The next arrival is that of the first request to come, which joins those that wait. -/
theorem InLine.pop_arrival (hsorted : l.Pairwise fun req req' => req.arrivalNs ≤ req'.arrivalNs)
    (h : InLine l g s) (hstep : s.sim.step = some (now, .requestArrival id, sim)) :
    ∃ req rest, g.coming = req :: rest ∧ req.requestId = id ∧
      InLine l { g with waiting := g.waiting ++ [req], coming := rest }
        (({ s with sim := sim } : ServingState).setQueue .prefill (s.prefillQueue ++ [id])) := by
  obtain ⟨hle, hclock, -, hpast⟩ := Simulator.step_notPast hstep h.notPast
  have htimes : (s.sim.timesOf ServingEvent.arrival).Pairwise fun p p' => p.2 ≤ p'.2 := by
    rw [h.arrivals]
    refine List.pairwise_map.2 (hsorted.sublist ?_)
    rw [← h.all, Line.all, Line.ahead]
    exact (List.sublist_append_right _ _).trans (List.sublist_append_right _ _)
  have hfirst := h.inSequence.timesOf_step_first h.notPast hstep rfl htimes
  rw [h.arrivals] at hfirst
  obtain ⟨req, rest, hcoming, hreq, hrest⟩ := List.map_eq_cons_iff.1 hfirst
  obtain ⟨rfl, -⟩ := Prod.mk.inj hreq
  have hahead :
      ({ g with waiting := g.waiting ++ [req], coming := rest } : Line).ahead = g.ahead := by
    simp [Line.ahead, hcoming]
  refine ⟨req, rest, hcoming, rfl, ?_, (h.inSequence.step hstep).1, hpast, ?_, hrest.symm,
    h.inOrder, fun p hp => (h.past p hp).trans (hle.trans hclock.ge), ?_, h.records, h.results⟩
  · rw [Line.all, hahead]
    exact h.all
  · rw [List.map_append, ← h.prefillQueue]
    rfl
  · rw [hahead]
    exact h.present

/-! ## The operations of the handlers -/

/-- While an event is handled at time `now`, the trace stands in some line. -/
def LinedUp (l : List LlmRequest) (now : UInt64) (s : ServingState) : Prop :=
  s.sim.nowNs = now ∧ ∃ g, InLine l g s

theorem Moves.linedUp {fetching : Prop} {x y : ServingState × Held} (h : Moves fetching now x y)
    (hclock : x.1.sim.nowNs = now) (hy : ∃ g, InLine l g y.1) : LinedUp l now y.1 :=
  ⟨h.nowNs.trans hclock, hy⟩

/-- The request that has arrived is started if no other waits; else it stands behind them. -/
theorem InLine.startOrQueue (hids : DistinctIds l) (hclock : s.sim.nowNs = now)
    (h : InLine l { g with waiting := g.waiting ++ [req] }
      (s.setQueue .prefill (s.prefillQueue ++ [req.requestId])))
    (hturn : ∀ gpu, s.cluster.findIdleGpuFor now .prefill = .ok (some gpu) → s.prefillQueue = [])
    (hrun : s.startOrQueue compute config .prefill req.requestId now = .ok s') :
      LinedUp l now s' := by
  have hmoves : Moves False now (s, some (req.requestId, 3)) (s', none) :=
    startOrQueue_moves hrun (by decide)
  refine hmoves.linedUp hclock ?_
  obtain ⟨gpu, hgpu, hrun⟩ := Except.bind_eq_ok.1 hrun
  cases gpu with
  | none =>
    obtain rfl := Except.ok.inj hrun
    exact ⟨_, h⟩
  | some gpu =>
    have hempty := hturn gpu hgpu
    have hqueue : s.prefillQueue ++ [req.requestId] = (g.waiting ++ [req]).map (·.requestId) :=
      h.prefillQueue
    have hwaiting : g.waiting = [] := by
      have hlength := congrArg List.length hqueue
      simpa [hempty] using hlength
    rw [hwaiting, hempty] at h
    have hfirst : InLine l { g with waiting := [req] }
        (s.setQueue .prefill (req.requestId :: s.prefillQueue)) := by
      rw [hempty]
      exact h
    exact ⟨_, hfirst.startPrefill hids hclock hrun⟩

theorem LinedUp.startDecode (h : LinedUp l now s)
    (hrun : s.start compute config .decode id (n, i) now = .ok s') : ∃ g, InLine l g s' := by
  obtain ⟨hclock, g, hg⟩ := h
  exact ⟨g, hg.startDecode hclock hrun⟩

theorem LinedUp.startOrQueueDecode (h : LinedUp l now s)
    (hrun : s.startOrQueueDecode compute config id now = .ok s') : LinedUp l now s' := by
  have hmoves : Moves False now (s, some (id, 1)) (s', none) := startOrQueueDecode_moves hrun le_rfl
  refine hmoves.linedUp h.1 ?_
  unfold ServingState.startOrQueueDecode at hrun
  split at hrun
  next =>
    obtain rfl := Except.ok.inj hrun
    exact h.2
  next =>
    obtain ⟨gpu, -, hrun⟩ := Except.bind_eq_ok.1 hrun
    cases gpu with
    | none =>
      obtain rfl := Except.ok.inj hrun
      exact h.2.imp fun g hg => hg.setDecodeQueue _
    | some gpu => exact h.startDecode hrun

/-- The first request of a queue is started. -/
theorem LinedUp.dequeue {stage : Stage} {ids : List UInt64} (hids : DistinctIds l)
    (h : LinedUp l now s) (hq : s.queue stage = id :: ids)
    (hrun : (s.setQueue stage ids).start compute config stage id (n, i) now = .ok s') :
    ∃ g, InLine l g s' := by
  obtain ⟨hclock, g, hg⟩ := h
  cases stage with
  | prefill =>
    obtain ⟨req, rest, hwaiting, rfl, rfl⟩ := List.map_eq_cons_iff.1 (hg.prefillQueue.symm.trans hq)
    have hself : (s.setQueue .prefill (rest.map (·.requestId))).setQueue .prefill
        (req.requestId :: rest.map (·.requestId)) = s := by
      rw [setQueue_setQueue, ← hq, setQueue_queue]
    have hline : InLine l { g with waiting := req :: rest }
        ((s.setQueue .prefill (rest.map (·.requestId))).setQueue .prefill
          (req.requestId :: rest.map (·.requestId))) := by
      rw [hself, ← hwaiting]
      exact hg
    exact ⟨_, InLine.startPrefill (s := s.setQueue .prefill (rest.map (·.requestId))) (g := g) hids
      hclock hline hrun⟩
  | decode =>
    have hset : LinedUp l now (s.setQueue .decode ids) := ⟨hclock, g, hg.setDecodeQueue ids⟩
    exact hset.startDecode hrun

theorem LinedUp.assign {stage : Stage} {ids : List UInt64} (hids : DistinctIds l)
    (h : LinedUp l now s) (hq : s.queue stage = ids)
    (hrun : assign compute config stage now ids s = .ok s') :
    LinedUp l now s' := by
  induction ids generalizing s with
  | nil =>
    obtain rfl := Except.ok.inj hrun
    exact h
  | cons id ids ih =>
    obtain ⟨gpu, hgpu, hrun⟩ := Except.bind_eq_ok.1 hrun
    cases gpu with
    | none =>
      obtain rfl := Except.ok.inj hrun
      exact h
    | some gpu =>
      obtain ⟨s₁, hstart, hrun⟩ := Except.bind_eq_ok.1 hrun
      have hmoves : Moves False now (s, none) (s₁, none) :=
        .head (.dequeue hq) (start_moves le_rfl (by simpa using hgpu) hstart)
      have hrest : s₁.queue stage = ids := by rw [queue_start hstart, queue_setQueue_self]
      exact ih (hmoves.linedUp h.1 (h.dequeue hids hq hstart)) hrest hrun

/-- Serving a queue keeps the line. -/
theorem LinedUp.tryAssign {stage : Stage} (hids : DistinctIds l) (h : LinedUp l now s)
    (hrun : s.tryAssign compute config stage now = .ok s') : LinedUp l now s' :=
  h.assign hids rfl hrun

theorem LinedUp.releaseGpu (h : LinedUp l now s) (hrun : s.releaseGpu n i now = .ok s') :
    LinedUp l now s' := by
  obtain ⟨hclock, g, hg⟩ := h
  refine ⟨?_, g, hg.releaseGpu hrun⟩
  obtain ⟨cluster, -, hrun⟩ := Except.bind_eq_ok.1 hrun
  obtain rfl := Except.ok.inj hrun
  exact hclock

/-- What holds between two events. -/
structure OnLine (l : List LlmRequest) (s : ServingState) : Prop where
  tracked : Tracked (ids l) (s, none)
  inLine : ∃ g, InLine l g s

theorem OnLine.pop (h : OnLine l s) (hstep : s.sim.step = some (now, kind, sim))
    (hkind : kind.arrival = none) : LinedUp l now { s with sim := sim } := by
  obtain ⟨g, hg⟩ := h.inLine
  exact ⟨(Simulator.step_notPast hstep hg.notPast).2.1, g, hg.pop hstep hkind⟩

/-! ## The start and the end of a run -/

theorem onLine_start (cluster : ClusterTopology) (l : List LlmRequest) :
    OnLine l ((ServingState.new cluster).enterAll l) := by
  have hqueue : ((ServingState.new cluster).enterAll l).queue .prefill = [] := by
    rw [queue_enterAll]
    rfl
  refine ⟨tracked_start cluster l, ⟨[], [], l⟩, rfl, inSequence_enterAll Simulator.inSequence_new l,
    fun ev hev => ?_, hqueue, ?_, .nil, fun p hp => absurd hp List.not_mem_nil, fun req hreq => ?_,
    fun id r hr => ⟨?_, fun t ht => absurd ht List.not_mem_nil⟩, fun y hy => ?_⟩
  · rw [nowNs_enterAll]
    exact UInt64.zero_le
  · rw [timesOf_enterAll]
    simp [Simulator.timesOf, ServingState.new, ServingEvent.arrival, ← List.map_eq_flatMap]
  · exact isSome_get_enterAll _ l (.inr (List.mem_map_of_mem hreq))
  · rcases get_enterAll _ l hr with hr | ⟨req, hreq, rfl⟩
    · exact absurd hr (by simp [ServingState.new])
    · exact hreq
  · rw [results_enterAll] at hy
    exact absurd hy List.not_mem_nil

/-- The results so far are those of requests that were started one after another. -/
theorem InLine.firstCome (hsorted : l.Pairwise fun req req' => req.arrivalKey ≤ req'.arrivalKey)
    (h : InLine l g s) : FirstCome s.results := by
  have hkeys : g.started.Pairwise fun p p' => p.1.arrivalKey ≤ p'.1.arrivalKey := by
    rw [← h.all, Line.all] at hsorted
    have hstarted := (List.pairwise_append.1 hsorted).1
    rwa [List.pairwise_map] at hstarted
  -- the two orders of the started requests agree
  have hagree : ∀ p ∈ g.started, ∀ p' ∈ g.started, p.1.arrivalKey < p'.1.arrivalKey →
      p.2 ≤ p'.2 := by
    refine List.Pairwise.forall_of_forall_of_flip (fun p _ hlt => absurd hlt (lt_irrefl _)) ?_ ?_
    · exact h.inOrder.imp fun {p p'} htime (_ : p.1.arrivalKey < p'.1.arrivalKey) => htime
    · exact hkeys.imp fun hkey hlt => absurd hlt hkey.not_gt
  intro a ha b hb hlt
  obtain ⟨p, hp, hkey, hstart⟩ := h.results a ha
  obtain ⟨p', hp', hkey', hstart'⟩ := h.results b hb
  rw [hkey, hkey'] at hlt
  rw [hstart, hstart']
  exact hagree p hp p' hp' hlt

end ServingState

/-! ## The events -/

namespace EventDrivenRunner

open ServingState

variable {C : Type} [ComputeModel C] {l : List LlmRequest} {r r' : EventDrivenRunner C} {n : NodeId}
  {i : ℕ} {now id : UInt64} {sim : Simulator ServingEvent}

theorem onArrival_linedUp (hids : DistinctIds l)
    (hsorted : l.Pairwise fun req req' => req.arrivalNs ≤ req'.arrivalNs)
    (h : OnLine l r.toServingState) (hturn : r.overtakes = false)
    (hstep : r.sim.step = some (now, .requestArrival id, sim))
    (hrun : { r with sim := sim }.onArrival now id = .ok r') : LinedUp l now r'.toServingState := by
  obtain ⟨s, hs, rfl⟩ := onState_eq_ok.1 hrun
  obtain ⟨g, hg⟩ := h.inLine
  obtain ⟨req, rest, -, rfl, hpop⟩ := hg.pop_arrival hsorted hstep
  refine InLine.startOrQueue (g := { g with coming := rest }) hids
    (Simulator.step_notPast hstep hg.notPast).2.1 hpop
    (fun gpu hgpu => ?_) hs
  have hgpu : r.cluster.findIdleGpuFor now .prefill = .ok (some gpu) := hgpu
  simpa [overtakes, hstep, hgpu] using hturn

theorem onPrefillDone_linedUp (hids : DistinctIds l) (h : OnLine l r.toServingState)
    (hstep : r.sim.step = some (now, .prefillDone id n i, sim))
    (hrun : { r with sim := sim }.onPrefillDone now id n i = .ok r') :
    LinedUp l now r'.toServingState := by
  obtain ⟨s₁, s₂, s₃, s₄, hs₁, hs₂, hs₃, hs₄, rfl⟩ := onPrefillDone_ok hrun
  have hready := ((h.pop hstep rfl).releaseGpu hs₁).startOrQueueDecode hs₂
  exact (hready.tryAssign hids hs₃).tryAssign hids hs₄

theorem onDecodeDone_linedUp (hids : DistinctIds l) (h : OnLine l r.toServingState)
    (hstep : r.sim.step = some (now, .decodeDone id n i, sim))
    (hrun : { r with sim := sim }.onDecodeDone now id n i = .ok r') :
    LinedUp l now r'.toServingState := by
  obtain ⟨s₁, s₃, s₄, hs₁, hs₃, hs₄, rfl⟩ := onDecodeDone_ok hrun
  obtain ⟨hclock, g, hg⟩ := (h.pop hstep rfl).releaseGpu hs₁
  have htracked : Tracked (ids l) (s₁, some (id, 0)) := by
    have hpop := h.tracked.pop hstep 0
    obtain ⟨cluster, -, hs₁⟩ := Except.bind_eq_ok.1 hs₁
    obtain rfl := Except.ok.inj hs₁
    exact ⟨hpop.places, hpop.inFlight⟩
  have hdone : LinedUp l now (s₁.finish id) :=
    ⟨by rw [sim_finish]; exact hclock, g, hg.finish (Multiset.coe_nodup.2 hids) htracked⟩
  exact (hdone.tryAssign hids hs₃).tryAssign hids hs₄

/-- **One event.** Unless an arrival overtakes others, the line is kept. -/
theorem step_onLine (hids : DistinctIds l)
    (hsorted : l.Pairwise fun req req' => req.arrivalNs ≤ req'.arrivalNs)
    (h : OnLine l r.toServingState) (hturn : r.overtakes = false)
    (hstep : EventLoop.Step step r r') : OnLine l r'.toServingState := by
  refine ⟨(step_advance hstep).tracked (Multiset.coe_nodup.2 hids) h.tracked, ?_⟩
  obtain ⟨now, kind, sim, hsim, hrun⟩ := step_ok hstep
  cases kind with
  | requestArrival id => exact (onArrival_linedUp hids hsorted h hturn hsim hrun).2
  | prefillDone id n i => exact (onPrefillDone_linedUp hids h hsim hrun).2
  | fetchDone id => exact absurd hrun (by simp [handleEvent])
  | decodeDone id n i => exact (onDecodeDone_linedUp hids h hsim hrun).2

/-- **Prefill is first come, first served** in every run in which no arrival overtakes a request
that waits. -/
theorem prefill_firstCome (config : ServingConfig) (cluster : ClusterTopology) (compute : C)
    (requests : List LlmRequest) (hids : DistinctIds requests)
    (hturn : ∀ r, EventLoop.Reach step ((new config cluster compute).start requests) r →
      r.overtakes = false) :
    (∀ r, EventLoop.Reach step ((new config cluster compute).start requests) r →
      FirstCome r.results) ∧
    ∀ results r, (new config cluster compute).run requests = .ok (results, r) →
      FirstCome results := by
  have hids' : DistinctIds (sortRequests requests) :=
    ((sortRequests_perm requests).map _).nodup_iff.2 hids
  have hkeys := List.pairwise_sortByKey LlmRequest.arrivalKey requests
  have hsorted : (sortRequests requests).Pairwise fun req req' => req.arrivalNs ≤ req'.arrivalNs :=
    hkeys.imp fun hle => (Prod.Lex.le_iff.1 hle).elim (fun hlt => hlt.le) fun heq => heq.1.le
  have hstates : ∀ r, EventLoop.Reach step ((new config cluster compute).start requests) r →
      FirstCome r.results := by
    intro r hr
    have hline := hr.invariant
      (I := fun r => EventLoop.Reach step _ r ∧ OnLine (sortRequests requests) r.toServingState)
      (fun r r' ⟨hreach, h⟩ hstep =>
        ⟨hreach.tail hstep, step_onLine hids' hsorted h (hturn r hreach) hstep⟩)
      ⟨.refl, onLine_start cluster _⟩
    obtain ⟨g, hg⟩ := hline.2.inLine
    exact hg.firstCome hkeys
  refine ⟨hstates, fun results r hrun => ?_⟩
  obtain ⟨s, hs, hrun⟩ := Except.bind_eq_ok.1 hrun
  obtain ⟨rfl, -⟩ := Prod.mk.inj (Except.ok.inj hrun)
  have hperm := List.sortByKey_perm RequestResult.arrivalKey s.results
  have hfirst := hstates s (EventLoop.run_reach hs)
  exact fun a ha b hb => hfirst a (hperm.mem_iff.1 ha) b (hperm.mem_iff.1 hb)

/-- Requests 1 and 2 wait for the only prefill GPU, one after the other. -/
theorem prefill_firstCome_waiting : ∃ results r,
    (new ⟨1, 1, 1⟩ (.singleNode 1 1) unitCompute).run
      [.cold 0 0 10 1, .cold 1 5 10 1, .cold 2 6 10 1] = .ok (results, r) ∧ FirstCome results := by
  have halways : EventLoop.always step (fun r => !r.overtakes) 13
      ((new ⟨1, 1, 1⟩ (.singleNode 1 1) unitCompute).start
        [.cold 0 0 10 1, .cold 1 5 10 1, .cold 2 6 10 1]) = true := by
    decide +kernel
  have hok : ((new ⟨1, 1, 1⟩ (.singleNode 1 1) unitCompute).run
      [.cold 0 0 10 1, .cold 1 5 10 1, .cold 2 6 10 1]).toOption.isSome = true := by
    decide +kernel
  obtain ⟨⟨results, r⟩, hsome⟩ := Option.isSome_iff_exists.1 hok
  have hrun := Except.toOption_eq_some.1 hsome
  refine ⟨results, r, hrun, ?_⟩
  exact (prefill_firstCome ⟨1, 1, 1⟩ (.singleNode 1 1) unitCompute _ (by decide) fun r hr =>
    (Bool.not_eq_true' _).mp (hr.of_always halways)).2 results r hrun

/-- Requests 1 and 2 wait for the only prefill GPU, and request 3 arrives at the instant at which
request 0 leaves it: it starts at once, ahead of request 2. -/
theorem prefill_overtakes :
    DistinctIds [.cold 0 0 10 1, .cold 1 5 10 1, .cold 2 6 10 1, .cold 3 10 10 1] ∧
    (ClusterTopology.singleNode 1 1).AllIdle ∧
    ∃ results r, (new ⟨1, 1, 1⟩ (.singleNode 1 1) unitCompute).run
      [.cold 0 0 10 1, .cold 1 5 10 1, .cold 2 6 10 1, .cold 3 10 10 1] = .ok (results, r) ∧
      ¬FirstCome results := by
  refine ⟨by decide, by decide, ?_⟩
  have hresults : ((new ⟨1, 1, 1⟩ (.singleNode 1 1) unitCompute).run
      [.cold 0 0 10 1, .cold 1 5 10 1, .cold 2 6 10 1, .cold 3 10 10 1]).toOption.any
        (fun p => decide (¬FirstCome p.1)) = true := by
    decide +kernel
  obtain ⟨⟨results, r⟩, hrun, hnot⟩ := (Option.any_eq_true _ _).1 hresults
  exact ⟨results, r, Except.toOption_eq_some.1 hrun, of_decide_eq_true hnot⟩

end EventDrivenRunner

end KvFlowSim
