import KvFlowSim.Serving.Charged
import KvFlowSim.Serving.Punctual

/-!
# The timeline of a request

What a request is counted as decides how many tokens are prefilled for it, and when that may begin:
not before it arrives, and not before its KV is there if that is fetched (`Cleared`). Wherever a
request is while it is being processed, its record shows as much of its timeline as has been fixed
so far (`Site.Fine`); the operations of the shared state keep this, and so do the events
(`Past.onSchedule_step`). When the last event has been handled the results show whole
timelines (`results_timeline`).
-/

namespace KvFlowSim

open ServingState

/-- The request is a hit that leaves nothing to be prefilled. -/
def Counter.Skips (c : Counter) (q : LlmRequest) : Prop := c ≠ .misses ∧ q.newPromptTokens = 0

instance (c : Counter) (q : LlmRequest) : Decidable (c.Skips q) :=
  inferInstanceAs (Decidable (_ ∧ _))

/-- The request is a hit on a tier from which KV is fetched. -/
def Counter.IsFetched (c : Counter) : Prop := c = .hitsCpu ∨ c = .hitsRemote

variable {C P T : Type}

/-- The estimate for the fetch that an arrival starts. -/
def Happening.fetchEstimate [TransferModel T] (e : Happening C P T) : Option TransferEstimate :=
  e.found.bind fun kv => (CacheAwareRunner.fetchPath kv.location).bind fun path =>
    (TransferModel.estimate e.before.transfer e.nowNs path kv.bytes).1.toOption

section

variable [TransferModel T] {past later : List (Happening C P T)} {q : LlmRequest} {c : Counter}
  {t t' : UInt64} {r r' : InFlightRequest}

/-- The fetch for a request is estimated to be done by a time. -/
def FetchedBy (past : List (Happening C P T)) (q : LlmRequest) (t : UInt64) : Prop :=
  ∃ e ∈ past, e.event = .requestArrival q.requestId ∧ ∃ estimate, e.fetchEstimate = some estimate ∧
    estimate.finishNs ≤ t

/-- A request that is counted so may be started at the time. -/
structure Cleared (past : List (Happening C P T)) (q : LlmRequest) (c : Counter) (t : UInt64) :
    Prop where
  counted : CountedAs past q c
  arrived : q.arrivalNs ≤ t
  fetched : c.IsFetched → FetchedBy past q t

theorem FetchedBy.mono (h : FetchedBy past q t) (hsub : past ⊆ later) (ht : t ≤ t') :
    FetchedBy later q t' := by
  obtain ⟨e, he, hevent, estimate, hestimate, hle⟩ := h
  exact ⟨e, hsub he, hevent, estimate, hestimate, hle.trans ht⟩

theorem Cleared.mono (h : Cleared past q c t) (hsub : past ⊆ later) (ht : t ≤ t') :
    Cleared later q c t' :=
  ⟨h.counted.mono hsub, h.arrived.trans ht, fun hc => (h.fetched hc).mono hsub ht⟩

/-! ## Records -/

/-- No prefill has been started. -/
structure InFlightRequest.Unstarted (r : InFlightRequest) : Prop where
  start : r.prefillStartNs = none
  done : r.prefillDoneNs = none

/-- The request may be prefilled, with as many tokens as its counter says. -/
structure Awaits (past : List (Happening C P T)) (r : InFlightRequest) (c : Counter) (t : UInt64) :
    Prop where
  cleared : Cleared past r.request c t
  notSkips : ¬c.Skips r.request
  tokens : r.tokensToPrefill = c.tokens r.request
  unstarted : r.Unstarted

theorem Awaits.mono (h : Awaits past r c t) (hsub : past ⊆ later) (ht : t ≤ t') :
    Awaits later r c t' :=
  ⟨h.cleared.mono hsub ht, h.notSkips, h.tokens, h.unstarted⟩

variable [ComputeModel C]

/-- The request may be decoded at the time: its prefill is done, or it needs none. -/
inductive Prefilled (compute : C) (past : List (Happening C P T))
    (r : InFlightRequest) (c : Counter) (t : UInt64) : Prop
  | done {start : UInt64} (hcleared : Cleared past r.request c start) (hnot : ¬c.Skips r.request)
      (hstart : r.prefillStartNs = some start)
      (hdone : r.prefillDoneNs =
        some (start.satAdd (ComputeModel.prefillTimeNs compute (c.tokens r.request))))
      (hle : start.satAdd (ComputeModel.prefillTimeNs compute (c.tokens r.request)) ≤ t)
  | skipped (hcleared : Cleared past r.request c t) (hskips : c.Skips r.request)
      (hunstarted : r.Unstarted)

/-- The record shows the whole timeline. -/
structure Timed (compute : C) (config : ServingConfig) (past : List (Happening C P T))
    (r : InFlightRequest) (c : Counter) (start : UInt64) : Prop where
  prefilled : Prefilled compute past r c start
  decodeStart : r.decodeStartNs = some start
  firstToken : r.firstTokenNs = some (start.satAdd
    (ComputeModel.decodeStepTimeNs compute config.decodeBatchSize r.request.promptTokens))
  finish : r.finishNs = some (start.satAdd
    ((ComputeModel.decodeStepTimeNs compute config.decodeBatchSize r.request.promptTokens).satMul
      r.request.outputTokens.toUInt64))

theorem Prefilled.mono {compute : C} (h : Prefilled compute past r c t) (hsub : past ⊆ later)
    (ht : t ≤ t') : Prefilled compute later r c t' := by
  cases h with
  | done hcleared hnot hstart hdone hle =>
    exact .done (hcleared.mono hsub le_rfl) hnot hstart hdone (hle.trans ht)
  | skipped hcleared hskips hunstarted => exact .skipped (hcleared.mono hsub ht) hskips hunstarted

theorem Timed.mono {compute : C} {config : ServingConfig} (h : Timed compute config past r c t)
    (hsub : past ⊆ later) : Timed compute config later r c t :=
  ⟨h.prefilled.mono hsub le_rfl, h.decodeStart, h.firstToken, h.finish⟩

end

/-! ## Where a request is -/

/-- The place of a request that is being processed: before a pending event or in a queue. -/
inductive Site
  | event (ev : Event ServingEvent)
  | queue (stage : Stage)

namespace ServingState

/-- The requests at their places. -/
def sites (s : ServingState) : List (UInt64 × Site) :=
  (s.sim.pending.map fun ev => (ev.kind.requestId, .event ev)) ++
    s.prefillQueue.map (fun id => (id, .queue .prefill)) ++
      s.decodeQueue.map fun id => (id, .queue .decode)

theorem mem_active_of_site {s : ServingState} {p : UInt64 × Site} (hp : p ∈ s.sites) :
    p.1 ∈ active (s, none) := by
  simp only [active, Multiset.mem_add, Multiset.mem_coe]
  rcases List.mem_append.1 hp with hp | hp
  · rcases List.mem_append.1 hp with hp | hp
    · obtain ⟨ev, hev, rfl⟩ := List.mem_map.1 hp
      exact .inl (.inl (.inl (List.mem_map_of_mem (f := fun ev => ev.kind.requestId) hev)))
    · obtain ⟨id, hid, rfl⟩ := List.mem_map.1 hp
      exact .inl (.inl (.inr hid))
  · obtain ⟨id, hid, rfl⟩ := List.mem_map.1 hp
    exact .inl (.inr hid)

theorem mem_sites_queue {s : ServingState} {stage : Stage} {id : UInt64} (h : id ∈ s.queue stage) :
    (id, .queue stage) ∈ s.sites := by
  cases stage with
  | prefill => exact List.mem_append_left _ (List.mem_append_right _ (List.mem_map_of_mem h))
  | decode => exact List.mem_append_right _ (List.mem_map_of_mem h)

/-- A place after a queue has been replaced. -/
theorem mem_sites_setQueue {s : ServingState} {stage : Stage} {q : List UInt64} {p : UInt64 × Site}
    (hp : p ∈ (s.setQueue stage q).sites) : p ∈ s.sites ∨ p.1 ∈ q ∧ p.2 = .queue stage := by
  rcases List.mem_append.1 hp with hp | hp
  · rcases List.mem_append.1 hp with hp | hp
    · rw [sim_setQueue] at hp
      exact .inl (List.mem_append_left _ (List.mem_append_left _ hp))
    · cases stage with
      | prefill =>
        obtain ⟨id, hid, rfl⟩ := List.mem_map.1 hp
        exact .inr ⟨hid, rfl⟩
      | decode => exact .inl (List.mem_append_left _ (List.mem_append_right _ hp))
  · cases stage with
    | prefill => exact .inl (List.mem_append_right _ hp)
    | decode =>
      obtain ⟨id, hid, rfl⟩ := List.mem_map.1 hp
      exact .inr ⟨hid, rfl⟩

/-- A place after an event has been scheduled. -/
theorem mem_sites_schedule {s s' : ServingState} {t : UInt64} {kind : ServingEvent}
    {p : UInt64 × Site} (hp : p ∈ s'.sites) (hsim : s'.sim = s.sim.schedule t kind)
    (hprefill : s'.prefillQueue = s.prefillQueue) (hdecode : s'.decodeQueue = s.decodeQueue) :
    p ∈ s.sites ∨ ∃ ev, ev.kind = kind ∧ ev.timeNs = t ∧ p = (kind.requestId, .event ev) := by
  rw [sites, hsim, hprefill, hdecode, Simulator.pending_schedule, List.map_append] at hp
  rcases List.mem_append.1 hp with hp | hp
  · rcases List.mem_append.1 hp with hp | hp
    · rcases List.mem_append.1 hp with hp | hp
      · exact .inl (List.mem_append_left _ (List.mem_append_left _ hp))
      · exact .inr ⟨_, rfl, rfl, List.mem_singleton.1 hp⟩
    · exact .inl (List.mem_append_left _ (List.mem_append_right _ hp))
  · exact .inl (List.mem_append_right _ hp)

end ServingState

section

variable [TransferModel T] [ComputeModel C] {compute : C} {config : ServingConfig}
  {past later : List (Happening C P T)} {now now' : UInt64} {r r' : InFlightRequest} {site : Site}

/-- The record of a request at a place shows what it should. -/
def Site.Fine (compute : C) (config : ServingConfig) (past : List (Happening C P T)) (now : UInt64)
    (r : InFlightRequest) : Site → Prop
  | .queue .prefill => ∃ c, Awaits past r c now
  | .queue .decode => ∃ c, Prefilled compute past r c now
  | .event ev =>
    match ev.kind with
    | .requestArrival _ => r.Unstarted
    | .fetchDone _ => r.Unstarted ∧ r.request.arrivalNs ≤ now ∧ FetchedBy past r.request ev.timeNs
    | .prefillDone .. => ∃ c, Prefilled compute past r c ev.timeNs
    | .decodeDone .. => ∃ c start, Timed compute config past r c start

theorem Site.Fine.mono (h : site.Fine compute config past now r) (hsub : past ⊆ later)
    (hnow : now ≤ now') : site.Fine compute config later now' r := by
  match site with
  | .queue .prefill => exact h.imp fun c hc => hc.mono hsub hnow
  | .queue .decode => exact h.imp fun c hc => hc.mono hsub hnow
  | .event ev =>
    unfold Site.Fine at h ⊢
    cases hkind : ev.kind <;> simp only [hkind] at h ⊢
    case requestArrival => exact h
    case fetchDone => exact ⟨h.1, h.2.1.trans hnow, h.2.2.mono hsub le_rfl⟩
    case prefillDone => exact h.imp fun c hc => hc.mono hsub le_rfl
    case decodeDone => exact h.imp fun c hc => hc.imp fun start hstart => hstart.mono hsub

/-- All records show what they should, and the results show whole timelines. -/
structure OnSchedule (compute : C) (config : ServingConfig) (past : List (Happening C P T))
    (s : ServingState) : Prop where
  sites : ∀ p ∈ s.sites, ∀ r, s.inFlight.get p.1 = some r →
    p.2.Fine compute config past s.sim.nowNs r
  results : ∀ y ∈ s.results, ∃ r c start, y = r.intoResult ∧ Timed compute config past r c start

variable {s s' : ServingState}

/-- A request comes to a new place, with a record that shows what it should. -/
theorem OnSchedule.place (h : OnSchedule compute config past s) (hnot : r.id ∉ active (s, none))
    (hin : s'.inFlight = s.inFlight.insert r) (hclock : s'.sim.nowNs = s.sim.nowNs)
    (hresults : s'.results = s.results)
    (hsites : ∀ p ∈ s'.sites, p ∈ s.sites ∨
      p.1 = r.id ∧ p.2.Fine compute config past s.sim.nowNs r) : OnSchedule compute
        config past s' := by
  refine ⟨fun p hp r' hr' => ?_, fun y hy => h.results y (hresults ▸ hy)⟩
  rw [hin, KeyedMap.get_insert] at hr'
  rw [hclock]
  split_ifs at hr' with hid
  · obtain rfl := Option.some.inj hr'
    rcases hsites p hp with hold | ⟨-, hfine⟩
    · exact absurd (hid ▸ mem_active_of_site hold) hnot
    · exact hfine
  · rcases hsites p hp with hold | ⟨hid', -⟩
    · exact h.sites p hold r' hr'
    · exact absurd hid' hid

/-! ## The operations of the shared state -/

/-- While an event is handled at a time: the requests are where they should be. -/
structure OnTrack (compute : C) (config : ServingConfig) (past : List (Happening C P T))
    (ids : Multiset UInt64) (now : UInt64) (x : ServingState × Held) : Prop where
  clock : x.1.sim.nowNs = now
  tracked : Tracked ids x
  onSchedule : OnSchedule compute config past x.1

variable {ids : Multiset UInt64} {id : UInt64} {b : ℕ} {n : NodeId} {i : ℕ} {stage : Stage}

/-- The request in the hand starts its stage. -/
theorem OnTrack.start (hids : ids.Nodup) (h : OnTrack compute config past ids now (s, some (id, b)))
    (hr : s.inFlight.get id = some r)
    (hfine : (Site.queue stage).Fine compute config past now r)
    (hbudget : stage.weight ≤ b)
    (hgpu : s.cluster.findIdleGpuFor now stage.role = .ok (some (n, i)))
    (hrun : s.start compute config stage id (n, i) now = .ok s') :
    OnTrack compute config past ids now (s', none) := by
  have hmoves : Moves False now (s, some (id, b)) (s', none) := start_moves hbudget hgpu hrun
  have hnot : id ∉ active (s, none) := h.tracked.held_notMem hids
  have hid : r.id = id := KeyedMap.key_of_get hr
  refine ⟨hmoves.nowNs.trans h.clock,
    hmoves.invariant (fun _ _ hx hm => hm.tracked hids hx) h.tracked, ?_⟩
  cases stage with
  | prefill =>
    obtain ⟨c, hcleared, hskips, htokens, hunstarted⟩ := hfine
    obtain ⟨cluster, -, rfl⟩ := start_prefill_ok hr hrun
    refine h.onSchedule.place (by exact hid ▸ hnot) rfl rfl rfl fun p hp => ?_
    refine (mem_sites_schedule hp rfl rfl rfl).imp_right ?_
    rintro ⟨ev, hkind, htime, rfl⟩
    refine ⟨hid.symm, ?_⟩
    simp only [Site.Fine, hkind, htime]
    exact ⟨c, .done hcleared hskips rfl (by rw [htokens]) (by rw [htokens])⟩
  | decode =>
    obtain ⟨c, hprefilled⟩ := hfine
    obtain ⟨cluster, -, rfl⟩ := start_decode_ok hr hrun
    refine h.onSchedule.place (by exact hid ▸ hnot) rfl rfl rfl fun p hp => ?_
    refine (mem_sites_schedule hp rfl rfl rfl).imp_right ?_
    rintro ⟨ev, hkind, htime, rfl⟩
    refine ⟨hid.symm, ?_⟩
    simp only [Site.Fine, hkind]
    refine ⟨c, now, ?_, rfl, rfl, rfl⟩
    cases hprefilled with
    | done hcleared hnot hstart hdone hle => exact .done hcleared hnot hstart hdone hle
    | skipped hcleared hskips hunstarted =>
      exact .skipped hcleared hskips ⟨hunstarted.start, hunstarted.done⟩

/-- The request in the hand starts its stage or waits for it. -/
theorem OnTrack.startOrQueue (hids : ids.Nodup)
    (h : OnTrack compute config past ids now (s, some (id, b))) (hr : s.inFlight.get id = some r)
    (hfine : (Site.queue stage).Fine compute config past now r) (hbudget : stage.weight ≤ b)
    (hrun : s.startOrQueue compute config stage id now = .ok s') :
    OnTrack compute config past ids now (s', none) := by
  have hmoves : Moves False now (s, some (id, b)) (s', none) := startOrQueue_moves hrun hbudget
  obtain ⟨gpu, hgpu, hrun⟩ := Except.bind_eq_ok.1 hrun
  cases gpu with
  | some gpu => exact h.start hids hr hfine hbudget hgpu hrun
  | none =>
    obtain rfl := Except.ok.inj hrun
    have hid : r.id = id := KeyedMap.key_of_get hr
    have hnot : id ∉ active (s, none) := h.tracked.held_notMem hids
    refine ⟨hmoves.nowNs.trans h.clock,
      hmoves.invariant (fun _ _ hx hm => hm.tracked hids hx) h.tracked,
      h.onSchedule.place (by exact hid ▸ hnot) ?_ (by simp) (by simp) fun p hp => ?_⟩
    · rw [inFlight_setQueue, KeyedMap.insert_of_get (hid ▸ hr)]
    · rcases mem_sites_setQueue hp with hold | ⟨hmem, hsite⟩
      · exact .inl hold
      · rcases List.mem_append.1 hmem with hmem | hmem
        · left
          obtain ⟨id', site⟩ := p
          obtain rfl : site = .queue stage := hsite
          exact mem_sites_queue hmem
        · right
          refine ⟨(List.mem_singleton.1 hmem).trans hid.symm, ?_⟩
          rw [hsite, h.clock]
          exact hfine

/-- The requests of a queue are started one after another. -/
theorem OnTrack.assign (hids : ids.Nodup) {q : List UInt64}
    (h : OnTrack compute config past ids now (s, none)) (hq : s.queue stage = q)
    (hrun : assign compute config stage now q s = .ok s') :
    OnTrack compute config past ids now (s', none) := by
  induction q generalizing s with
  | nil =>
    obtain rfl := Except.ok.inj hrun
    exact h
  | cons id rest ih =>
    obtain ⟨gpu, hgpu, hrun⟩ := Except.bind_eq_ok.1 hrun
    cases gpu with
    | none =>
      obtain rfl := Except.ok.inj hrun
      exact h
    | some gpu =>
      obtain ⟨s₁, hstart, hrun⟩ := Except.bind_eq_ok.1 hrun
      have hdequeue : Move False now (s, none) (s.setQueue stage rest, some (id, stage.weight)) :=
        .dequeue hq
      have hmem : (id, .queue stage) ∈ s.sites := mem_sites_queue (hq ▸ List.mem_cons_self)
      obtain ⟨r, hr⟩ : ∃ r, s.inFlight.get id = some r :=
        Option.isSome_iff_exists.1 (h.tracked.inFlight id (mem_active_of_site hmem))
      have hfine : (Site.queue stage).Fine compute config past now r :=
        h.clock ▸ h.onSchedule.sites _ hmem r hr
      have hheld :
          OnTrack compute config past ids now (s.setQueue stage rest, some (id, stage.weight)) := by
        have hclock : (s.setQueue stage rest).sim.nowNs = now := by
          rw [sim_setQueue]
          exact h.clock
        refine ⟨hclock, hdequeue.tracked hids h.tracked, fun p hp r' hr' => ?_,
          fun y hy => h.onSchedule.results y (by simpa using hy)⟩
        have hold : p ∈ s.sites := by
          refine (mem_sites_setQueue hp).elim (fun hold => hold) ?_
          rintro ⟨hmem, hsite⟩
          obtain ⟨id', site⟩ := p
          obtain rfl : site = .queue stage := hsite
          exact mem_sites_queue (hq ▸ List.mem_cons_of_mem _ hmem)
        rw [inFlight_setQueue] at hr'
        rw [sim_setQueue]
        exact h.onSchedule.sites p hold r' hr'
      have hrest : s₁.queue stage = rest := by rw [queue_start hstart, queue_setQueue_self]
      refine ih (hheld.start hids ?_ hfine le_rfl ?_ hstart) hrest hrun
      · rw [inFlight_setQueue]
        exact hr
      · rw [cluster_setQueue]
        exact hgpu

theorem OnTrack.served (hids : ids.Nodup) {first second : Stage}
    (h : OnTrack compute config past ids now (s, none))
    (hserved : Served compute config first second now s s') :
    OnTrack compute config past ids now (s', none) := by
  obtain ⟨s₁, h₁, h₂⟩ := hserved
  exact (h.assign hids rfl h₁).assign hids rfl h₂

theorem OnTrack.releaseGpu {held : Held} (h : OnTrack compute config past ids now (s, held))
    (hrun : s.releaseGpu n i now = .ok s') : OnTrack compute config past ids now (s', held) := by
  obtain ⟨cluster, -, hrun⟩ := Except.bind_eq_ok.1 hrun
  obtain rfl := Except.ok.inj hrun
  exact ⟨h.clock, ⟨h.tracked.places, h.tracked.inFlight⟩, h.onSchedule.sites, h.onSchedule.results⟩

/-- The record in the hand is written. -/
theorem OnTrack.noted (hids : ids.Nodup) (h : OnTrack compute config past ids now (s, some (id, b)))
    (hid : r.id = id) : OnTrack compute config past ids now (s.noted r, some (id, b)) := by
  have hnot : id ∉ active (s, none) := h.tracked.held_notMem hids
  refine ⟨h.clock, ⟨h.tracked.places, fun id' hmem => ?_⟩,
    h.onSchedule.place (hid ▸ hnot) rfl rfl rfl fun p hp => .inl hp⟩
  show ((s.inFlight.insert r).get id').isSome
  rw [KeyedMap.get_insert]
  split_ifs
  · rfl
  · exact h.tracked.inFlight id' hmem

/-- The request in the hand is done. -/
theorem OnTrack.finish (hids : ids.Nodup)
    (h : OnTrack compute config past ids now (s, some (id, b))) (hr : s.inFlight.get id = some r)
    {c : Counter} {start : UInt64} (htimed : Timed compute config past r c start) :
    OnTrack compute config past ids now (s.finish id, none) := by
  have hmove : Move False now (s, some (id, b)) (s.finish id, none) := .finish hr
  refine ⟨hmove.nowNs.trans h.clock, hmove.tracked hids h.tracked, ?_⟩
  simp only [ServingState.finish, hr]
  refine ⟨fun p hp r' hr' => ?_, fun y hy => ?_⟩
  · rw [KeyedMap.get_remove] at hr'
    split_ifs at hr'
    exact h.onSchedule.sites p hp r' hr'
  · rcases List.mem_append.1 hy with hy | hy
    · exact h.onSchedule.results y hy
    · exact ⟨r, c, start, List.mem_singleton.1 hy, htimed⟩

/-- The request in the hand waits for a fetch. -/
theorem OnTrack.fetch (hids : ids.Nodup) (h : OnTrack compute config past ids now (s, some (id, 3)))
    (hr : s.inFlight.get id = some r) (hunstarted : r.Unstarted)
    (harrived : r.request.arrivalNs ≤ now) {t : UInt64} (hfetched : FetchedBy past r.request t) :
    OnTrack compute config past ids now
      ({ s with sim := s.sim.schedule t (.fetchDone id) }, none) := by
  have hmove :
      Move True now (s, some (id, 3)) ({ s with sim := s.sim.schedule t (.fetchDone id) }, none) :=
    .fetch trivial le_rfl
  have hid : r.id = id := KeyedMap.key_of_get hr
  have hnot : r.id ∉ active (s, none) := hid ▸ h.tracked.held_notMem hids
  refine ⟨hmove.nowNs.trans h.clock, hmove.tracked hids h.tracked,
    h.onSchedule.place hnot (KeyedMap.insert_of_get (hid ▸ hr)).symm rfl rfl fun p hp => ?_⟩
  refine (mem_sites_schedule hp rfl rfl rfl).imp_right ?_
  rintro ⟨ev, hkind, htime, rfl⟩
  refine ⟨hid.symm, ?_⟩
  simp only [Site.Fine, hkind, htime]
  exact ⟨hunstarted, harrived.trans_eq h.clock.symm, hfetched⟩

/-- The request in the hand has a hit, and the rest of it is served. -/
theorem OnTrack.remains (hids : ids.Nodup)
    (h : OnTrack compute config past ids now (s, some (id, b))) (hr : s.inFlight.get id = some r)
    (hunstarted : r.Unstarted) {c : Counter} (hcleared : Cleared past r.request c now)
    (hc : c ≠ .misses) (hb : 2 ≤ b) (hremains : Remains compute config r now s s') :
    OnTrack compute config past ids now (s', none) := by
  obtain rfl : r.id = id := KeyedMap.key_of_get hr
  unfold Remains at hremains
  split_ifs at hremains with hzero
  · have hfine : (Site.queue .decode).Fine compute config past now r :=
      ⟨c, .skipped hcleared ⟨hc, hzero⟩ hunstarted⟩
    exact h.startOrQueue hids hr hfine (Nat.le_of_succ_le hb) hremains
  · have hnoted : OnTrack compute config past ids now
        (s.noted { r with prefillTokens := r.request.newPromptTokens }, some (r.id, b)) :=
      h.noted hids rfl
    have hget : (s.noted { r with prefillTokens := r.request.newPromptTokens }).inFlight.get r.id =
        some { r with prefillTokens := r.request.newPromptTokens } :=
      (KeyedMap.get_insert _ _ _).trans (if_pos rfl)
    have hfine : (Site.queue .prefill).Fine compute config past now
        { r with prefillTokens := r.request.newPromptTokens } := by
      refine ⟨c, hcleared, fun hskips => hzero hskips.2, ?_, hunstarted.start, hunstarted.done⟩
      rw [InFlightRequest.tokensToPrefill, if_neg hzero, Counter.tokens, if_neg hc]
    exact hnoted.startOrQueue hids hget hfine hb hremains

/-- The next event is taken out, and its request is in the hand. -/
theorem OnSchedule.pop (h : OnSchedule compute config past s) (htracked : Tracked ids (s, none))
    {event : ServingEvent} {sim : Simulator ServingEvent}
    (hnext : s.sim.step = some (now, event, sim)) (b : ℕ) (hsub : past ⊆ later) :
    OnTrack compute config later ids now
        ({ s with sim := sim }, some (event.requestId, b)) ∧
      ∀ r, s.inFlight.get event.requestId = some r → ∃ ev, ev.kind = event ∧ ev.timeNs ≤ now ∧
        (Site.event ev).Fine compute config later now r := by
  obtain ⟨ev, rfl, hperm, hnow, hclock, -⟩ := Simulator.step_spec hnext
  have hle : s.sim.nowNs ≤ now := hnow ▸ le_max_left _ _
  have hkept : ∀ p ∈ s.sites, ∀ r, s.inFlight.get p.1 = some r →
      p.2.Fine compute config later now r := fun p hp r hr => (h.sites p hp r hr).mono hsub hle
  refine ⟨⟨hclock, htracked.pop hnext b, fun p hp r hr => ?_, fun y hy => ?_⟩, fun r hr => ?_⟩
  · show p.2.Fine compute config later sim.nowNs r
    rw [hclock]
    refine hkept p ?_ r hr
    rcases List.mem_append.1 hp with hp | hp
    · rcases List.mem_append.1 hp with hp | hp
      · obtain ⟨ev', hev', rfl⟩ := List.mem_map.1 hp
        refine List.mem_append_left _ (List.mem_append_left _ (List.mem_map.2 ⟨ev', ?_, rfl⟩))
        exact hperm.mem_iff.2 (List.mem_cons_of_mem _ hev')
      · exact List.mem_append_left _ (List.mem_append_right _ hp)
    · exact List.mem_append_right _ hp
  · obtain ⟨r, c, start, rfl, htimed⟩ := h.results y hy
    exact ⟨r, c, start, rfl, htimed.mono hsub⟩
  · have hsite : (ev.kind.requestId, .event ev) ∈ s.sites := by
      refine List.mem_append_left _ (List.mem_append_left _ (List.mem_map.2 ⟨ev, ?_, rfl⟩))
      exact hperm.mem_iff.2 List.mem_cons_self
    exact ⟨ev, rfl, hnow ▸ le_max_right _ _, hkept _ hsite r hr⟩

end

/-! ## Steps -/

namespace CacheAwareRunner

variable [ComputeModel C] [TransferModel T] {compute : C} {config : ServingConfig}
  {past : List (Happening C P T)} {now : UInt64} {s s' : CacheAwareRunner C P T}
  {ids : Multiset UInt64} {inflight : InFlightRequest} {sim : Simulator ServingEvent}
  {e : Happening C P T} {c : Counter}

/-- A request that is counted as a miss waits for the prefill of its prompt. -/
theorem onTrack_missed {r : InFlightRequest} {x : ServingState} {b : ℕ} (hids : ids.Nodup)
    (hunstarted : r.Unstarted)
    (h : OnTrack compute config (past ++ [e]) ids now (x, some (r.id, b)))
    (hcharges : Charges e r.request .misses) (harrived : r.request.arrivalNs ≤ now)
    (htokens : r.prefillTokens = r.request.promptTokens) (hb : 2 ≤ b)
    (hrun : (x.noted r).startOrQueue compute config .prefill r.id now = .ok s'.toServingState) :
    OnTrack compute config (past ++ [e]) ids now (s'.toServingState, none) := by
  have hget : (x.noted r).inFlight.get r.id = some r :=
    (KeyedMap.get_insert _ _ _).trans (if_pos rfl)
  have hfine : (Site.queue .prefill).Fine compute config (past ++ [e]) now r := by
    refine ⟨.misses, ⟨hcharges.countedAs past, harrived, ?_⟩, fun hskips => hskips.1 rfl,
      ?_, hunstarted⟩
    · rintro (hc | hc) <;> cases hc
    · rw [InFlightRequest.tokensToPrefill, htokens, ite_self]
      rfl
  exact (h.noted hids rfl).startOrQueue hids hget hfine hb hrun

theorem ArrivalEffect.onTrack {r : CacheAwareRunner C P T} (hids : ids.Nodup)
    (heffect : ArrivalEffect now inflight r s')
    (h : OnTrack r.compute r.config (past ++ [⟨s, now, .requestArrival inflight.id, s'⟩]) ids now
      (r.toServingState, some (inflight.id, 3)))
    (hr : r = { s with sim := sim }) (hin : s.inFlight.get inflight.id = some inflight)
    (hunstarted : inflight.Unstarted) (harrived : inflight.request.arrivalNs ≤ now) :
    OnTrack r.compute r.config (past ++ [⟨s, now, .requestArrival inflight.id, s'⟩]) ids now
      (s'.toServingState, none) := by
  subst hr
  cases heffect with
  | missed _ hstate hrest =>
    have hcharges : Charges ⟨s, now, .requestArrival inflight.id, s'⟩ inflight.request .misses :=
      charges_counted hin hrest
    have hunstarted' : InFlightRequest.Unstarted { inflight with
      prefillTokens := inflight.request.promptTokens } := ⟨hunstarted.start, hunstarted.done⟩
    exact onTrack_missed hids hunstarted' h hcharges harrived rfl (by decide) hstate
  | hit _ _ hstate hrest =>
    have hcharges : Charges ⟨s, now, .requestArrival inflight.id, s'⟩ inflight.request .hitsGpu :=
      charges_counted hin hrest
    have hcleared : Cleared (past ++ [⟨s, now, .requestArrival inflight.id, s'⟩]) inflight.request
        .hitsGpu now := by
      refine ⟨hcharges.countedAs past, harrived, ?_⟩
      rintro (hc | hc) <;> cases hc
    exact h.remains hids hin hunstarted hcleared (by decide) (by decide) hstate
  | @fetching kv tier path estimate hfound htier hcounter hpath hestimate hstate hrest =>
    have hnoted := h.noted hids (r := { inflight with pendingFetchTier := some tier }) rfl
    have hget : (s.noted { inflight with pendingFetchTier := some tier }).inFlight.get inflight.id =
        some { inflight with pendingFetchTier := some tier } :=
      (KeyedMap.get_insert _ _ _).trans (if_pos rfl)
    have hfetched : FetchedBy (past ++ [⟨s, now, .requestArrival inflight.id, s'⟩]) inflight.request
        estimate.finishNs := by
      refine ⟨_, List.mem_append_right _ (List.mem_singleton_self _), rfl, estimate, ?_, le_rfl⟩
      have hkv : (Happening.mk s now (.requestArrival inflight.id) s').found = some kv := by
        show (s.inFlight.get inflight.id).bind s.reusableKv = some kv
        rw [hin]
        exact hfound
      rw [Happening.fetchEstimate, hkv, Option.bind_some, hpath, Option.bind_some, hestimate]
      rfl
    rw [hstate]
    exact hnoted.fetch hids hget ⟨hunstarted.start, hunstarted.done⟩ harrived hfetched
  | degraded _ _ _ hstate hrest =>
    have hcharges : Charges ⟨s, now, .requestArrival inflight.id, s'⟩ inflight.request .misses :=
      charges_degraded hin hrest
    have hunstarted' : InFlightRequest.Unstarted { inflight with
      pendingFetchTier := none, prefillTokens := inflight.request.promptTokens } :=
      ⟨hunstarted.start, hunstarted.done⟩
    exact onTrack_missed hids hunstarted' h hcharges harrived rfl (by decide) hstate

variable [PlacementPolicy P] {r : CacheAwareRunner C P T} {requests : List LlmRequest}
  {event : ServingEvent}

/-- Every event leaves all records as they should be. -/
theorem Past.onSchedule_step (hpast : Past (r.start requests) past s) (hids : DistinctIds requests)
    (h : OnSchedule s.compute s.config past s.toServingState)
    (hnext : s.sim.step = some (now, event, sim))
    (hstep : EventLoop.Step CacheAwareRunner.step s s') :
    OnSchedule s.compute s.config (past ++ [⟨s, now, event, s'⟩]) s'.toServingState := by
  have hnodup : (ServingState.ids requests).Nodup := Multiset.coe_nodup.2 hids
  obtain ⟨hpop, hfine⟩ := h.pop (hpast.tracked hids) hnext (event.weight - 1)
    (List.subset_append_left past [⟨s, now, event, s'⟩])
  cases step_cases hnext hstep with
  | absent hnone =>
    obtain ⟨inflight, hin, -⟩ := hpast.exists_inFlight hids hnext
    exact absurd (hin.symm.trans hnone) (Option.some_ne_none _)
  | @arrived inflight hin heffect =>
    obtain ⟨ev, hkind, -, hfine⟩ := hfine inflight hin
    have hunstarted : inflight.Unstarted := by simpa only [Site.Fine, hkind] using hfine
    have hnow : now = inflight.request.arrivalNs :=
      ((hpast.punctual hids).pop hnext).2.1 rfl inflight hin
    exact (heffect.onTrack hnodup hpop rfl hin hunstarted hnow.ge).onSchedule
  | @prefilled inflight n i s₁ s₂ hin hrelease hdecode hserved =>
    obtain ⟨ev, hkind, hle, hfine⟩ := hfine inflight hin
    simp only [Site.Fine, hkind] at hfine
    obtain ⟨c, hprefilled⟩ := hfine
    have hin₁ : s₁.inFlight.get inflight.id = some inflight := by
      rw [inFlight_releaseGpu hrelease, hin]
    have hready : (Site.queue .decode).Fine s.compute s.config
        (past ++ [⟨s, now, .prefillDone inflight.id n i, s'⟩]) now inflight :=
      ⟨c, hprefilled.mono (List.Subset.refl _) hle⟩
    have hqueued := (hpop.releaseGpu hrelease).startOrQueue hnodup hin₁ hready le_rfl hdecode
    exact (hqueued.served hnodup hserved).onSchedule
  | @fetched inflight s₁ hin hremains hserved hrest =>
    obtain ⟨ev, hkind, hle, hfine⟩ := hfine inflight hin
    simp only [Site.Fine, hkind] at hfine
    obtain ⟨hunstarted, harrived, hfetched⟩ := hfine
    obtain ⟨tier, c, htier, hc⟩ := hpast.fetch_marked hids hnext
    have hmark : inflight.pendingFetchTier = some tier := by
      rwa [tierOf, show s.inFlight.get inflight.id = some inflight from hin] at htier
    have hcharges : Charges ⟨s, now, .fetchDone inflight.id, s'⟩ inflight.request c :=
      charges_fetched hin hmark hc hrest
    have hcleared : Cleared (past ++ [⟨s, now, .fetchDone inflight.id, s'⟩])
        inflight.request c now :=
      ⟨hcharges.countedAs past, harrived, fun _ => hfetched.mono (List.Subset.refl _) hle⟩
    have hnoted := hpop.noted hnodup (r := { inflight with pendingFetchTier := none }) rfl
    have hmisses : c ≠ .misses := by
      rintro rfl
      cases tier <;> cases hc
    have hremained := hnoted.remains hnodup ((KeyedMap.get_insert _ _ _).trans (if_pos rfl))
      ⟨hunstarted.start, hunstarted.done⟩ hcleared hmisses le_rfl hremains
    exact (hremained.served hnodup hserved).onSchedule
  | @decoded inflight n i s₁ hin hrelease hserved =>
    obtain ⟨ev, hkind, -, hfine⟩ := hfine inflight hin
    simp only [Site.Fine, hkind] at hfine
    obtain ⟨c, start, htimed⟩ := hfine
    have hin₁ : s₁.inFlight.get inflight.id = some inflight := by
      rw [inFlight_releaseGpu hrelease, hin]
    have hfinished := (hpop.releaseGpu hrelease).finish hnodup hin₁ htimed
    exact (hfinished.served hnodup hserved).onSchedule

end CacheAwareRunner

/-- At the start every request waits for its arrival. -/
theorem onSchedule_start [ComputeModel C] [TransferModel T] (compute : C) (config : ServingConfig)
    (cluster : ClusterTopology) (l : List LlmRequest) :
    OnSchedule compute config ([] : List (Happening C P T))
      ((ServingState.new cluster).enterAll l) := by
  refine ⟨fun p hp r hr => ?_, fun y hy => ?_⟩
  · have hqueue : ∀ stage, ((ServingState.new cluster).enterAll l).queue stage = [] :=
      fun stage => by
      rw [queue_enterAll]
      cases stage <;> rfl
    have hprefill : ((ServingState.new cluster).enterAll l).prefillQueue = [] := hqueue .prefill
    have hdecode : ((ServingState.new cluster).enterAll l).decodeQueue = [] := hqueue .decode
    rw [sites, hprefill, hdecode, List.map_nil, List.map_nil, List.append_nil,
      List.append_nil] at hp
    obtain ⟨ev, hev, rfl⟩ := List.mem_map.1 hp
    obtain ⟨q, -, hkind⟩ := kind_of_mem_start hev
    simp only [Site.Fine, hkind]
    rcases get_enterAll _ l hr with hr | ⟨q', -, rfl⟩
    · exact absurd hr (by simp [ServingState.new])
    · exact ⟨rfl, rfl⟩
  · rw [results_enterAll] at hy
    exact absurd hy List.not_mem_nil

/-! ## What a run returns -/

/-- The result of the request `q`, which has been counted in `c`. -/
structure Timeline [ComputeModel C] [TransferModel T] (compute : C) (config : ServingConfig)
    (past : List (Happening C P T)) (q : LlmRequest) (c : Counter) (y : RequestResult) : Prop where
  requestId : y.requestId = q.requestId
  arrivalNs : y.arrivalNs = q.arrivalNs
  promptTokens : y.promptTokens = q.promptTokens
  outputTokens : y.outputTokens = q.outputTokens
  /-- A hit that leaves nothing to be prefilled. -/
  skipped : c.Skips q → y.prefillStartNs = q.arrivalNs ∧ y.prefillDoneNs = q.arrivalNs
  prefilled : ¬c.Skips q → q.arrivalNs ≤ y.prefillStartNs ∧
    y.prefillDoneNs = y.prefillStartNs.satAdd (ComputeModel.prefillTimeNs compute (tokensOf past q))
  ordered : y.prefillDoneNs ≤ y.decodeStartNs
  firstToken : y.firstTokenNs = y.decodeStartNs.satAdd
    (ComputeModel.decodeStepTimeNs compute config.decodeBatchSize q.promptTokens)
  finish : y.finishNs = y.decodeStartNs.satAdd
    ((ComputeModel.decodeStepTimeNs compute config.decodeBatchSize q.promptTokens).satMul
      q.outputTokens.toUInt64)
  /-- The first stage that is run starts when the KV is there. -/
  fetched : c.IsFetched → FetchedBy past q (if c.Skips q then y.decodeStartNs else y.prefillStartNs)

theorem Timed.counted [ComputeModel C] [TransferModel T] {compute : C} {config : ServingConfig}
    {past : List (Happening C P T)} {r : InFlightRequest} {c : Counter} {start : UInt64}
    (h : Timed compute config past r c start) : CountedAs past r.request c := by
  cases h.prefilled with
  | done hcleared => exact hcleared.counted
  | skipped hcleared => exact hcleared.counted

/-- The result shows the timeline of the record. -/
theorem Timed.timeline [ComputeModel C] [TransferModel T] {compute : C} {config : ServingConfig}
    {past : List (Happening C P T)} {r : InFlightRequest} {c : Counter} {start : UInt64}
    (h : Timed compute config past r c start)
    (htokens : tokensOf past r.request = c.tokens r.request) :
    Timeline compute config past r.request c r.intoResult := by
  have hshown : ∀ {field : Option UInt64} {t : UInt64}, field = some t →
      field.getD r.request.arrivalNs = t := fun hfield => by rw [hfield, Option.getD_some]
  have hunshown : ∀ {field : Option UInt64}, field = none →
      field.getD r.request.arrivalNs = r.request.arrivalNs :=
    fun hfield => by rw [hfield, Option.getD_none]
  have hstart : r.intoResult.decodeStartNs = start := hshown h.decodeStart
  cases h.prefilled with
  | @done began hcleared hnot hbegan hdone hle =>
    have hbegan' : r.intoResult.prefillStartNs = began := hshown hbegan
    refine ⟨rfl, rfl, rfl, rfl, fun hskips => absurd hskips hnot, fun _ => ?_, ?_, ?_,
      ?_, fun hc => ?_⟩
    · rw [hbegan', htokens]
      exact ⟨hcleared.arrived, hshown hdone⟩
    · rw [hstart]
      exact (hshown hdone).trans_le hle
    · rw [hstart]
      exact hshown h.firstToken
    · rw [hstart]
      exact hshown h.finish
    · rw [if_neg hnot, hbegan']
      exact hcleared.fetched hc
  | skipped hcleared hskips hunstarted =>
    refine ⟨rfl, rfl, rfl, rfl, fun _ => ⟨hunshown hunstarted.start, hunshown hunstarted.done⟩,
      fun hnot => absurd hskips hnot, ?_, ?_, ?_, fun hc => ?_⟩
    · rw [hstart]
      exact (hunshown hunstarted.done).trans_le hcleared.arrived
    · rw [hstart]
      exact hshown h.firstToken
    · rw [hstart]
      exact hshown h.finish
    · rw [if_pos hskips, hstart]
      exact hcleared.fetched hc

namespace CacheAwareRunner

variable [ComputeModel C] [PlacementPolicy P] [TransferModel T] {r r' s : CacheAwareRunner C P T}
  {past : List (Happening C P T)} {requests : List LlmRequest}

/-- Throughout a run all records are as they should be. -/
theorem Past.onSchedule (hpast : Past (r.start requests) past s) (hids : DistinctIds requests) :
    s.compute = r.compute ∧ s.config = r.config ∧
      OnSchedule r.compute r.config past s.toServingState := by
  induction hpast with
  | nil => exact ⟨rfl, rfl, onSchedule_start r.compute r.config r.cluster (sortRequests requests)⟩
  | step hpast hnext hstep ih =>
    obtain ⟨hcompute, hconfig, h⟩ := ih
    obtain ⟨hcompute', hconfig', -⟩ := step_models hnext hstep
    refine ⟨hcompute'.trans hcompute, hconfig'.trans hconfig, ?_⟩
    rw [← hcompute, ← hconfig] at h ⊢
    exact hpast.onSchedule_step hids h hnext hstep

/-- **Every result shows a causally ordered timeline.** In a run of a new runner each request is
counted in one counter, and the result that is returned for it shows the work that this counter asks
for. The recomputed tokens are the sum over the requests, if that fits the word. -/
theorem results_timeline (iterOrder : IterOrder) (config : ServingConfig)
    (cluster : ClusterTopology) (compute : C) (transfer : T) (profile : ModelProfile)
    (placement : P) (requests : List LlmRequest) (hids : DistinctIds requests)
    {results : List RequestResult}
    (hrun : (new iterOrder config cluster compute transfer profile placement).run requests =
      .ok (results, r')) :
    ∃ past s, Past ((new iterOrder config cluster compute transfer profile placement).start
        requests) past s ∧ s.sim.pending = [] ∧ r' = s.delivered ∧
      (∀ q ∈ requests, ∃ c, CountedAs past q c ∧ ∀ c', CountedAs past q c' → c' = c) ∧
      (∀ y ∈ results, ∃ q ∈ requests, ∃ c, CountedAs past q c ∧
        Timeline compute config.clamped past q c y) ∧
      ((requests.map fun q => (tokensOf past q).toNat).sum < 2 ^ 64 →
        r'.recomputedTokens.toNat = (requests.map fun q => (tokensOf past q).toNat).sum) := by
  obtain ⟨past, s, hpast, hend, hr', hresults⟩ := exists_past_of_run hrun
  obtain ⟨-, -, honSchedule⟩ := hpast.onSchedule hids
  refine ⟨past, s, hpast, hend, hr', fun q hq => ?_, fun y hy => ?_, fun hfits => ?_⟩
  · obtain ⟨e, he, c, hrequest, hc⟩ := hpast.exists_credits hids hend hq
    exact ⟨c, ⟨e, he, hrequest, hc⟩, fun c' hc' =>
      hpast.countedAs_unique hids hc' ⟨e, he, hrequest, hc⟩⟩
  · rw [hresults] at hy
    obtain ⟨r, c, start, rfl, htimed⟩ :=
      honSchedule.results y ((List.sortByKey_perm _ _).mem_iff.1 hy)
    have hcounted := htimed.counted
    obtain ⟨e, he, hrequest, -⟩ := id hcounted
    obtain ⟨q, hq, hrequest', -⟩ := hpast.exists_request hids he
    obtain rfl : q = r.request := Option.some.inj (hrequest'.symm.trans hrequest)
    exact ⟨r.request, hq, c, hcounted, htimed.timeline (hpast.tokensOf_eq hids hcounted)⟩
  · rw [hr']
    exact hpast.recomputedTokens_eq hids hend hfits

/-- Two requests of one session. The KV of the first goes to remote memory and is fetched for the
second. -/
theorem results_timeline_fetched : ∃ results r' past s,
    (new .ascending ⟨1, 1, 1⟩ (.singleNode 1 1) LinearComputeModel.conservative8b
      AnalyticalTransferModel.rdma400g .llama8bBf16Gqa (RemoteLru.mk 0)).run (modelTrace "a") =
        .ok (results, r') ∧
      Past ((new .ascending ⟨1, 1, 1⟩ (.singleNode 1 1) LinearComputeModel.conservative8b
        AnalyticalTransferModel.rdma400g .llama8bBf16Gqa (RemoteLru.mk 0)).start (modelTrace "a"))
          past s ∧
      (∀ y ∈ results, ∃ q ∈ modelTrace "a", ∃ c, CountedAs past q c ∧
        Timeline LinearComputeModel.conservative8b ⟨1, 1, 1⟩ past q c y) ∧
      r'.recomputedTokens.toNat = ((modelTrace "a").map fun q => (tokensOf past q).toNat).sum := by
  have hok : ((new .ascending ⟨1, 1, 1⟩ (.singleNode 1 1) LinearComputeModel.conservative8b
      AnalyticalTransferModel.rdma400g .llama8bBf16Gqa (RemoteLru.mk 0)).run
        (modelTrace "a")).toOption.isSome = true := by
    decide +kernel
  obtain ⟨⟨results, r'⟩, hsome⟩ := Option.isSome_iff_exists.1 hok
  have hrun := Except.toOption_eq_some.1 hsome
  obtain ⟨past, s, hpast, -, -, -, htimelines, hrecomputed⟩ :=
    results_timeline .ascending ⟨1, 1, 1⟩ (.singleNode 1 1) LinearComputeModel.conservative8b
      AnalyticalTransferModel.rdma400g .llama8bBf16Gqa (RemoteLru.mk 0) (modelTrace "a")
      (by decide) hrun
  refine ⟨results, r', past, s, hrun, hpast, htimelines, hrecomputed ?_⟩
  have hle : ∀ q, (tokensOf past q).toNat < 2 ^ 32 := fun q => UInt32.toNat_lt _
  simp only [modelTrace, List.map_cons, List.map_nil, List.sum_cons, List.sum_nil, add_zero]
  exact lt_trans (Nat.add_lt_add (hle _) (hle _)) (by decide)

/-- `n` requests with the longest prompts that there are. -/
def longPrompts (n : ℕ) : List LlmRequest :=
  (List.range n).map fun i => .cold i.toUInt64 0 (UInt32.ofNat (2 ^ 32 - 1)) 1

theorem distinctIds_longPrompts {n : ℕ} (h : n ≤ 2 ^ 64) : DistinctIds (longPrompts n) := by
  rw [DistinctIds, longPrompts, List.map_map]
  refine List.Nodup.map_on (fun i hi j hj hij => ?_) List.nodup_range
  have hij' := congrArg UInt64.toNat hij
  simp only [Function.comp_apply, LlmRequest.cold, Nat.toUInt64_eq, UInt64.toNat_ofNat'] at hij'
  have hi' := List.mem_range.1 hi
  have hj' := List.mem_range.1 hj
  omega

/-- All of their tokens are to be prefilled, whatever they are counted as. -/
theorem sum_tokensOf_longPrompts {C P T : Type} (past : List (Happening C P T)) (n : ℕ) :
    ((longPrompts n).map fun q => (tokensOf past q).toNat).sum = n * (2 ^ 32 - 1) := by
  have htokens : ∀ q ∈ longPrompts n, (tokensOf past q).toNat = 2 ^ 32 - 1 := by
    intro q hq
    obtain ⟨i, -, rfl⟩ := List.mem_map.1 hq
    rw [tokensOf, LlmRequest.cold, ite_self]
    rfl
  rw [List.map_congr_left htokens, List.map_const', List.sum_replicate_nat, longPrompts,
    List.length_map, List.length_range]

/-- A run on a node with a GPU of either role returns. -/
theorem run_singleNode {requests : List LlmRequest} (hids : DistinctIds requests) :
    ∃ results r', (new .ascending ⟨1, 1, 1⟩ (.singleNode 1 1) LinearComputeModel.conservative8b
      AnalyticalTransferModel.rdma400g .llama8bBf16Gqa (RemoteLru.mk 0)).run requests =
        .ok (results, r') := by
  have hserving : Serving True (ServingState.ids requests)
      ((ServingState.new (.singleNode 1 1)).enterAll (sortRequests requests)) :=
    ids_sortRequests requests ▸ serving_start (by decide) (by decide) (by decide) (by decide) _
  have hload := load_start (.singleNode 1 1) (sortRequests requests)
  rw [(sortRequests_perm requests).length_eq] at hload
  have hserved : ServedOnce CacheAwareRunner.step (fun r => r.toServingState)
      ((new .ascending ⟨1, 1, 1⟩ (.singleNode 1 1) LinearComputeModel.conservative8b
        AnalyticalTransferModel.rdma400g .llama8bBf16Gqa
        (RemoteLru.mk 0)).start requests) requests :=
    servedOnce_of_loop servingLoop hids hserving hload
  obtain ⟨s, hs, -, -⟩ := hserved.ends
  exact ⟨_, run_eq hs⟩

/-- Enough of them are more than the word can count. -/
theorem recomputedTokens_overflows : ∃ requests results r' past s, DistinctIds requests ∧
    (new .ascending ⟨1, 1, 1⟩ (.singleNode 1 1) LinearComputeModel.conservative8b
      AnalyticalTransferModel.rdma400g .llama8bBf16Gqa (RemoteLru.mk 0)).run requests =
        .ok (results, r') ∧
      Past ((new .ascending ⟨1, 1, 1⟩ (.singleNode 1 1) LinearComputeModel.conservative8b
        AnalyticalTransferModel.rdma400g .llama8bBf16Gqa (RemoteLru.mk 0)).start requests) past s ∧
      s.sim.pending = [] ∧ r' = s.delivered ∧
      r'.recomputedTokens.toNat < (requests.map fun q => (tokensOf past q).toNat).sum := by
  have hids : DistinctIds (longPrompts (2 ^ 32 + 2)) := distinctIds_longPrompts (by decide)
  obtain ⟨results, r', hrun⟩ := run_singleNode hids
  obtain ⟨past, s, hpast, hend, hr', -⟩ := exists_past_of_run hrun
  refine ⟨_, results, r', past, s, hids, hrun, hpast, hend, hr', ?_⟩
  rw [sum_tokensOf_longPrompts]
  exact lt_of_lt_of_le (UInt64.toNat_lt _) (by decide)

end CacheAwareRunner

end KvFlowSim
