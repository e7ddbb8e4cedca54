import KvFlowSim.Serving.Recency

/-!
# Once each

A request never goes back: each of its four events happens at most once in a run (`Past.once`),
because what may still be to come only grows less (`Move.toCome_le`). With the books of the hit
counters this gives the requests of a run by what they are counted as: each is counted by one event
and in one counter (`Past.counter_unique`, `Past.exists_credits`).
-/

namespace KvFlowSim

open ServingState

namespace ServingState

variable {fetching : Prop} {now : UInt64} {x y : ServingState × Held} {s s' : ServingState}
  {kind : ServingEvent} {sim : Simulator ServingEvent}

/-- The requests that wait in the queue of a stage, if its weight is `k` or more. -/
def queued (k : ℕ) (stage : Stage) (q : List UInt64) : Multiset UInt64 :=
  if k ≤ stage.weight then q else 0

/-- The requests of pending events of weight `k` or more. -/
def pendingIds (k : ℕ) (sim : Simulator ServingEvent) : Multiset UInt64 :=
  ((sim.pending.filter fun ev => k ≤ ev.kind.weight).map fun ev =>
    ev.kind.requestId : Multiset UInt64)

/-- The request in the hand, if its budget is `k` or more. -/
def inHand (k : ℕ) : Held → Multiset UInt64
  | none => 0
  | some (id, budget) => if k ≤ budget then {id} else 0

/-- The requests that may still have an event of weight `k` or more before them. -/
def toCome (k : ℕ) (x : ServingState × Held) : Multiset UInt64 :=
  pendingIds k x.1.sim + queued k .prefill x.1.prefillQueue + queued k .decode x.1.decodeQueue +
    inHand k x.2

theorem pendingIds_schedule (k : ℕ) (sim : Simulator ServingEvent) (t : UInt64)
    (kind : ServingEvent) :
    pendingIds k (sim.schedule t kind) =
      pendingIds k sim + if k ≤ kind.weight then {kind.requestId} else 0 := by
  simp only [pendingIds, Simulator.pending_schedule, List.filter_append, List.map_append,
    ← Multiset.coe_add]
  split_ifs with hk <;> simp [hk]

/-- A queue is replaced by another. -/
theorem toCome_setQueue (k : ℕ) (s : ServingState) (held : Held) (stage : Stage) (q : List UInt64) :
    toCome k (s.setQueue stage q, held) + queued k stage (s.queue stage) =
      toCome k (s, held) + queued k stage q := by
  cases stage <;> simp only [toCome, queue, setQueue] <;> abel

theorem queued_append (k : ℕ) (stage : Stage) (q : List UInt64) (id : UInt64) :
    queued k stage (q ++ [id]) = queued k stage q + inHand k (some (id, stage.weight)) := by
  simp only [queued, inHand]
  split_ifs
  · rw [← Multiset.coe_add, Multiset.coe_singleton]
  · rfl

theorem queued_cons (k : ℕ) (stage : Stage) (q : List UInt64) (id : UInt64) :
    queued k stage (id :: q) = queued k stage q + inHand k (some (id, stage.weight)) := by
  simp only [queued, inHand]
  split_ifs
  · rw [← Multiset.cons_coe, ← Multiset.singleton_add, add_comm]
  · rfl

theorem toCome_held (k : ℕ) (s : ServingState) (held : Held) :
    toCome k (s, held) = toCome k (s, none) + inHand k held := by
  simp only [toCome, inHand, add_zero]

theorem inHand_le_of_le {k b b' : ℕ} (h : b ≤ b') (id : UInt64) :
    inHand k (some (id, b)) ≤ inHand k (some (id, b')) := by
  simp only [inHand]
  split_ifs with hk hk'
  · exact le_rfl
  · exact absurd (hk.trans h) hk'
  · exact Multiset.zero_le _
  · exact le_rfl

/-- A move adds nothing to what is to come. -/
theorem Move.toCome_le (h : Move fetching now x y) (k : ℕ) : toCome k y ≤ toCome k x := by
  cases h with
  | @start s id budget stage n i done cluster r r' hbudget =>
    have hin : inHand k (some (id, stage.weight)) ≤ inHand k (some (id, budget)) :=
      inHand_le_of_le hbudget id
    have hsched : pendingIds k (s.sim.schedule done (stage.doneEvent id n i)) =
        pendingIds k s.sim + inHand k (some (id, stage.weight)) := by
      rw [pendingIds_schedule, Stage.weight_doneEvent, Stage.requestId_doneEvent]
      rfl
    rw [toCome_held k s (some (id, budget))]
    refine le_trans (le_of_eq ?_) (add_le_add_right hin _)
    simp only [toCome, hsched, inHand]
    abel
  | @enqueue s id budget stage hbudget =>
    have hin : inHand k (some (id, stage.weight)) ≤ inHand k (some (id, budget)) :=
      inHand_le_of_le hbudget id
    have hset := toCome_setQueue k s none stage (s.queue stage ++ [id])
    rw [queued_append, ← add_assoc, add_right_comm] at hset
    rw [add_right_cancel hset, toCome_held k s (some (id, budget))]
    exact add_le_add_right hin _
  | @dequeue s id stage rest hqueue =>
    have hset := toCome_setQueue k s none stage rest
    rw [hqueue, queued_cons, ← add_assoc, add_right_comm] at hset
    rw [toCome_held, add_right_cancel hset]
  | @fetch s id budget t _ hbudget =>
    have hin : inHand k (some (id, 3)) ≤ inHand k (some (id, budget)) := inHand_le_of_le hbudget id
    have hsched : pendingIds k (s.sim.schedule t (.fetchDone id)) =
        pendingIds k s.sim + inHand k (some (id, 3)) := pendingIds_schedule k _ _ _
    have hsame : toCome k ({ s with sim := s.sim.schedule t (.fetchDone id) }, none) =
        toCome k (s, none) + inHand k (some (id, 3)) := by
      simp only [toCome, hsched, inHand]
      abel
    rw [hsame, toCome_held k s (some (id, budget))]
    exact add_le_add_right hin _
  | @finish s id budget r hr =>
    have hqueue := queue_finish s id
    have hprefill : (s.finish id).prefillQueue = s.prefillQueue := hqueue .prefill
    have hdecode : (s.finish id).decodeQueue = s.decodeQueue := hqueue .decode
    have hsame : toCome k (s.finish id, none) = toCome k (s, none) := by
      simp only [toCome, sim_finish, hprefill, hdecode]
    rw [hsame, toCome_held k s (some (id, budget))]
    exact Multiset.le_add_right _ _
  | @drop s id budget =>
    rw [toCome_held k s (some (id, budget))]
    exact Multiset.le_add_right _ _
  | note => exact le_rfl

theorem Moves.toCome_le (h : Moves fetching now x y) (k : ℕ) : toCome k y ≤ toCome k x :=
  h.invariant (I := fun z => toCome k z ≤ toCome k x)
  (fun _ _ hz hm => (hm.toCome_le k).trans hz) le_rfl

theorem toCome_le_active (k : ℕ) (x : ServingState × Held) : toCome k x ≤ active x := by
  have hpending : pendingIds k x.1.sim ≤
      (x.1.sim.pending.map fun ev => ev.kind.requestId : Multiset _) :=
    Multiset.coe_le.2 (List.filter_sublist.map _).subperm
  have hqueue : ∀ stage q, queued k stage q ≤ (q : Multiset UInt64) := fun stage q => by
    unfold queued
    split_ifs
    · exact le_rfl
    · exact Multiset.zero_le _
  have hheld : inHand k x.2 ≤ ((x.2.map Prod.fst).toList : Multiset UInt64) := by
    cases x.2 with
    | none => exact le_rfl
    | some p =>
      obtain ⟨id, budget⟩ := p
      simp only [inHand]
      split_ifs
      · exact le_rfl
      · exact Multiset.zero_le _
  exact add_le_add (add_le_add (add_le_add hpending (hqueue .prefill _)) (hqueue .decode _)) hheld

/-- The event that is handled is no more to come. -/
theorem toCome_pop (hstep : s.sim.step = some (now, kind, sim)) (k : ℕ) :
    (if kind.weight = k then {kind.requestId} else 0) +
      toCome k ({ s with sim := sim }, some (kind.requestId, kind.weight - 1)) ≤
        toCome k (s, none) := by
  obtain ⟨ev, rfl, hperm, -⟩ := Simulator.step_spec hstep
  have hpending : pendingIds k s.sim =
      inHand k (some (ev.kind.requestId, ev.kind.weight)) + pendingIds k sim := by
    have hmap := (hperm.filter fun ev => k ≤ ev.kind.weight).map fun ev => ev.kind.requestId
    have hcoe := Multiset.coe_eq_coe.2 hmap
    rw [pendingIds, pendingIds, inHand, hcoe, List.filter_cons]
    split_ifs with hk <;> simp_all
  have hheld : (if ev.kind.weight = k then {ev.kind.requestId} else 0) +
      inHand k (some (ev.kind.requestId, ev.kind.weight - 1)) ≤
        inHand k (some (ev.kind.requestId, ev.kind.weight)) := by
    have hpos := ServingEvent.weight_pos ev.kind
    simp only [inHand]
    split_ifs <;> first | omega | simp
  have hpopped : toCome k ({ s with sim := sim }, some (ev.kind.requestId, ev.kind.weight - 1)) =
      toCome k ({ s with sim := sim }, none) +
        inHand k (some (ev.kind.requestId, ev.kind.weight - 1)) := toCome_held _ _ _
  have hbefore : toCome k (s, none) = toCome k ({ s with sim := sim }, none) +
      inHand k (some (ev.kind.requestId, ev.kind.weight)) := by
    simp only [toCome, hpending, inHand]
    abel
  rw [hpopped, hbefore, add_left_comm]
  exact add_le_add_right hheld _

theorem Advance.toCome_le (h : Advance fetching s s') (hnext : s.sim.step = some (now, kind, sim))
    (k : ℕ) : (if kind.weight = k then {kind.requestId} else 0) + toCome k (s', none) ≤
      toCome k (s, none) := by
  obtain ⟨s₁, hrelease, hmoves, -⟩ := h.handles hnext
  have hle := hmoves.toCome_le k
  rw [hrelease.eq] at hle
  exact (add_le_add_right hle _).trans (toCome_pop hnext k)

end ServingState

namespace CacheAwareRunner

variable {C P T : Type} {r s : CacheAwareRunner C P T} {past : List (Happening C P T)}
  {e e' : Happening C P T} {requests : List LlmRequest}

/-! ## What a request is counted as -/

/-- The requests that have been counted, with their counters. -/
def counted (past : List (Happening C P T)) : List (UInt64 × Counter) :=
  past.flatMap fun e => newEntries e.event.requestId e.before.hits e.after.hits

theorem counted_concat : counted (past ++ [e]) =
    counted past ++ newEntries e.event.requestId e.before.hits e.after.hits := by
  rw [counted, List.flatMap_append, List.flatMap_singleton, counted]

theorem mem_counted {id : UInt64} {c : Counter} :
    (id, c) ∈ counted past ↔ ∃ e ∈ past, e.event.requestId = id ∧ e.credits c := by
  have hentry : ∀ e : Happening C P T,
      (id, c) ∈ newEntries e.event.requestId e.before.hits e.after.hits ↔
        e.event.requestId = id ∧ e.credits c := by
    intro e
    simp only [newEntries, List.mem_flatMap, List.mem_replicate, Prod.mk.injEq, Happening.credits]
    constructor
    · rintro ⟨c', -, hne, rfl, rfl⟩
      exact ⟨rfl, by omega⟩
    · rintro ⟨rfl, hlt⟩
      exact ⟨c, by cases c <;> simp, by omega, rfl, rfl⟩
  simp only [counted, List.mem_flatMap, hentry]

variable [ComputeModel C] [PlacementPolicy P] [TransferModel T]

/-! ## Events of one kind -/

/-- **Once each.** The events of one kind that have happened and those that are to come are of
different requests. -/
theorem Past.once (hpast : Past (r.start requests) past s) (k : ℕ) :
    ((past.filter fun e => e.event.weight = k).map fun e => e.event.requestId : Multiset UInt64) +
      toCome k (s.toServingState, none) ≤ ids requests := by
  induction hpast with
  | nil =>
    have htracked : Tracked (ids (sortRequests requests))
        ((r.start requests).toServingState, none) :=
      tracked_start r.cluster _
    rw [List.filter_nil, List.map_nil, Multiset.coe_nil, zero_add, ← ids_sortRequests,
      ← htracked.places]
    exact (toCome_le_active k _).trans (Multiset.le_add_right _ _)
  | @step past s s' now event sim _ hnext hstep ih =>
    have hle := (step_advance hstep).toCome_le hnext k
    refine le_trans (le_of_eq ?_) ((add_le_add_right hle _).trans ih)
    rw [List.filter_append, List.map_append, ← Multiset.coe_add, ← add_assoc]
    congr 2
    split_ifs with hk <;> simp [hk]

/-- The records in flight are those of requests of the trace. -/
theorem Past.request_mem (hpast : Past (r.start requests) past s) {id : UInt64}
    {inflight : InFlightRequest} (hin : s.inFlight.get id = some inflight) :
    inflight.request ∈ requests := by
  induction hpast generalizing id inflight with
  | nil =>
    rcases get_enterAll _ _ hin with hin | ⟨q, hq, rfl⟩
    · exact absurd hin (by simp [clearState, ServingState.clear])
    · exact (sortRequests_perm requests).mem_iff.1 hq
  | step _ _ hstep ih =>
    obtain ⟨inflight₀, hin₀, hrequest⟩ := (step_advance hstep).request hin
    exact hrequest ▸ ih hin₀

theorem Past.tracked (hpast : Past (r.start requests) past s) (hids : DistinctIds requests) :
    Tracked (ids requests) (s.toServingState, none) := by
  induction hpast with
  | nil =>
    have htracked : Tracked (ids (sortRequests requests))
        ((r.start requests).toServingState, none) :=
      tracked_start r.cluster _
    rwa [ids_sortRequests] at htracked
  | step _ _ hstep ih => exact (step_advance hstep).tracked (Multiset.coe_nodup.2 hids) ih

/-- The event that comes next is about a request of the trace. -/
theorem Past.exists_inFlight (hpast : Past (r.start requests) past s) (hids : DistinctIds requests)
    {now : UInt64} {event : ServingEvent} {sim : Simulator ServingEvent}
    (hnext : s.sim.step = some (now, event, sim)) :
    ∃ inflight, s.inFlight.get event.requestId = some inflight ∧ inflight.request ∈ requests ∧
      inflight.request.requestId = event.requestId := by
  obtain ⟨inflight, hin⟩ := Option.isSome_iff_exists.1 ((hpast.tracked hids).isSome_get hnext)
  have hid : inflight.id = event.requestId := KeyedMap.key_of_get hin
  exact ⟨inflight, hin, hpast.request_mem hin, hid⟩

/-- Every event is about a request of the trace. -/
theorem Past.exists_request (hpast : Past (r.start requests) past s) (hids : DistinctIds requests)
    (he : e ∈ past) : ∃ q ∈ requests, e.request = some q ∧ q.requestId = e.event.requestId := by
  obtain ⟨earlier, sim, hearlier, hnext, -⟩ := hpast.of_mem he
  obtain ⟨inflight, hin, hmem, hid⟩ := hearlier.exists_inFlight hids hnext
  exact ⟨inflight.request, hmem, by rw [Happening.request, Happening.inflight, hin]; rfl, hid⟩

theorem Past.history {start : CacheAwareRunner C P T} (hpast : Past start past s) :
    ∃ arrivals, History start arrivals (counted past) s := by
  induction hpast with
  | nil => exact ⟨0, .start⟩
  | step _ hnext hstep ih =>
    obtain ⟨arrivals, h⟩ := ih
    exact ⟨_, counted_concat (e := ⟨_, _, _, _⟩) ▸ h.step hnext hstep⟩

/-- The books balance at any time. -/
theorem Past.balanced (hpast : Past (r.start requests) past s) (hids : DistinctIds requests) :
    ∃ arrivals, (s.ledger arrivals (counted past)).Balanced requests.length := by
  obtain ⟨arrivals, h⟩ := hpast.history
  have htracked : Tracked (ids requests) ((r.start requests).toServingState, none) :=
    Past.tracked .nil hids
  exact ⟨arrivals, (h.balanced (Multiset.coe_nodup.2 hids) htracked (balanced_start r hids)).2⟩

/-- No request is counted in two ways. -/
theorem Past.counter_unique (hpast : Past (r.start requests) past s) (hids : DistinctIds requests)
    {c c' : Counter} (he : e ∈ past) (he' : e' ∈ past)
    (hid : e.event.requestId = e'.event.requestId) (hc : e.credits c)
    (hc' : e'.credits c') : c = c' := by
  obtain ⟨arrivals, h⟩ := hpast.balanced hids
  have hnodup : ((counted past).map (·.1)).Nodup := (List.nodup_append.1 h.once).1
  have hsame : (e.event.requestId, c) = (e.event.requestId, c') :=
    List.inj_on_of_nodup_map hnodup (mem_counted.2 ⟨e, he, rfl, hc⟩)
      (mem_counted.2 ⟨e', he', hid.symm, hc'⟩) rfl
  exact (Prod.mk.inj hsame).2

/-- When nothing is left to do, every request has been counted. -/
theorem Past.counted_perm (hpast : Past (r.start requests) past s) (hids : DistinctIds requests)
    (hend : s.sim.pending = []) : ((counted past).map (·.1)).Perm (requests.map (·.requestId)) := by
  obtain ⟨arrivals, h⟩ := hpast.balanced hids
  have hpart := partitioned_of_balanced h
  have hwaiting : s.waiting = [] := by simp [waiting, hend]
  have hevents : s.hits.pendingFetches = 0 := by rw [hpart.pending_events, hend]; rfl
  have hleft : arrivals + s.waiting.countP (·.isArrival) = requests.length := h.left
  have htotal : (counted past).length + s.hits.pendingFetches = arrivals := h.total
  rw [hwaiting, List.countP_nil] at hleft
  have hsubset : (counted past).map (·.1) ⊆ requests.map (·.requestId) := by
    intro id hid
    obtain ⟨⟨id, c⟩, hmem, rfl⟩ := List.mem_map.1 hid
    obtain ⟨e, he, rfl, -⟩ := mem_counted.1 hmem
    obtain ⟨q, hq, -, hid⟩ := hpast.exists_request hids he
    exact hid ▸ List.mem_map_of_mem hq
  refine (hpart.counted_once.subperm hsubset).perm_of_length_le ?_
  rw [List.length_map, List.length_map]
  omega

theorem Past.exists_credits (hpast : Past (r.start requests) past s) (hids : DistinctIds requests)
    (hend : s.sim.pending = []) {q : LlmRequest} (hq : q ∈ requests) :
    ∃ e ∈ past, ∃ c, e.request = some q ∧ e.credits c := by
  have hmem : q.requestId ∈ (counted past).map (·.1) :=
    (hpast.counted_perm hids hend).mem_iff.2 (List.mem_map_of_mem hq)
  obtain ⟨⟨id, c⟩, hentry, hid⟩ := List.mem_map.1 hmem
  obtain ⟨e, he, rfl, hc⟩ := mem_counted.1 hentry
  obtain ⟨q', hq', hrequest, hid'⟩ := hpast.exists_request hids he
  obtain rfl : q' = q := List.inj_on_of_nodup_map hids hq' hq (hid'.trans hid)
  exact ⟨e, he, c, hrequest, hc⟩

/-- At the end a counter says how many requests of the trace have been counted in it. -/
theorem Past.count_eq (hpast : Past (r.start requests) past s) (hids : DistinctIds requests)
    (hend : s.sim.pending = []) (c : Counter) :
    s.hits.count c = requests.countP fun q => ∃ e ∈ past, e.request = some q ∧ e.credits c := by
  obtain ⟨arrivals, h⟩ := hpast.balanced hids
  have hnodup : ((counted past).map (·.1)).Nodup := (List.nodup_append.1 h.once).1
  have hcount : s.hits.count c = (counted past).countP fun entry => entry.2 = c := (h.counts c).symm
  have hentry : ∀ entry ∈ counted past, (entry.2 = c ↔ (entry.1, c) ∈ counted past) := by
    rintro ⟨id, c'⟩ hmem
    constructor
    · rintro rfl
      exact hmem
    · intro hmem'
      exact (Prod.mk.inj (List.inj_on_of_nodup_map hnodup hmem hmem' rfl)).2
  have hrequest : ∀ q ∈ requests, ((q.requestId, c) ∈ counted past ↔
      ∃ e ∈ past, e.request = some q ∧ e.credits c) := by
    intro q hq
    rw [mem_counted]
    refine exists_congr fun e => and_congr_right fun he => and_congr_left fun _ => ?_
    obtain ⟨q', hq', hsome, hid⟩ := hpast.exists_request hids he
    rw [hsome, Option.some.injEq, ← hid]
    exact ⟨fun h => List.inj_on_of_nodup_map hids hq' hq h, fun h => h ▸ rfl⟩
  calc s.hits.count c
      = (counted past).countP fun entry => (entry.1, c) ∈ counted past := by
        rw [hcount]
        exact List.countP_congr fun entry hmem => by simpa using hentry entry hmem
    _ = ((counted past).map (·.1)).countP fun id => (id, c) ∈ counted past := by
        rw [List.countP_map]
        rfl
    _ = (requests.map (·.requestId)).countP fun id => (id, c) ∈ counted past :=
        (hpast.counted_perm hids hend).countP_eq _
    _ = requests.countP fun q => ∃ e ∈ past, e.request = some q ∧ e.credits c := by
        rw [List.countP_map]
        exact List.countP_congr fun q hq => by simpa using hrequest q hq

end CacheAwareRunner

end KvFlowSim
