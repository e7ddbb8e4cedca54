import KvFlowSim.Serving.Hits

/-!
# The hit counters partition the arrivals

`History` follows a run of the cache-aware runner and writes down how many arrivals it has handled
and, for each request that an event counts, the counter that grew. `Balanced` is the invariant that
ties this ledger to the counters, the markers and the pending events; arrivals, fetches and credits
keep it (`Balanced.count`, `Balanced.fetch`, `Balanced.credit`). `hits_partition` reads the contract
of `CacheHitStats` off it.
-/

namespace KvFlowSim

open ServingState

namespace ServingEvent

@[simp] theorem requestId_requestArrival (id : UInt64) : (requestArrival id).requestId = id := rfl

@[simp] theorem requestId_fetchDone (id : UInt64) : (fetchDone id).requestId = id := rfl

@[simp] def isArrival : ServingEvent → Bool
  | requestArrival _ => true
  | _ => false

@[simp] def isFetchDone : ServingEvent → Bool
  | fetchDone _ => true
  | _ => false

end ServingEvent

/-! ## The ledger -/

/-- What the counters are checked against. -/
structure Ledger where
  /-- The number of arrivals that have been handled. -/
  arrivals : ℕ
  /-- The requests that have been counted, with their counters. -/
  log : List (UInt64 × Counter)
  hits : CacheHitStats
  tierOf : UInt64 → Option TierKind
  markers : ℕ
  waiting : List ServingEvent

/-- The books balance, in a run on `n` requests. -/
structure Ledger.Balanced (n : ℕ) (l : Ledger) : Prop where
  marked : ∀ id, (l.tierOf id).isSome ↔ .fetchDone id ∈ l.waiting
  tiers : ∀ id tier, l.tierOf id = some tier → tier.fetchCounter.isSome
  markers : l.hits.pendingFetches = l.markers
  fetches : l.hits.pendingFetches = l.waiting.countP (·.isFetchDone)
  total : l.log.length + l.hits.pendingFetches = l.arrivals
  counts : ∀ c, l.log.countP (fun e => e.2 = c) = l.hits.count c
  once : (l.log.map (·.1) ++ l.waiting.map (·.requestId)).Nodup
  errors : l.hits.fetchErrors ≤ l.hits.misses
  left : l.arrivals + l.waiting.countP (·.isArrival) = n

namespace Ledger.Balanced

variable {n : ℕ} {l : Ledger} {id : UInt64} {waiting : List ServingEvent} {hits : CacheHitStats}

/-- The order of the pending events does not matter. -/
theorem perm (h : l.Balanced n) (hw : l.waiting.Perm waiting) :
    ({ l with waiting := waiting } : Ledger).Balanced n where
  marked id := (h.marked id).trans hw.mem_iff
  tiers := h.tiers
  markers := h.markers
  fetches := h.fetches.trans (hw.countP_eq _)
  total := h.total
  counts := h.counts
  once := ((hw.map _).append_left _).nodup_iff.1 h.once
  errors := h.errors
  left := hw.countP_eq (·.isArrival) ▸ h.left

/-- A request of a pending event has not been counted, and waits for no other event. -/
theorem fresh {kind : ServingEvent} (h : l.Balanced n) (hw : l.waiting = kind :: waiting) :
    kind.requestId ∉ l.log.map (·.1) ∧ kind.requestId ∉ waiting.map (·.requestId) := by
  have honce := h.once
  rw [hw, List.map_cons] at honce
  obtain ⟨-, htail, hdisjoint⟩ := List.nodup_append.1 honce
  exact ⟨fun hmem => hdisjoint _ hmem _ List.mem_cons_self rfl, (List.nodup_cons.1 htail).1⟩

theorem not_mem_of_fresh {kind : ServingEvent} (h : l.Balanced n)
    (hw : l.waiting = kind :: waiting) : .fetchDone kind.requestId ∉ waiting :=
  fun hmem => (h.fresh hw).2 (List.mem_map_of_mem (f := (·.requestId)) hmem)

/-- A request that arrives has no marker. -/
theorem tierOf_arrival (h : l.Balanced n) (hw : l.waiting = .requestArrival id :: waiting) :
    l.tierOf id = none := by
  rw [← Option.not_isSome_iff_eq_none, h.marked, hw]
  have hnot := h.not_mem_of_fresh hw
  simpa using hnot

/-- The log after one more entry. -/
theorem counts_append {c : Counter} (h : l.Balanced n)
    (hhits : ∀ c', hits.count c' = l.hits.count c' + if c' = c then 1 else 0) (c' : Counter) :
    (l.log ++ [(id, c)]).countP (fun e => e.2 = c') = hits.count c' := by
  rw [List.countP_append, h.counts, hhits, List.countP_singleton]
  by_cases hc : c = c'
  · subst hc
    simp
  · simp [hc, Ne.symm hc]

theorem once_append {c : Counter} {kind : ServingEvent} (h : l.Balanced n)
    (hw : l.waiting = kind :: waiting) :
    ((l.log ++ [(kind.requestId, c)]).map (·.1) ++ waiting.map (·.requestId)).Nodup := by
  have honce := h.once
  simpa [hw] using honce

/-- An arrival is counted at once. -/
theorem count {c : Counter} (h : l.Balanced n) (hw : l.waiting = .requestArrival id :: waiting)
    (hpending : hits.pendingFetches = l.hits.pendingFetches)
    (hhits : ∀ c', hits.count c' = l.hits.count c' + if c' = c then 1 else 0)
    (herrors : hits.fetchErrors ≤ hits.misses) :
    ({ l with
        arrivals := l.arrivals + 1
        log := l.log ++ [(id, c)]
        hits := hits
        waiting := waiting } : Ledger).Balanced n where
  marked id' := by rw [h.marked, hw]; simp
  tiers := h.tiers
  markers := hpending.trans h.markers
  fetches := by
    have := h.fetches
    rw [hw, List.countP_cons] at this
    simpa [hpending, ServingEvent.isFetchDone] using this
  total := by
    have := h.total
    simp only [List.length_append, List.length_singleton, hpending]
    omega
  counts := h.counts_append hhits
  once := h.once_append hw
  errors := herrors
  left := by
    have := h.left
    rw [hw, List.countP_cons_of_pos rfl] at this
    dsimp only
    omega

/-- An arrival is marked and waits for its fetch. -/
theorem fetch {tier : TierKind} {tierOf : UInt64 → Option TierKind} (h : l.Balanced n)
    (hw : l.waiting = .requestArrival id :: waiting) (htier : tier.fetchCounter.isSome)
    (htierOf : ∀ id', tierOf id' = if id' = id then some tier else l.tierOf id') :
    ({ l with
        arrivals := l.arrivals + 1
        hits := { l.hits with pendingFetches := l.hits.pendingFetches + 1 }
        tierOf := tierOf
        markers := l.markers + 1
        waiting := waiting ++ [.fetchDone id] } : Ledger).Balanced n where
  marked id' := by
    simp only [htierOf, List.mem_append, List.mem_singleton, ServingEvent.fetchDone.injEq]
    split_ifs with hid
    · simp [hid]
    · simp [h.marked, hw, hid]
  tiers id' tier' htier' := by
    simp only [htierOf] at htier'
    split_ifs at htier' with hid
    · obtain rfl := Option.some.inj htier'
      exact htier
    · exact h.tiers id' tier' htier'
  markers := congrArg (· + 1) h.markers
  fetches := by
    have := h.fetches
    simp only [hw, List.countP_cons] at this
    simp [this, ServingEvent.isFetchDone]
  total := by
    have := h.total
    dsimp only
    omega
  counts := h.counts
  once := by
    have honce := h.once
    rw [hw] at honce
    refine (List.Perm.append_left _ ?_).nodup_iff.1 honce
    simpa [ServingEvent.requestId] using (List.perm_append_singleton id _).symm
  errors := h.errors
  left := by
    have := h.left
    rw [hw, List.countP_cons_of_pos rfl] at this
    rw [List.countP_append, List.countP_singleton, if_neg (by simp)]
    dsimp only
    omega

/-- A fetch is done and its request is counted. -/
theorem credit {c : Counter} {tierOf : UInt64 → Option TierKind} {markers : ℕ} (h : l.Balanced n)
    (hw : l.waiting = .fetchDone id :: waiting)
    (hhits : hits = { l.hits.counted c with pendingFetches := l.hits.pendingFetches - 1 })
    (htierOf : ∀ id', tierOf id' = if id' = id then none else l.tierOf id')
    (hmarkers : markers + 1 = l.markers) :
    ({ l with
        log := l.log ++ [(id, c)]
        hits := hits
        tierOf := tierOf
        markers := markers
        waiting := waiting } : Ledger).Balanced n where
  marked id' := by
    simp only [htierOf]
    split_ifs with hid
    · have hnot := h.not_mem_of_fresh hw
      simpa [hid] using hnot
    · simp [h.marked, hw, hid]
  tiers id' tier' htier' := by
    simp only [htierOf] at htier'
    split_ifs at htier'
    exact h.tiers id' tier' htier'
  markers := by
    have := h.markers
    simp only [hhits]
    omega
  fetches := by
    have := h.fetches
    rw [hw, List.countP_cons_of_pos rfl] at this
    simp only [hhits]
    omega
  total := by
    have := h.total
    have := h.markers
    simp only [hhits, List.length_append, List.length_singleton]
    omega
  counts := h.counts_append fun c' => by rw [hhits]; exact l.hits.count_counted c c'
  once := h.once_append hw
  errors := by
    have := h.errors
    subst hhits
    cases c <;> simp only [CacheHitStats.counted] <;> omega
  left := by
    have := h.left
    simpa [hw, ServingEvent.isArrival] using this

/-- What is not counted does not disturb the books. -/
theorem note (h : l.Balanced n) (k : ℕ) :
    ({ l with hits := { l.hits with placementErrors := k } } : Ledger).Balanced n where
  marked := h.marked
  tiers := h.tiers
  markers := h.markers
  fetches := h.fetches
  total := h.total
  counts c := (h.counts c).trans (by cases c <;> rfl)
  once := h.once
  errors := h.errors
  left := h.left

end Ledger.Balanced

/-! ## Runs -/

/-- The counters that grew between two states, on the account of request `id`. -/
def newEntries (id : UInt64) (hits hits' : CacheHitStats) : List (UInt64 × Counter) :=
  [Counter.hitsGpu, .hitsCpu, .hitsRemote, .misses].flatMap fun c =>
    List.replicate (hits'.count c - hits.count c) (id, c)

theorem newEntries_of_count_eq {id : UInt64} {hits hits' : CacheHitStats}
    (h : ∀ c, hits'.count c = hits.count c) : newEntries id hits hits' = [] := by
  simp [newEntries, h]

theorem newEntries_of_counted {id : UInt64} {hits hits' : CacheHitStats} {c : Counter}
    (h : ∀ c', hits'.count c' = hits.count c' + if c' = c then 1 else 0) :
    newEntries id hits hits' = [(id, c)] := by
  cases c <;> simp [newEntries, h]

namespace ServingState

variable {s : ServingState} {now : UInt64} {kind : ServingEvent} {sim : Simulator ServingEvent}

theorem waiting_step (hnext : s.sim.step = some (now, kind, sim)) :
    s.waiting.Perm
      ([kind].filter (fun kind => kind.completion.isNone) ++
        ({ s with sim } : ServingState).waiting) := by
  obtain ⟨ev, rfl, hperm, -⟩ := Simulator.step_spec hnext
  have hkinds := (hperm.map fun ev => ev.kind).filter fun kind => kind.completion.isNone
  rwa [List.map_cons, ← List.singleton_append, List.filter_append] at hkinds

/-- The request of the next event has no other event. -/
theorem Tracked.requestId_notMem {ids : Multiset UInt64} (hids : ids.Nodup)
    (h : Tracked ids (s, none)) (hnext : s.sim.step = some (now, kind, sim)) :
    kind.requestId ∉ sim.pending.map fun ev => ev.kind.requestId := by
  have hnot := (h.pop hnext 0).held_notMem hids
  simp only [active, Multiset.mem_add, Multiset.mem_coe, not_or] at hnot
  exact hnot.1.1.1

/-- The request of the next event is in flight. -/
theorem Tracked.isSome_get {ids : Multiset UInt64} (h : Tracked ids (s, none))
    (hnext : s.sim.step = some (now, kind, sim)) : (s.inFlight.get kind.requestId).isSome :=
  (h.pop hnext 0).inFlight _ (by rw [active_held]; exact Multiset.mem_cons_self _ _)

/-! ### The start of a run -/

theorem waiting_start (cluster : ClusterTopology) (l : List LlmRequest) :
    ((ServingState.new cluster).enterAll l).waiting =
      l.map fun req => .requestArrival req.requestId := by
  rw [waiting, kinds_enterAll]
  simp [ServingState.new, List.filter_map, Function.comp_def, ServingEvent.completion]

theorem pendingFetchTier_start {cluster : ClusterTopology} {l : List LlmRequest} {id : UInt64}
    {r : InFlightRequest} (h : ((ServingState.new cluster).enterAll l).inFlight.get id = some r) :
    r.pendingFetchTier = none := by
  rcases get_enterAll _ l h with h | ⟨req, -, rfl⟩
  · simp [ServingState.new] at h
  · rfl

theorem tierOf_start (cluster : ClusterTopology) (l : List LlmRequest) (id : UInt64) :
    ((ServingState.new cluster).enterAll l).tierOf id = none :=
  Option.bind_eq_none_iff.2 fun _ hr => pendingFetchTier_start hr

theorem markers_start (cluster : ClusterTopology) (l : List LlmRequest) :
    ((ServingState.new cluster).enterAll l).markers = 0 := by
  refine Multiset.sum_eq_zero fun w hw => ?_
  obtain ⟨r, hr, rfl⟩ := Multiset.mem_map.1 hw
  rw [pendingFetchTier_start (KeyedMap.mem_values.1 hr)]
  rfl

end ServingState

namespace CacheAwareRunner

variable {C P T : Type} {start r r' : CacheAwareRunner C P T} {n arrivals : ℕ}
  {log : List (UInt64 × Counter)} {id : UInt64}

/-- The ledger of a state. -/
def ledger (arrivals : ℕ) (log : List (UInt64 × Counter))
    (r : CacheAwareRunner C P T) : Ledger where
  arrivals := arrivals
  log := log
  hits := r.hits
  tierOf := r.tierOf
  markers := r.markers
  waiting := r.waiting

/-- An event that is neither an arrival nor a fetch leaves the books as they are. -/
theorem balanced_of_untouched (h : (r.ledger arrivals log).Balanced n)
    (hhits : ∃ k, r'.hits = { r.hits with placementErrors := k })
    (hrest : Untouched r.toServingState r'.toServingState) :
    (r'.ledger arrivals (log ++ newEntries id r.hits r'.hits)).Balanced n := by
  obtain ⟨k, hk⟩ := hhits
  have hnone : newEntries id r.hits r'.hits = [] := newEntries_of_count_eq fun c => by
    rw [hk]
    cases c <;> rfl
  have htierOf : r'.tierOf = r.tierOf := funext hrest.tierOf
  rw [hnone, List.append_nil, ledger, hk, htierOf, hrest.markers, hrest.waiting]
  exact h.note k

/-- The handler of an arrival keeps the books. -/
theorem Arrived.balanced (harrived : Arrived id r r')
    (h : ({ r.ledger arrivals log with
      waiting := .requestArrival id :: r.waiting } : Ledger).Balanced n) :
    (r'.ledger (arrivals + 1) (log ++ newEntries id r.hits r'.hits)).Balanced n := by
  have herrors : r.hits.fetchErrors ≤ r.hits.misses := h.errors
  cases harrived with
  | counted c hhits hrest =>
    have hcount : ∀ c', r'.hits.count c' = r.hits.count c' + if c' = c then 1 else 0 := fun c' => by
      rw [hhits, CacheHitStats.count_counted]
    have htierOf : r'.tierOf = r.tierOf := funext hrest.tierOf
    rw [newEntries_of_counted hcount, ledger, htierOf, hrest.markers, hrest.waiting]
    refine h.count rfl ?_ hcount ?_
    · rw [hhits, CacheHitStats.pendingFetches_counted]
      rfl
    · rw [hhits, CacheHitStats.fetchErrors_counted]
      refine herrors.trans ?_
      cases c <;> simp [CacheHitStats.counted]
  | degraded hhits hrest =>
    have hcount : ∀ c', r'.hits.count c' = r.hits.count c' + if c' = .misses then 1 else 0 := by
      intro c'
      rw [hhits]
      cases c' <;> rfl
    have htierOf : r'.tierOf = r.tierOf := funext hrest.tierOf
    rw [newEntries_of_counted hcount, ledger, htierOf, hrest.markers, hrest.waiting]
    refine h.count rfl ?_ hcount ?_
    · rw [hhits]
      rfl
    · rw [hhits]
      exact Nat.succ_le_succ herrors
  | fetching tier htier hhits htierOf hmarkers hwaiting =>
    have hcount : ∀ c', r'.hits.count c' = r.hits.count c' := fun c' => by
      rw [hhits]
      cases c' <;> rfl
    rw [newEntries_of_count_eq hcount, List.append_nil, ledger, hhits, hmarkers, hwaiting]
    exact h.fetch rfl htier htierOf

/-- The handler of a fetch keeps the books. -/
theorem Credited.balanced {c : Counter} (hcredited : Credited id c r r')
    (h : ({ r.ledger arrivals log with
      waiting := .fetchDone id :: r.waiting } : Ledger).Balanced n) :
    (r'.ledger arrivals (log ++ newEntries id r.hits r'.hits)).Balanced n := by
  have hcount : ∀ c', r'.hits.count c' = r.hits.count c' + if c' = c then 1 else 0 := fun c' => by
    rw [hcredited.hits]
    exact r.hits.count_counted c c'
  rw [newEntries_of_counted hcount, ledger, hcredited.waiting]
  exact h.credit rfl hcredited.hits hcredited.tierOf hcredited.markers

/-- The contract of `CacheHitStats` in a state of a run. -/
structure Partitioned (arrivals : ℕ) (log : List (UInt64 × Counter)) (r : CacheAwareRunner C P T) :
    Prop where
  total : r.hits.hitsGpu + r.hits.hitsCpu + r.hits.hitsRemote + r.hits.misses +
    r.hits.pendingFetches = arrivals
  pending_markers : r.hits.pendingFetches = r.markers
  pending_events : r.hits.pendingFetches = r.sim.pending.countP fun ev => ev.kind.isFetchDone
  counted_once : (log.map (·.1)).Nodup
  log_counts : ∀ c, log.countP (fun e => e.2 = c) = r.hits.count c
  fetchErrors_le : r.hits.fetchErrors ≤ r.hits.misses

theorem length_log (log : List (UInt64 × Counter)) :
    log.countP (fun e => e.2 = .hitsGpu) + log.countP (fun e => e.2 = .hitsCpu) +
      log.countP (fun e => e.2 = .hitsRemote) + log.countP (fun e => e.2 = .misses) =
        log.length := by
  induction log with
  | nil => rfl
  | cons e log ih =>
    obtain ⟨id, c⟩ := e
    cases c <;> simp [← ih] <;> omega

theorem partitioned_of_balanced (h : (r.ledger arrivals log).Balanced n) :
    r.Partitioned arrivals log := by
  have hlength := length_log log
  have hcounts : ∀ c, log.countP (fun e => e.2 = c) = r.hits.count c := h.counts
  simp only [hcounts, CacheHitStats.count] at hlength
  refine ⟨?_, h.markers, ?_, ?_, hcounts, h.errors⟩
  · rw [hlength]
    exact h.total
  · have hfetches : r.hits.pendingFetches = r.waiting.countP (·.isFetchDone) := h.fetches
    rw [hfetches, waiting, List.countP_filter, List.countP_map]
    refine List.countP_congr fun ev _ => ?_
    cases hkind : ev.kind <;> simp [hkind, ServingEvent.completion]
  · exact (List.nodup_append.1 h.once).1

/-- What an event does to the account of a state that it has been taken out of. -/
inductive Effect (r r' : CacheAwareRunner C P T) : ServingEvent → Prop
  | arrived {id : UInt64} (h : Arrived id r r') : Effect r r' (.requestArrival id)
  | credited {id : UInt64} {tier : TierKind} {c : Counter} (hc : tier.fetchCounter = some c)
      (h : Credited id c r r') : Effect r r' (.fetchDone id)
  | completed {kind : ServingEvent} {gpu : NodeId × ℕ} (hkind : kind.completion = some gpu)
      (hhits : ∃ k, r'.hits = { r.hits with placementErrors := k })
      (hrest : Untouched r.toServingState r'.toServingState) : Effect r r' kind

theorem Effect.balanced {kind : ServingEvent} (heffect : Effect r r' kind)
    (h : ({ r.ledger arrivals log with
      waiting := [kind].filter (fun kind => kind.completion.isNone) ++ r.waiting
        } : Ledger).Balanced n) :
    (r'.ledger (arrivals + if kind.isArrival then 1 else 0)
      (log ++ newEntries kind.requestId r.hits r'.hits)).Balanced n := by
  cases heffect with
  | arrived harrived => exact harrived.balanced h
  | credited _ hcredited => exact hcredited.balanced h
  | completed hkind hhits hrest =>
    cases kind with
    | prefillDone id n i => exact balanced_of_untouched h hhits hrest
    | decodeDone id n i => exact balanced_of_untouched h hhits hrest
    | requestArrival id => simp [ServingEvent.completion] at hkind
    | fetchDone id => simp [ServingEvent.completion] at hkind

theorem balanced_start (r : CacheAwareRunner C P T) {requests : List LlmRequest}
    (hids : DistinctIds requests) :
    ((r.start requests).ledger 0 []).Balanced requests.length := by
  have hperm := sortRequests_perm requests
  have hwaiting : (r.start requests).waiting =
      (sortRequests requests).map fun req => .requestArrival req.requestId :=
    waiting_start r.cluster _
  have htierOf : (r.start requests).tierOf = fun _ => none :=
    funext fun id => tierOf_start r.cluster _ id
  have hmarkers : (r.start requests).markers = 0 := markers_start r.cluster _
  refine ⟨fun id => ?_, fun id tier htier => ?_, hmarkers.symm, ?_, rfl, fun c =>
    ?_, ?_, le_rfl, ?_⟩
  · simp [ledger, htierOf, hwaiting]
  · simp [ledger, htierOf] at htier
  · rw [ledger, hwaiting, List.countP_map]
    exact (List.countP_eq_zero.2 fun req _ => by simp).symm
  · cases c <;> rfl
  · have hnodup : ((sortRequests requests).map (·.requestId)).Nodup :=
      (hperm.map _).nodup_iff.2 hids
    simpa [ledger, hwaiting, Function.comp_def] using hnodup
  · simp [ledger, hwaiting, Function.comp_def, hperm.length_eq]

variable [ComputeModel C] [PlacementPolicy P] [TransferModel T] {ids : Multiset UInt64}

/-- Every event has one of the three effects. -/
theorem step_effect {now : UInt64} {kind : ServingEvent} {sim : Simulator ServingEvent}
    (hids : ids.Nodup) (htracked : Tracked ids (r.toServingState, none))
    (h : (r.ledger arrivals log).Balanced n) (hnext : r.sim.step = some (now, kind, sim))
    (hstep : EventLoop.Step step r r') : Effect { r with sim } r' kind := by
  have hr' := handleEvent_of_step hnext hstep
  have h₀ := h.perm (waiting_step hnext)
  have hin := htracked.isSome_get hnext
  cases kind with
  | requestArrival id =>
    obtain ⟨inflight, hin⟩ := Option.isSome_iff_exists.1 hin
    exact .arrived (onArrival_arrived hin (h₀.tierOf_arrival rfl) hr')
  | fetchDone id =>
    have hmarked : (r.tierOf id).isSome := (h₀.marked id).2 List.mem_cons_self
    obtain ⟨tier, htier⟩ := Option.isSome_iff_exists.1 hmarked
    obtain ⟨c, hc⟩ := Option.isSome_iff_exists.1 (h.tiers id tier htier)
    exact .credited hc (onFetchDone_credited (r := { r with sim }) htier hc hr')
  | prefillDone id n i =>
    obtain ⟨hhits, hrest⟩ := onPrefillDone_untouched hr'
    exact .completed rfl hhits hrest
  | decodeDone id n i =>
    -- a marked request would have a second event
    have hnone : r.tierOf id = none := by
      rw [← Option.not_isSome_iff_eq_none]
      intro hmarked
      have hmem := (List.mem_filter.1 ((h₀.marked id).1 hmarked)).1
      obtain ⟨ev, hev, hkind⟩ := List.mem_map.1 hmem
      exact htracked.requestId_notMem hids hnext (List.mem_map.2 ⟨ev, hev, by rw [hkind]; rfl⟩)
    have huncounted := onDecodeDone_uncounted (r := { r with sim }) hnone hr'
    exact .completed rfl ⟨_, huncounted.hits⟩ huncounted.rest

/-- One event keeps the books. -/
theorem balanced_step {now : UInt64} {kind : ServingEvent} {sim : Simulator ServingEvent}
    (hids : ids.Nodup) (htracked : Tracked ids (r.toServingState, none))
    (h : (r.ledger arrivals log).Balanced n) (hnext : r.sim.step = some (now, kind, sim))
    (hstep : EventLoop.Step step r r') :
    (r'.ledger (arrivals + if kind.isArrival then 1 else 0)
      (log ++ newEntries kind.requestId r.hits r'.hits)).Balanced n :=
  (step_effect hids htracked h hnext hstep).balanced (h.perm (waiting_step hnext))

/-- The states of a run, with the number of arrivals handled so far and the requests counted so
far. -/
inductive History (start : CacheAwareRunner C P T) :
    ℕ → List (UInt64 × Counter) → CacheAwareRunner C P T → Prop
  | start : History start 0 [] start
  | step {arrivals : ℕ} {log : List (UInt64 × Counter)} {r r' : CacheAwareRunner C P T}
      {now : UInt64} {kind : ServingEvent} {sim : Simulator ServingEvent}
      (h : History start arrivals log r) (hnext : r.sim.step = some (now, kind, sim))
      (hstep : EventLoop.Step step r r') :
      History start (arrivals + if kind.isArrival then 1 else 0)
        (log ++ newEntries kind.requestId r.hits r'.hits) r'

/-- Every state of a run has a history. -/
theorem exists_history (h : EventLoop.Reach step start r) :
    ∃ arrivals log, History start arrivals log r := by
  induction h with
  | refl => exact ⟨0, [], .start⟩
  | tail _ hstep ih =>
    obtain ⟨arrivals, log, h⟩ := ih
    obtain ⟨now, kind, sim, hnext, -⟩ := step_advance hstep
    exact ⟨_, _, .step h hnext hstep⟩

/-- The books are kept throughout a run. -/
theorem History.balanced (h : History start arrivals log r) (hids : ids.Nodup)
    (htracked : Tracked ids (start.toServingState, none))
    (hstart : (start.ledger 0 []).Balanced n) :
    Tracked ids (r.toServingState, none) ∧ (r.ledger arrivals log).Balanced n := by
  induction h with
  | start => exact ⟨htracked, hstart⟩
  | step h hnext hstep ih =>
    exact ⟨(step_advance hstep).tracked hids ih.1, balanced_step hids ih.1 ih.2 hnext hstep⟩

/-- What `run` returns: the results and the counters at the end of the loop, when no event
is left. -/
theorem run_spec {requests : List LlmRequest} {results : List RequestResult}
    (h : r.run requests = .ok (results, r')) :
    ∃ s, EventLoop.run step (4 * requests.length) (r.start requests) = .ok s ∧ s.sim.pending = [] ∧
      results = s.results.sortByKey RequestResult.arrivalKey ∧ r'.hits = s.hits := by
  obtain ⟨s, hs, h⟩ := Except.bind_eq_ok.1 h
  obtain ⟨hresults, hr'⟩ := Prod.mk.inj (Except.ok.inj h)
  have hload : (r.start requests).load = 4 * (sortRequests requests).length :=
    load_start r.cluster _
  rw [(sortRequests_perm requests).length_eq] at hload
  refine ⟨s, hs, (servingLoop.halted s).1 (servingLoop.run_halted hload.le hs), hresults.symm, ?_⟩
  rw [← hr']

/-- **Hit accounting is a partition.** In every state of a run on requests with distinct ids the
four counters and the pending fetches add up to the arrivals handled so far, the pending fetches are
the marked requests and the `FetchDone` events, no request has been counted twice, and a failed
fetch is a miss. When the run is over nothing is pending and every request has been counted. -/
theorem hits_partition (r : CacheAwareRunner C P T) (requests : List LlmRequest)
    (hids : DistinctIds requests) :
    (∀ s, EventLoop.Reach step (r.start requests) s →
      ∃ arrivals log, History (r.start requests) arrivals log s) ∧
    (∀ arrivals log s, History (r.start requests) arrivals log s → s.Partitioned arrivals log) ∧
    ∀ results s, r.run requests = .ok (results, s) → s.hits.pendingFetches = 0 ∧
      s.hits.hitsGpu + s.hits.hitsCpu + s.hits.hitsRemote + s.hits.misses = requests.length := by
  have htracked : Tracked (ServingState.ids (sortRequests requests))
      ((r.start requests).toServingState, none) := tracked_start r.cluster _
  rw [ids_sortRequests] at htracked
  have hbalanced : ∀ arrivals log s, History (r.start requests) arrivals log s →
      (s.ledger arrivals log).Balanced requests.length := fun _ _ _ h =>
    (h.balanced (Multiset.coe_nodup.2 hids) htracked (balanced_start r hids)).2
  refine ⟨fun s => exists_history, fun _ _ _ h => partitioned_of_balanced (hbalanced _ _ _ h), ?_⟩
  intro results s hrun
  obtain ⟨s', hs', hend, -, hhits⟩ := run_spec hrun
  obtain ⟨arrivals, log, h⟩ := exists_history (EventLoop.run_reach hs')
  have hpart := partitioned_of_balanced (hbalanced _ _ _ h)
  have hleft := (hbalanced _ _ _ h).left
  have hevents := hpart.pending_events
  have htotal := hpart.total
  simp only [ledger, waiting, hend, List.map_nil, List.filter_nil, List.countP_nil] at hleft hevents
  rw [hhits]
  exact ⟨hevents, by omega⟩

/-- Two requests of one session, whose KV goes to remote memory. -/
theorem hits_partition_pair :
    let r := new .ascending ⟨1, 1, 1⟩ (.singleNode 1 1) LinearComputeModel.conservative8b
      AnalyticalTransferModel.rdma400g .llama8bBf16Gqa (RemoteLru.mk 0)
    let requests := [.cold 0 0 8 2, { LlmRequest.cold 1 9000000 12 2 with
      sessionId := 0, newPromptTokens := 4 }]
    (∀ arrivals log s, History (r.start requests) arrivals log s → s.Partitioned arrivals log) ∧
    ∀ results s, r.run requests = .ok (results, s) → s.hits.pendingFetches = 0 ∧
      s.hits.hitsGpu + s.hits.hitsCpu + s.hits.hitsRemote + s.hits.misses = 2 := by
  intro r requests
  exact (hits_partition r requests (by decide)).2

end CacheAwareRunner

end KvFlowSim
