import KvFlowSim.Serving.Conservation

/-!
# The hit counters

A request is counted once: as a miss or a GPU hit when it arrives, or as a hit of another tier when
its fetch is done; in between it is a pending fetch. What ties the counters to the rest of the state
is the marker `pending_fetch_tier`, which a request carries exactly while its `FetchDone` event is
pending.

Each handler is described by what it does to the counters, the markers and the pending arrivals and
fetches (`onArrival_effect`, `onFetchDone_effect`, `onPrefillDone_effect`, `onDecodeDone_effect`);
the jobs and the queues leave all of these alone (`Untouched`). `Counted` is the invariant.
-/

namespace KvFlowSim

open Relation

namespace ServingState

/-- The tier from which a KV is being fetched for a request. -/
def tierOf (s : ServingState) (id : UInt64) : Option TierKind :=
  (s.inFlight.get id).bind fun r => r.pendingFetchTier

/-- The number of requests in flight that wait for a fetch. -/
def markers (s : ServingState) : ℕ :=
  s.inFlight.sumBy fun r => if r.pendingFetchTier.isSome then 1 else 0

/-- The pending arrivals and fetches. -/
def waiting (s : ServingState) : List ServingEvent :=
  (s.sim.pending.map fun ev => ev.kind).filter fun kind => kind.completion.isNone

/-- Nothing that the counters depend on has changed. -/
structure Untouched (s s' : ServingState) : Prop where
  tierOf : ∀ id, s'.tierOf id = s.tierOf id
  markers : s'.markers = s.markers
  waiting : s'.waiting = s.waiting

variable {s s' s'' : ServingState} {stage : Stage} {now id : UInt64}

theorem Untouched.refl (s : ServingState) : Untouched s s := ⟨fun _ => rfl, rfl, rfl⟩

theorem Untouched.trans (h : Untouched s s') (h' : Untouched s' s'') : Untouched s s'' :=
  ⟨fun id => (h'.tierOf id).trans (h.tierOf id), h'.markers.trans h.markers,
    h'.waiting.trans h.waiting⟩

theorem untouched_setQueue (s : ServingState) (stage : Stage) (q : List UInt64) :
    Untouched s (s.setQueue stage q) := by
  cases stage <;> exact ⟨fun _ => rfl, rfl, rfl⟩

theorem tierOf_insert {r : InFlightRequest} (s : ServingState) (id : UInt64) :
    ({ s with inFlight := s.inFlight.insert r } : ServingState).tierOf id =
      if id = r.id then r.pendingFetchTier else s.tierOf id := by
  simp only [tierOf, KeyedMap.get_insert]
  split_ifs <;> rfl

/-- A record is replaced by one with the same marker. -/
theorem untouched_insert {r r' : InFlightRequest} (hr : s.inFlight.get id = some r)
    (hrequest : r'.request = r.request) (htier : r'.pendingFetchTier = r.pendingFetchTier) :
    Untouched s { s with inFlight := s.inFlight.insert r' } := by
  have hid : r.id = id := KeyedMap.key_of_get hr
  have hid' : r'.id = id := (congrArg LlmRequest.requestId hrequest).trans hid
  refine ⟨fun id' => ?_, ?_, rfl⟩
  · rw [tierOf_insert, hid']
    split_ifs with heq
    · rw [heq, htier, tierOf, hr, Option.bind_some]
    · rfl
  · exact KeyedMap.sumBy_insert_of_get (by rw [hid', hr]) (by rw [htier])

theorem waiting_schedule (s : ServingState) (t : UInt64) (kind : ServingEvent) :
    ({ s with sim := s.sim.schedule t kind } : ServingState).waiting =
      s.waiting ++ [kind].filter fun kind => kind.completion.isNone := by
  simp [waiting]

variable {C : Type} [ComputeModel C] {compute : C} {config : ServingConfig}

theorem untouched_start {gpu : NodeId × ℕ}
    (h : s.start compute config stage id gpu now = .ok s') : Untouched s s' := by
  unfold start at h
  split at h
  next =>
    obtain rfl := Except.ok.inj h
    exact .refl s
  next r hr =>
    obtain ⟨⟨sim, cluster, r'⟩, hstart, h⟩ := Except.bind_eq_ok.1 h
    obtain ⟨done, -, -, rfl, hr'⟩ := Stage.start_spec hstart
    obtain rfl := Except.ok.inj h
    have hins := untouched_insert hr hr'.request hr'.pendingFetchTier
    have hwaiting : ({ s with sim := s.sim.schedule done (stage.doneEvent r.id gpu.1 gpu.2) } :
        ServingState).waiting = s.waiting := by
      simp [waiting_schedule]
    exact ⟨hins.tierOf, hins.markers, hwaiting⟩

theorem untouched_startOrQueue (h : s.startOrQueue compute config stage id now = .ok s') :
    Untouched s s' := by
  obtain ⟨gpu, -, h⟩ := Except.bind_eq_ok.1 h
  cases gpu with
  | some gpu => exact untouched_start h
  | none =>
    obtain rfl := Except.ok.inj h
    exact untouched_setQueue s stage _

theorem untouched_startOrQueueDecode (h : s.startOrQueueDecode compute config id now = .ok s') :
    Untouched s s' := by
  unfold startOrQueueDecode at h
  split at h
  · obtain rfl := Except.ok.inj h
    exact .refl s
  · exact untouched_startOrQueue h

theorem untouched_assign {q : List UInt64} (h : assign compute config stage now q s = .ok s') :
    Untouched s s' := by
  induction q generalizing s with
  | nil =>
    obtain rfl := Except.ok.inj h
    exact .refl s
  | cons id rest ih =>
    obtain ⟨gpu, -, h⟩ := Except.bind_eq_ok.1 h
    cases gpu with
    | none =>
      obtain rfl := Except.ok.inj h
      exact .refl s
    | some gpu =>
      obtain ⟨s₁, h₁, h⟩ := Except.bind_eq_ok.1 h
      exact ((untouched_setQueue s stage rest).trans (untouched_start h₁)).trans (ih h)

theorem untouched_tryAssign (h : s.tryAssign compute config stage now = .ok s') : Untouched s s' :=
  untouched_assign h

theorem untouched_releaseGpu {n : NodeId} {i : ℕ} (h : s.releaseGpu n i now = .ok s') :
    Untouched s s' := by
  obtain ⟨cluster, -, h⟩ := Except.bind_eq_ok.1 h
  obtain rfl := Except.ok.inj h
  exact ⟨fun _ => rfl, rfl, rfl⟩

theorem pendingFetchTier_of_get {r : InFlightRequest} (hr : s.inFlight.get id = some r)
    (h : s.tierOf id = none) : r.pendingFetchTier = none := by
  rwa [tierOf, hr, Option.bind_some] at h

/-- A request without a marker leaves no trace in the markers. -/
theorem untouched_finish (h : s.tierOf id = none) : Untouched s (s.finish id) := by
  unfold finish
  split
  · exact .refl s
  next r hr =>
    have htier := pendingFetchTier_of_get hr h
    refine ⟨fun id' => ?_, ?_, rfl⟩
    · simp only [tierOf, KeyedMap.get_remove]
      split_ifs with heq
      · rw [heq, hr, Option.bind_some, htier, Option.bind_none]
      · rfl
    · rw [markers, markers, KeyedMap.sumBy_of_get hr, htier]
      simp

/-! ## Marking a request -/

/-- A request gets a marker that it did not have. -/
theorem markers_insert_of_none {r r' : InFlightRequest} (hr : s.inFlight.get id = some r)
    (hrequest : r'.request = r.request) (hnone : r.pendingFetchTier = none)
    (hsome : r'.pendingFetchTier.isSome) :
    ({ s with inFlight := s.inFlight.insert r' } : ServingState).markers = s.markers + 1 := by
  have hid : r.id = id := KeyedMap.key_of_get hr
  have hid' : r'.id = id := (congrArg LlmRequest.requestId hrequest).trans hid
  simp only [markers, KeyedMap.sumBy_insert, hid', KeyedMap.sumBy_of_get hr, hnone, hsome]
  simp [add_comm]

/-- A request loses its marker. -/
theorem markers_insert_of_some {r r' : InFlightRequest} (hr : s.inFlight.get id = some r)
    (hrequest : r'.request = r.request) (hsome : r.pendingFetchTier.isSome)
    (hnone : r'.pendingFetchTier = none) :
    ({ s with inFlight := s.inFlight.insert r' } : ServingState).markers + 1 = s.markers := by
  have hid : r.id = id := KeyedMap.key_of_get hr
  have hid' : r'.id = id := (congrArg LlmRequest.requestId hrequest).trans hid
  simp only [markers, KeyedMap.sumBy_insert, hid', KeyedMap.sumBy_of_get hr, hnone, hsome]
  simp [add_comm]

end ServingState

/-! ## Counting -/

/-- The counters in which a request can end up. -/
inductive Counter
  | hitsGpu
  | hitsCpu
  | hitsRemote
  | misses
  deriving DecidableEq

namespace CacheHitStats

/-- The value of a counter. -/
def count (hits : CacheHitStats) : Counter → ℕ
  | .hitsGpu => hits.hitsGpu
  | .hitsCpu => hits.hitsCpu
  | .hitsRemote => hits.hitsRemote
  | .misses => hits.misses

/-- One more request in a counter. -/
def counted (hits : CacheHitStats) : Counter → CacheHitStats
  | .hitsGpu => { hits with hitsGpu := hits.hitsGpu + 1 }
  | .hitsCpu => { hits with hitsCpu := hits.hitsCpu + 1 }
  | .hitsRemote => { hits with hitsRemote := hits.hitsRemote + 1 }
  | .misses => { hits with misses := hits.misses + 1 }

variable (hits : CacheHitStats) (c c' : Counter)

theorem count_counted :
    (hits.counted c).count c' = hits.count c' + if c' = c then 1 else 0 := by
  cases c <;> cases c' <;> rfl

@[simp] theorem pendingFetches_counted : (hits.counted c).pendingFetches = hits.pendingFetches := by
  cases c <;> rfl

@[simp] theorem fetchErrors_counted : (hits.counted c).fetchErrors = hits.fetchErrors := by
  cases c <;> rfl

end CacheHitStats

/-- The tiers from which a fetch is made, and the counter that a fetch from there is credited to. -/
def TierKind.fetchCounter : TierKind → Option Counter
  | .cpu => some .hitsCpu
  | .remoteMemory | .remoteSsd => some .hitsRemote
  | .gpu | .localSsd => none

namespace CacheAwareRunner

open ServingState Except

variable {C P T : Type} {r r' : CacheAwareRunner C P T} {now id : UInt64}
  {inflight : InFlightRequest}

/-! ## What the handlers do -/

/-- A handler that counts nothing. -/
structure Uncounted (r r' : CacheAwareRunner C P T) : Prop where
  hits : r'.hits = r.hits
  rest : Untouched r.toServingState r'.toServingState

theorem Uncounted.trans {r'' : CacheAwareRunner C P T} (h : Uncounted r r')
    (h' : Uncounted r' r'') : Uncounted r r'' :=
  ⟨h'.hits.trans h.hits, h.rest.trans h'.rest⟩

theorem uncounted_onState {f : ServingState → Except Panic ServingState}
    (hf : ∀ s, f r.toServingState = .ok s → Untouched r.toServingState s)
    (h : r.onState f = .ok r') : Uncounted r r' := by
  obtain ⟨s, hs, rfl⟩ := onState_eq_ok.1 h
  exact ⟨rfl, hf s hs⟩

/-- The first half of the handler of a fetch: the marked request is credited. -/
structure Credited (id : UInt64) (c : Counter) (r r' : CacheAwareRunner C P T) : Prop where
  hits : r'.hits = { r.hits.counted c with pendingFetches := r.hits.pendingFetches - 1 }
  tierOf : ∀ id', r'.tierOf id' = if id' = id then none else r.tierOf id'
  markers : r'.markers + 1 = r.markers
  waiting : r'.waiting = r.waiting

theorem Credited.trans {r'' : CacheAwareRunner C P T} {c : Counter} (h : Credited id c r r')
    (h' : Uncounted r' r'') : Credited id c r r'' where
  hits := h'.hits.trans h.hits
  tierOf id' := (h'.rest.tierOf id').trans (h.tierOf id')
  markers := by rw [h'.rest.markers, h.markers]
  waiting := h'.rest.waiting.trans h.waiting

theorem takeFetch_credited {tier : TierKind} {c : Counter} (htier : r.tierOf id = some tier)
    (hc : tier.fetchCounter = some c) : Credited id c r (r.takeFetch id) := by
  obtain ⟨inflight, hin, hmark⟩ := Option.bind_eq_some_iff.1 htier
  have hid : inflight.id = id := KeyedMap.key_of_get hin
  simp only [takeFetch, hin, hmark]
  refine ⟨?_, fun id' => ?_, ?_, rfl⟩
  · cases tier <;> cases hc <;> rfl
  · exact (tierOf_insert r.toServingState id').trans (by rw [← hid]; rfl)
  · exact markers_insert_of_some hin rfl (by simp [hmark]) rfl

/-- The handler of an arrival: the request is counted at once, after a failed fetch if need be, or
it is marked and its fetch is scheduled. -/
inductive Arrived (id : UInt64) (r r' : CacheAwareRunner C P T) : Prop
  | counted (c : Counter) (hits : r'.hits = r.hits.counted c)
      (rest : Untouched r.toServingState r'.toServingState)
  | degraded
      (hits : r'.hits = { r.hits.counted .misses with fetchErrors := r.hits.fetchErrors + 1 })
      (rest : Untouched r.toServingState r'.toServingState)
  | fetching (tier : TierKind) (htier : tier.fetchCounter.isSome)
      (hits : r'.hits = { r.hits with pendingFetches := r.hits.pendingFetches + 1 })
      (tierOf : ∀ id', r'.tierOf id' = if id' = id then some tier else r.tierOf id')
      (markers : r'.markers = r.markers + 1)
      (waiting : r'.waiting = r.waiting ++ [.fetchDone id])

variable [ComputeModel C]

theorem startOrQueueRemainingPrefill_uncounted
    (h : r.startOrQueueRemainingPrefill now id = .ok r') : Uncounted r r' := by
  unfold startOrQueueRemainingPrefill at h
  split at h
  · obtain rfl := Except.ok.inj h
    exact ⟨rfl, .refl _⟩
  next inflight hin =>
    dsimp only at h
    split_ifs at h
    · exact uncounted_onState (fun _ => untouched_startOrQueue) h
    · obtain ⟨hhits, hrest⟩ := uncounted_onState (fun _ => untouched_startOrQueue) h
      refine ⟨hhits, Untouched.trans ?_ hrest⟩
      exact untouched_insert hin rfl rfl

theorem tryAssignPrefill_uncounted (h : r.tryAssignPrefill now = .ok r') : Uncounted r r' :=
  uncounted_onState (fun _ => untouched_tryAssign) h

theorem tryAssignDecode_uncounted (h : r.tryAssignDecode now = .ok r') : Uncounted r r' :=
  uncounted_onState (fun _ => untouched_tryAssign) h

theorem missOnArrival_arrived (hin : r.inFlight.get id = some inflight)
    (h : r.missOnArrival now inflight = .ok r') : Arrived id r r' := by
  obtain ⟨s, hs, rfl⟩ := Except.map_eq_ok.1 h
  refine .counted .misses rfl (Untouched.trans ?_ (untouched_startOrQueue hs))
  exact untouched_insert hin rfl rfl

theorem hitOnArrival_arrived {kv : KvObject} (h : r.hitOnArrival now inflight kv = .ok r') :
    Arrived id r r' := by
  unfold hitOnArrival at h
  have hrest := startOrQueueRemainingPrefill_uncounted h
  exact .counted .hitsGpu hrest.hits hrest.rest

/-- A marked request is degraded: its marker and its pending fetch are gone, and it is a miss. -/
theorem degradeToMiss_marked (hin : r.inFlight.get id = some inflight)
    (hmark : inflight.pendingFetchTier.isSome) (h : r.degradeToMiss now id = .ok r') :
    r'.hits = { r.hits.counted .misses with pendingFetches := r.hits.pendingFetches - 1 } ∧
      ∃ tokens, Untouched { r.toServingState with
        inFlight := r.inFlight.insert { inflight with
          pendingFetchTier := none, prefillTokens := tokens } } r'.toServingState := by
  unfold degradeToMiss at h
  simp only [hin, Option.bind_some, hmark, if_true] at h
  obtain ⟨s, hs, rfl⟩ := onState_eq_ok.1 h
  exact ⟨rfl, inflight.request.promptTokens, untouched_startOrQueue hs⟩

theorem onFetchDone_credited {tier : TierKind} {c : Counter} (htier : r.tierOf id = some tier)
    (hc : tier.fetchCounter = some c) (h : r.onFetchDone now id = .ok r') : Credited id c r r' := by
  obtain ⟨r₁, h₁, h⟩ := Except.bind_eq_ok.1 h
  obtain ⟨r₂, h₂, h₃⟩ := Except.bind_eq_ok.1 h
  have hrest := (startOrQueueRemainingPrefill_uncounted h₁).trans
    ((tryAssignDecode_uncounted h₂).trans (tryAssignPrefill_uncounted h₃))
  exact (takeFetch_credited htier hc).trans hrest

theorem onDecodeDone_uncounted {n : NodeId} {i : ℕ} (htier : r.tierOf id = none)
    (h : r.onDecodeDone now id n i = .ok r') : Uncounted r r' := by
  obtain ⟨r₁, h₁, h⟩ := Except.bind_eq_ok.1 h
  obtain ⟨r₂, h₂, h⟩ := Except.bind_eq_ok.1 h
  obtain ⟨r₃, h₃, h₄⟩ := Except.bind_eq_ok.1 h
  have hrel := uncounted_onState (fun _ => untouched_releaseGpu) h₁
  have hfinish : Uncounted r₁ r₂ := uncounted_onState (fun s hs => by
    obtain rfl := Except.ok.inj hs
    exact untouched_finish ((hrel.rest.tierOf id).trans htier)) h₂
  exact (hrel.trans hfinish).trans
    ((tryAssignDecode_uncounted h₃).trans (tryAssignPrefill_uncounted h₄))

variable [TransferModel T]

/-- A fetch is scheduled, or it failed and the request is degraded. -/
theorem handleFetch_cases {kv : KvObject} (h : r.handleFetch now id kv = .ok r') :
    (∃ transfer, { r with transfer }.countFetchError.degradeToMiss now id = .ok r') ∨
      ∃ transfer fetchedBytes t, r' = { r with
        transfer, fetchedBytes, sim := r.sim.schedule t (.fetchDone id) } := by
  unfold handleFetch at h
  split at h
  · exact .inl ⟨r.transfer, h⟩
  · dsimp only at h
    split at h
    · exact .inl ⟨_, h⟩
    · exact .inr ⟨_, _, _, (Except.ok.inj h).symm⟩

theorem fetchOnArrival_arrived {tier : TierKind} {kv : KvObject} (htier : tier.fetchCounter.isSome)
    (hin : r.inFlight.get id = some inflight) (hnone : inflight.pendingFetchTier = none)
    (h : r.fetchOnArrival now inflight tier kv = .ok r') : Arrived id r r' := by
  have hid : inflight.id = id := KeyedMap.key_of_get hin
  unfold fetchOnArrival at h
  rw [hid] at h
  rcases handleFetch_cases h with ⟨transfer, h⟩ | ⟨transfer, fetchedBytes, t, rfl⟩
  · have hmarked : (r.inFlight.insert { inflight with pendingFetchTier := some tier }).get id =
        some { inflight with pendingFetchTier := some tier } :=
      (KeyedMap.get_insert _ _ _).trans (if_pos hid.symm)
    obtain ⟨hhits, tokens, hrest⟩ := degradeToMiss_marked (by exact hmarked) rfl h
    refine .degraded hhits (Untouched.trans ?_ hrest)
    -- the marker is set and cleared again
    let cleared : InFlightRequest :=
      { inflight with pendingFetchTier := none, prefillTokens := tokens }
    have hins : Untouched r.toServingState { r.toServingState with
        inFlight := r.inFlight.insert cleared } := untouched_insert hin rfl hnone.symm
    have hcleared : (r.inFlight.insert { inflight with pendingFetchTier := some tier }).insert
        cleared = r.inFlight.insert cleared := KeyedMap.insert_insert _ rfl
    rw [← hcleared] at hins
    exact hins
  · refine .fetching tier htier rfl (fun id' => ?_) ?_ ?_
    · exact (tierOf_insert r.toServingState id').trans (by rw [← hid]; rfl)
    · exact markers_insert_of_none hin rfl hnone rfl
    · exact waiting_schedule r.toServingState t (.fetchDone id)

theorem onArrival_arrived (hin : r.inFlight.get id = some inflight) (htier : r.tierOf id = none)
    (h : r.onArrival now id = .ok r') : Arrived id r r' := by
  have hnone := pendingFetchTier_of_get hin htier
  simp only [onArrival, hin] at h
  split at h
  next => exact missOnArrival_arrived hin h
  next kv _ =>
    split at h
    next => exact hitOnArrival_arrived h
    next => exact fetchOnArrival_arrived rfl hin hnone h
    next => exact fetchOnArrival_arrived rfl hin hnone h
    next => exact fetchOnArrival_arrived rfl hin hnone h
    next => exact missOnArrival_arrived hin h

variable [PlacementPolicy P]

/-- A placement is not counted, unless it fails. -/
theorem hits_storeKv (r : CacheAwareRunner C P T) (now id : UInt64) :
    ∃ k, (r.storeKv now id).hits = { r.hits with placementErrors := k } := by
  unfold storeKv
  split
  · exact ⟨_, rfl⟩
  · dsimp only
    split_ifs
    · split <;> exact ⟨_, rfl⟩
    · exact ⟨_, rfl⟩

theorem onPrefillDone_untouched {n : NodeId} {i : ℕ} (h : r.onPrefillDone now id n i = .ok r') :
    (∃ k, r'.hits = { r.hits with placementErrors := k }) ∧
      Untouched r.toServingState r'.toServingState := by
  obtain ⟨r₁, h₁, h⟩ := Except.bind_eq_ok.1 h
  obtain ⟨r₂, h₂, h⟩ := Except.bind_eq_ok.1 h
  obtain ⟨r₃, h₃, h₄⟩ := Except.bind_eq_ok.1 h
  have hrel := uncounted_onState (fun _ => untouched_releaseGpu) h₁
  have hrest := (uncounted_onState (fun _ => untouched_startOrQueueDecode) h₂).trans
    ((tryAssignPrefill_uncounted h₃).trans (tryAssignDecode_uncounted h₄))
  obtain ⟨k, hk⟩ := hits_storeKv r₁ now id
  have hstore := hrest.rest
  rw [toServingState_storeKv] at hstore
  exact ⟨⟨k, by rw [hrest.hits, hk, hrel.hits]⟩, hrel.rest.trans hstore⟩

end CacheAwareRunner

end KvFlowSim
