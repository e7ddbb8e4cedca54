import KvFlowSim.Serving.Hits
import KvFlowSim.Policy.Placing

/-!
# What an event does outside of the shared state

The handlers of the cache-aware runner, taken apart once: what each leaves of the cache, the
counters and the notes on its request, and which operation of the shared state it goes on with. An
arrival is a miss, a hit on a GPU, a fetch or a failed fetch (`ArrivalEffect`); a completed prefill
stores the KV or fails to (`StoreEffect`); a completed fetch credits its marker
(`onFetchDone_effect`); a completed decode touches nothing but the shared
state (`onDecodeDone_effect`).
-/

namespace KvFlowSim

open ServingState Except

namespace ServingState

/-- The record of a request is written. -/
def noted (s : ServingState) (inflight : InFlightRequest) : ServingState :=
  { s with inFlight := s.inFlight.insert inflight }

/-- A release changes the cluster only. -/
theorem inFlight_releaseGpu {s s' : ServingState} {n : NodeId} {i : ℕ} {now : UInt64}
    (h : s.releaseGpu n i now = .ok s') : s'.inFlight = s.inFlight := by
  obtain ⟨cluster, -, h⟩ := Except.bind_eq_ok.1 h
  obtain rfl := Except.ok.inj h
  rfl

variable {C : Type} [ComputeModel C]

/-- The rest of a request with a hit is served: its new tokens, or its decode if there are none. -/
def Remains (compute : C) (config : ServingConfig) (inflight : InFlightRequest) (now : UInt64)
    (s s' : ServingState) : Prop :=
  if inflight.request.newPromptTokens = 0 then
    s.startOrQueue compute config .decode inflight.id now = .ok s'
  else
    (s.noted { inflight with prefillTokens := inflight.request.newPromptTokens }).startOrQueue
      compute config .prefill inflight.id now = .ok s'

/-- Both queues are served. -/
def Served (compute : C) (config : ServingConfig) (first second : Stage) (now : UInt64)
    (s s' : ServingState) : Prop :=
  ∃ s₁, s.tryAssign compute config first now = .ok s₁ ∧
    s₁.tryAssign compute config second now = .ok s'

theorem Remains.untouched {compute : C} {config : ServingConfig} {inflight : InFlightRequest}
    {now : UInt64} {s s' : ServingState} (h : Remains compute config inflight now s s')
    (hin : s.inFlight.get inflight.id = some inflight) : Untouched s s' := by
  unfold Remains at h
  split_ifs at h
  · exact untouched_startOrQueue h
  · have hnoted : Untouched s (s.noted { inflight with
        prefillTokens := inflight.request.newPromptTokens }) := untouched_insert hin rfl rfl
    exact hnoted.trans (untouched_startOrQueue h)

theorem Served.untouched {compute : C} {config : ServingConfig} {first second : Stage}
    {now : UInt64} {s s' : ServingState} (h : Served compute config first second now s s') :
    Untouched s s' := by
  obtain ⟨s₁, h₁, h₂⟩ := h
  exact (untouched_tryAssign h₁).trans (untouched_tryAssign h₂)

end ServingState

namespace CacheAwareRunner

/-- What a runner has besides the shared state, the transfer model and the bytes fetched. -/
structure Rest (C P : Type) where
  compute : C
  config : ServingConfig
  profile : ModelProfile
  cache : CacheState
  placement : P
  hits : CacheHitStats
  evictedBytes : UInt64
  recomputedTokens : UInt64

variable {C P T : Type} {r r' : CacheAwareRunner C P T} {now id : UInt64}
  {inflight : InFlightRequest}

def rest (r : CacheAwareRunner C P T) : Rest C P :=
  ⟨r.compute, r.config, r.profile, r.cache, r.placement, r.hits, r.evictedBytes, r.recomputedTokens⟩

/-- An operation of the shared state touches nothing else. -/
theorem onState_effect {f : ServingState → Except Panic ServingState} (h : r.onState f = .ok r') :
    f r.toServingState = .ok r'.toServingState ∧ r'.rest = r.rest := by
  obtain ⟨s, hs, rfl⟩ := onState_eq_ok.1 h
  exact ⟨hs, rfl⟩

theorem takeFetch_of_get (hin : r.inFlight.get id = some inflight) :
    (r.takeFetch id).toServingState = r.noted { inflight with pendingFetchTier := none } ∧
      (r.takeFetch id).rest = { r.rest with
        hits := inflight.pendingFetchTier.elim r.hits (creditFetch r.hits) } := by
  simp only [takeFetch, hin]
  cases htier : inflight.pendingFetchTier with
  | none =>
    refine ⟨?_, rfl⟩
    have hsame : ({ inflight with pendingFetchTier := none } : InFlightRequest) = inflight := by
      rw [← htier]
    rw [hsame, noted, KeyedMap.insert_of_get hin]
  | some tier => exact ⟨rfl, rfl⟩

/-! ## Arrivals -/

variable [ComputeModel C]

theorem tryAssignBoth_effect {first second : Stage} {r₁ : CacheAwareRunner C P T}
    (h₁ : r.onState (·.tryAssign r.compute r.config first now) = .ok r₁)
    (h₂ : r₁.onState (·.tryAssign r₁.compute r₁.config second now) = .ok r') :
    Served r.compute r.config first second now r.toServingState r'.toServingState ∧
      r'.rest = r.rest := by
  obtain ⟨s₁, hs₁, rfl⟩ := onState_eq_ok.1 h₁
  obtain ⟨s₂, hs₂, rfl⟩ := onState_eq_ok.1 h₂
  exact ⟨⟨s₁, hs₁, hs₂⟩, rfl⟩

theorem startOrQueueRemainingPrefill_effect (hin : r.inFlight.get id = some inflight)
    (h : r.startOrQueueRemainingPrefill now id = .ok r') :
    Remains r.compute r.config inflight now r.toServingState r'.toServingState ∧
      r'.rest = { r.rest with
        recomputedTokens := r.recomputedTokens + inflight.request.newPromptTokens.toUInt64 } := by
  obtain rfl : inflight.id = id := KeyedMap.key_of_get hin
  simp only [startOrQueueRemainingPrefill, hin] at h
  unfold Remains
  split_ifs at h ⊢ with hzero
  · obtain ⟨hstate, hrest⟩ := onState_effect h
    refine ⟨hstate, hrest.trans ?_⟩
    simp [rest, hzero]
  · exact onState_effect h

/-- The four ways of an arrival. -/
inductive ArrivalEffect [TransferModel T] (now : UInt64) (inflight : InFlightRequest)
    (r r' : CacheAwareRunner C P T) : Prop
  /-- Nothing is found that could be reused. -/
  | missed (hnone : ∀ kv ∈ r.reusableKv inflight, kv.location.tier ≠ some .gpu)
      (hstate : (r.noted { inflight with
        prefillTokens := inflight.request.promptTokens }).startOrQueue r.compute r.config .prefill
          inflight.id now = .ok r'.toServingState)
      (hrest : r'.rest = { r.rest with
        hits := r.hits.counted .misses
        recomputedTokens := r.recomputedTokens + inflight.request.promptTokens.toUInt64 })
  /-- The KV is on a GPU. -/
  | hit {kv : KvObject} (hfound : r.reusableKv inflight = some kv)
    (htier : kv.location.tier = some .gpu)
      (hstate : Remains r.compute r.config inflight now r.toServingState r'.toServingState)
      (hrest : r'.rest = { r.rest with
        cache := r.cache.updateAccess kv.kvId now
        hits := r.hits.counted .hitsGpu
        recomputedTokens := r.recomputedTokens + inflight.request.newPromptTokens.toUInt64 })
  /-- The KV is fetched. -/
  | fetching {kv : KvObject} {tier : TierKind} {path : TransferPath} {e : TransferEstimate}
      (hfound : r.reusableKv inflight = some kv) (htier : kv.location.tier = some tier)
      (hcounter : tier.fetchCounter.isSome) (hpath : fetchPath kv.location = some path)
      (hestimate : (TransferModel.estimate r.transfer now path kv.bytes).1 = .ok e)
      (hstate : r'.toServingState = { r.noted { inflight with pendingFetchTier := some tier } with
        sim := r.sim.schedule e.finishNs (.fetchDone inflight.id) })
      (hrest : r'.rest = { r.rest with
        hits := { r.hits with pendingFetches := r.hits.pendingFetches + 1 } })
  /-- The fetch fails, and the request is a miss after all. -/
  | degraded {kv : KvObject} {tier : TierKind} (hfound : r.reusableKv inflight = some kv)
      (htier : kv.location.tier = some tier) (hcounter : tier.fetchCounter.isSome)
      (hstate : (r.noted { inflight with
        pendingFetchTier := none
        prefillTokens := inflight.request.promptTokens }).startOrQueue r.compute r.config .prefill
          inflight.id now = .ok r'.toServingState)
      (hrest : r'.rest = { r.rest with
        hits := { r.hits.counted .misses with fetchErrors := r.hits.fetchErrors + 1 }
        recomputedTokens := r.recomputedTokens.satAdd inflight.request.promptTokens.toUInt64 })

variable [TransferModel T]

theorem missOnArrival_effect (hnone : ∀ kv ∈ r.reusableKv inflight, kv.location.tier ≠ some .gpu)
    (h : r.missOnArrival now inflight = .ok r') : ArrivalEffect now inflight r r' := by
  unfold missOnArrival at h
  dsimp only at h
  obtain ⟨hstate, hrest⟩ := onState_effect h
  refine .missed hnone hstate ?_
  rw [hrest, rest, rest, CacheHitStats.counted]
  rfl

theorem hitOnArrival_effect {kv : KvObject} (hin : r.inFlight.get id = some inflight)
    (hfound : r.reusableKv inflight = some kv) (htier : kv.location.tier = some .gpu)
    (h : r.hitOnArrival now inflight kv = .ok r') : ArrivalEffect now inflight r r' := by
  obtain rfl : inflight.id = id := KeyedMap.key_of_get hin
  unfold hitOnArrival at h
  dsimp only at h
  obtain ⟨hstate, hrest⟩ := startOrQueueRemainingPrefill_effect (by exact hin) h
  refine .hit hfound htier hstate ?_
  rw [hrest, rest, rest, CacheHitStats.counted]

/-- A failed fetch undoes the marker. -/
theorem fetchFailed_effect {kv : KvObject} {tier : TierKind} {transfer : T}
    (hfound : r.reusableKv inflight = some kv) (htier : kv.location.tier = some tier)
    (hcounter : tier.fetchCounter.isSome)
    (h : ({ ({ r with hits := { r.hits with pendingFetches := r.hits.pendingFetches + 1 } } :
          CacheAwareRunner C P T) |>.setInFlight { inflight with pendingFetchTier := some tier }
        with transfer := transfer } :
        CacheAwareRunner C P T).countFetchError.degradeToMiss now inflight.id = .ok r') :
    ArrivalEffect now inflight r r' := by
  have hmarked : (r.inFlight.insert { inflight with pendingFetchTier := some tier }).get
      inflight.id = some { inflight with pendingFetchTier := some tier } :=
    (KeyedMap.get_insert _ _ _).trans (if_pos rfl)
  simp only [degradeToMiss, countFetchError, setInFlight, hmarked, Option.bind_some,
    Option.isSome_some, if_true, Nat.add_sub_cancel] at h
  have hcleared : (r.inFlight.insert { inflight with pendingFetchTier := some tier }).insert
      { inflight with pendingFetchTier := none, prefillTokens := inflight.request.promptTokens } =
        r.inFlight.insert
          { inflight with
            pendingFetchTier := none, prefillTokens := inflight.request.promptTokens } :=
    KeyedMap.insert_insert _ rfl
  simp only [hcleared] at h
  obtain ⟨hstate, hrest⟩ := onState_effect h
  exact .degraded hfound htier hcounter hstate hrest

theorem fetchOnArrival_effect {kv : KvObject} {tier : TierKind}
    (hfound : r.reusableKv inflight = some kv) (htier : kv.location.tier = some tier)
    (hcounter : tier.fetchCounter.isSome) (h : r.fetchOnArrival now inflight tier kv = .ok r') :
    ArrivalEffect now inflight r r' := by
  unfold fetchOnArrival handleFetch at h
  split at h
  next => exact fetchFailed_effect hfound htier hcounter h
  next path hpath =>
    dsimp only at h
    split at h
    next => exact fetchFailed_effect hfound htier hcounter h
    next e hestimate =>
      obtain rfl := Except.ok.inj h
      exact .fetching hfound htier hcounter hpath hestimate rfl rfl

theorem onArrival_effect (hin : r.inFlight.get id = some inflight)
    (h : r.onArrival now id = .ok r') :
    ArrivalEffect now inflight r r' := by
  simp only [onArrival, hin] at h
  split at h
  next hfound => exact missOnArrival_effect (by simp [hfound]) h
  next kv hfound =>
    split at h
    next hloc => exact hitOnArrival_effect hin hfound (by rw [hloc]; rfl) h
    next hloc => exact fetchOnArrival_effect hfound (by rw [hloc]; rfl) rfl h
    next hloc => exact fetchOnArrival_effect hfound (by rw [hloc]; rfl) rfl h
    next hloc => exact fetchOnArrival_effect hfound (by rw [hloc]; rfl) rfl h
    next hgpu _ _ _ =>
      refine missOnArrival_effect (fun kv' hkv' htier => ?_) h
      obtain rfl : kv = kv' := Option.some.inj (hfound.symm.trans hkv')
      cases hloc : kv.location with
      | gpu n i => exact hgpu n i hloc
      | cpu | localSsd | remoteMemory | remoteSsd | missing =>
        simp [hloc, CacheLocation.tier] at htier

/-! ## Completed prefills -/

section Store

variable [PlacementPolicy P]

/-- The end of the KV store step. -/
def accept (r : CacheAwareRunner C P T) (placed : Placed P T) : CacheAwareRunner C P T :=
  let r := { r with
    placement := placed.policy, cache := placed.cache, transfer := placed.transfer }
  match placed.result with
  | .ok (_, evicted) =>
    { r with evictedBytes := evicted.foldl (fun sum kv => sum.satAdd kv.bytes) r.evictedBytes }
  | .error _ =>
    { r with hits := { r.hits with placementErrors := r.hits.placementErrors + 1 } }

/-- The placement of the KV store step. -/
def placed (r : CacheAwareRunner C P T) (now : UInt64) (req : LlmRequest) : Placed P T :=
  PlacementPolicy.place r.placement r.cache.allocKvId.1 req.sessionId req.promptTokens
    (r.profile.kvBytes req.promptTokens) now r.cluster r.cache.allocKvId.2 r.compute r.transfer

theorem storeKv_of_get {inflight : InFlightRequest} (hin : r.inFlight.get id = some inflight)
    (hpos : 0 < inflight.request.promptTokens) :
    r.storeKv now id = r.accept (r.placed now inflight.request) := by
  simp only [storeKv, hin, if_pos hpos]
  rfl

theorem storeKv_of_none (hin : r.inFlight.get id = none) : r.storeKv now id = r := by
  simp only [storeKv, hin]

theorem storeKv_of_zero (hin : r.inFlight.get id = some inflight)
    (hzero : inflight.request.promptTokens = 0) : r.storeKv now id = r := by
  simp [storeKv, hin, hzero]

/-- What the KV store step for a request leaves of the rest. -/
inductive StoreEffect (now : UInt64) (q : LlmRequest) (x x' : Rest C P) : Prop
  /-- There is no KV to be stored. -/
  | skipped (hzero : q.promptTokens = 0) (hrest : x' = x)
  /-- The victims make room, and the KV is stored. -/
  | stored {ev : List EvictedKv} {loc : CacheLocation} {n : NodeId} {t : TierKind}
      (hpos : 0 < q.promptTokens) (hvictims : Victims x.cache.allocKvId.2 ev)
      (hslot : loc.slot = some (n, t))
      (hroom : x.profile.kvBytes q.promptTokens ≤
        (x.cache.allocKvId.2.removeAll ev).availableSpace n t)
      (hrest : x' = { x with
        cache := (x.cache.allocKvId.2.removeAll ev).store (newObject x.cache.nextKvId q.sessionId
          q.promptTokens (x.profile.kvBytes q.promptTokens) now loc)
        evictedBytes := ev.foldl (fun sum kv => sum.satAdd kv.bytes) x.evictedBytes })
  /-- The placement fails. The victims are gone all the same. -/
  | failed {ev : List EvictedKv} (hpos : 0 < q.promptTokens)
      (hvictims : Victims x.cache.allocKvId.2 ev)
      (hrest : x' = { x with
        cache := x.cache.allocKvId.2.removeAll ev
        hits := { x.hits with placementErrors := x.hits.placementErrors + 1 } })

theorem storeKv_effect [Placing P] (hin : r.inFlight.get id = some inflight) :
    StoreEffect now inflight.request r.rest (r.storeKv now id).rest := by
  by_cases hpos : 0 < inflight.request.promptTokens
  · have hplaces := Placing.places r.placement r.cache.allocKvId.1 inflight.request.sessionId
      inflight.request.promptTokens (r.profile.kvBytes inflight.request.promptTokens) now r.cluster
      r.cache.allocKvId.2 r.compute r.transfer
    have hpolicy := Placing.policy_place r.placement r.cache.allocKvId.1 inflight.request.sessionId
      inflight.request.promptTokens (r.profile.kvBytes inflight.request.promptTokens) now r.cluster
      r.cache.allocKvId.2 r.compute r.transfer
    rw [storeKv_of_get hin hpos, accept]
    change (r.placed now inflight.request).policy = r.placement at hpolicy
    change Places r.cache.allocKvId.2 _ ((r.placed now inflight.request).result,
      (r.placed now inflight.request).cache) at hplaces
    dsimp only [rest]
    rw [hpolicy]
    generalize (r.placed now inflight.request).result = result at hplaces
    generalize (r.placed now inflight.request).cache = cache at hplaces
    cases hplaces with
    | stored hvictims hslot hroom => exact .stored hpos hvictims hslot hroom rfl
    | failed hvictims => exact .failed hpos hvictims rfl
  · have hzero : inflight.request.promptTokens = 0 := by simpa [UInt32.pos_iff_ne_zero] using hpos
    rw [storeKv_of_zero hin hzero]
    exact .skipped hzero rfl

end Store

/-! ## Steps -/

/-- What the handler of an event does, to a state that the event has been taken out of. -/
inductive StepEffect [PlacementPolicy P] (now : UInt64) (r r' : CacheAwareRunner C P T) :
    ServingEvent → Prop
  /-- The request is not in flight. -/
  | absent {event : ServingEvent} (hnone : r.inFlight.get event.requestId = none)
      (huntouched : Untouched r.toServingState r'.toServingState) (hrest : r'.rest = r.rest) :
      StepEffect now r r' event
  | arrived {inflight : InFlightRequest} (hin : r.inFlight.get inflight.id = some inflight)
      (h : ArrivalEffect now inflight r r') : StepEffect now r r' (.requestArrival inflight.id)
  | prefilled {inflight : InFlightRequest} {n : NodeId} {i : ℕ} {s₁ s₂ : ServingState}
      (hin : r.inFlight.get inflight.id = some inflight) (hrelease : r.releaseGpu n i now = .ok s₁)
      (hdecode : s₁.startOrQueue r.compute r.config .decode inflight.id now = .ok s₂)
      (hserved : Served r.compute r.config .prefill .decode now s₂ r'.toServingState)
      (hrest : r'.rest = ({ r with toServingState := s₁ }.storeKv now inflight.id).rest) :
      StepEffect now r r' (.prefillDone inflight.id n i)
  | fetched {inflight : InFlightRequest} {s₁ : ServingState}
      (hin : r.inFlight.get inflight.id = some inflight)
      (hremains : Remains r.compute r.config { inflight with pendingFetchTier := none } now
        (r.noted { inflight with pendingFetchTier := none }) s₁)
      (hserved : Served r.compute r.config .decode .prefill now s₁ r'.toServingState)
      (hrest : r'.rest = { r.rest with
        hits := inflight.pendingFetchTier.elim r.hits (creditFetch r.hits)
        recomputedTokens := r.recomputedTokens + inflight.request.newPromptTokens.toUInt64 }) :
      StepEffect now r r' (.fetchDone inflight.id)
  | decoded {inflight : InFlightRequest} {n : NodeId} {i : ℕ} {s₁ : ServingState}
      (hin : r.inFlight.get inflight.id = some inflight) (hrelease : r.releaseGpu n i now = .ok s₁)
      (hserved : Served r.compute r.config .decode .prefill now (s₁.finish inflight.id)
        r'.toServingState)
      (hrest : r'.rest = r.rest) : StepEffect now r r' (.decodeDone inflight.id n i)

/-- What the handler of an event does to the cache. -/
inductive CacheEffect (now : UInt64) (event : ServingEvent) (r r' : CacheAwareRunner C P T) : Prop
  | same (hcache : r'.cache = r.cache)
  | touched {inflight : InFlightRequest} {kv : KvObject}
      (hevent : event = .requestArrival inflight.id)
      (hin : r.inFlight.get inflight.id = some inflight)
      (hfound : r.reusableKv inflight = some kv) (htier : kv.location.tier = some .gpu)
      (hhits : r'.hits = r.hits.counted .hitsGpu)
      (hcache : r'.cache = r.cache.updateAccess kv.kvId now)
  | placed {inflight : InFlightRequest} {n : NodeId} {i : ℕ}
      (hevent : event = .prefillDone inflight.id n i)
      (hin : r.inFlight.get inflight.id = some inflight)
      (hstore : StoreEffect now inflight.request r.rest r'.rest)

variable [PlacementPolicy P] {n : NodeId} {i : ℕ}

theorem StepEffect.cache [Placing P] {event : ServingEvent} (h : StepEffect now r r' event) :
    CacheEffect now event r r' := by
  cases h with
  | absent _ _ hrest => exact .same (congrArg Rest.cache hrest)
  | arrived hin h =>
    cases h with
    | missed _ _ hrest => exact .same (congrArg Rest.cache hrest)
    | hit hfound htier _ hrest =>
      exact .touched rfl hin hfound htier (congrArg Rest.hits hrest) (congrArg Rest.cache hrest)
    | fetching _ _ _ _ _ _ hrest => exact .same (congrArg Rest.cache hrest)
    | degraded _ _ _ _ hrest => exact .same (congrArg Rest.cache hrest)
  | @prefilled inflight n i s₁ _ hin hrelease _ _ hrest =>
    have hin₁ : s₁.inFlight.get inflight.id = some inflight := by
      rw [inFlight_releaseGpu hrelease, hin]
    have hstore : StoreEffect now inflight.request r.rest r'.rest := by
      rw [hrest]
      exact storeKv_effect (r := { r with toServingState := s₁ }) hin₁
    exact .placed rfl hin hstore
  | fetched _ _ _ hrest => exact .same (congrArg Rest.cache hrest)
  | decoded _ _ _ hrest => exact .same (congrArg Rest.cache hrest)

theorem onPrefillDone_effect (h : r.onPrefillDone now id n i = .ok r') :
    StepEffect now r r' (.prefillDone id n i) := by
  obtain ⟨s₁, s₂, s₃, s₄, hrelease, hdecode, hfirst, hsecond, rfl⟩ := onPrefillDone_ok h
  have hserved : Served r.compute r.config .prefill .decode now s₂ s₄ := ⟨s₃, hfirst, hsecond⟩
  have hin₁ : s₁.inFlight = r.inFlight := inFlight_releaseGpu hrelease
  cases hin : r.inFlight.get id with
  | none =>
    have hnone : s₁.inFlight.get id = none := hin₁ ▸ hin
    refine .absent hin ?_ ?_
    · simp only [startOrQueueDecode, hnone] at hdecode
      obtain rfl := Except.ok.inj hdecode
      exact (untouched_releaseGpu hrelease).trans hserved.untouched
    · rw [storeKv_of_none hnone]
      rfl
  | some inflight =>
    obtain rfl : inflight.id = id := KeyedMap.key_of_get hin
    simp only [startOrQueueDecode, hin₁, hin] at hdecode
    exact .prefilled hin hrelease hdecode hserved rfl

theorem onFetchDone_effect (h : r.onFetchDone now id = .ok r') :
    StepEffect now r r' (.fetchDone id) := by
  obtain ⟨r₁, h₁, h⟩ := Except.bind_eq_ok.1 h
  obtain ⟨r₂, h₂, h₃⟩ := Except.bind_eq_ok.1 h
  obtain ⟨hserved, hrest⟩ := tryAssignBoth_effect h₂ h₃
  cases hin : r.inFlight.get id with
  | none =>
    simp only [takeFetch, hin, startOrQueueRemainingPrefill] at h₁
    obtain rfl := Except.ok.inj h₁
    exact .absent hin hserved.untouched hrest
  | some inflight =>
    obtain rfl : inflight.id = id := KeyedMap.key_of_get hin
    obtain ⟨hstate, htaken⟩ := takeFetch_of_get hin
    have hin₁ : (r.takeFetch inflight.id).inFlight.get inflight.id =
        some { inflight with pendingFetchTier := none } := by
      rw [hstate]
      exact (KeyedMap.get_insert _ _ _).trans (if_pos rfl)
    obtain ⟨hremains, hrest₁⟩ := startOrQueueRemainingPrefill_effect hin₁ h₁
    have hcompute : (r.takeFetch inflight.id).compute = r.compute := congrArg Rest.compute htaken
    have hconfig : (r.takeFetch inflight.id).config = r.config := congrArg Rest.config htaken
    have hcompute₁ : r₁.compute = r.compute := (congrArg Rest.compute hrest₁).trans hcompute
    have hconfig₁ : r₁.config = r.config := (congrArg Rest.config hrest₁).trans hconfig
    have hrecomputed : (r.takeFetch inflight.id).recomputedTokens = r.recomputedTokens :=
      congrArg Rest.recomputedTokens htaken
    rw [hstate, hcompute, hconfig] at hremains
    rw [hcompute₁, hconfig₁] at hserved
    rw [hrest₁, htaken, hrecomputed] at hrest
    exact .fetched hin hremains hserved hrest

theorem onDecodeDone_effect (h : r.onDecodeDone now id n i = .ok r') :
    StepEffect now r r' (.decodeDone id n i) := by
  obtain ⟨s₁, s₂, s₃, hrelease, hfirst, hsecond, rfl⟩ := onDecodeDone_ok h
  have hserved : Served r.compute r.config .decode .prefill now (s₁.finish id) s₃ :=
    ⟨s₂, hfirst, hsecond⟩
  cases hin : r.inFlight.get id with
  | none =>
    have hnone : s₁.inFlight.get id = none := by rw [inFlight_releaseGpu hrelease, hin]
    have hfinish : s₁.finish id = s₁ := by simp only [finish, hnone]
    rw [hfinish] at hserved
    exact .absent hin ((untouched_releaseGpu hrelease).trans hserved.untouched) rfl
  | some inflight =>
    obtain rfl : inflight.id = id := KeyedMap.key_of_get hin
    exact .decoded hin hrelease hserved rfl

/-- Every step handles the next event in one of these ways. -/
theorem step_cases {event : ServingEvent} {sim : Simulator ServingEvent}
    (hnext : r.sim.step = some (now, event, sim)) (hstep : EventLoop.Step step r r') :
    StepEffect now { r with sim } r' event := by
  have hr' := handleEvent_of_step hnext hstep
  cases event with
  | requestArrival id =>
    cases hin : r.inFlight.get id with
    | none =>
      have hnone : ({ r with sim } : CacheAwareRunner C P T).inFlight.get id = none := hin
      simp only [handleEvent, onArrival, hnone] at hr'
      obtain rfl := Except.ok.inj hr'
      exact .absent hin (.refl _) rfl
    | some inflight =>
      obtain rfl : inflight.id = id := KeyedMap.key_of_get hin
      exact .arrived hin (onArrival_effect (r := { r with sim }) hin hr')
  | prefillDone id n i => exact onPrefillDone_effect hr'
  | fetchDone id => exact onFetchDone_effect hr'
  | decodeDone id n i => exact onDecodeDone_effect hr'

/-- What a step does to the cache. -/
theorem step_cache [Placing P] {event : ServingEvent} {sim : Simulator ServingEvent}
    (hnext : r.sim.step = some (now, event, sim)) (hstep : EventLoop.Step step r r') :
    CacheEffect now event r r' := by
  -- the event that was taken out does not matter
  cases (step_cases hnext hstep).cache with
  | same hcache => exact .same hcache
  | touched hevent hin hfound htier hhits hcache =>
    exact .touched hevent hin hfound htier hhits hcache
  | placed hevent hin hstore => exact .placed hevent hin hstore

/-- Outside of the shared state an event changes the cache and the counters, unless it stores
a KV. -/
theorem step_rest {event : ServingEvent} {sim : Simulator ServingEvent}
    (hnext : r.sim.step = some (now, event, sim)) (hstep : EventLoop.Step step r r') :
    (∃ cache hits tokens, r'.rest = { r.rest with
      cache := cache, hits := hits, recomputedTokens := tokens }) ∨
      ∃ s id, r'.rest = ({ r with toServingState := s }.storeKv now id).rest := by
  cases step_cases hnext hstep with
  | absent _ _ hrest => exact .inl ⟨_, _, _, hrest⟩
  | arrived _ h =>
    cases h with
    | missed _ _ hrest => exact .inl ⟨_, _, _, hrest⟩
    | hit _ _ _ hrest => exact .inl ⟨_, _, _, hrest⟩
    | fetching _ _ _ _ _ _ hrest => exact .inl ⟨_, _, _, hrest⟩
    | degraded _ _ _ _ hrest => exact .inl ⟨_, _, _, hrest⟩
  | prefilled _ _ _ _ hrest => exact .inr ⟨_, _, hrest⟩
  | fetched _ _ _ hrest => exact .inl ⟨_, _, _, hrest⟩
  | decoded _ _ _ hrest => exact .inl ⟨_, _, _, hrest⟩

/-- The models stay as they are. -/
theorem step_models {event : ServingEvent} {sim : Simulator ServingEvent}
    (hnext : r.sim.step = some (now, event, sim)) (hstep : EventLoop.Step step r r') :
    r'.compute = r.compute ∧ r'.config = r.config ∧ r'.profile = r.profile := by
  rcases step_rest hnext hstep with ⟨cache, hits, tokens, hrest⟩ | ⟨s, id, hrest⟩
  · exact ⟨congrArg Rest.compute hrest, congrArg Rest.config hrest, congrArg Rest.profile hrest⟩
  · obtain ⟨hcompute, hconfig, hprofile⟩ := storeKv_models { r with toServingState := s } now id
    exact ⟨(congrArg Rest.compute hrest).trans hcompute, (congrArg Rest.config hrest).trans hconfig,
      (congrArg Rest.profile hrest).trans hprofile⟩

theorem placement_storeKv [Placing P] (r : CacheAwareRunner C P T) (now id : UInt64) :
    (r.storeKv now id).placement = r.placement := by
  cases hin : r.inFlight.get id with
  | none => rw [storeKv_of_none hin]
  | some inflight =>
    have heffect : StoreEffect now inflight.request r.rest (r.storeKv now id).rest :=
      storeKv_effect hin
    cases heffect with
    | skipped _ hrest => exact congrArg Rest.placement hrest
    | stored _ _ _ _ hrest => exact congrArg Rest.placement hrest
    | failed _ _ hrest => exact congrArg Rest.placement hrest

/-- And so does the policy. -/
theorem step_placement [Placing P] {event : ServingEvent} {sim : Simulator ServingEvent}
    (hnext : r.sim.step = some (now, event, sim)) (hstep : EventLoop.Step step r r') :
    r'.placement = r.placement := by
  rcases step_rest hnext hstep with ⟨cache, hits, tokens, hrest⟩ | ⟨s, id, hrest⟩
  · exact congrArg Rest.placement hrest
  · exact (congrArg Rest.placement hrest).trans (placement_storeKv _ now id)

end CacheAwareRunner

end KvFlowSim
