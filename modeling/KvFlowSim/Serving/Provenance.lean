import KvFlowSim.Serving.Capacity

/-!
# Where a reused KV comes from

Every object of the cache was stored by a completed prefill, of this run or of an earlier one, with
the session and the prompt length of the request whose prefill it was (`Session.storedBy`). As the
index of the cache leads to objects of its keys, a look-up finds the KV of a request of the same
session whose prompt is the prefix that is to be reused. A hit is credited for such a look-up, a
fetched one for the look-up of the arrival that left the marker (`hits_reuse_stored`). The model of
a request plays no part in this (`hit_across_models`).
-/

namespace KvFlowSim

open ServingState CacheState

/-- The counter of a hit in the tier. -/
def TierKind.hitCounter : TierKind → Option Counter
  | .gpu => some .hitsGpu
  | tier => tier.fetchCounter

theorem TierKind.hitCounter_of_fetchCounter {tier : TierKind} {c : Counter}
    (h : tier.fetchCounter = some c) : tier.hitCounter = some c := by
  cases tier with
  | gpu => simp [fetchCounter] at h
  | cpu | localSsd | remoteMemory | remoteSsd => exact h

namespace ServingState

variable {fetching : Prop} {s s' : ServingState} {id : UInt64} {r' : InFlightRequest}

/-- The record that `x` shows for a request is about the same request as the one in `s`. -/
def SameRequests (s : ServingState) (x : ServingState × Held) : Prop :=
  ∀ id r', x.1.inFlight.get id = some r' → ∃ r, s.inFlight.get id = some r ∧ r'.request = r.request

theorem SameRequests.insert {x : ServingState × Held} {r r' : InFlightRequest}
    (h : SameRequests s x) (hr : x.1.inFlight.get id = some r) (hrequest : r'.request = r.request)
    {id' : UInt64} {r'' : InFlightRequest} (hget : (x.1.inFlight.insert r').get id' = some r'') :
    ∃ r, s.inFlight.get id' = some r ∧ r''.request = r.request := by
  rw [KeyedMap.get_insert] at hget
  split_ifs at hget with hid
  · obtain rfl := Option.some.inj hget
    have hkey : r.id = id := KeyedMap.key_of_get hr
    have hsame : id' = id := hid.trans ((congrArg LlmRequest.requestId hrequest).trans hkey)
    obtain ⟨r₀, hr₀, hrequest₀⟩ := h id r hr
    exact ⟨r₀, hsame ▸ hr₀, hrequest.trans hrequest₀⟩
  · exact h id' r'' hget

theorem SameRequests.move {now : UInt64} {x y : ServingState × Held} (h : SameRequests s x)
    (hmove : Move fetching now x y) : SameRequests s y := by
  intro id' r'' hget
  cases hmove with
  | start _ _ _ _ hr hr' => exact h.insert hr hr'.request hget
  | enqueue => exact h id' r'' (by simpa using hget)
  | dequeue => exact h id' r'' (by simpa using hget)
  | fetch => exact h id' r'' hget
  | finish hr =>
    simp only [finish, hr, KeyedMap.get_remove] at hget
    split_ifs at hget
    exact h id' r'' hget
  | drop => exact h id' r'' hget
  | note hr hrequest => exact h.insert hr hrequest hget

/-- A request stays what it is while it is in flight. -/
theorem Advance.request (h : Advance fetching s s') (hr' : s'.inFlight.get id = some r') :
    ∃ r, s.inFlight.get id = some r ∧ r'.request = r.request := by
  obtain ⟨now, kind, sim, -, s₁, hrelease, hmoves, -⟩ := h
  have hin : s₁.inFlight = ({ s with sim := sim } : ServingState).inFlight := by rw [hrelease.eq]
  have hfirst : SameRequests s (s₁, some (kind.requestId, kind.weight - 1)) := fun id r hr =>
    ⟨r, hin ▸ hr, rfl⟩
  exact hmoves.invariant (fun _ _ => SameRequests.move) hfirst id r' hr'

end ServingState

namespace CacheAwareRunner

variable {C P T : Type} {r r' : CacheAwareRunner C P T} {now : UInt64} {event : ServingEvent}
  {earlier past happened later : List (Happening C P T)} {q q₀ : LlmRequest} {kv : KvObject}

/-! ## Objects -/

/-- The KV was stored on the completed prefill of the request, whose session and prompt it carries.
Only the time of its last access may have changed since. -/
structure StoredBy (happened : List (Happening C P T)) (q : LlmRequest) (kv : KvObject) : Prop where
  prefill : ∃ e ∈ happened, (∃ n i, e.event = .prefillDone q.requestId n i) ∧ e.request = some q ∧
    ∃ o, e.stored = some o ∧ kv = { o with lastAccessNs := kv.lastAccessNs }
  session : q.sessionId = kv.sessionId
  tokens : q.promptTokens = kv.prefixTokens
  pos : 0 < q.promptTokens

theorem StoredBy.mono (h : StoredBy happened q kv) : StoredBy (happened ++ later) q kv := by
  obtain ⟨⟨e, he, hrest⟩, hsession, htokens, hpos⟩ := h
  exact ⟨⟨e, List.mem_append_left _ he, hrest⟩, hsession, htokens, hpos⟩

theorem StoredBy.touched (h : StoredBy happened q kv) (now : UInt64) :
    StoredBy happened q { kv with lastAccessNs := now } := by
  obtain ⟨⟨e, he, hevent, hq, o, ho, hkv⟩, hsession, htokens, hpos⟩ := h
  exact ⟨⟨e, he, hevent, hq, o, ho, by rw [hkv]⟩, hsession, htokens, hpos⟩

/-- Every object of the cache has been stored by somebody. -/
def AllStored (happened : List (Happening C P T)) (c : CacheState) : Prop :=
  ∀ k o, c.objects.get k = some o → ∃ q, StoredBy happened q o

/-- An event leaves the objects that there were, but for accesses, and may add one. -/
theorem AllStored.step {e : Happening C P T} (hr : AllStored happened e.before.cache)
    (h : e.CacheChange) : AllStored (happened ++ [e]) e.after.cache := by
  intro k o ho
  rcases h.object ho with hstored | ⟨o₀, hget, -, -, rfl⟩ | ⟨hget, -, -⟩
  · obtain ⟨q, loc, hevent, hrequest, hpos, rfl⟩ := h.stored_spec hstored
    exact ⟨q, ⟨e, List.mem_append_right _ (List.mem_singleton_self e), hevent, hrequest, _,
      hstored, rfl⟩, rfl, rfl, hpos⟩
  · obtain ⟨q, hq⟩ := hr k o₀ hget
    exact ⟨q, (hq.touched e.nowNs).mono⟩
  · obtain ⟨q, hq⟩ := hr k o hget
    exact ⟨q, hq.mono⟩

/-! ## Look-ups -/

/-- An arrival of request `q` in this run found the KV, which request `q₀` had stored before: a
request of the same session whose prompt is the prefix that `q` reuses. -/
structure FoundFor (earlier past : List (Happening C P T)) (q q₀ : LlmRequest) (kv : KvObject) :
    Prop where
  lookup : ∃ pre e post, past = pre ++ e :: post ∧ e.event = .requestArrival q.requestId ∧
    e.request = some q ∧ e.found = some kv ∧ StoredBy (earlier ++ pre) q₀ kv
  session : q₀.sessionId = q.sessionId
  tokens : q₀.promptTokens = q.reusedPrefixTokens

theorem FoundFor.mono (h : FoundFor earlier past q q₀ kv) :
    FoundFor earlier (past ++ later) q q₀ kv := by
  obtain ⟨⟨pre, e, post, rfl, hrest⟩, hsession, htokens⟩ := h
  exact ⟨⟨pre, e, post ++ later, by simp, hrest⟩, hsession, htokens⟩

/-- A look-up leads to an object of its key. -/
theorem foundFor_of_reusableKv {inflight : InFlightRequest}
    (hin : r.inFlight.get inflight.id = some inflight) (hfound : r.reusableKv inflight = some kv)
    (hindexed : r.cache.Indexed) (hstored : AllStored (earlier ++ past) r.cache) :
    ∃ q₀, FoundFor earlier (past ++ [⟨r, now, .requestArrival inflight.id, r'⟩]) inflight.request q₀
      kv := by
  have hlookup := hfound
  simp only [reusableKv] at hlookup
  split_ifs at hlookup
  obtain ⟨k, hk, hget⟩ := Option.bind_eq_some_iff.1 hlookup
  obtain ⟨o, ho, hkey⟩ := hindexed _ k hk
  obtain rfl : kv = o := Option.some.inj (hget.symm.trans ho)
  obtain ⟨hsession, htokens⟩ := Prod.mk.inj hkey
  obtain ⟨q₀, hq₀⟩ := hstored k kv hget
  refine ⟨q₀, ⟨past, _, [], rfl, rfl, ?_, ?_, hq₀⟩, hq₀.session.trans hsession,
    hq₀.tokens.trans htokens⟩
  · simp only [Happening.request, Happening.inflight, ServingEvent.requestId_requestArrival, hin,
      Option.map_some]
  · simp only [Happening.found, hin, Option.bind_some, hfound]

/-! ## Markers -/

variable [ComputeModel C] [PlacementPolicy P] [TransferModel T]

/-- A marker was left by an arrival that found a KV of its tier. -/
theorem StepEffect.tierOf {id : UInt64} {tier : TierKind}
    (h : StepEffect now r r' event) (htier : r'.tierOf id = some tier) :
    r.tierOf id = some tier ∨ ∃ inflight kv, event = .requestArrival id ∧
      r.inFlight.get id = some inflight ∧ r.reusableKv inflight = some kv ∧
      kv.location.tier = some tier ∧ tier.fetchCounter.isSome := by
  have hsame : Untouched r.toServingState r'.toServingState → r.tierOf id = some tier := fun h =>
    (h.tierOf id).symm.trans htier
  cases h with
  | absent _ huntouched _ => exact .inl (hsame huntouched)
  | @arrived inflight hin h =>
    cases h with
    | missed _ hstate _ =>
      have hnoted : Untouched r.toServingState (r.noted { inflight with
        prefillTokens := inflight.request.promptTokens }) := untouched_insert hin rfl rfl
      exact .inl (hsame (hnoted.trans (untouched_startOrQueue hstate)))
    | hit _ _ hstate _ => exact .inl (hsame (hstate.untouched hin))
    | @fetching kv tier' _ _ hfound hloc hcounter _ _ hstate _ =>
      have hget : r'.tierOf id = if id = inflight.id then some tier' else r.tierOf id := by
        rw [hstate]
        exact tierOf_insert r.toServingState id
      rw [hget] at htier
      split_ifs at htier with hid
      · obtain rfl := Option.some.inj htier
        subst hid
        exact .inr ⟨inflight, kv, rfl, hin, hfound, hloc, hcounter⟩
      · exact .inl htier
    | degraded _ _ _ hstate _ =>
      have hget : r'.tierOf id = if id = inflight.id then none else r.tierOf id := by
        rw [(untouched_startOrQueue hstate).tierOf]
        exact tierOf_insert r.toServingState id
      rw [hget] at htier
      split_ifs at htier
      exact .inl htier
  | prefilled _ hrelease hdecode hserved _ =>
    exact .inl (hsame ((untouched_releaseGpu hrelease).trans
      ((untouched_startOrQueue hdecode).trans hserved.untouched)))
  | @fetched inflight s₁ hin hremains hserved _ =>
    have hin₁ : (r.noted { inflight with pendingFetchTier := none }).inFlight.get inflight.id =
        some { inflight with pendingFetchTier := none } :=
      (KeyedMap.get_insert _ _ _).trans (if_pos rfl)
    have hget : r'.tierOf id = if id = inflight.id then none else r.tierOf id := by
      rw [hserved.untouched.tierOf, (hremains.untouched hin₁).tierOf]
      exact tierOf_insert r.toServingState id
    rw [hget] at htier
    split_ifs at htier
    exact .inl htier
  | @decoded inflight _ _ s₁ hin hrelease hserved _ =>
    have hin₁ : s₁.inFlight.get inflight.id = some inflight := by
      rw [inFlight_releaseGpu hrelease, hin]
    have hget : r'.tierOf id = if id = inflight.id then none else r.tierOf id := by
      rw [hserved.untouched.tierOf, ← (untouched_releaseGpu hrelease).tierOf]
      simp only [ServingState.tierOf, finish, hin₁, KeyedMap.get_remove]
      split_ifs <;> rfl
    rw [hget] at htier
    split_ifs at htier
    exact .inl htier

/-! ## Credits -/

/-- A hit is credited on an arrival that finds its KV on a GPU, or for the tier of a marker. -/
theorem StepEffect.credits {c : Counter} (h : StepEffect now r r' event) (hne : c ≠ .misses)
    (hcredits : r.hits.count c < r'.hits.count c) :
    ∃ inflight, r.inFlight.get inflight.id = some inflight ∧
      ((event = .requestArrival inflight.id ∧ c = .hitsGpu ∧
          ∃ kv, r.reusableKv inflight = some kv ∧ kv.location.tier = some .gpu) ∨
        (event = .fetchDone inflight.id ∧
          ∃ tier, inflight.pendingFetchTier = some tier ∧ tier.fetchCounter = some c)) := by
  have hsame : r'.hits.count c ≠ r.hits.count c := hcredits.ne'
  have hcounted : ∀ c', r'.hits = r.hits.counted c' → c = c' := by
    intro c' hhits
    by_contra hc
    rw [hhits, CacheHitStats.count_counted, if_neg hc] at hsame
    exact hsame rfl
  cases h with
  | absent _ _ hrest => exact absurd (congrArg (fun x => x.hits.count c) hrest) hsame
  | @arrived inflight hin h =>
    cases h with
    | missed _ _ hrest => exact absurd (hcounted .misses (congrArg Rest.hits hrest)) hne
    | @hit kv hfound htier _ hrest =>
      exact ⟨inflight, hin, .inl ⟨rfl, hcounted .hitsGpu (congrArg Rest.hits hrest), kv,
        hfound, htier⟩⟩
    | fetching _ _ _ _ _ _ hrest =>
      have hcount := congrArg (fun x => x.hits.count c) hrest
      refine absurd (hcount.trans ?_) hsame
      cases c <;> rfl
    | degraded _ _ _ _ hrest =>
      have hcount := congrArg (fun x => x.hits.count c) hrest
      have hmiss : r'.hits.count c = (r.hits.counted .misses).count c := by
        refine hcount.trans ?_
        cases c <;> rfl
      rw [hmiss, CacheHitStats.count_counted, if_neg hne] at hsame
      exact absurd rfl hsame
  | prefilled _ _ _ _ hrest =>
    obtain ⟨k, hk⟩ := hits_storeKv { r with toServingState := _ } now _
    have hhits := (congrArg Rest.hits hrest).trans hk
    have hcount := congrArg (fun x => CacheHitStats.count x c) hhits
    refine absurd (hcount.trans ?_) hsame
    cases c <;> rfl
  | @fetched inflight _ hin _ _ hrest =>
    have hhits : r'.hits = inflight.pendingFetchTier.elim r.hits (creditFetch r.hits) :=
      congrArg Rest.hits hrest
    refine ⟨inflight, hin, .inr ⟨rfl, ?_⟩⟩
    cases htier : inflight.pendingFetchTier with
    | none =>
      rw [htier] at hhits
      exact absurd (congrArg (fun x => CacheHitStats.count x c) hhits) hsame
    | some tier =>
      rw [htier, Option.elim_some] at hhits
      refine ⟨tier, rfl, ?_⟩
      rw [hhits] at hsame
      cases tier <;> cases c <;> first | rfl | exact absurd rfl hsame
  | decoded _ _ _ hrest => exact absurd (congrArg (fun x => x.hits.count c) hrest) hsame

/-! ## Runs -/

variable {fresh s : CacheAwareRunner C P T} {requests : List LlmRequest} [Placing P]

theorem Session.allStored (hfresh : fresh.cache.Blank) (h : Session fresh earlier r)
    (hpast : Past (r.start requests) past s) : AllStored (earlier ++ past) s.cache := by
  refine h.invariant (I := fun happened s => AllStored happened s.cache) ?_ (fun _ _ _ h => h) ?_
    (fun _ _ h => h) hpast
  · intro k o hk
    simp [hfresh.objects] at hk
  · intro happened r r' now event sim hr hnext hstep
    exact hr.step (step_cacheChange hnext hstep)

/-- Every marker was left by such a look-up. -/
theorem Past.foundFor (hfresh : fresh.cache.Blank) (h : Session fresh earlier r)
    (hpast : Past (r.start requests) past s) (hmax : s.cache.nextKvId ≠ UInt64.maxValue)
    {id : UInt64} {tier : TierKind} (htier : s.tierOf id = some tier) :
    ∃ inflight kv q₀, s.inFlight.get id = some inflight ∧ kv.location.tier = some tier ∧
      FoundFor earlier past inflight.request q₀ kv := by
  induction hpast generalizing id tier with
  | nil =>
    have hnone : (r.start requests).tierOf id = none := tierOf_start r.cluster _ id
    rw [hnone] at htier
    cases htier
  | @step past s s' now event sim hpast hnext hstep ih =>
    have hmax' := (step_cache hnext hstep).nextKvId_ne hmax
    obtain ⟨inflight', hin', -⟩ := Option.bind_eq_some_iff.1 htier
    obtain ⟨inflight₀, hin₀, hrequest⟩ := (step_advance hstep).request hin'
    rcases (step_cases hnext hstep).tierOf htier with hold | ⟨inflight, kv, rfl, hin,
      hfound, hloc, -⟩
    · obtain ⟨inflight, kv, q₀, hin, hloc, hfoundFor⟩ := ih hmax' hold
      obtain rfl : inflight₀ = inflight := Option.some.inj (hin₀.symm.trans hin)
      exact ⟨inflight', kv, q₀, hin', hloc, hrequest ▸ hfoundFor.mono⟩
    · obtain rfl : inflight₀ = inflight := Option.some.inj (hin₀.symm.trans hin)
      obtain rfl : inflight₀.id = id := KeyedMap.key_of_get hin₀
      have hsound := h.sound hfresh.sound hpast hmax'
      obtain ⟨q₀, hfoundFor⟩ := foundFor_of_reusableKv hin₀ hfound hsound.indexed
        (h.allStored hfresh hpast)
      exact ⟨inflight', kv, q₀, hin', hloc, hrequest ▸ hfoundFor⟩

/-- Every credited hit is for such a look-up. -/
theorem Past.credited (hfresh : fresh.cache.Blank) (h : Session fresh earlier r)
    {e : Happening C P T} (hpast : Past (r.start requests) (past ++ [e]) s)
    (hmax : s.cache.nextKvId ≠ UInt64.maxValue) {c : Counter} (hne : c ≠ .misses)
    (hcredits : e.credits c) : ∃ q q₀ kv, e.request = some q ∧
      FoundFor earlier (past ++ [e]) q q₀ kv ∧
      kv.location.tier.bind TierKind.hitCounter = some c := by
  obtain ⟨hbefore, rfl, hstep, sim, hnext⟩ := hpast.last
  have hmax' := (step_cache hnext hstep).nextKvId_ne hmax
  have hrequest : ∀ {inflight : InFlightRequest},
      e.before.inFlight.get inflight.id = some inflight → e.event.requestId = inflight.id →
        e.request = some inflight.request := fun hin hid => by
    rw [Happening.request, Happening.inflight, hid, hin, Option.map_some]
  obtain ⟨inflight, hin, ⟨hevent, rfl, kv, hfound, htier⟩ | ⟨hevent, tier, htier, hc⟩⟩ :=
    (step_cases hnext hstep).credits hne hcredits
  · have hsound := h.sound hfresh.sound hbefore hmax'
    obtain ⟨q₀, hfoundFor⟩ : ∃ q₀, FoundFor earlier (past ++ [⟨e.before, e.nowNs,
        .requestArrival inflight.id, e.after⟩]) inflight.request q₀ kv :=
      foundFor_of_reusableKv (r := e.before) hin hfound hsound.indexed (h.allStored hfresh hbefore)
    rw [← hevent] at hfoundFor
    refine ⟨inflight.request, q₀, kv, hrequest hin (by rw [hevent]; rfl), hfoundFor, ?_⟩
    rw [htier]
    rfl
  · have hmarked : e.before.tierOf inflight.id = some tier := by
      have hin' : e.before.inFlight.get inflight.id = some inflight := hin
      rw [ServingState.tierOf, hin', Option.bind_some, htier]
    obtain ⟨inflight', kv, q₀, hin', hloc, hfoundFor⟩ := hbefore.foundFor hfresh h hmax' hmarked
    obtain rfl : inflight' = inflight := Option.some.inj (hin'.symm.trans hin)
    refine ⟨inflight'.request, q₀, kv, hrequest hin (by rw [hevent]; rfl), hfoundFor.mono, ?_⟩
    rw [hloc, Option.bind_some]
    exact TierKind.hitCounter_of_fetchCounter hc

end CacheAwareRunner

section

open CacheAwareRunner

variable {C P T : Type} [ComputeModel C] [PlacementPolicy P] [TransferModel T] [Placing P]

/-- **A hit reuses KV of its own session and prefix.** In every sequence of runs, whenever a request
is credited with a hit, the KV that its arrival found had been stored on the completed prefill of a
request of the same session whose prompt is the prefix to be reused; it is one of the same model if
no session mixes models. (The ids of the cache must not be used up.) -/
theorem hits_reuse_stored (iterOrder : IterOrder) (config : ServingConfig)
    (cluster : ClusterTopology) (compute : C) (transfer : T) (profile : ModelProfile)
    (placement : P) (requests : List LlmRequest) {earlier past : List (Happening C P T)}
    {e : Happening C P T} {r s : CacheAwareRunner C P T} {c : Counter}
    (h : Session (.new iterOrder config cluster compute transfer profile placement) earlier r)
    (hpast : Past (r.start requests) (past ++ [e]) s) (hmax : s.cache.nextKvId ≠ UInt64.maxValue)
    (hne : c ≠ .misses) (hcredits : e.credits c) :
    ∃ q q₀ kv, e.request = some q ∧ FoundFor earlier (past ++ [e]) q q₀ kv ∧
      kv.location.tier.bind TierKind.hitCounter = some c ∧
      ((∀ e' ∈ earlier ++ past ++ [e], ∀ q' ∈ e'.request, q'.sessionId = q.sessionId →
        q'.modelId = q.modelId) → q₀.modelId = q.modelId) := by
  have hfresh := blank_new iterOrder config cluster compute transfer profile placement
  obtain ⟨q, q₀, kv, hq, hfound, hc⟩ := hpast.credited hfresh h hmax hne hcredits
  refine ⟨q, q₀, kv, hq, hfound, hc, fun hmodels => ?_⟩
  obtain ⟨pre, lookup, post, hsplit, -, -, -, hstored⟩ := hfound.lookup
  obtain ⟨e', he', -, hq₀, -⟩ := hstored.prefill
  refine hmodels e' ?_ q₀ hq₀ hfound.session
  rw [List.append_assoc, hsplit, ← List.append_assoc]
  exact List.mem_append_left _ he'

end

/-- Two requests of one session, the first for model `a`. -/
def modelTrace (modelId : String) : List LlmRequest :=
  [{ LlmRequest.cold 0 0 8 2 with modelId := "a" },
    { LlmRequest.cold 1 9000000 12 2 with sessionId := 0, newPromptTokens := 4, modelId }]

/-- A run of them on a node with room on its GPUs. -/
def twoModels (modelId : String) :
    CacheAwareRunner LinearComputeModel LocalGpuLru AnalyticalTransferModel :=
  (CacheAwareRunner.new .ascending ⟨1, 1, 1⟩ (.singleNode 1 1) .conservative8b .rdma400g
    .llama8bBf16Gqa ⟨0⟩).start (modelTrace modelId)

/-- The fourth event is the arrival of the second request, a hit. All requests are for model `a`. -/
theorem hits_reuse_stored_sameModel :
    ∃ past e q q₀ kv, CacheAwareRunner.Past (twoModels "a") (past ++ [e])
      ((twoModels "a").replay 4).2 ∧
      e.credits .hitsGpu ∧ e.request = some q ∧ CacheAwareRunner.FoundFor [] (past ++ [e]) q q₀ kv ∧
      q₀.modelId = q.modelId := by
  have hlast : ((twoModels "a").replay 4).1.getLast?.any (fun e => e.credits .hitsGpu) = true := by
    decide +kernel
  have hmodels : ∀ e ∈ ((twoModels "a").replay 4).1, ∀ q ∈ e.request, q.modelId = "a" := by
    decide +kernel
  obtain ⟨past, e, hsplit, hpast, hcredits⟩ := CacheAwareRunner.exists_last_of_replay hlast
  rw [hsplit] at hmodels
  obtain ⟨q, q₀, kv, hq, hfound, -, hmodel⟩ := hits_reuse_stored .ascending ⟨1, 1, 1⟩
    (.singleNode 1 1) LinearComputeModel.conservative8b AnalyticalTransferModel.rdma400g
    .llama8bBf16Gqa (LocalGpuLru.mk 0) (modelTrace "a") .fresh hpast (by decide +kernel) (by decide)
    (of_decide_eq_true hcredits)
  have hq' : q.modelId = "a" := hmodels e (by simp) q hq
  refine ⟨past, e, q, q₀, kv, hpast, of_decide_eq_true hcredits, hq, hfound, hmodel ?_⟩
  intro e' he' q' hq'' _
  rw [hq']
  exact hmodels e' he' q' hq''

/-- If the second request is for model `b`, it is a hit on the KV of model `a` all the same. -/
theorem hit_across_models :
    ∃ past e q, CacheAwareRunner.Past (twoModels "b") (past ++ [e]) ((twoModels "b").replay 4).2 ∧
      e.credits .hitsGpu ∧ e.request = some q ∧
      ¬∃ q₀ kv, CacheAwareRunner.FoundFor [] (past ++ [e]) q q₀ kv ∧ q₀.modelId = q.modelId := by
  have hlast : ((twoModels "b").replay 4).1.getLast?.any (fun e => e.credits .hitsGpu ∧
      e.request.any fun q => q.modelId = "b") = true := by
    decide +kernel
  have hmodels : ∀ e ∈ ((twoModels "b").replay 4).1, e.stored.isSome →
      ∀ q ∈ e.request, q.modelId = "a" := by
    decide +kernel
  obtain ⟨past, e, hsplit, hpast, he⟩ := CacheAwareRunner.exists_last_of_replay hlast
  obtain ⟨hcredits, hmodel⟩ := of_decide_eq_true he
  obtain ⟨q, hq, hmodelId⟩ := (Option.any_eq_true _ _).1 hmodel
  refine ⟨past, e, q, hpast, hcredits, hq, ?_⟩
  rintro ⟨q₀, kv, hfound, hsame⟩
  obtain ⟨pre, e₁, post, hsplit', -, -, -, hstored⟩ := hfound.lookup
  obtain ⟨e₂, he₂, -, hq₀, o, ho, -⟩ := hstored.prefill
  have hmem : e₂ ∈ ((twoModels "b").replay 4).1 := by
    rw [hsplit, hsplit']
    exact List.mem_append_left _ he₂
  have ha := hmodels e₂ hmem (by rw [ho]; rfl) q₀ hq₀
  rw [hsame, of_decide_eq_true hmodelId] at ha
  exact absurd ha (by decide)

end KvFlowSim
