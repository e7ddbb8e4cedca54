import KvFlowSim.Serving.Conservation
import KvFlowSim.Serving.Exclusive
import KvFlowSim.Serving.NoReuse

/-!
# Runs on any trace

What can be said of a run without assuming that the ids of the trace are distinct, that the GPUs are
idle, or that there is a GPU for either role.

* The handlers do not panic and the loop ends (`Operable`, `ServingLoop.exists_run`).
* A request enters the `in_flight` map under its id, so of several requests with one id the one that
  arrives last is served (`lastOf`), and it is served at most once: an id leaves the map when its
  result is written (`Registered`).
* What has no result in the end still waits in a queue, and on a cluster that was idle at the start
  a queue is left over only if no GPU serves its role.
-/

namespace KvFlowSim

open ServingState

/-- The result carries the data of the request. -/
structure RequestResult.Reports (x : RequestResult) (q : LlmRequest) : Prop where
  requestId : x.requestId = q.requestId
  sessionId : x.sessionId = q.sessionId
  turnId : x.turnId = q.turnId
  arrivalNs : x.arrivalNs = q.arrivalNs
  promptTokens : x.promptTokens = q.promptTokens
  outputTokens : x.outputTokens = q.outputTokens

theorem InFlightRequest.reports (r : InFlightRequest) : r.intoResult.Reports r.request :=
  ⟨rfl, rfl, rfl, rfl, rfl, rfl⟩

/-- The last request with an id in the order of arrival. -/
def lastOf (sorted : List LlmRequest) (id : UInt64) : Option LlmRequest :=
  sorted.reverse.find? fun q => q.requestId = id

theorem lastOf_cons (q : LlmRequest) (rest : List LlmRequest) (id : UInt64) :
    lastOf (q :: rest) id = (lastOf rest id).or (if q.requestId = id then some q else none) := by
  simp only [lastOf, List.reverse_cons, List.find?_append]
  by_cases h : q.requestId = id <;> simp [h]

theorem mem_of_lastOf {l : List LlmRequest} {id : UInt64} {q : LlmRequest}
    (h : lastOf l id = some q) :
    q ∈ l ∧ q.requestId = id :=
  ⟨List.mem_reverse.1 (List.mem_of_find?_eq_some h), by simpa using List.find?_some h⟩

namespace ServingState

variable {fetching : Prop} {now : UInt64} {x y : ServingState × Held} {s s' s₁ : ServingState}
  {kind : ServingEvent} {sim : Simulator ServingEvent} {l : List LlmRequest}

/-! ## The loop returns -/

/-- What the handlers need in order not to panic. -/
structure Operable (fetching : Prop) (s : ServingState) : Prop where
  distinct : s.cluster.DistinctNodeIds
  addressed : ∀ ev ∈ s.sim.pending, ∀ n i, ev.kind.completion = some (n, i) →
    ∃ gpu, s.cluster.gpuAt n i = some gpu
  fetches : FetchesOnlyIf fetching s

theorem Move.operable (h : Move fetching now x y) (hx : Operable fetching x.1) :
    Operable fetching y.1 where
  distinct := h.distinctNodeIds hx.distinct
  addressed ev hev n i hc := by
    have hgpu : ∃ gpu, x.1.cluster.gpuAt n i = some gpu :=
      (h.addressed hx.distinct hev hc).elim (fun hev => hx.addressed ev hev n i hc) id
    exact hgpu.elim fun gpu hgpu => (h.gpuAt_role hgpu).imp fun _ h => h.1
  fetches := h.fetchesOnlyIf hx.fetches

theorem Released.operable (hstep : s.sim.step = some (now, kind, sim))
    (h : Released now kind { s with sim := sim } s₁) (hs : Operable fetching s) :
    Operable fetching s₁ := by
  obtain ⟨ev, -, hperm, -⟩ := Simulator.step_spec hstep
  have hmem : ∀ ev' ∈ s₁.sim.pending, ev' ∈ s.sim.pending := fun ev' hev => by
    rw [h.sim] at hev
    exact hperm.mem_iff.2 (List.mem_cons_of_mem _ hev)
  refine ⟨?_, fun ev' hev n i hc => ?_, fun ev' hev => hs.fetches ev' (hmem ev' hev)⟩
  · rcases h.cluster with ⟨-, hc⟩ | ⟨n, i, -, hc⟩
    · rw [hc]
      exact hs.distinct
    · exact ClusterTopology.DistinctNodeIds.setBusyUntil hs.distinct hc
  · obtain ⟨gpu, hgpu⟩ := hs.addressed ev' (hmem ev' hev) n i hc
    exact (h.gpuAt_role hgpu).imp fun _ h => h.1

theorem Advance.operable (h : Advance fetching s s') (hs : Operable fetching s) :
    Operable fetching s' := by
  obtain ⟨now, kind, sim, hstep, s₁, hrel, hmoves, -⟩ := h
  exact hmoves.invariant (I := fun x => Operable fetching x.1) (fun _ _ hx hm => hm.operable hx)
    (hrel.operable hstep hs)

theorem operable_start {cluster : ClusterTopology} (hd : cluster.DistinctNodeIds)
    (l : List LlmRequest) : Operable fetching ((ServingState.new cluster).enterAll l) := by
  refine ⟨by rwa [cluster_enterAll], fun ev hev n i hc => ?_, fetchesOnlyIf_start cluster l⟩
  obtain ⟨req, -, hreq⟩ := kind_of_mem_start hev
  simp [hreq, ServingEvent.completion] at hc

/-- An event that a handler is given does not make it panic. -/
theorem isOk_of_handler {σ : Type} (step : σ → Except Panic (Option σ)) (state : σ → ServingState)
    (handle : σ → UInt64 → ServingEvent → Simulator ServingEvent → Except Panic σ)
    (hstep : ∀ s, step s = match (state s).sim.step with
      | none => .ok none
      | some (now, kind, sim) => some <$> handle s now kind sim)
    (hhandle : ∀ s now kind sim, (state s).cluster.DistinctNodeIds →
      (∀ n i, kind.completion = some (n, i) → ∃ gpu, (state s).cluster.gpuAt n i = some gpu) →
      (∀ id, kind = .fetchDone id → fetching) → ∃ s', handle s now kind sim = .ok s') (s : σ)
    (hs : Operable fetching (state s)) : ∃ o, step s = .ok o := by
  rw [hstep]
  split
  next => exact ⟨_, rfl⟩
  next now kind sim h =>
    obtain ⟨ev, rfl, hperm, -⟩ := Simulator.step_spec h
    have hev : ev ∈ (state s).sim.pending := hperm.mem_iff.2 List.mem_cons_self
    obtain ⟨s', hs'⟩ := hhandle s now ev.kind sim hs.distinct (hs.addressed ev hev)
      (hs.fetches ev hev)
    exact ⟨some s', Except.map_eq_ok.2 ⟨s', hs', rfl⟩⟩

/-- From an operable state the loop runs until no event is left. -/
theorem ServingLoop.exists_run {σ : Type} {step : σ → Except Panic (Option σ)}
    {state : σ → ServingState} (hloop : ServingLoop fetching step state)
    (hok : ∀ s, Operable fetching (state s) → ∃ o, step s = .ok o) {n : ℕ} {start : σ}
    (hload : (state start).load ≤ n) (hstart : Operable fetching (state start)) :
    ∃ s, EventLoop.run step n start = .ok s ∧ (state s).sim.pending = [] := by
  obtain ⟨s, hs⟩ := EventLoop.run_isOk (I := fun s => Operable fetching (state s))
    (fun a b ha h => (hloop.advance a b h).operable ha) hok n hstart
  exact ⟨s, hs, (hloop.halted s).1 (hloop.run_halted hload hs)⟩

/-! ## Who is in flight, and who is done -/

theorem mem_active {id : UInt64} {held : Held} : id ∈ active (s, held) ↔
    (∃ ev ∈ s.sim.pending, ev.kind.requestId = id) ∨ (∃ stage, id ∈ s.queue stage) ∨
      held.map Prod.fst = some id := by
  have hqueue : (∃ stage, id ∈ s.queue stage) ↔ id ∈ s.prefillQueue ∨ id ∈ s.decodeQueue := by
    constructor
    · rintro ⟨_ | _, h⟩
      · exact .inl h
      · exact .inr h
    · rintro (h | h)
      · exact ⟨.prefill, h⟩
      · exact ⟨.decode, h⟩
  simp only [active, Multiset.mem_add, Multiset.mem_coe, List.mem_map, Option.mem_toList, hqueue,
    or_assoc]

/-- The ids in flight are those of the trace that have no result yet, each with the last request of
its id, and each stands somewhere. The results are about such requests, at most one for each id. -/
structure Registered (l : List LlmRequest) (x : ServingState × Held) : Prop where
  record : ∀ id r, x.1.inFlight.get id = some r → lastOf l id = some r.request
  result : ∀ res ∈ x.1.results, ∃ q, lastOf l res.requestId = some q ∧ res.Reports q
  once : (x.1.results.map (·.requestId)).Nodup
  covered : ∀ q ∈ l, x.1.inFlight.get q.requestId = none ↔
    q.requestId ∈ x.1.results.map (·.requestId)
  placed : ∀ id, (x.1.inFlight.get id).isSome → id ∈ active x

/-- Writing the record of a request that is in flight, of the same request. -/
theorem Registered.write {held held' : Held} (h : Registered l (s, held)) {id : UInt64}
    {r r' : InFlightRequest} (hr : s.inFlight.get id = some r) (hrequest : r'.request = r.request)
    (hin : s'.inFlight = s.inFlight.insert r') (hresults : s'.results = s.results)
    (hplaced : ∀ id, id ∈ active (s, held) → id ∈ active (s', held')) :
    Registered l (s', held') := by
  have hid : r.id = id := KeyedMap.key_of_get hr
  have hid' : r'.id = id := (congrArg LlmRequest.requestId hrequest).trans hid
  have hget : ∀ id', s'.inFlight.get id' = if id' = id then some r' else s.inFlight.get id' := by
    intro id'
    rw [hin, KeyedMap.get_insert, hid']
  refine ⟨fun id' r'' h' => ?_, hresults ▸ h.result, hresults ▸ h.once, fun q hq =>
    ?_, fun id' h' => ?_⟩
  · rw [hget] at h'
    split_ifs at h' with heq
    · obtain rfl := Option.some.inj h'
      rw [heq, h.record id r hr, hrequest]
    · exact h.record id' r'' h'
  · rw [hresults, ← h.covered q hq, hget]
    split_ifs with heq
    · simp [heq, hr]
    · rfl
  · refine hplaced id' (h.placed id' ?_)
    rw [hget] at h'
    split_ifs at h' with heq
    · simp [heq, hr]
    · exact h'

/-- Requests that are carried from one place to another. -/
theorem Registered.carry {held held' : Held} (h : Registered l (s, held))
    (hin : s'.inFlight = s.inFlight) (hresults : s'.results = s.results)
    (hplaced : ∀ id, (s.inFlight.get id).isSome → id ∈ active (s, held) → id ∈ active (s', held')) :
    Registered l (s', held') :=
  ⟨by rw [hin]; exact h.record, by rw [hresults]; exact h.result, by rw [hresults]; exact h.once,
    by rw [hin, hresults]; exact h.covered,
    fun id hid => hplaced id (hin ▸ hid) (h.placed id (hin ▸ hid))⟩

theorem Move.registered (h : Move fetching now x y) (hx : Registered l x) : Registered l y := by
  cases h with
  | @start s id b stage n i done cluster r r' _ _ _ _ hr hr' =>
    refine hx.write hr hr'.request rfl rfl fun id' hid' => ?_
    rw [mem_active] at hid' ⊢
    rcases hid' with ⟨ev, hev, hid'⟩ | ⟨stage', hid'⟩ | hid'
    · exact .inl ⟨ev, List.mem_append_left _ hev, hid'⟩
    · exact .inr (.inl ⟨stage', by cases stage' <;> exact hid'⟩)
    · refine .inl ⟨_, List.mem_append_right _ (List.mem_singleton_self _), ?_⟩
      simpa using hid'
  | @enqueue s id b stage =>
    refine hx.carry (by simp) (by simp) fun id' _ hid' => ?_
    rw [mem_active] at hid' ⊢
    rcases hid' with hid' | ⟨stage', hid'⟩ | hid'
    · exact .inl (by simpa using hid')
    · refine .inr (.inl ⟨stage', ?_⟩)
      rw [queue_setQueue]
      split_ifs with hst
      · exact List.mem_append_left _ (hst ▸ hid')
      · exact hid'
    · refine .inr (.inl ⟨stage, ?_⟩)
      obtain rfl : id = id' := by simpa using hid'
      simp
  | @dequeue s id stage rest hqueue =>
    refine hx.carry (by simp) (by simp) fun id' _ hid' => ?_
    rw [mem_active] at hid' ⊢
    rcases hid' with hid' | ⟨stage', hid'⟩ | hid'
    · exact .inl (by simpa using hid')
    · by_cases hst : stage' = stage
      · rw [hst, hqueue] at hid'
        rcases List.mem_cons.1 hid' with rfl | hid'
        · exact .inr (.inr rfl)
        · exact .inr (.inl ⟨stage, by simpa using hid'⟩)
      · exact .inr (.inl ⟨stage', by rw [queue_setQueue, if_neg hst]; exact hid'⟩)
    · simp at hid'
  | @fetch s id b t =>
    refine hx.carry rfl rfl fun id' _ hid' => ?_
    rw [mem_active] at hid' ⊢
    rcases hid' with ⟨ev, hev, hid'⟩ | ⟨stage', hid'⟩ | hid'
    · exact .inl ⟨ev, List.mem_append_left _ hev, hid'⟩
    · exact .inr (.inl ⟨stage', by cases stage' <;> exact hid'⟩)
    · refine .inl ⟨_, List.mem_append_right _ (List.mem_singleton_self _), ?_⟩
      simpa [ServingEvent.requestId] using hid'
  | @finish s id b r hr =>
    have hrid : r.id = id := KeyedMap.key_of_get hr
    have hid : r.intoResult.requestId = id := hrid
    have hlast := hx.record id r hr
    obtain ⟨hmem, hkey⟩ := mem_of_lastOf hlast
    have hnew : id ∉ s.results.map (·.requestId) := fun hold => by
      have hnone := (hx.covered _ hmem).2 (hkey ▸ hold)
      rw [hkey, hr] at hnone
      cases hnone
    have hin : ∀ id', (s.finish id).inFlight.get id' =
        if id' = id then none else s.inFlight.get id' :=
      fun id' => by simp only [ServingState.finish, hr, KeyedMap.get_remove]
    have hresults : (s.finish id).results = s.results ++ [r.intoResult] := by
      simp only [ServingState.finish, hr]
    refine ⟨fun id' r' h' => ?_, fun res hres => ?_, ?_, fun q hq => ?_, fun id' h' => ?_⟩
    · rw [hin] at h'
      split_ifs at h'
      exact hx.record id' r' h'
    · rw [hresults] at hres
      rcases List.mem_append.1 hres with hres | hres
      · exact hx.result res hres
      · obtain rfl := List.mem_singleton.1 hres
        exact ⟨r.request, by rw [hid, hlast], r.reports⟩
    · rw [hresults, List.map_append, List.nodup_append]
      refine ⟨hx.once, List.nodup_singleton _, fun a ha b hb => ?_⟩
      rintro rfl
      obtain rfl : a = id := (List.mem_singleton.1 hb).trans hid
      exact hnew ha
    · rw [hresults, hin, List.map_append, List.mem_append, ← hx.covered q hq]
      have hlast' : q.requestId ∈ [r.intoResult].map (·.requestId) ↔ q.requestId = id := by
        rw [List.map_singleton, List.mem_singleton, hid]
      rw [hlast']
      split_ifs with heq
      · simp [heq]
      · simp [heq]
    · rw [hin] at h'
      have hne : id' ≠ id := fun heq => by simp [heq] at h'
      rw [if_neg hne] at h'
      have hactive := hx.placed id' h'
      rw [mem_active] at hactive ⊢
      rcases hactive with hid' | ⟨stage, hid'⟩ | hid'
      · exact .inl (by simpa using hid')
      · exact .inr (.inl ⟨stage, by simpa using hid'⟩)
      · exact absurd (by simpa using hid'.symm) hne
  | @drop s id b hr =>
    refine hx.carry rfl rfl fun id' hsome hid' => ?_
    rw [mem_active] at hid' ⊢
    rcases hid' with hid' | hid' | hid'
    · exact .inl hid'
    · exact .inr (.inl hid')
    · obtain rfl : id = id' := by simpa using hid'
      simp [hr] at hsome
  | @note s held id r r' hr hrequest =>
    refine hx.write hr hrequest rfl rfl fun id' hid' => ?_
    rw [mem_active] at hid' ⊢
    refine hid'.imp_right (Or.imp_left fun hqueued => ?_)
    obtain ⟨stage, hid'⟩ := hqueued
    exact ⟨stage, by cases stage <;> exact hid'⟩

theorem Advance.registered (h : Advance fetching s s') (hs : Registered l (s, none)) :
    Registered l (s', none) := by
  obtain ⟨now, kind, sim, hstep, s₁, hrel, hmoves, -⟩ := h
  refine hmoves.invariant (fun _ _ hx hm => hm.registered hx) ?_
  obtain ⟨ev, rfl, hperm, -⟩ := Simulator.step_spec hstep
  refine hs.carry (by rw [hrel.eq]) (by rw [hrel.eq]) fun id _ hid => ?_
  rw [mem_active] at hid ⊢
  rcases hid with ⟨ev', hev, hid⟩ | ⟨stage, hid⟩ | hid
  · rcases List.mem_cons.1 (hperm.mem_iff.1 hev) with rfl | hev
    · exact .inr (.inr (congrArg some hid))
    · exact .inl ⟨ev', by rwa [hrel.sim], hid⟩
  · refine .inr (.inl ⟨stage, ?_⟩)
    rw [hrel.queue]
    cases stage <;> exact hid
  · simp at hid

/-- At the start every id is in flight, with its last request. -/
theorem get_start (cluster : ClusterTopology) (l : List LlmRequest) (id : UInt64) :
    ((ServingState.new cluster).enterAll l).inFlight.get id = (lastOf l id).map .new := by
  have hgen : ∀ s : ServingState, (s.enterAll l).inFlight.get id =
      ((lastOf l id).map InFlightRequest.new).or (s.inFlight.get id) := by
    induction l with
    | nil => exact fun s => rfl
    | cons q rest ih =>
      intro s
      rw [enterAll_cons, ih, lastOf_cons, enter, KeyedMap.get_insert]
      by_cases hq : q.requestId = id
      · have hid : id = (InFlightRequest.new q).id := hq.symm
        cases lastOf rest id <;> simp [hq, ← hid]
      · have hid : id ≠ (InFlightRequest.new q).id := Ne.symm hq
        cases lastOf rest id <;> simp [hq, hid]
  simp [hgen, ServingState.new]

theorem registered_start (cluster : ClusterTopology) (l : List LlmRequest) :
    Registered l ((ServingState.new cluster).enterAll l, none) := by
  have hresults : ((ServingState.new cluster).enterAll l).results = [] := by
    rw [results_enterAll]
    rfl
  refine ⟨fun id r h => ?_, ?_, ?_, fun q hq => ?_, fun id h => ?_⟩
  · rw [get_start] at h
    obtain ⟨q, hq, rfl⟩ := Option.map_eq_some_iff.1 h
    exact hq
  · rw [hresults]
    exact fun _ h => absurd h List.not_mem_nil
  · rw [hresults]
    exact List.nodup_nil
  · have hsome := isSome_get_enterAll (ServingState.new cluster) l
      (.inr (List.mem_map_of_mem (f := (·.requestId)) hq))
    simp only [hresults, List.map_nil, List.not_mem_nil, iff_false]
    exact fun hnone => by simp [hnone] at hsome
  · rw [get_start] at h
    obtain ⟨q, hq⟩ := Option.isSome_iff_exists.1 (by simpa using h)
    obtain ⟨hmem, rfl⟩ := mem_of_lastOf hq
    have hplaces := (tracked_start cluster l).places
    have hdone : ((ServingState.new cluster).enterAll l).done = 0 := by
      rw [ServingState.done, hresults]
      rfl
    rw [hdone, add_zero] at hplaces
    rw [hplaces]
    exact Multiset.mem_coe.2 (List.mem_map_of_mem hmem)

/-- No GPU disappears or changes its role in a run. -/
theorem Advance.gpuAt_role (h : Advance fetching s s') {n : NodeId} {i : ℕ} {role : WorkerRole}
    (hgpu : ∃ gpu, s.cluster.gpuAt n i = some gpu ∧ gpu.role = role) :
    ∃ gpu, s'.cluster.gpuAt n i = some gpu ∧ gpu.role = role := by
  obtain ⟨now, kind, sim, -, s₁, hrel, hmoves, -⟩ := h
  refine hmoves.invariant (I := fun x => ∃ gpu, x.1.cluster.gpuAt n i = some gpu ∧ gpu.role = role)
    (fun _ _ ⟨gpu, hgpu, hrole⟩ hm => ?_) ?_
  · obtain ⟨gpu', hgpu', hrole'⟩ := hm.gpuAt_role hgpu
    exact ⟨gpu', hgpu', hrole'.trans hrole⟩
  · obtain ⟨gpu, hgpu, hrole⟩ := hgpu
    obtain ⟨gpu', hgpu', hrole'⟩ := hrel.gpuAt_role hgpu
    exact ⟨gpu', hgpu', hrole'.trans hrole⟩

/-! ## Whole runs -/

/-- What a run on any trace returns and leaves behind. A request without a result waits in
a queue. -/
structure Accounts (requests : List LlmRequest) (results : List RequestResult) (s : ServingState) :
    Prop where
  distinct : s.cluster.DistinctNodeIds
  drained : s.sim.pending = []
  sorted : results.Pairwise fun x y => x.arrivalKey ≤ y.arrivalKey
  once : (results.map (·.requestId)).Nodup
  reports : ∀ x ∈ results, ∃ q, lastOf (sortRequests requests) x.requestId = some q ∧ x.Reports q
  waiting : ∀ q ∈ requests, q.requestId ∉ results.map (·.requestId) →
    ∃ stage, q.requestId ∈ s.queue stage

/-- The end of a run. -/
theorem Registered.accounts {requests : List LlmRequest}
    (h : Registered (sortRequests requests) (s, none)) (hd : s.cluster.DistinctNodeIds)
    (hend : s.sim.pending = []) : Accounts requests s.takeResults.1 s.takeResults.2 := by
  have hperm : s.takeResults.1.Perm s.results := List.sortByKey_perm _ _
  refine ⟨hd, hend, List.pairwise_sortByKey _ _, (hperm.map _).nodup_iff.2 h.once,
    fun x hx => h.result x (hperm.mem_iff.1 hx), fun q hq hnone => ?_⟩
  rw [(hperm.map _).mem_iff, ← h.covered q ((sortRequests_perm requests).mem_iff.2 hq)] at hnone
  have hactive := h.placed q.requestId (Option.isSome_iff_ne_none.2 hnone)
  rw [mem_active, hend] at hactive
  rcases hactive with ⟨ev, hev, -⟩ | ⟨stage, hid⟩ | hid
  · exact absurd hev List.not_mem_nil
  · exact ⟨stage, by cases stage <;> exact hid⟩
  · cases hid

/-- A run of a loop on any trace. -/
theorem ServingLoop.exists_registered {σ : Type} {step : σ → Except Panic (Option σ)}
    {state : σ → ServingState} (hloop : ServingLoop fetching step state)
    (hok : ∀ s, Operable fetching (state s) → ∃ o, step s = .ok o) (start : σ)
    {cluster : ClusterTopology} (hd : cluster.DistinctNodeIds) (requests : List LlmRequest)
    (hstart : state start = (ServingState.new cluster).enterAll (sortRequests requests)) :
    ∃ s, EventLoop.run step (4 * requests.length) start = .ok s ∧ (state s).sim.pending = [] ∧
      Registered (sortRequests requests) (state s, none) ∧ (state s).cluster.DistinctNodeIds := by
  have hload := load_start cluster (sortRequests requests)
  rw [(sortRequests_perm requests).length_eq, ← hstart] at hload
  have hop : Operable fetching (state start) := by
    rw [hstart]
    exact operable_start hd _
  have hreg : Registered (sortRequests requests) (state start, none) := by
    rw [hstart]
    exact registered_start cluster _
  obtain ⟨s, hs, hend⟩ := hloop.exists_run hok hload.le hop
  have hkept := (EventLoop.run_reach hs).invariant
    (I := fun s => Operable fetching (state s) ∧ Registered (sortRequests requests) (state s, none))
    (fun a b ⟨ho, hr⟩ h => ⟨(hloop.advance a b h).operable ho, (hloop.advance a b h).registered hr⟩)
    ⟨hop, hreg⟩
  exact ⟨s, hs, hend, hkept.2, hkept.1.distinct⟩

/-- A run on an idle cluster leaves a queue behind only if no GPU serves its role. So where both
roles are served each id of the trace has one result. -/
structure CompletesAll (cluster : ClusterTopology) (requests : List LlmRequest)
    (results : List RequestResult) (s : ServingState) : Prop where
  accounts : Accounts requests results s
  unserved : ∀ stage, s.queue stage ≠ [] → ¬cluster.Serves stage.role
  served : cluster.Serves .prefill → cluster.Serves .decode →
    (results.map (·.requestId)).Perm (requests.map (·.requestId)).dedup

theorem Accounts.completesAll {cluster : ClusterTopology} {requests : List LlmRequest}
    {results : List RequestResult} (h : Accounts requests results s)
    (hunserved : ∀ stage, s.queue stage ≠ [] → ¬cluster.Serves stage.role) :
    CompletesAll cluster requests results s := by
  refine ⟨h, hunserved, fun hprefill hdecode => ?_⟩
  have hempty : ∀ stage, s.queue stage = [] := fun stage => by
    by_contra hne
    cases stage
    · exact hunserved .prefill hne hprefill
    · exact hunserved .decode hne hdecode
  refine (List.perm_ext_iff_of_nodup h.once (List.nodup_dedup _)).2 fun id => ?_
  rw [List.mem_dedup]
  constructor
  · intro hid
    obtain ⟨x, hx, rfl⟩ := List.mem_map.1 hid
    obtain ⟨q, hq, hreports⟩ := h.reports x hx
    have hmem := (sortRequests_perm requests).mem_iff.1 (mem_of_lastOf hq).1
    exact List.mem_map.2 ⟨q, hmem, hreports.requestId.symm⟩
  · intro hid
    obtain ⟨q, hq, rfl⟩ := List.mem_map.1 hid
    by_contra hnone
    obtain ⟨stage, hstage⟩ := h.waiting q hq hnone
    simp [hempty stage] at hstage

/-- A request is left in a queue only if there is no GPU for it. -/
theorem ServingLoop.unserved {σ : Type} {step : σ → Except Panic (Option σ)}
    {state : σ → ServingState} (hloop : ServingLoop fetching step state) {start s : σ}
    {cluster : ClusterTopology} (hd : cluster.DistinctNodeIds) (hidle : cluster.AllIdle)
    (hstart : state start = (ServingState.new cluster).enterAll l)
    (hreach : EventLoop.Reach step start s) (hend : (state s).sim.pending = []) (stage : Stage)
    (hq : (state s).queue stage ≠ []) : ¬cluster.Serves stage.role := by
  intro hserves
  obtain ⟨n, i, gpu, hgpu, hrole⟩ := hserves.gpuAt hd
  have hscheduled : (state start).Scheduled ∧ (state start).Attended := by
    rw [hstart]
    exact ⟨scheduled_start hd hidle l, attended_start cluster l⟩
  have hgpu₀ : ∃ gpu', (state start).cluster.gpuAt n i = some gpu' ∧ gpu'.role = gpu.role :=
    ⟨gpu, by rw [hstart, cluster_enterAll]; exact hgpu, rfl⟩
  have hkept := hreach.invariant (I := fun s => ((state s).Scheduled ∧ (state s).Attended) ∧
      ∃ gpu', (state s).cluster.gpuAt n i = some gpu' ∧ gpu'.role = gpu.role)
    (fun a b ⟨⟨hs, ha⟩, hg⟩ h => ⟨⟨(hloop.advance a b h).scheduled hs,
      (hloop.advance a b h).attended hs ha⟩, (hloop.advance a b h).gpuAt_role hg⟩)
    ⟨hscheduled, hgpu₀⟩
  obtain ⟨⟨-, hattended⟩, gpu', hgpu', hrole'⟩ := hkept
  have hserves' : gpu'.serves stage.role = true := by
    simpa [GpuResource.serves, hrole'] using hrole
  obtain ⟨ev, hev, -⟩ := hattended stage hq n i gpu' hgpu' hserves'
  simp [hend] at hev

end ServingState

variable {C P T : Type} [ComputeModel C]

namespace EventDrivenRunner

theorem step_isOk (r : EventDrivenRunner C) (h : Operable False r.toServingState) :
    ∃ o, r.step = .ok o :=
  isOk_of_handler step (fun r => r.toServingState)
    (fun r now kind sim => { r with sim }.handleEvent now kind) (fun _ => rfl)
    (fun r _ _ sim hd haddressed hfetch =>
      handleEvent_isOk (r := { r with sim }) hd haddressed hfetch)
    r h

theorem exists_run (r : EventDrivenRunner C) (hnodes : r.cluster.DistinctNodeIds)
    (requests : List LlmRequest) : ∃ results r' s, r.run requests = .ok (results, r') ∧
      EventLoop.Reach step (r.start requests) s ∧ r'.toServingState = s.takeResults.2 ∧
      s.sim.pending = [] ∧ Accounts requests results r'.toServingState := by
  obtain ⟨s, hs, hend, hreg, hd⟩ := servingLoop.exists_registered step_isOk (r.start requests)
    hnodes requests rfl
  exact ⟨_, _, s, by rw [run, hs]; rfl, EventLoop.run_reach hs, rfl, hend, hreg.accounts hd hend⟩

theorem run_accounts (r : EventDrivenRunner C) (hnodes : r.cluster.DistinctNodeIds)
    (requests : List LlmRequest) : ∃ results r', r.run requests = .ok (results, r') ∧
      Accounts requests results r'.toServingState := by
  obtain ⟨results, r', s, hrun, -, -, -, haccounts⟩ := r.exists_run hnodes requests
  exact ⟨results, r', hrun, haccounts⟩

theorem run_completesAll (config : ServingConfig) (cluster : ClusterTopology) (compute : C)
    (hnodes : cluster.DistinctNodeIds) (hidle : cluster.AllIdle) (requests : List LlmRequest) :
    ∃ results r', (new config cluster compute).run requests = .ok (results, r') ∧
      CompletesAll cluster requests results r'.toServingState := by
  obtain ⟨results, r', s, hrun, hreach, hs, hend, haccounts⟩ :=
    (new config cluster compute).exists_run hnodes requests
  refine ⟨results, r', hrun, haccounts.completesAll fun stage hq => ?_⟩
  refine servingLoop.unserved hnodes hidle rfl hreach hend stage ?_
  rw [hs] at hq
  cases stage <;> exact hq

end EventDrivenRunner

namespace CacheAwareRunner

variable [PlacementPolicy P] [TransferModel T]

theorem step_isOk (r : CacheAwareRunner C P T) (h : Operable True r.toServingState) :
    ∃ o, r.step = .ok o :=
  isOk_of_handler step (fun r => r.toServingState)
    (fun r now kind sim => { r with sim }.handleEvent now kind) (fun _ => rfl)
    (fun r _ _ sim hd haddressed _ => handleEvent_isOk (r := { r with sim }) hd haddressed) r h

theorem exists_run (r : CacheAwareRunner C P T) (hnodes : r.cluster.DistinctNodeIds)
    (requests : List LlmRequest) : ∃ results r' s, r.run requests = .ok (results, r') ∧
      EventLoop.Reach step (r.start requests) s ∧ r'.toServingState = s.takeResults.2 ∧
      s.sim.pending = [] ∧ Accounts requests results r'.toServingState := by
  obtain ⟨s, hs, hend, hreg, hd⟩ := servingLoop.exists_registered step_isOk (r.start requests)
    hnodes requests rfl
  exact ⟨_, _, s, by rw [run, hs]; rfl, EventLoop.run_reach hs, rfl, hend, hreg.accounts hd hend⟩

theorem run_accounts (r : CacheAwareRunner C P T) (hnodes : r.cluster.DistinctNodeIds)
    (requests : List LlmRequest) : ∃ results r', r.run requests = .ok (results, r') ∧
      Accounts requests results r'.toServingState := by
  obtain ⟨results, r', s, hrun, -, -, -, haccounts⟩ := r.exists_run hnodes requests
  exact ⟨results, r', hrun, haccounts⟩

theorem run_completesAll (iterOrder : IterOrder) (config : ServingConfig)
    (cluster : ClusterTopology) (compute : C) (transfer : T) (profile : ModelProfile)
    (placement : P) (hnodes : cluster.DistinctNodeIds) (hidle : cluster.AllIdle)
    (requests : List LlmRequest) :
    ∃ results r', (new iterOrder config cluster compute transfer profile placement).run requests =
      .ok (results, r') ∧ CompletesAll cluster requests results r'.toServingState := by
  obtain ⟨results, r', s, hrun, hreach, hs, hend, haccounts⟩ :=
    (new iterOrder config cluster compute transfer profile placement).exists_run hnodes requests
  refine ⟨results, r', hrun, haccounts.completesAll fun stage hq => ?_⟩
  refine servingLoop.unserved hnodes hidle rfl hreach hend stage ?_
  rw [hs] at hq
  cases stage <;> exact hq

end CacheAwareRunner

namespace NoReuseRunner

theorem exists_runAll {r : NoReuseRunner C} (h : r.Staffed) (l : List LlmRequest) :
    ∃ results r', runAll l r = .ok (results, r') ∧ r'.Staffed ∧
      List.Forall₂ RequestResult.Reports results l := by
  induction l generalizing r with
  | nil => exact ⟨[], r, rfl, h, .nil⟩
  | cons q rest ih =>
    obtain ⟨p, d, x, r₁, hone, hserves⟩ := runOne_spec h q
    obtain ⟨results, r', hall, hstaffed, hreports⟩ := ih hserves.staffed
    have hx : x.Reports q := by
      rw [hserves.result]
      exact ⟨rfl, rfl, rfl, rfl, rfl, rfl⟩
    exact ⟨x :: results, r', by rw [runAll, hone, Except.ok_bind]; dsimp only; rw [hall]; rfl,
      hstaffed, .cons hx hreports⟩

/-- Every request has a result, also if ids are used twice. -/
theorem run_reports (r : NoReuseRunner C) (h : r.Staffed) (requests : List LlmRequest) :
    ∃ results r', r.run requests = .ok (results, r') ∧ r'.Staffed ∧
      List.Forall₂ RequestResult.Reports results (sortRequests requests) :=
  exists_runAll h (sortRequests requests)

end NoReuseRunner

section

variable [PlacementPolicy P] [TransferModel T] (requests : List LlmRequest)

/-- **Runs on any trace.** On a cluster with distinct node ids neither event-driven runner panics or
fails to end, whatever it did before and whatever the trace. Each returns at most one result for an
id, about the request of that id that is last in order of arrival, and a request without a result is
left in a queue. The no-reuse runner returns a result for every request. -/
theorem runs_total :
    (∀ r : EventDrivenRunner C, r.cluster.DistinctNodeIds → ∃ results r',
      r.run requests = .ok (results, r') ∧ Accounts requests results r'.toServingState) ∧
    (∀ r : CacheAwareRunner C P T, r.cluster.DistinctNodeIds → ∃ results r',
      r.run requests = .ok (results, r') ∧ Accounts requests results r'.toServingState) ∧
    ∀ r : NoReuseRunner C, r.Staffed → ∃ results r', r.run requests = .ok (results, r') ∧
      r'.Staffed ∧ List.Forall₂ RequestResult.Reports results (sortRequests requests) :=
  ⟨fun r h => r.run_accounts h requests, fun r h => r.run_accounts h requests,
    fun r h => r.run_reports h requests⟩

/-- Three requests, two of them with one id. The later one of those is served. -/
theorem runs_total_repeated : ∃ results r',
    (EventDrivenRunner.new ⟨1, 1, 1⟩ (.singleNode 1 1) unitCompute).run
      [.cold 7 0 8 2, .cold 7 20 9 2, .cold 8 0 8 2] = .ok (results, r') ∧
    Accounts [.cold 7 0 8 2, .cold 7 20 9 2, .cold 8 0 8 2] results r'.toServingState :=
  (runs_total (P := RemoteLru) (T := AnalyticalTransferModel)
    [.cold 7 0 8 2, .cold 7 20 9 2, .cold 8 0 8 2]).1
    (.new ⟨1, 1, 1⟩ (.singleNode 1 1) unitCompute) (by decide)

variable (config : ServingConfig) (cluster : ClusterTopology) (compute : C) (iterOrder : IterOrder)
  (transfer : T) (profile : ModelProfile) (placement : P)

/-- **Nothing is left without a reason.** From an idle cluster either runner leaves a request in a
queue only if the cluster has no GPU for the role, whatever the trace. -/
theorem idle_runs_complete (hnodes : cluster.DistinctNodeIds) (hidle : cluster.AllIdle) :
    (∃ results r', (EventDrivenRunner.new config cluster compute).run requests = .ok (results, r') ∧
      CompletesAll cluster requests results r'.toServingState) ∧
    ∃ results r',
      (CacheAwareRunner.new iterOrder config cluster compute transfer profile placement).run
        requests = .ok (results, r') ∧
      CompletesAll cluster requests results r'.toServingState :=
  ⟨EventDrivenRunner.run_completesAll config cluster compute hnodes hidle requests,
    CacheAwareRunner.run_completesAll iterOrder config cluster compute transfer profile
    placement hnodes
      hidle requests⟩

/-- A node without a decode GPU. -/
theorem idle_runs_complete_prefillOnly : ∃ results r',
    (EventDrivenRunner.new ⟨1, 1, 1⟩ (.singleNode 1 0) unitCompute).run
      [.cold 7 0 8 2, .cold 8 0 8 2] = .ok (results, r') ∧
    CompletesAll (.singleNode 1 0) [.cold 7 0 8 2, .cold 8 0 8 2] results r'.toServingState :=
  (idle_runs_complete [.cold 7 0 8 2, .cold 8 0 8 2] ⟨1, 1, 1⟩ (.singleNode 1 0) unitCompute
    .ascending AnalyticalTransferModel.rdma400g .llama8bBf16Gqa (RemoteLru.mk 0)
    (by decide) (by decide)).1

end

end KvFlowSim
