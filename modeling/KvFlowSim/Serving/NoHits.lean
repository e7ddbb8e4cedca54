import KvFlowSim.Serving.HitPartition

/-!
# Runs without hits

As long as no request is credited with a hit, the cache-aware runner does what the event-driven
runner does: the two are in lock step. Their states differ only in the notes on the requests
(`Plain`): the cache-aware runner may have written the prompt tokens of a request into its
`prefill_tokens`, which starts the same prefill as the `0` of a new request.

A hit may be credited only at the end of a fetch, so what has to be zero all along is the number of
requests that were hits or wait for a fetch (`CacheHitStats.reused`); it never decreases, and at the
end of a run it is the number of hits.
-/

namespace KvFlowSim

open Except

namespace InFlightRequest

/-- A request without the notes of the cache-aware runner. -/
def plain (r : InFlightRequest) : InFlightRequest :=
  { r with prefillTokens := 0, pendingFetchTier := none }

/-- A prefill of the request is a prefill of its whole prompt. -/
def WholePrompt (r : InFlightRequest) : Prop :=
  r.prefillTokens = 0 ∨ r.prefillTokens = r.request.promptTokens

end InFlightRequest

namespace ServingState

/-- The states `s` of the cache-aware and `t` of the event-driven runner agree but for the notes. -/
structure Plain (s t : ServingState) : Prop where
  sim : t.sim = s.sim
  cluster : t.cluster = s.cluster
  queue : ∀ stage, t.queue stage = s.queue stage
  results : t.results = s.results
  inFlight : ∀ id, t.inFlight.get id = (s.inFlight.get id).map InFlightRequest.plain
  wholePrompt : ∀ id r, s.inFlight.get id = some r → r.WholePrompt

variable {C : Type} [ComputeModel C] {compute : C} {config : ServingConfig} {stage : Stage}
  {s s' t : ServingState} {now id : UInt64}

/-- Starting a stage of a request without its notes. -/
theorem start_plain {sim sim' : Simulator ServingEvent} {cluster cluster' : ClusterTopology}
    {r r' : InFlightRequest} {n : NodeId} {i : ℕ} (hr : r.WholePrompt)
    (h : stage.start sim cluster compute config r n i now = .ok (sim', cluster', r')) :
    stage.start sim cluster compute config r.plain n i now = .ok (sim', cluster', r'.plain) ∧
      r'.WholePrompt := by
  cases stage with
  | prefill =>
    obtain ⟨c, hc, h⟩ := bind_eq_ok.1 h
    cases h
    have htokens : (if r.prefillTokens = 0 then r.request.promptTokens else r.prefillTokens) =
        r.request.promptTokens := by
      rcases hr with hr | hr <;> simp [hr]
    rw [htokens] at hc
    refine ⟨?_, hr⟩
    simp only [Stage.start, startPrefill, InFlightRequest.plain, if_true, htokens, hc, ok_bind]
  | decode =>
    obtain ⟨c, hc, h⟩ := bind_eq_ok.1 h
    cases h
    refine ⟨?_, hr⟩
    simp only [Stage.start, startDecode, InFlightRequest.plain, hc, ok_bind]

namespace Plain

theorem setQueue (h : Plain s t) (stage : Stage) (q : List UInt64) :
    Plain (s.setQueue stage q) (t.setQueue stage q) where
  sim := by simpa using h.sim
  cluster := by simpa using h.cluster
  queue other := by rw [queue_setQueue, queue_setQueue, h.queue]
  results := by simpa using h.results
  inFlight := by simpa using h.inFlight
  wholePrompt := by simpa using h.wholePrompt

/-- The notes on a request change. -/
theorem note {r r' : InFlightRequest} (h : Plain s t) (hr : s.inFlight.get id = some r)
    (hplain : r'.plain = r.plain) (hwhole : r'.WholePrompt) :
    Plain { s with inFlight := s.inFlight.insert r' } t := by
  have hid' : r'.id = r.id := congrArg (fun r => r.request.requestId) hplain
  have hid : r'.id = id := hid'.trans (KeyedMap.key_of_get hr)
  refine ⟨h.sim, h.cluster, fun stage => ?_, h.results, fun id' => ?_, fun id' r₁ hr₁ => ?_⟩
  · rw [h.queue]
    cases stage <;> rfl
  · simp only [KeyedMap.get_insert, hid]
    split_ifs with heq
    · rw [heq, h.inFlight, hr, Option.map_some, Option.map_some, hplain]
    · exact h.inFlight id'
  · simp only [KeyedMap.get_insert] at hr₁
    split_ifs at hr₁
    · exact Option.some.inj hr₁ ▸ hwhole
    · exact h.wholePrompt id' r₁ hr₁

theorem start {gpu : NodeId × ℕ} (h : Plain s t)
    (hs : s.start compute config stage id gpu now = .ok s') :
    ∃ t', t.start compute config stage id gpu now = .ok t' ∧ Plain s' t' := by
  unfold ServingState.start at hs ⊢
  rw [h.inFlight]
  split at hs
  next hnone =>
    obtain rfl := ok.inj hs
    exact ⟨t, by rw [hnone]; rfl, h⟩
  next r hr =>
    obtain ⟨⟨sim, cluster, r'⟩, hstart, hs⟩ := bind_eq_ok.1 hs
    obtain rfl := ok.inj hs
    obtain ⟨hstart', hwhole⟩ := start_plain (h.wholePrompt id r hr) hstart
    refine ⟨{ t with sim, cluster, inFlight := t.inFlight.insert r'.plain }, ?_, ?_⟩
    · simp only [hr, Option.map_some, h.sim, h.cluster, hstart', ok_bind]
    · refine ⟨rfl, rfl, fun stage => ?_, h.results, fun id' => ?_, fun id' r₁ hr₁ => ?_⟩
      · have hq := h.queue stage
        cases stage <;> exact hq
      · simp only [KeyedMap.get_insert]
        have hid : r'.plain.id = r'.id := rfl
        rw [hid]
        split_ifs
        · rfl
        · exact h.inFlight id'
      · simp only [KeyedMap.get_insert] at hr₁
        split_ifs at hr₁
        · exact Option.some.inj hr₁ ▸ hwhole
        · exact h.wholePrompt id' r₁ hr₁

theorem startOrQueue (h : Plain s t) (hs : s.startOrQueue compute config stage id now = .ok s') :
    ∃ t', t.startOrQueue compute config stage id now = .ok t' ∧ Plain s' t' := by
  obtain ⟨gpu, hgpu, hs⟩ := bind_eq_ok.1 hs
  rw [ServingState.startOrQueue, h.cluster, hgpu, ok_bind]
  cases gpu with
  | some gpu => exact h.start hs
  | none =>
    obtain rfl := ok.inj hs
    exact ⟨_, rfl, by rw [h.queue]; exact h.setQueue stage _⟩

theorem startOrQueueDecode (h : Plain s t)
    (hs : s.startOrQueueDecode compute config id now = .ok s') :
    ∃ t', t.startOrQueueDecode compute config id now = .ok t' ∧ Plain s' t' := by
  unfold ServingState.startOrQueueDecode at hs ⊢
  rw [h.inFlight]
  split at hs
  next hnone =>
    obtain rfl := ok.inj hs
    exact ⟨t, by rw [hnone]; rfl, h⟩
  next r hr =>
    rw [hr]
    exact h.startOrQueue hs

theorem assign {q : List UInt64} (h : Plain s t)
    (hs : ServingState.assign compute config stage now q s = .ok s') :
    ∃ t', ServingState.assign compute config stage now q t = .ok t' ∧ Plain s' t' := by
  induction q generalizing s t with
  | nil =>
    obtain rfl := ok.inj hs
    exact ⟨t, rfl, h⟩
  | cons id rest ih =>
    obtain ⟨gpu, hgpu, hs⟩ := bind_eq_ok.1 hs
    rw [ServingState.assign, h.cluster, hgpu, ok_bind]
    cases gpu with
    | none =>
      obtain rfl := ok.inj hs
      exact ⟨t, rfl, h⟩
    | some gpu =>
      obtain ⟨s₁, hs₁, hs⟩ := bind_eq_ok.1 hs
      obtain ⟨t₁, ht₁, h₁⟩ := (h.setQueue stage rest).start hs₁
      obtain ⟨t', ht', h'⟩ := ih h₁ hs
      refine ⟨t', ?_, h'⟩
      simp only [ht₁, ok_bind]
      exact ht'

theorem tryAssign (h : Plain s t) (hs : s.tryAssign compute config stage now = .ok s') :
    ∃ t', t.tryAssign compute config stage now = .ok t' ∧ Plain s' t' := by
  rw [ServingState.tryAssign, h.queue]
  exact h.assign hs

theorem releaseGpu {n : NodeId} {i : ℕ} (h : Plain s t) (hs : s.releaseGpu n i now = .ok s') :
    ∃ t', t.releaseGpu n i now = .ok t' ∧ Plain s' t' := by
  obtain ⟨cluster, hcluster, hs⟩ := bind_eq_ok.1 hs
  obtain rfl := ok.inj hs
  refine ⟨{ t with cluster }, by rw [ServingState.releaseGpu, h.cluster, hcluster]; rfl, ?_⟩
  refine ⟨h.sim, rfl, fun stage => ?_, h.results, h.inFlight, h.wholePrompt⟩
  have hq := h.queue stage
  cases stage <;> exact hq

theorem finish (h : Plain s t) (id : UInt64) : Plain (s.finish id) (t.finish id) := by
  unfold ServingState.finish
  rw [h.inFlight]
  cases hr : s.inFlight.get id with
  | none => exact h
  | some r =>
    simp only [Option.map_some]
    refine ⟨h.sim, h.cluster, fun stage => ?_, ?_, fun id' => ?_, fun id' r₁ hr₁ => ?_⟩
    · have hq := h.queue stage
      cases stage <;> exact hq
    · simp only [h.results]
      rfl
    · simp only [KeyedMap.get_remove]
      split_ifs
      · rfl
      · exact h.inFlight id'
    · simp only [KeyedMap.get_remove] at hr₁
      split_ifs at hr₁
      exact h.wholePrompt id' r₁ hr₁

end Plain

theorem plain_start (cluster : ClusterTopology) (l : List LlmRequest) :
    Plain ((ServingState.new cluster).enterAll l) ((ServingState.new cluster).enterAll l) := by
  refine ⟨rfl, rfl, fun _ => rfl, rfl, fun id => ?_, fun id r hr => ?_⟩
  · cases hr : ((ServingState.new cluster).enterAll l).inFlight.get id with
    | none => rfl
    | some r =>
      rcases get_enterAll _ l hr with h | ⟨req, -, rfl⟩
      · simp [ServingState.new] at h
      · rfl
  · rcases get_enterAll _ l hr with h | ⟨req, -, rfl⟩
    · simp [ServingState.new] at h
    · exact .inl rfl

end ServingState

/-- The requests that were hits or wait for a fetch. -/
def CacheHitStats.reused (hits : CacheHitStats) : ℕ :=
  hits.hitsGpu + hits.hitsCpu + hits.hitsRemote + hits.pendingFetches

namespace CacheAwareRunner

open ServingState

variable {C P T : Type} {r r' : CacheAwareRunner C P T} {e e' : EventDrivenRunner C}
  {now id : UInt64}

/-- The two runners agree but for the notes, the cache and the counters. -/
structure Plain (r : CacheAwareRunner C P T) (e : EventDrivenRunner C) : Prop where
  state : r.toServingState.Plain e.toServingState
  compute : e.compute = r.compute
  config : e.config = r.config

namespace Plain

/-- An operation of the shared state on either side. -/
theorem onState {f g : ServingState → Except Panic ServingState} (h : Plain r e)
    (hfg : ∀ s, f r.toServingState = .ok s → ∃ t, g e.toServingState = .ok t ∧ s.Plain t)
    (hr : r.onState f = .ok r') : ∃ e', e.onState g = .ok e' ∧ Plain r' e' := by
  obtain ⟨s, hs, rfl⟩ := onState_eq_ok.1 hr
  obtain ⟨t, ht, hst⟩ := hfg s hs
  exact ⟨_, EventDrivenRunner.onState_eq_ok.2 ⟨t, ht, rfl⟩, hst, h.compute, h.config⟩

theorem releaseGpu {n : NodeId} {i : ℕ} (h : Plain r e)
    (hr : r.onState (·.releaseGpu n i now) = .ok r') :
    ∃ e', e.onState (·.releaseGpu n i now) = .ok e' ∧ Plain r' e' :=
  h.onState (fun _ => h.state.releaseGpu) hr

theorem finish (h : Plain r e) (hr : r.onState (fun s => .ok (s.finish id)) = .ok r') :
    ∃ e', e.onState (fun s => .ok (s.finish id)) = .ok e' ∧ Plain r' e' :=
  h.onState (fun s hs => ⟨_, rfl, by
    obtain rfl := ok.inj hs
    exact h.state.finish id⟩) hr

variable [ComputeModel C]

theorem startOrQueueDecode (h : Plain r e)
    (hr : r.onState (·.startOrQueueDecode r.compute r.config id now) = .ok r') :
    ∃ e', e.onState (·.startOrQueueDecode e.compute e.config id now) = .ok e' ∧ Plain r' e' := by
  rw [h.compute, h.config]
  exact h.onState (fun _ => h.state.startOrQueueDecode) hr

theorem tryAssignPrefill (h : Plain r e) (hr : r.tryAssignPrefill now = .ok r') :
    ∃ e', e.tryAssignPrefill now = .ok e' ∧ Plain r' e' := by
  rw [EventDrivenRunner.tryAssignPrefill, h.compute, h.config]
  exact h.onState (fun _ => h.state.tryAssign) hr

theorem tryAssignDecode (h : Plain r e) (hr : r.tryAssignDecode now = .ok r') :
    ∃ e', e.tryAssignDecode now = .ok e' ∧ Plain r' e' := by
  rw [EventDrivenRunner.tryAssignDecode, h.compute, h.config]
  exact h.onState (fun _ => h.state.tryAssign) hr

end Plain

/-! ## The reused requests -/

/-- The books of the run are in order. -/
def Kept (ids : Multiset UInt64) (r : CacheAwareRunner C P T) : Prop :=
  Tracked ids (r.toServingState, none) ∧ ∃ n arrivals log, (r.ledger arrivals log).Balanced n

variable {ids : Multiset UInt64}

theorem kept_start (r : CacheAwareRunner C P T) {requests : List LlmRequest}
    (hids : DistinctIds requests) : Kept (ServingState.ids requests) (r.start requests) := by
  refine ⟨?_, requests.length, 0, [], balanced_start r hids⟩
  rw [← ids_sortRequests]
  exact tracked_start r.cluster _

theorem Kept.pendingFetches_eq_zero (h : Kept ids r) (hend : r.sim.pending = []) :
    r.hits.pendingFetches = 0 := by
  obtain ⟨-, n, arrivals, log, hbalanced⟩ := h
  have hfetches : r.hits.pendingFetches = r.waiting.countP (·.isFetchDone) := hbalanced.fetches
  simpa [waiting, hend] using hfetches

/-- A request that was a hit, or waits for a fetch, does not become a miss. -/
theorem Effect.reused_le {kind : ServingEvent} (h : Effect r r' kind) :
    r.hits.reused ≤ r'.hits.reused := by
  simp only [CacheHitStats.reused]
  cases h with
  | arrived h =>
    cases h with
    | counted c hhits =>
      rw [hhits]
      cases c <;> simp only [CacheHitStats.counted] <;> omega
    | degraded hhits => simp only [hhits, CacheHitStats.counted, le_refl]
    | fetching tier _ hhits => simp only [hhits]; omega
  | @credited id tier c hc h =>
    rw [h.hits]
    cases tier <;> cases hc <;> simp only [CacheHitStats.counted] <;> omega
  | completed _ hhits =>
    obtain ⟨k, hk⟩ := hhits
    simp only [hk, le_refl]

/-- A pending fetch is counted. -/
theorem Kept.reused_pos (h : Kept ids r) {sim : Simulator ServingEvent}
    (hnext : r.sim.step = some (now, .fetchDone id, sim)) : 0 < r.hits.reused := by
  obtain ⟨-, n, arrivals, log, hbalanced⟩ := h
  have hmem : .fetchDone id ∈ r.waiting := (waiting_step hnext).mem_iff.2 List.mem_cons_self
  have hpos : 0 < r.waiting.countP (·.isFetchDone) := List.countP_pos_iff.2 ⟨_, hmem, rfl⟩
  have hfetches : r.hits.pendingFetches = r.waiting.countP (·.isFetchDone) := hbalanced.fetches
  simp only [CacheHitStats.reused]
  omega

/-! ## The handlers -/

variable [ComputeModel C]

/-- A request starts without reuse. -/
theorem Plain.prefillWhole {inflight inflight' : InFlightRequest} {s : ServingState} (h : Plain r e)
    (hin : r.inFlight.get id = some inflight) (hplain : inflight'.plain = inflight.plain)
    (hwhole : inflight'.WholePrompt)
    (hs : (r.setInFlight inflight').toServingState.startOrQueue r.compute r.config .prefill id now =
      .ok s) :
    ∃ t, e.onArrival now id = .ok { e with toServingState := t } ∧ s.Plain t := by
  have hnote := h.state.note hin hplain hwhole
  obtain ⟨t, ht, hst⟩ := hnote.startOrQueue hs
  refine ⟨t, EventDrivenRunner.onState_eq_ok.2 ⟨t, ?_, rfl⟩, hst⟩
  rw [h.compute, h.config]
  exact ht

/-- A request whose fetch fails starts without reuse. -/
theorem Plain.degradeToMiss {inflight : InFlightRequest} (h : Plain r e)
    (hin : r.inFlight.get id = some inflight) (hr : r.degradeToMiss now id = .ok r') :
    ∃ e', e.onArrival now id = .ok e' ∧ Plain r' e' := by
  unfold CacheAwareRunner.degradeToMiss at hr
  simp only [hin] at hr
  obtain ⟨s, hs, rfl⟩ := onState_eq_ok.1 hr
  let whole : InFlightRequest := { inflight with
    pendingFetchTier := none, prefillTokens := inflight.request.promptTokens }
  have hplain : whole.plain = inflight.plain := rfl
  have hwhole : whole.WholePrompt := .inr rfl
  obtain ⟨t, ht, hst⟩ := h.prefillWhole hin hplain hwhole hs
  exact ⟨_, ht, hst, h.compute, h.config⟩

theorem Plain.missOnArrival {inflight : InFlightRequest} (h : Plain r e)
    (hin : r.inFlight.get id = some inflight) (hr : r.missOnArrival now inflight = .ok r') :
    ∃ e', e.onArrival now id = .ok e' ∧ Plain r' e' := by
  obtain rfl : inflight.id = id := KeyedMap.key_of_get hin
  obtain ⟨s, hs, rfl⟩ := Except.map_eq_ok.1 hr
  let whole : InFlightRequest := { inflight with prefillTokens := inflight.request.promptTokens }
  have hplain : whole.plain = inflight.plain := rfl
  have hwhole : whole.WholePrompt := .inr rfl
  obtain ⟨t, ht, hst⟩ := h.prefillWhole hin hplain hwhole hs
  exact ⟨_, ht, hst, h.compute, h.config⟩

theorem Plain.onDecodeDone {n : NodeId} {i : ℕ} (h : Plain r e)
    (hr : r.onDecodeDone now id n i = .ok r') :
    ∃ e', e.onDecodeDone now id n i = .ok e' ∧ Plain r' e' := by
  obtain ⟨r₁, h₁, hr⟩ := bind_eq_ok.1 hr
  obtain ⟨r₂, h₂, hr⟩ := bind_eq_ok.1 hr
  obtain ⟨r₃, h₃, h₄⟩ := bind_eq_ok.1 hr
  obtain ⟨e₁, he₁, hp₁⟩ := h.releaseGpu h₁
  obtain ⟨e₂, he₂, hp₂⟩ := hp₁.finish h₂
  obtain ⟨e₃, he₃, hp₃⟩ := hp₂.tryAssignDecode h₃
  obtain ⟨e₄, he₄, hp₄⟩ := hp₃.tryAssignPrefill h₄
  exact ⟨e₄, bind_eq_ok.2 ⟨e₁, he₁, bind_eq_ok.2 ⟨e₂, he₂, bind_eq_ok.2 ⟨e₃, he₃, he₄⟩⟩⟩, hp₄⟩

variable [TransferModel T]

theorem Plain.fetchOnArrival {inflight : InFlightRequest} {tier : TierKind} {kv : KvObject}
    (h : Plain r e) (hin : r.inFlight.get id = some inflight) (hreused : r'.hits.reused = 0)
    (hr : r.fetchOnArrival now inflight tier kv = .ok r') :
    ∃ e', e.onArrival now id = .ok e' ∧ Plain r' e' := by
  obtain rfl : inflight.id = id := KeyedMap.key_of_get hin
  unfold CacheAwareRunner.fetchOnArrival at hr
  rcases handleFetch_cases hr with ⟨transfer, hr⟩ | ⟨transfer, fetchedBytes, t, rfl⟩
  · let marked : InFlightRequest := { inflight with pendingFetchTier := some tier }
    have hwhole : marked.WholePrompt := h.state.wholePrompt inflight.id inflight hin
    have hmarked : (r.inFlight.insert marked).get inflight.id = some marked :=
      (KeyedMap.get_insert _ _ _).trans (if_pos rfl)
    have hset := h.state.note hin (rfl : marked.plain = inflight.plain) hwhole
    refine Plain.degradeToMiss ?_ (?_ : _ = some marked) hr
    · exact ⟨hset, h.compute, h.config⟩
    · exact hmarked
  · simp [CacheHitStats.reused, setInFlight] at hreused

theorem Plain.onArrival (h : Plain r e) (hin : (r.inFlight.get id).isSome)
    (hreused : r'.hits.reused = 0) (hr : r.onArrival now id = .ok r') :
    ∃ e', e.onArrival now id = .ok e' ∧ Plain r' e' := by
  obtain ⟨inflight, hin⟩ := Option.isSome_iff_exists.1 hin
  simp only [CacheAwareRunner.onArrival, hin] at hr
  split at hr
  next => exact h.missOnArrival hin hr
  next kv _ =>
    split at hr
    next =>
      unfold hitOnArrival at hr
      have hhits := (startOrQueueRemainingPrefill_uncounted hr).hits
      simp [CacheHitStats.reused, hhits] at hreused
    next => exact h.fetchOnArrival hin hreused hr
    next => exact h.fetchOnArrival hin hreused hr
    next => exact h.fetchOnArrival hin hreused hr
    next => exact h.missOnArrival hin hr

variable [PlacementPolicy P]

/-- A placement changes nothing that the event-driven runner has. -/
theorem Plain.storeKv (h : Plain r e) (now id : UInt64) : Plain (r.storeKv now id) e := by
  have hfields : (r.storeKv now id).compute = r.compute ∧ (r.storeKv now id).config = r.config := by
    unfold CacheAwareRunner.storeKv
    split
    · exact ⟨rfl, rfl⟩
    · dsimp only
      split_ifs
      · split <;> exact ⟨rfl, rfl⟩
      · exact ⟨rfl, rfl⟩
  exact ⟨by rw [toServingState_storeKv]; exact h.state, h.compute.trans hfields.1.symm,
    h.config.trans hfields.2.symm⟩

theorem Plain.onPrefillDone {n : NodeId} {i : ℕ} (h : Plain r e)
    (hr : r.onPrefillDone now id n i = .ok r') :
    ∃ e', e.onPrefillDone now id n i = .ok e' ∧ Plain r' e' := by
  obtain ⟨r₁, h₁, hr⟩ := bind_eq_ok.1 hr
  obtain ⟨r₂, h₂, hr⟩ := bind_eq_ok.1 hr
  obtain ⟨r₃, h₃, h₄⟩ := bind_eq_ok.1 hr
  obtain ⟨e₁, he₁, hp₁⟩ := h.releaseGpu h₁
  obtain ⟨e₂, he₂, hp₂⟩ := (hp₁.storeKv now id).startOrQueueDecode h₂
  obtain ⟨e₃, he₃, hp₃⟩ := hp₂.tryAssignPrefill h₃
  obtain ⟨e₄, he₄, hp₄⟩ := hp₃.tryAssignDecode h₄
  exact ⟨e₄, bind_eq_ok.2 ⟨e₁, he₁, bind_eq_ok.2 ⟨e₂, he₂, bind_eq_ok.2 ⟨e₃, he₃, he₄⟩⟩⟩, hp₄⟩

/-! ## Runs -/

theorem Kept.advance (hids : ids.Nodup) (h : Kept ids r) (hstep : EventLoop.Step step r r') :
    Kept ids r' := by
  obtain ⟨htracked, n, arrivals, log, hbalanced⟩ := h
  obtain ⟨now, kind, sim, hnext, -⟩ := step_advance hstep
  exact ⟨(step_advance hstep).tracked hids htracked, n, _, _,
    balanced_step hids htracked hbalanced hnext hstep⟩

theorem Kept.reused_le (hids : ids.Nodup) (h : Kept ids r) (hstep : EventLoop.Step step r r') :
    r.hits.reused ≤ r'.hits.reused := by
  obtain ⟨htracked, n, arrivals, log, hbalanced⟩ := h
  obtain ⟨now, kind, sim, hnext, -⟩ := step_advance hstep
  exact (step_effect hids htracked hbalanced hnext hstep).reused_le

/-- One event, in lock step. -/
theorem Plain.step (hids : ids.Nodup) (hkept : Kept ids r) (h : Plain r e)
    (hreused : r'.hits.reused = 0) (hstep : EventLoop.Step step r r') :
    ∃ e', EventLoop.Step EventDrivenRunner.step e e' ∧ Plain r' e' := by
  have hle := hkept.reused_le hids hstep
  obtain ⟨now, kind, sim, hnext, -⟩ := step_advance hstep
  have hin := hkept.1.isSome_get hnext
  have hr' := handleEvent_of_step hnext hstep
  have hnext' : e.sim.step = some (now, kind, sim) := by rw [h.state.sim, hnext]
  have h₀ : Plain { r with sim } { e with sim } :=
    ⟨⟨rfl, h.state.cluster, h.state.queue, h.state.results, h.state.inFlight, h.state.wholePrompt⟩,
      h.compute, h.config⟩
  have hhandle : ∃ e', ({ e with sim } : EventDrivenRunner C).handleEvent now kind = .ok e' ∧
      Plain r' e' := by
    cases kind with
    | requestArrival id => exact h₀.onArrival hin hreused hr'
    | prefillDone id n i => exact h₀.onPrefillDone hr'
    | fetchDone id =>
      have hpos := hkept.reused_pos hnext
      omega
    | decodeDone id n i => exact h₀.onDecodeDone hr'
  obtain ⟨e', he', hp⟩ := hhandle
  refine ⟨e', ?_, hp⟩
  simp only [EventLoop.Step, EventDrivenRunner.step, hnext']
  exact Except.map_eq_ok.2 ⟨e', he', rfl⟩

end CacheAwareRunner

section

open ServingState

variable {C P T : Type} [ComputeModel C] [PlacementPolicy P] [TransferModel T]
  (config : ServingConfig) (cluster : ClusterTopology) (compute : C) (iterOrder : IterOrder)
  (transfer : T) (profile : ModelProfile) (placement : P) (requests : List LlmRequest)

/-- **Without hits the cache-aware runner is the event-driven runner.** If a run of a fresh
cache-aware runner ends without a credited hit, then a fresh event-driven runner returns the same
results for the same trace, cluster, compute model and configuration. -/
theorem cacheAware_eq_eventDriven (hids : DistinctIds requests) {results : List RequestResult}
    {r : CacheAwareRunner C P T}
    (hrun : (CacheAwareRunner.new iterOrder config cluster compute transfer profile placement).run
      requests = .ok (results, r))
    (hgpu : r.hits.hitsGpu = 0) (hcpu : r.hits.hitsCpu = 0) (hremote : r.hits.hitsRemote = 0) :
    ∃ e, (EventDrivenRunner.new config cluster compute).run requests = .ok (results, e) := by
  have hnodup : (ids requests).Nodup := Multiset.coe_nodup.2 hids
  obtain ⟨s, hs, hend, rfl, hhits⟩ := CacheAwareRunner.run_spec hrun
  set start := (CacheAwareRunner.new iterOrder config cluster compute transfer profile
    placement).start requests with hstart
  have hkept : ∀ s', EventLoop.Reach CacheAwareRunner.step start s' →
      CacheAwareRunner.Kept (ids requests) s' := fun s' hreach =>
    hreach.invariant (fun _ _ hk hstep => hk.advance hnodup hstep)
      (CacheAwareRunner.kept_start _ hids)
  have hpending := (hkept s (EventLoop.run_reach hs)).pendingFetches_eq_zero hend
  have hreused : s.hits.reused = 0 := by
    simp only [CacheHitStats.reused, ← hhits, hgpu, hcpu, hremote]
    rw [hhits, hpending]
  have hstep : ∀ s₁ e₁ s₂, EventLoop.Reach CacheAwareRunner.step start s₁ →
      EventLoop.Reach CacheAwareRunner.step s₂ s → s₁.Plain e₁ →
      EventLoop.Step CacheAwareRunner.step s₁ s₂ →
      ∃ e₂, EventLoop.Step EventDrivenRunner.step e₁ e₂ ∧ s₂.Plain e₂ := by
    intro s₁ e₁ s₂ hfirst hlast hplain hstep
    have hle : s₂.hits.reused ≤ s.hits.reused := hlast.monotone
      (fun _ _ hk hstep => hk.advance hnodup hstep) (fun _ _ hk hstep => hk.reused_le hnodup hstep)
      ((hkept s₁ hfirst).advance hnodup hstep)
    exact hplain.step hnodup (hkept s₁ hfirst) (by omega) hstep
  have hstop : ∀ (s₁ : CacheAwareRunner C P T) e₁, s₁.Plain e₁ →
      CacheAwareRunner.step s₁ = .ok none → EventDrivenRunner.step e₁ = .ok none := by
    intro s₁ e₁ hplain hs₁
    rw [CacheAwareRunner.servingLoop.halted] at hs₁
    rw [EventDrivenRunner.servingLoop.halted, hplain.state.sim]
    exact hs₁
  have hplain : start.Plain ((EventDrivenRunner.new config cluster compute).start requests) :=
    ⟨plain_start cluster _, rfl, rfl⟩
  obtain ⟨e, he, hplain⟩ := EventLoop.run_simulates hstep hstop hplain hs
  obtain ⟨e', he'⟩ := EventDrivenRunner.run_eq he
  exact ⟨e', by rw [he', hplain.state.results]⟩

end

/-- A fetch that fails: both requests are misses, and the two runners return the same results. -/
theorem cacheAware_eq_eventDriven_degraded :
    let requests := [.cold 0 0 8 2, { LlmRequest.cold 1 9000000 12 2 with
      sessionId := 0, newPromptTokens := 4 }]
    ∃ results r e,
      (CacheAwareRunner.new .ascending ⟨1, 1, 1⟩ (.singleNode 1 1) LinearComputeModel.conservative8b
        { AnalyticalTransferModel.rdma400g with remoteMemoryBps := 0 } .llama8bBf16Gqa
        (RemoteLru.mk 0)).run requests = .ok (results, r) ∧
      r.hits = { misses := 2, fetchErrors := 1 } ∧
      (EventDrivenRunner.new ⟨1, 1, 1⟩ (.singleNode 1 1)
        LinearComputeModel.conservative8b).run requests = .ok (results, e) := by
  intro requests
  have hhits : ((CacheAwareRunner.new .ascending ⟨1, 1, 1⟩ (.singleNode 1 1)
      LinearComputeModel.conservative8b
      { AnalyticalTransferModel.rdma400g with remoteMemoryBps := 0 } .llama8bBf16Gqa
      (RemoteLru.mk 0)).run requests).toOption.map (fun p => p.2.hits) =
      some { misses := 2, fetchErrors := 1 } := by
    decide +kernel
  obtain ⟨⟨results, r⟩, hrun, hr⟩ := Option.map_eq_some_iff.1 hhits
  have hrun := Except.toOption_eq_some.1 hrun
  have hr : r.hits = { misses := 2, fetchErrors := 1 } := hr
  obtain ⟨e, he⟩ := cacheAware_eq_eventDriven _ _ _ _ _ _ _ _ (by decide) hrun (by rw [hr])
    (by rw [hr]) (by rw [hr])
  exact ⟨results, r, e, hrun, hr, he⟩

end KvFlowSim
