import KvFlowSim.Serving.Effects
import KvFlowSim.Serving.Following

/-!
# The first token and the end of a request

A decode of `n` tokens from a time `t` on ends after `n` steps, and its first token is said to be
there after one step. So it ends before its first token if `n = 0`, and only then
(`endsInTime_iff`). All three runners compute the two times in this way. In the two event-driven
ones they are written into the record of the request when its decode is started
(`InFlightRequest.DecodedFrom`), and a completed decode finds them there (`Recorded`), also if ids
are used twice.
-/

namespace KvFlowSim

open ServingState

variable {C : Type} [ComputeModel C]

/-- The first token does not come after the completion. -/
structure RequestResult.InOrder (x : RequestResult) : Prop where
  firstToken : x.firstTokenNs ≤ x.finishNs
  ttft : x.ttftNs ≤ x.jctNs

theorem RequestResult.inOrder_iff {x : RequestResult} : x.InOrder ↔ x.firstTokenNs ≤ x.finishNs :=
  ⟨fun h => h.firstToken, fun h => ⟨h, UInt64.satSub_le_satSub h _⟩⟩

instance : DecidablePred RequestResult.InOrder :=
  fun _ => decidable_of_iff' _ RequestResult.inOrder_iff

/-- A token is asked for, or decoding takes no time. -/
def LlmRequest.Decodable (compute : C) (config : ServingConfig) (q : LlmRequest) : Prop :=
  0 < q.outputTokens ∨
    ComputeModel.decodeStepTimeNs compute config.decodeBatchSize q.promptTokens = 0

instance (compute : C) (config : ServingConfig) :
    DecidablePred (LlmRequest.Decodable compute config) :=
  fun _ => inferInstanceAs (Decidable (_ ∨ _))

/-- When `n` steps end no sooner than one. -/
theorem endsInTime_iff (t step : UInt64) (n : UInt32) :
    t.satAdd step ≤ t.satAdd (step.satMul n.toUInt64) ↔ (0 < n ∨ step = 0) ∨
    t = UInt64.maxValue := by
  have ht := t.toNat_le_maxValue
  rw [UInt64.le_iff_toNat_le, UInt64.toNat_satAdd, UInt64.toNat_satAdd, UInt64.toNat_satMul,
    ← UInt64.toNat_inj, ← UInt64.toNat_inj, UInt32.lt_iff_toNat_lt, UInt32.toNat_toUInt64]
  show _ ↔ (0 < n.toNat ∨ step.toNat = 0) ∨ _
  rcases Nat.eq_zero_or_pos n.toNat with hzero | hpos
  · rw [hzero, Nat.mul_zero]
    omega
  · have hle := Nat.le_mul_of_pos_right step.toNat hpos
    constructor
    · exact fun _ => .inl (.inl hpos)
    · intro _
      omega

/-- The request of a result, whose two times are in order under one condition only. -/
structure Ends (compute : C) (config : ServingConfig) (q : LlmRequest)
    (x : RequestResult) : Prop where
  requestId : x.requestId = q.requestId
  promptTokens : x.promptTokens = q.promptTokens
  outputTokens : x.outputTokens = q.outputTokens
  inOrder : x.InOrder ↔ q.Decodable compute config ∨ x.decodeStartNs = UInt64.maxValue

/-! ## The no-reuse runner -/

theorem NoReuseRunner.ends_served (compute : C) (config : ServingConfig) (q : LlmRequest)
    (p d : UInt64) : Ends compute config q (served compute config q p d) := by
  refine ⟨rfl, rfl, rfl, RequestResult.inOrder_iff.trans ?_⟩
  exact endsInTime_iff _ _ _

theorem NoReuseRunner.ends_runAll {l : List LlmRequest} {r r' : NoReuseRunner C}
    {results : List RequestResult} (h : runAll l r = .ok (results, r')) :
    ∀ x ∈ results, ∃ q ∈ l, Ends r.compute r.config q x := by
  induction l generalizing r results with
  | nil =>
    cases h
    exact fun x hx => absurd hx List.not_mem_nil
  | cons q rest ih =>
    obtain ⟨⟨x, r₁⟩, hone, h⟩ := Except.bind_eq_ok.1 h
    obtain ⟨⟨xs, r₂⟩, hrest, h⟩ := Except.bind_eq_ok.1 h
    cases h
    obtain ⟨p, -, hone⟩ := Except.bind_eq_ok.1 hone
    obtain ⟨d, -, hone⟩ := Except.bind_eq_ok.1 hone
    cases hone
    intro y hy
    rcases List.mem_cons.1 hy with rfl | hy
    · exact ⟨q, List.mem_cons_self, ends_served r.compute r.config q p d⟩
    · obtain ⟨q', hq', hends⟩ := ih hrest y hy
      exact ⟨q', List.mem_cons_of_mem _ hq', hends⟩

/-! ## Records of decodes -/

/-- The record shows a decode that was started at `t`. -/
structure InFlightRequest.DecodedFrom (compute : C) (config : ServingConfig) (r : InFlightRequest)
    (t : UInt64) : Prop where
  decodeStart : r.decodeStartNs = some t
  firstToken : r.firstTokenNs = some (t.satAdd
    (ComputeModel.decodeStepTimeNs compute config.decodeBatchSize r.request.promptTokens))
  finish : r.finishNs = some (t.satAdd
    ((ComputeModel.decodeStepTimeNs compute config.decodeBatchSize r.request.promptTokens).satMul
      r.request.outputTokens.toUInt64))

/-- Some decode is shown. -/
def InFlightRequest.Decoded (compute : C) (config : ServingConfig) (r : InFlightRequest) : Prop :=
  ∃ t, r.DecodedFrom compute config t

/-- The requests in flight are of the trace, a decode that is under way is shown in the record of
its request, if there still is one, and what is done is a record that showed a decode. -/
structure Recorded (compute : C) (config : ServingConfig) (l : List LlmRequest) (s : ServingState) :
    Prop where
  request : ∀ id r, s.inFlight.get id = some r → r.request ∈ l
  decoding : ∀ ev ∈ s.sim.pending, ∀ id n i, ev.kind = .decodeDone id n i →
    ∀ r, s.inFlight.get id = some r → r.Decoded compute config
  results : ∀ x ∈ s.results, ∃ r : InFlightRequest,
    r.request ∈ l ∧ r.Decoded compute config ∧ x = r.intoResult

variable {compute : C} {config : ServingConfig} {l : List LlmRequest} {s s' : ServingState}
  {r r' : InFlightRequest} {stage : Stage} {id now : UInt64} {n : NodeId} {i : ℕ}

theorem InFlightRequest.Decoded.ends (h : r.Decoded compute config) :
    Ends compute config r.request r.intoResult := by
  obtain ⟨t, hstart, hfirst, hfinish⟩ := h
  refine ⟨rfl, rfl, rfl, RequestResult.inOrder_iff.trans ?_⟩
  simp only [InFlightRequest.intoResult, hstart, hfirst, hfinish, Option.getD_some]
  exact endsInTime_iff _ _ _

/-- Notes on a request other than on its decode do not matter. -/
theorem InFlightRequest.Decoded.noted (h : r.Decoded compute config)
    (hrequest : r'.request = r.request) (hstart : r'.decodeStartNs = r.decodeStartNs)
    (hfirst : r'.firstTokenNs = r.firstTokenNs) (hfinish : r'.finishNs = r.finishNs) :
    r'.Decoded compute config := by
  obtain ⟨t, h⟩ := h
  refine ⟨t, hstart.trans h.decodeStart, hfirst.trans ?_, hfinish.trans ?_⟩
  · rw [hrequest]
    exact h.firstToken
  · rw [hrequest]
    exact h.finish

/-! ## What the operations keep -/

namespace Recorded

/-- Only the events and the records matter, and fewer of either do no harm. -/
theorem sub (h : Recorded compute config l s)
    (hin : ∀ id r, s'.inFlight.get id = some r → s.inFlight.get id = some r)
    (hpending : s'.sim.pending ⊆ s.sim.pending) (hresults : s'.results = s.results) :
    Recorded compute config l s' where
  request id r hr := h.request id r (hin id r hr)
  decoding ev hev id n i hkind r hr := h.decoding ev (hpending hev) id n i hkind r (hin id r hr)
  results x hx := h.results x (hresults ▸ hx)

/-- A record is written that still shows its decode, and events are scheduled. -/
theorem write (h : Recorded compute config l s) (hr : s.inFlight.get r.id = some r)
    (hin : s'.inFlight = s.inFlight.insert r') (hrequest : r'.request = r.request)
    (hkept : r.Decoded compute config → r'.Decoded compute config)
    (hpending : ∀ ev ∈ s'.sim.pending, ev ∈ s.sim.pending ∨
      ∀ id n i, ev.kind = .decodeDone id n i → id = r'.id ∧ r'.Decoded compute config)
    (hresults : s'.results = s.results) : Recorded compute config l s' where
  request id x hx := by
    rw [hin, KeyedMap.get_insert] at hx
    split_ifs at hx with hid
    · obtain rfl := Option.some.inj hx
      exact hrequest ▸ h.request _ r hr
    · exact h.request id x hx
  decoding ev hev id n i hkind x hx := by
    rw [hin, KeyedMap.get_insert] at hx
    split_ifs at hx with hid
    · obtain rfl := Option.some.inj hx
      rcases hpending ev hev with hold | hnew
      · have hid' : id = r.id := hid.trans (congrArg LlmRequest.requestId hrequest)
        exact hkept (h.decoding ev hold id n i hkind r (hid' ▸ hr))
      · exact (hnew id n i hkind).2
    · rcases hpending ev hev with hold | hnew
      · exact h.decoding ev hold id n i hkind x hx
      · exact absurd (hnew id n i hkind).1 hid
  results x hx := h.results x (hresults ▸ hx)

theorem start (h : Recorded compute config l s)
    (hrun : s.start compute config stage id (n, i) now = .ok s') :
    Recorded compute config l s' := by
  cases hr : s.inFlight.get id with
  | none =>
    simp only [ServingState.start, hr] at hrun
    obtain rfl := Except.ok.inj hrun
    exact h
  | some r =>
    obtain rfl : r.id = id := KeyedMap.key_of_get hr
    cases stage with
    | prefill =>
      obtain ⟨cluster, -, rfl⟩ := start_prefill_ok hr hrun
      refine h.write hr rfl rfl (fun hd => hd.noted rfl rfl rfl rfl) (fun ev hev => ?_) rfl
      rw [Simulator.pending_schedule] at hev
      refine (List.mem_append.1 hev).imp_right fun hev _ _ _ hkind => ?_
      obtain rfl := List.mem_singleton.1 hev
      cases hkind
    | decode =>
      obtain ⟨cluster, -, rfl⟩ := start_decode_ok hr hrun
      have hnew : InFlightRequest.Decoded compute config { r with
          decodeStartNs := some now
          firstTokenNs := some (now.satAdd
            (ComputeModel.decodeStepTimeNs compute config.decodeBatchSize r.request.promptTokens))
          finishNs := some (now.satAdd
            ((ComputeModel.decodeStepTimeNs compute config.decodeBatchSize
            r.request.promptTokens).satMul r.request.outputTokens.toUInt64))
          decodeNode := some n
          decodeGpu := some i } := ⟨now, rfl, rfl, rfl⟩
      refine h.write hr rfl rfl (fun _ => hnew) (fun ev hev => ?_) rfl
      rw [Simulator.pending_schedule] at hev
      refine (List.mem_append.1 hev).imp_right fun hev id' _ _ hkind => ⟨?_, hnew⟩
      obtain rfl := List.mem_singleton.1 hev
      cases hkind
      rfl

theorem setQueue (h : Recorded compute config l s) (stage : Stage) (q : List UInt64) :
    Recorded compute config l (s.setQueue stage q) :=
  h.sub (fun id r hr => by rwa [inFlight_setQueue] at hr)
    (by rw [sim_setQueue]; exact List.Subset.refl _) results_setQueue

theorem startOrQueue (h : Recorded compute config l s)
    (hrun : s.startOrQueue compute config stage id now = .ok s') :
    Recorded compute config l s' := by
  obtain ⟨gpu, -, hrun⟩ := Except.bind_eq_ok.1 hrun
  cases gpu with
  | some gpu => exact h.start hrun
  | none =>
    obtain rfl := Except.ok.inj hrun
    exact h.setQueue _ _

theorem startOrQueueDecode (h : Recorded compute config l s)
    (hrun : s.startOrQueueDecode compute config id now = .ok s') :
    Recorded compute config l s' := by
  unfold ServingState.startOrQueueDecode at hrun
  split at hrun
  · obtain rfl := Except.ok.inj hrun
    exact h
  · exact h.startOrQueue hrun

theorem assign {q : List UInt64} (h : Recorded compute config l s)
    (hrun : ServingState.assign compute config stage now q s = .ok s') :
    Recorded compute config l s' := by
  induction q generalizing s with
  | nil =>
    obtain rfl := Except.ok.inj hrun
    exact h
  | cons id rest ih =>
    obtain ⟨gpu, -, hrun⟩ := Except.bind_eq_ok.1 hrun
    cases gpu with
    | none =>
      obtain rfl := Except.ok.inj hrun
      exact h
    | some gpu =>
      obtain ⟨s₁, hstart, hrun⟩ := Except.bind_eq_ok.1 hrun
      exact ih ((h.setQueue _ _).start hstart) hrun

theorem releaseGpu (h : Recorded compute config l s) (hrun : s.releaseGpu n i now = .ok s') :
    Recorded compute config l s' := by
  obtain ⟨cluster, -, hrun⟩ := Except.bind_eq_ok.1 hrun
  obtain rfl := Except.ok.inj hrun
  exact h.sub (fun _ _ hr => hr) (List.Subset.refl _) rfl

/-- The request is done, whose record shows its decode. -/
theorem finish (h : Recorded compute config l s)
    (hdecoded : ∀ r, s.inFlight.get id = some r → r.Decoded compute config) :
    Recorded compute config l (s.finish id) := by
  cases hr : s.inFlight.get id with
  | none =>
    simp only [ServingState.finish, hr]
    exact h
  | some r =>
    have hremoved : ∀ id' r', (s.inFlight.remove id).get id' = some r' →
        s.inFlight.get id' = some r' := fun id' r' hr' => by
      rw [KeyedMap.get_remove] at hr'
      split_ifs at hr'
      exact hr'
    simp only [ServingState.finish, hr]
    refine ⟨fun id' r' hr' => h.request id' r' (hremoved id' r' hr'),
      fun ev hev id' n i hkind r' hr' => h.decoding ev hev id' n i hkind r' (hremoved id' r' hr'),
      fun x hx => ?_⟩
    rcases List.mem_append.1 hx with hx | hx
    · exact h.results x hx
    · exact ⟨r, h.request id r hr, hdecoded r hr, List.mem_singleton.1 hx⟩

/-- The next event is taken out; a completed decode is shown in the record. -/
theorem pop {sim : Simulator ServingEvent} {event : ServingEvent} (h : Recorded compute config l s)
    (hnext : s.sim.step = some (now, event, sim)) :
    Recorded compute config l { s with sim } ∧
      ∀ id n i, event = .decodeDone id n i →
        ∀ r, s.inFlight.get id = some r → r.Decoded compute config := by
  obtain ⟨ev, hkind, hperm, -, -, -⟩ := Simulator.step_spec hnext
  refine ⟨h.sub (fun _ _ hr => hr) (fun x hx => ?_) rfl, ?_⟩
  · exact hperm.mem_iff.2 (List.mem_cons_of_mem _ hx)
  · rintro id n i rfl
    exact h.decoding ev (hperm.mem_iff.2 List.mem_cons_self) id n i hkind

/-- At the start nothing is decoded or done. -/
theorem enterAll (s : ServingState) (requests : List LlmRequest) :
    Recorded compute config requests (s.clear.enterAll (sortRequests requests)) where
  request id r hr := by
    rcases get_enterAll _ _ hr with hr | ⟨q, hq, rfl⟩
    · exact absurd hr (by simp [clear])
    · exact (sortRequests_perm requests).mem_iff.1 hq
  decoding ev hev id n i hkind := by
    have hmem := List.mem_map_of_mem (f := fun ev => ev.kind) hev
    rw [kinds_enterAll, hkind] at hmem
    simp [clear] at hmem
  results x hx := by
    rw [results_enterAll] at hx
    exact absurd hx List.not_mem_nil

/-- The two ways in which the handlers of both runners end. -/
theorem served (h : Recorded compute config l s) {first second : Stage}
    (hserved : Served compute config first second now s s') : Recorded compute config l s' := by
  obtain ⟨s₁, h₁, h₂⟩ := hserved
  exact (h.assign h₁).assign h₂

theorem finished {s₁ : ServingState} (h : Recorded compute config l s)
    (hdecoded : ∀ r, s.inFlight.get id = some r → r.Decoded compute config)
    (hrelease : s.releaseGpu n i now = .ok s₁) : Recorded compute config l (s₁.finish id) := by
  refine (h.releaseGpu hrelease).finish fun r hr => hdecoded r ?_
  rwa [inFlight_releaseGpu hrelease] at hr

end Recorded

theorem Recorded.ends (h : Recorded compute config l s) {x : RequestResult}
    (hx : x ∈ s.takeResults.1) : ∃ q ∈ l, Ends compute config q x := by
  obtain ⟨r, hr, hdecoded, rfl⟩ := h.results x ((List.sortByKey_perm _ _).mem_iff.1 hx)
  exact ⟨r.request, hr, hdecoded.ends⟩

section

variable {σ : Type} (model : σ → C) (settings : σ → ServingConfig) (shared : σ → ServingState)

/-- What the steps of either runner keep. -/
structure Keeps (l : List LlmRequest) (r r' : σ) : Prop where
  same_model : model r' = model r
  same_settings : settings r' = settings r
  recorded : Recorded (model r) (settings r) l (shared r')

variable {model settings shared}

theorem Keeps.of_reach {step : σ → Except Panic (Option σ)} {r r' : σ}
    (hstep : ∀ r r', Recorded (model r) (settings r) l (shared r) → EventLoop.Step step r r' →
      Keeps model settings shared l r r')
    (h : EventLoop.Reach step r r') (hr : Recorded (model r) (settings r) l (shared r)) :
    Keeps model settings shared l r r' := by
  refine h.invariant (fun s s' hs hlast => ?_) ⟨rfl, rfl, hr⟩
  obtain ⟨hmodel, hsettings, hrec⟩ := hs
  rw [← hmodel, ← hsettings] at hrec
  obtain ⟨hmodel', hsettings', hrec'⟩ := hstep s s' hrec hlast
  rw [hmodel, hsettings] at hrec'
  exact ⟨hmodel'.trans hmodel, hsettings'.trans hsettings, hrec'⟩

end

/-! ## The event-driven runner -/

namespace EventDrivenRunner

variable {r r' : EventDrivenRunner C}

/-- What a step keeps. -/
abbrev KeepsRecords (l : List LlmRequest) (r r' : EventDrivenRunner C) : Prop :=
  Keeps (·.compute) (·.config) (·.toServingState) l r r'

theorem onPrefillDone_keepsRecords (h : Recorded r.compute r.config l r.toServingState)
    (hrun : r.onPrefillDone now id n i = .ok r') : KeepsRecords l r r' := by
  obtain ⟨s₁, s₂, s₃, s₄, hrelease, hdecode, hfirst, hsecond, rfl⟩ := onPrefillDone_ok hrun
  exact ⟨rfl, rfl, ((h.releaseGpu hrelease).startOrQueueDecode hdecode).served
    ⟨s₃, hfirst, hsecond⟩⟩

theorem onDecodeDone_keepsRecords (h : Recorded r.compute r.config l r.toServingState)
    (hdecoded : ∀ x, r.inFlight.get id = some x → x.Decoded r.compute r.config)
    (hrun : r.onDecodeDone now id n i = .ok r') : KeepsRecords l r r' := by
  obtain ⟨s₁, s₂, s₃, hrelease, hfirst, hsecond, rfl⟩ := onDecodeDone_ok hrun
  exact ⟨rfl, rfl, (h.finished hdecoded hrelease).served ⟨s₂, hfirst, hsecond⟩⟩

theorem step_keepsRecords (h : Recorded r.compute r.config l r.toServingState)
    (hstep : EventLoop.Step step r r') : KeepsRecords l r r' := by
  obtain ⟨now, event, sim, hnext, hrun⟩ := step_ok hstep
  obtain ⟨hpop, hdecoded⟩ := h.pop hnext
  cases event with
  | requestArrival id =>
    unfold handleEvent onArrival at hrun
    obtain ⟨s₁, hs₁, rfl⟩ := onState_eq_ok.1 hrun
    exact ⟨rfl, rfl, hpop.startOrQueue hs₁⟩
  | prefillDone id n i =>
    obtain ⟨hcompute, hconfig, hrec⟩ := onPrefillDone_keepsRecords (r := { r with sim }) hpop hrun
    exact ⟨hcompute, hconfig, hrec⟩
  | fetchDone id => exact absurd hrun (by simp [handleEvent])
  | decodeDone id n i =>
    obtain ⟨hcompute, hconfig, hrec⟩ := onDecodeDone_keepsRecords (r := { r with sim }) hpop
      (hdecoded id n i rfl) hrun
    exact ⟨hcompute, hconfig, hrec⟩

theorem ends_run {requests : List LlmRequest} {results : List RequestResult}
    (hrun : r.run requests = .ok (results, r')) :
    ∀ x ∈ results, ∃ q ∈ requests, Ends r.compute r.config q x := by
  obtain ⟨r₁, hloop, hrun⟩ := Except.bind_eq_ok.1 hrun
  cases hrun
  have hkept : KeepsRecords requests (r.start requests) r₁ :=
    Keeps.of_reach (fun _ _ => step_keepsRecords) (EventLoop.run_reach hloop)
      (.enterAll r.toServingState requests)
  exact fun x hx => hkept.recorded.ends hx

end EventDrivenRunner

/-! ## The cache-aware runner -/

/-- The notes on a request. -/
theorem Recorded.noted (h : Recorded compute config l s) (hr : s.inFlight.get r.id = some r)
    (tokens : UInt32) (tier : Option TierKind) :
    Recorded compute config l
      (s.noted { r with prefillTokens := tokens, pendingFetchTier := tier }) :=
  h.write hr rfl rfl (fun hd => hd.noted rfl rfl rfl rfl) (fun _ => .inl) rfl

theorem Recorded.fetch (h : Recorded compute config l s) (t id : UInt64) :
    Recorded compute config l { s with sim := s.sim.schedule t (.fetchDone id) } where
  request := h.request
  decoding ev hev id' n i hkind r hr := by
    rw [Simulator.pending_schedule] at hev
    rcases List.mem_append.1 hev with hev | hev
    · exact h.decoding ev hev id' n i hkind r hr
    · obtain rfl := List.mem_singleton.1 hev
      cases hkind
  results := h.results

theorem Recorded.remains (h : Recorded compute config l s) (hr : s.inFlight.get r.id = some r)
    (hremains : Remains compute config r now s s') : Recorded compute config l s' := by
  unfold Remains at hremains
  split_ifs at hremains
  · exact h.startOrQueue hremains
  · exact (h.noted hr _ _).startOrQueue hremains

namespace CacheAwareRunner

variable {P T : Type} {r r' : CacheAwareRunner C P T} {inflight : InFlightRequest}

theorem onDecodeDone_recorded (hrec : Recorded r.compute r.config l r.toServingState)
    (hdecoded : ∀ x, r.inFlight.get id = some x → x.Decoded r.compute r.config)
    (hrun : r.onDecodeDone now id n i = .ok r') :
    Recorded r.compute r.config l r'.toServingState := by
  obtain ⟨s₁, s₂, s₃, hrelease, hfirst, hsecond, rfl⟩ := onDecodeDone_ok hrun
  exact (hrec.finished hdecoded hrelease).served ⟨s₂, hfirst, hsecond⟩

variable [TransferModel T]

theorem ArrivalEffect.recorded (h : ArrivalEffect now inflight r r')
    (hrec : Recorded r.compute r.config l r.toServingState)
    (hin : r.inFlight.get inflight.id = some inflight) :
    Recorded r.compute r.config l r'.toServingState := by
  cases h with
  | missed _ hstate => exact (hrec.noted hin _ _).startOrQueue hstate
  | hit _ _ hstate => exact hrec.remains hin hstate
  | fetching _ _ _ _ _ hstate =>
    rw [hstate]
    exact (hrec.noted hin _ _).fetch _ _
  | degraded _ _ _ hstate => exact (hrec.noted hin _ _).startOrQueue hstate

theorem onArrival_recorded (hrec : Recorded r.compute r.config l r.toServingState)
    (hrun : r.onArrival now id = .ok r') : Recorded r.compute r.config l r'.toServingState := by
  cases hin : r.inFlight.get id with
  | none =>
    simp only [onArrival, hin] at hrun
    obtain rfl := Except.ok.inj hrun
    exact hrec
  | some inflight =>
    obtain rfl : inflight.id = id := KeyedMap.key_of_get hin
    exact (onArrival_effect hin hrun).recorded hrec hin

variable [PlacementPolicy P]

theorem onPrefillDone_recorded (hrec : Recorded r.compute r.config l r.toServingState)
    (hrun : r.onPrefillDone now id n i = .ok r') :
    Recorded r.compute r.config l r'.toServingState := by
  obtain ⟨s₁, s₂, s₃, s₄, hrelease, hdecode, hfirst, hsecond, rfl⟩ := onPrefillDone_ok hrun
  exact ((hrec.releaseGpu hrelease).startOrQueueDecode hdecode).served ⟨s₃, hfirst, hsecond⟩

theorem onFetchDone_recorded (hrec : Recorded r.compute r.config l r.toServingState)
    (hrun : r.onFetchDone now id = .ok r') : Recorded r.compute r.config l r'.toServingState := by
  cases hin : r.inFlight.get id with
  | none =>
    obtain ⟨r₁, h₁, hrun⟩ := Except.bind_eq_ok.1 hrun
    obtain ⟨r₂, h₂, h₃⟩ := Except.bind_eq_ok.1 hrun
    obtain ⟨hserved, -⟩ := tryAssignBoth_effect h₂ h₃
    simp only [takeFetch, hin, startOrQueueRemainingPrefill] at h₁
    obtain rfl := Except.ok.inj h₁
    exact hrec.served hserved
  | some inflight =>
    cases onFetchDone_effect hrun with
    | absent hnone => exact absurd (hin.symm.trans hnone) (Option.some_ne_none _)
    | @fetched inflight s₁ hin' hremains hserved =>
      have hnoted := hrec.noted hin' inflight.prefillTokens none
      have hget : (r.noted { inflight with pendingFetchTier := none }).inFlight.get inflight.id =
          some { inflight with pendingFetchTier := none } :=
        (KeyedMap.get_insert _ _ _).trans (if_pos rfl)
      exact (hnoted.remains hget hremains).served hserved

/-- What a step keeps. -/
abbrev KeepsRecords (l : List LlmRequest) (r r' : CacheAwareRunner C P T) : Prop :=
  Keeps (·.compute) (·.config) (·.toServingState) l r r'

theorem step_keepsRecords (hrec : Recorded r.compute r.config l r.toServingState)
    (hstep : EventLoop.Step step r r') : KeepsRecords l r r' := by
  obtain ⟨now, event, sim, hnext, hrun⟩ := step_ok hstep
  obtain ⟨hcompute, hconfig, -⟩ := step_models hnext hstep
  refine ⟨hcompute, hconfig, ?_⟩
  obtain ⟨hpop, hdecoded⟩ := hrec.pop hnext
  cases event with
  | requestArrival id => exact onArrival_recorded (r := { r with sim }) hpop hrun
  | prefillDone id n i => exact onPrefillDone_recorded (r := { r with sim }) hpop hrun
  | fetchDone id => exact onFetchDone_recorded (r := { r with sim }) hpop hrun
  | decodeDone id n i =>
    exact onDecodeDone_recorded (r := { r with sim }) hpop (hdecoded id n i rfl) hrun

theorem ends_run {requests : List LlmRequest} {results : List RequestResult}
    (hrun : r.run requests = .ok (results, r')) :
    ∀ x ∈ results, ∃ q ∈ requests, Ends r.compute r.config q x := by
  obtain ⟨r₁, hloop, hrun⟩ := Except.bind_eq_ok.1 hrun
  cases hrun
  have hkept : KeepsRecords requests (r.start requests) r₁ :=
    Keeps.of_reach (fun _ _ => step_keepsRecords) (EventLoop.run_reach hloop)
      (.enterAll r.toServingState requests)
  exact fun x hx => hkept.recorded.ends hx

end CacheAwareRunner

/-! ## All runners -/

/-- What the results of a trace say: of each one whether its first token comes in time, and of all
of them that it does if each request is decodable. -/
structure TokensInOrder (compute : C) (config : ServingConfig) (requests : List LlmRequest)
    (results : List RequestResult) : Prop where
  ends : ∀ x ∈ results, ∃ q ∈ requests, Ends compute config q x
  inOrder : (∀ q ∈ requests, q.Decodable compute config) → ∀ x ∈ results, x.InOrder

theorem tokensInOrder_of_ends {requests : List LlmRequest} {results : List RequestResult}
    (h : ∀ x ∈ results, ∃ q ∈ requests, Ends compute config q x) :
    TokensInOrder compute config requests results := by
  refine ⟨h, fun hdecodable x hx => ?_⟩
  obtain ⟨q, hq, hends⟩ := h x hx
  exact hends.inOrder.2 (.inl (hdecodable q hq))

/-- **When the first token comes no later than the completion.** A result of any run of any runner
has its times in order if and only if its request asks for a token, or decoding takes no time, or
its decode is started at the last instant there is. -/
theorem firstToken_inOrder {P T : Type} [PlacementPolicy P] [TransferModel T]
    (requests : List LlmRequest) :
    (∀ (r r' : NoReuseRunner C) (results : List RequestResult), r.run requests = .ok (results, r') →
      TokensInOrder r.compute r.config requests results) ∧
    (∀ (r r' : EventDrivenRunner C) (results : List RequestResult),
      r.run requests = .ok (results, r') → TokensInOrder r.compute r.config requests results) ∧
    ∀ (r r' : CacheAwareRunner C P T) (results : List RequestResult),
      r.run requests = .ok (results, r') → TokensInOrder r.compute r.config requests results := by
  refine ⟨fun r r' results hrun => tokensInOrder_of_ends fun x hx => ?_,
    fun r r' results hrun => tokensInOrder_of_ends (EventDrivenRunner.ends_run hrun),
    fun r r' results hrun => tokensInOrder_of_ends (CacheAwareRunner.ends_run hrun)⟩
  obtain ⟨q, hq, hends⟩ := NoReuseRunner.ends_runAll hrun x hx
  exact ⟨q, (sortRequests_perm requests).mem_iff.1 hq, hends⟩

/-- The runners on one GPU for either stage. -/
def singleNoReuse : NoReuseRunner LinearComputeModel := .new ⟨1, 1, 1⟩ unitCompute

def singleEventDriven : EventDrivenRunner LinearComputeModel :=
  .new ⟨1, 1, 1⟩ (.singleNode 1 1) unitCompute

def singleCacheAware : CacheAwareRunner LinearComputeModel RemoteLru AnalyticalTransferModel :=
  .new .ascending ⟨1, 1, 1⟩ (.singleNode 1 1) unitCompute .rdma400g .llama8bBf16Gqa (.mk 0)

theorem exists_ok {R : Type} {x : Except Panic (List RequestResult × R)}
    {p : List RequestResult → Prop} [DecidablePred p]
    (h : (x.toOption.any fun y => decide (p y.1)) = true) :
    ∃ results r, x = .ok (results, r) ∧ p results := by
  cases x with
  | error e => cases h
  | ok y => exact ⟨y.1, y.2, rfl, of_decide_eq_true h⟩

/-- Two tokens are asked for. -/
theorem firstToken_inOrder_two :
    (∃ results r', singleNoReuse.run [.cold 0 0 8 2] = .ok (results, r') ∧ results ≠ [] ∧
      ∀ x ∈ results, x.InOrder) ∧
    (∃ results r', singleEventDriven.run [.cold 0 0 8 2] = .ok (results, r') ∧ results ≠ [] ∧
      ∀ x ∈ results, x.InOrder) ∧
    ∃ results r', singleCacheAware.run [.cold 0 0 8 2] = .ok (results, r') ∧ results ≠ [] ∧
      ∀ x ∈ results, x.InOrder := by
  obtain ⟨hnoReuse, heventDriven, hcacheAware⟩ :=
    firstToken_inOrder (C := LinearComputeModel) (P := RemoteLru) (T := AnalyticalTransferModel)
      [.cold 0 0 8 2]
  obtain ⟨_, _, h₁, hne₁⟩ : ∃ results r', singleNoReuse.run [.cold 0 0 8 2] = .ok (results, r') ∧
      results ≠ [] := exists_ok (by decide +kernel)
  obtain ⟨_, _, h₂, hne₂⟩ :
      ∃ results r', singleEventDriven.run [.cold 0 0 8 2] = .ok (results, r') ∧
      results ≠ [] := exists_ok (by decide +kernel)
  obtain ⟨_, _, h₃, hne₃⟩ : ∃ results r', singleCacheAware.run [.cold 0 0 8 2] = .ok (results, r') ∧
      results ≠ [] := exists_ok (by decide +kernel)
  exact ⟨⟨_, _, h₁, hne₁, (hnoReuse _ _ _ h₁).inOrder (by decide)⟩,
    ⟨_, _, h₂, hne₂, (heventDriven _ _ _ h₂).inOrder (by decide)⟩,
    ⟨_, _, h₃, hne₃, (hcacheAware _ _ _ h₃).inOrder (by decide)⟩⟩

/-- No token is asked for, and the request is completed before its first token. -/
theorem firstToken_late :
    (∃ results r', singleNoReuse.run [.cold 0 0 8 0] = .ok (results, r') ∧
      ∃ x ∈ results, x.finishNs < x.firstTokenNs ∧ x.jctNs < x.ttftNs) ∧
    (∃ results r', singleEventDriven.run [.cold 0 0 8 0] = .ok (results, r') ∧
      ∃ x ∈ results, x.finishNs < x.firstTokenNs ∧ x.jctNs < x.ttftNs) ∧
    ∃ results r', singleCacheAware.run [.cold 0 0 8 0] = .ok (results, r') ∧
      ∃ x ∈ results, x.finishNs < x.firstTokenNs ∧ x.jctNs < x.ttftNs :=
  ⟨exists_ok (by decide +kernel), exists_ok (by decide +kernel), exists_ok (by decide +kernel)⟩

end KvFlowSim
