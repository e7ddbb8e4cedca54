import KvFlowSim.Serving.Shadow
import KvFlowSim.Serving.Equivalence

/-!
# Runs do not look ahead

Two traces whose requests that arrive before a horizon do the same work are served alike up to the
horizon, whatever arrives later: the two runs handle the same events until none is left before the
horizon (`Shadows`), and what is finished after that is finished at or past the horizon (`Beyond`).
So the results that end before the horizon are the same (`runs_causal`). With a horizon past all
times nothing is left to differ: the model and the objectives of the requests are never
read (`runs_ignore_objectives`).
-/

namespace KvFlowSim

open ServingState Except

theorem InFlightRequest.finishNs_of_job {r : InFlightRequest} {j : Job}
    (h : r.job .decode = some j) : r.intoResult.finishNs = j.doneNs := by
  simp only [InFlightRequest.job] at h
  split at h
  next hfinish =>
    obtain rfl := Option.some.inj h
    simp [InFlightRequest.intoResult, hfinish]
  next => cases h

/-! ## The start -/

theorem lastOf_of_mem {l : List LlmRequest} (hids : DistinctIds l) {q : LlmRequest} (hq : q ∈ l) :
    lastOf l q.requestId = some q := by
  have hsome : (lastOf l q.requestId).isSome := by
    rw [lastOf, List.find?_isSome]
    exact ⟨q, List.mem_reverse.2 hq, by simp⟩
  obtain ⟨q', hq'⟩ := Option.isSome_iff_exists.1 hsome
  obtain ⟨hmem, hid⟩ := mem_of_lastOf hq'
  rw [hq', List.inj_on_of_nodup_map hids hmem hq hid]

/-- The requests that arrive before the horizon. -/
def earlyRequests (horizon : ℕ) (requests : List LlmRequest) : List LlmRequest :=
  requests.filter fun q => q.arrivalNs.toNat < horizon

/-- The traces do the same work before the horizon. -/
def SameEarlyWork (horizon : ℕ) (requests requests' : List LlmRequest) : Prop :=
  ((earlyRequests horizon requests).map LlmRequest.work).Perm
    ((earlyRequests horizon requests').map LlmRequest.work)

instance (horizon : ℕ) (requests requests' : List LlmRequest) :
    Decidable (SameEarlyWork horizon requests requests') :=
  inferInstanceAs (Decidable (List.Perm _ _))

section Start

variable {horizon : ℕ} {requests requests' : List LlmRequest}

theorem nodup_arrivalKey {l : List LlmRequest} (hids : DistinctIds l) :
    (l.map LlmRequest.arrivalKey).Nodup := by
  refine List.Nodup.of_map (fun k : ArrivalKey => (ofLex k).2) ?_
  rw [List.map_map]
  exact hids

/-- In the order of arrival, too, the early requests do the same work. -/
theorem SameEarlyWork.sorted (h : SameEarlyWork horizon requests requests')
    (hids : DistinctIds requests) (hids' : DistinctIds requests') :
    (earlyRequests horizon (sortRequests requests)).map LlmRequest.work =
      (earlyRequests horizon (sortRequests requests')).map LlmRequest.work := by
  have hkey : ∀ q : LlmRequest, q.work.arrivalKey = q.arrivalKey := fun _ => rfl
  have hsort : ∀ {l : List LlmRequest}, DistinctIds l →
      (earlyRequests horizon (sortRequests l)).map LlmRequest.work =
        ((earlyRequests horizon l).map LlmRequest.work).sortByKey LlmRequest.arrivalKey := by
    intro l hl
    rw [earlyRequests, sortRequests, List.filter_sortByKey _ (nodup_arrivalKey hl),
      List.map_sortByKey hkey]
    rfl
  rw [hsort hids, hsort hids']
  refine List.sortByKey_eq_of_perm ?_ h
  rw [List.map_map]
  exact (nodup_arrivalKey hids).sublist (List.filter_sublist.map _)

/-- An early request has its like in the other trace. -/
theorem SameEarlyWork.exists_like (h : SameEarlyWork horizon requests requests') {q : LlmRequest}
    (hq : q ∈ requests) (hearly : q.arrivalNs.toNat < horizon) :
    ∃ q' ∈ requests', q.SameWork q' := by
  have hmem : q.work ∈ (earlyRequests horizon requests).map LlmRequest.work :=
    List.mem_map_of_mem (List.mem_filter.2 ⟨hq, by simpa using hearly⟩)
  obtain ⟨q', hq', hwork⟩ := List.mem_map.1 (h.mem_iff.1 hmem)
  exact ⟨q', (List.mem_filter.1 hq').1, LlmRequest.sameWork_of_work hwork⟩

end Start

namespace ServingState

variable {horizon : ℕ} {requests requests' : List LlmRequest}

theorem early_enterAll (s : ServingState) (l : List LlmRequest) :
    (s.enterAll l).sim.early horizon = s.sim.early horizon ++
      (earlyRequests horizon l).map fun q => (q.arrivalNs, .requestArrival q.requestId) := by
  induction l generalizing s with
  | nil => simp [enterAll, earlyRequests]
  | cons q rest ih =>
    rw [enterAll_cons, ih, enter, Simulator.early_schedule, List.append_assoc]
    by_cases hq : q.arrivalNs.toNat < horizon <;> simp [earlyRequests, hq]

/-- The starts of two runs on traces that do the same work before the horizon. -/
theorem shadows_start (cluster : ClusterTopology) (h : SameEarlyWork horizon requests requests')
    (hids : DistinctIds requests) (hids' : DistinctIds requests') :
    ((ServingState.new cluster).enterAll (sortRequests requests)).Shadows horizon
      { id | ∃ q ∈ requests, q.arrivalNs.toNat < horizon ∧ q.requestId = id }
      ((ServingState.new cluster).enterAll (sortRequests requests')) := by
  have hsorted : ∀ {l : List LlmRequest}, DistinctIds l → DistinctIds (sortRequests l) := fun hl =>
    ((sortRequests_perm _).map _).nodup_iff.2 hl
  have hqueue : ∀ (l : List LlmRequest) (stage : Stage),
      ((ServingState.new cluster).enterAll l).queue stage = [] := fun l stage => by
    rw [queue_enterAll]
    cases stage <;> rfl
  have hkind : ∀ l : List LlmRequest,
      ((earlyRequests horizon l).map fun q =>
        (q.arrivalNs, ServingEvent.requestArrival q.requestId)) =
      ((earlyRequests horizon l).map LlmRequest.work).map fun q =>
        (q.arrivalNs, ServingEvent.requestArrival q.requestId) := fun l => by
    rw [List.map_map]
    rfl
  refine ⟨⟨?_, ?_, ?_, ?_⟩, by simp, fun stage => by simp [hqueue], by simp, fun id hid => ?_,
    fun p hp => ?_, fun stage id hid => ?_⟩
  · rw [nowNs_enterAll, nowNs_enterAll]
  · rw [early_enterAll, early_enterAll, hkind, hkind, h.sorted hids hids']
  · exact inSequence_enterAll Simulator.inSequence_new _
  · exact inSequence_enterAll Simulator.inSequence_new _
  · obtain ⟨q, hq, hearly, rfl⟩ := hid
    obtain ⟨q', hq', hsame⟩ := h.exists_like hq hearly
    have hmem := (sortRequests_perm requests).mem_iff.2 hq
    have hmem' := (sortRequests_perm requests').mem_iff.2 hq'
    rw [get_start, get_start, lastOf_of_mem (hsorted hids) hmem, ← hsame.requestId,
      lastOf_of_mem (hsorted hids') hmem']
    exact .some ⟨q', rfl, hsame⟩
  · rw [early_enterAll] at hp
    simp only [ServingState.new, Simulator.early, Simulator.pending_new, List.filter_nil,
      List.map_nil, List.nil_append] at hp
    obtain ⟨q, hq, rfl⟩ := List.mem_map.1 hp
    obtain ⟨hq, hearly⟩ := List.mem_filter.1 hq
    exact ⟨q, (sortRequests_perm requests).mem_iff.1 hq, by simpa using hearly, rfl⟩
  · rw [hqueue] at hid
    exact absurd hid List.not_mem_nil

/-! ## Past the horizon -/

variable {fetching : Prop} {now : UInt64} {x y : ServingState × Held} {s s' : ServingState}
  {ids : Multiset UInt64}

/-- A decode that is under way is shown in the record of its request, with the time at which it is
done. -/
def Due (s : ServingState) : Prop :=
  ∀ ev ∈ s.sim.pending, ∀ id n i, ev.kind = .decodeDone id n i →
    ∀ r, s.inFlight.get id = some r → ∃ j, r.job .decode = some j ∧ j.doneNs = ev.timeNs

/-- Nothing is written about a request while its decode is under way. -/
theorem Due.write (h : Due s) {r r' : InFlightRequest} {id : UInt64}
    (hr : s.inFlight.get id = some r) (hrequest : r'.request = r.request)
    (hjob : r'.job = r.job ∨ ∀ ev ∈ s.sim.pending, ev.kind.requestId ≠ id)
    (hsim : s'.sim = s.sim) (hin : s'.inFlight = s.inFlight.insert r') : Due s' := by
  have hid : r.id = id := KeyedMap.key_of_get hr
  have hid' : r'.id = id := (congrArg LlmRequest.requestId hrequest).trans hid
  intro ev hev id' n i hkind r'' hr''
  rw [hsim] at hev
  rw [hin, KeyedMap.get_insert, hid'] at hr''
  split_ifs at hr'' with heq
  · obtain rfl := Option.some.inj hr''
    rcases hjob with hjob | hnone
    · rw [hjob]
      exact h ev hev id' n i hkind r (heq ▸ hr)
    · exact absurd (by rw [hkind]; exact heq) (hnone ev hev)
  · exact h ev hev id' n i hkind r'' hr''

theorem Move.due (h : Move fetching now x y) (hids : ids.Nodup) (htracked : Tracked ids x)
    (hx : Due x.1) : Due y.1 := by
  cases h with
  | @start s id b stage n i done cluster r r' _ _ _ _ hr hr' =>
    have hnone : ∀ ev ∈ s.sim.pending, ev.kind.requestId ≠ id := fun ev hev heq =>
      htracked.held_notMem hids (mem_active.2 (.inl ⟨ev, hev, heq⟩))
    have hwritten : Due { s with inFlight := s.inFlight.insert r' } :=
      hx.write hr hr'.request (.inr hnone) rfl rfl
    intro ev hev id' n' i' hkind r'' hr''
    rcases List.mem_append.1 hev with hev | hev
    · exact hwritten ev hev id' n' i' hkind r'' hr''
    · obtain rfl := List.mem_singleton.1 hev
      obtain rfl : stage = .decode := by cases stage <;> simp_all [Stage.doneEvent]
      obtain ⟨rfl, rfl, rfl⟩ : id = id' ∧ n = n' ∧ i = i' := by simpa [Stage.doneEvent] using hkind
      have hid : r.id = id := KeyedMap.key_of_get hr
      have hid' : r'.id = id := (congrArg LlmRequest.requestId hr'.request).trans hid
      dsimp only at hr''
      rw [KeyedMap.get_insert, if_pos hid'.symm] at hr''
      obtain rfl := Option.some.inj hr''
      exact ⟨_, by rw [hr'.job, if_pos rfl], rfl⟩
  | enqueue => simpa [Due] using hx
  | dequeue => simpa [Due] using hx
  | @fetch s id b t =>
    intro ev hev id' n i hkind r hr
    rcases List.mem_append.1 hev with hev | hev
    · exact hx ev hev id' n i hkind r hr
    · obtain rfl := List.mem_singleton.1 hev
      cases hkind
  | @finish s id b r hr =>
    intro ev hev id' n i hkind r' hr'
    simp only [ServingState.finish, hr, KeyedMap.get_remove] at hr' hev
    split_ifs at hr'
    exact hx ev hev id' n i hkind r' hr'
  | drop => exact hx
  | note hr hrequest hjob => exact hx.write hr hrequest (.inl hjob) rfl rfl

/-- The clock has reached the horizon, or all events are past it; and no decode ends before it. -/
structure Beyond (horizon : ℕ) (s : ServingState) : Prop where
  begun : horizon ≤ s.sim.nowNs.toNat ∨ ∀ ev ∈ s.sim.pending, horizon ≤ ev.timeNs.toNat
  decodes : ∀ ev ∈ s.sim.pending, ∀ id n i, ev.kind = .decodeDone id n i → horizon ≤ ev.timeNs.toNat

theorem beyond_of_early (h : s.sim.early horizon = []) : Beyond horizon s := by
  have hpast : ∀ ev ∈ s.sim.pending, horizon ≤ ev.timeNs.toNat := fun ev hev => by
    by_contra hlt
    have hmem : (ev.timeNs, ev.kind) ∈ s.sim.early horizon :=
      Simulator.mem_early.2 ⟨ev, hev, not_le.1 hlt, rfl⟩
    rw [h] at hmem
    exact absurd hmem List.not_mem_nil
  exact ⟨.inr hpast, fun ev hev _ _ _ _ => hpast ev hev⟩

/-- What is started past the horizon ends past it. -/
theorem Move.decodes (h : Move fetching now x y) (hnow : horizon ≤ now.toNat)
    (hx : ∀ ev ∈ x.1.sim.pending, ∀ id n i, ev.kind = .decodeDone id n i →
      horizon ≤ ev.timeNs.toNat) :
    ∀ ev ∈ y.1.sim.pending, ∀ id n i, ev.kind = .decodeDone id n i → horizon ≤ ev.timeNs.toNat := by
  cases h with
  | @start s id b stage n i done cluster r r' _ _ hdone =>
    intro ev hev id' n' i' hkind
    rcases List.mem_append.1 hev with hev | hev
    · exact hx ev hev id' n' i' hkind
    · obtain rfl := List.mem_singleton.1 hev
      exact hnow.trans (UInt64.le_iff_toNat_le.1 hdone)
  | fetch =>
    intro ev hev id' n' i' hkind
    rcases List.mem_append.1 hev with hev | hev
    · exact hx ev hev id' n' i' hkind
    · obtain rfl := List.mem_singleton.1 hev
      cases hkind
  | enqueue => simpa using hx
  | dequeue => simpa using hx
  | finish => simpa using hx
  | drop => exact hx
  | note => exact hx

theorem Advance.beyond (h : Advance fetching s s') (hs : Beyond horizon s) : Beyond horizon s' := by
  obtain ⟨now, kind, sim, hstep, s₁, hrel, hmoves, -⟩ := h
  obtain ⟨ev, -, hperm, hnow, hsim, -⟩ := Simulator.step_spec hstep
  have hpast : horizon ≤ now.toNat := by
    have hle : s.sim.nowNs ≤ now ∧ ev.timeNs ≤ now := by
      rw [hnow]
      exact ⟨le_max_left _ _, le_max_right _ _⟩
    simp only [UInt64.le_iff_toNat_le] at hle
    rcases hs.begun with hbegun | hbegun
    · omega
    · have := hbegun ev (hperm.mem_iff.2 List.mem_cons_self)
      omega
  refine ⟨.inl ?_, ?_⟩
  · rw [hmoves.nowNs, hrel.sim, hsim]
    exact hpast
  · refine hmoves.invariant (I := fun x => ∀ ev ∈ x.1.sim.pending, ∀ id n i,
      ev.kind = .decodeDone id n i → horizon ≤ ev.timeNs.toNat)
      (fun _ _ hx hm => hm.decodes hpast hx) fun ev hev => ?_
    rw [hrel.sim] at hev
    exact hs.decodes ev (hperm.mem_iff.2 (List.mem_cons_of_mem _ hev))

theorem Advance.due (h : Advance fetching s s') (hids : ids.Nodup)
    (htracked : Tracked ids (s, none)) (hs : Due s) : Due s' := by
  obtain ⟨now, kind, sim, hstep, s₁, hrel, hmoves, -⟩ := h
  obtain ⟨ev, -, hperm, -⟩ := Simulator.step_spec hstep
  have hpop := htracked.pop hstep (kind.weight - 1)
  have hfirst : Tracked ids (s₁, some (kind.requestId, kind.weight - 1)) := by
    rw [hrel.eq]
    exact ⟨hpop.places, hpop.inFlight⟩
  have hdue : Due s₁ := by
    rw [hrel.eq]
    exact fun ev hev => hs ev (hperm.mem_iff.2 (List.mem_cons_of_mem _ hev))
  exact (hmoves.invariant (I := fun x => Tracked ids x ∧ Due x.1)
    (fun _ _ hx hm => ⟨hm.tracked hids hx.1, hm.due hids hx.1 hx.2⟩) ⟨hfirst, hdue⟩).2

theorem due_start (cluster : ClusterTopology) (l : List LlmRequest) :
    Due ((ServingState.new cluster).enterAll l) := by
  intro ev hev id n i hkind
  obtain ⟨q, -, hq⟩ := kind_of_mem_start hev
  rw [hq] at hkind
  cases hkind

/-! ## When results are written -/

section Results

variable {C : Type} [ComputeModel C] {compute : C} {config : ServingConfig} {stage : Stage}
  {id : UInt64}

theorem results_start {gpu : NodeId × ℕ} (h : s.start compute config stage id gpu now = .ok s') :
    s'.results = s.results := by
  unfold start at h
  split at h
  next =>
    obtain rfl := Except.ok.inj h
    rfl
  next r _ =>
    obtain ⟨p, -, h⟩ := Except.bind_eq_ok.1 h
    obtain rfl := Except.ok.inj h
    rfl

theorem results_startOrQueue (h : s.startOrQueue compute config stage id now = .ok s') :
    s'.results = s.results := by
  obtain ⟨gpu, -, h⟩ := Except.bind_eq_ok.1 h
  cases gpu with
  | some gpu => exact results_start h
  | none =>
    obtain rfl := Except.ok.inj h
    simp

theorem results_startOrQueueDecode (h : s.startOrQueueDecode compute config id now = .ok s') :
    s'.results = s.results := by
  unfold startOrQueueDecode at h
  split at h
  · obtain rfl := Except.ok.inj h
    rfl
  · exact results_startOrQueue h

theorem results_assign {q : List UInt64} (h : assign compute config stage now q s = .ok s') :
    s'.results = s.results := by
  induction q generalizing s with
  | nil =>
    obtain rfl := Except.ok.inj h
    rfl
  | cons id rest ih =>
    obtain ⟨gpu, -, h⟩ := Except.bind_eq_ok.1 h
    cases gpu with
    | none =>
      obtain rfl := Except.ok.inj h
      rfl
    | some gpu =>
      obtain ⟨s₁, h₁, h⟩ := Except.bind_eq_ok.1 h
      rw [ih h, results_start h₁, results_setQueue]

theorem results_tryAssign (h : s.tryAssign compute config stage now = .ok s') :
    s'.results = s.results :=
  results_assign h

theorem results_releaseGpu {n : NodeId} {i : ℕ} (h : s.releaseGpu n i now = .ok s') :
    s'.results = s.results := by
  obtain ⟨cluster, -, h⟩ := Except.bind_eq_ok.1 h
  obtain rfl := Except.ok.inj h
  rfl

end Results

/-- An event writes no result, or it completes the decode of a request in flight and writes its. -/
def WritesResult (kind : ServingEvent) (s s' : ServingState) : Prop :=
  s'.results = s.results ∨ ∃ id n i r, kind = .decodeDone id n i ∧ s.inFlight.get id = some r ∧
    s'.results = s.results ++ [r.intoResult]

theorem writesResult_finish {s₁ s₂ : ServingState} {id : UInt64} {n : NodeId} {i : ℕ}
    (hrelease : s.releaseGpu n i now = .ok s₁) (hresults : s₂.results = (s₁.finish id).results) :
    WritesResult (.decodeDone id n i) s s₂ := by
  have hin := inFlight_releaseGpu hrelease
  cases hr : s.inFlight.get id with
  | none =>
    have hr₁ : s₁.inFlight.get id = none := hin ▸ hr
    refine .inl (hresults.trans ?_)
    simp only [finish, hr₁]
    exact results_releaseGpu hrelease
  | some r =>
    have hr₁ : s₁.inFlight.get id = some r := hin ▸ hr
    refine .inr ⟨id, n, i, r, rfl, hr, hresults.trans ?_⟩
    simp only [finish, hr₁, results_releaseGpu hrelease]

end ServingState

namespace EventDrivenRunner

variable {C : Type} [ComputeModel C] {r r' : EventDrivenRunner C} {now : UInt64}
  {kind : ServingEvent} {sim : Simulator ServingEvent}

theorem step_writesResult (hnext : r.sim.step = some (now, kind, sim))
    (hstep : EventLoop.Step step r r') : WritesResult kind r.toServingState r'.toServingState := by
  obtain ⟨_, _, _, hnext', hrun⟩ := step_ok hstep
  obtain ⟨rfl, rfl, rfl⟩ := by simpa using hnext.symm.trans hnext'
  cases kind with
  | requestArrival id =>
    have hrun : ({ r with sim } : EventDrivenRunner C).onArrival now id = .ok r' := hrun
    obtain ⟨s, hs, rfl⟩ := onState_eq_ok.1 hrun
    exact .inl ((results_startOrQueue hs).trans rfl)
  | prefillDone id n i =>
    obtain ⟨s₁, s₂, s₃, s₄, hrel, hs₂, hs₃, hs₄, rfl⟩ := onPrefillDone_ok hrun
    refine .inl ?_
    rw [results_tryAssign hs₄, results_tryAssign hs₃, results_startOrQueueDecode hs₂,
      results_releaseGpu hrel]
  | fetchDone id => exact absurd hrun (by simp [handleEvent])
  | decodeDone id n i =>
    obtain ⟨s₁, s₂, s₃, hrel, hs₂, hs₃, rfl⟩ := onDecodeDone_ok hrun
    have hwrites := writesResult_finish hrel ((results_tryAssign hs₃).trans (results_tryAssign hs₂))
    exact hwrites

end EventDrivenRunner

namespace CacheAwareRunner

variable {C P T : Type} {r r' : CacheAwareRunner C P T} {now id : UInt64} {kind : ServingEvent}
  {sim : Simulator ServingEvent}

theorem results_onState {f : ServingState → Except Panic ServingState} (h : r.onState f = .ok r')
    (hf : ∀ s s', f s = .ok s' → s'.results = s.results) : r'.results = r.results := by
  obtain ⟨s, hs, rfl⟩ := onState_eq_ok.1 h
  exact hf _ _ hs

theorem results_takeFetch (r : CacheAwareRunner C P T) (id : UInt64) :
    (r.takeFetch id).results = r.results := by
  unfold takeFetch
  split
  · rfl
  · split <;> rfl

variable [ComputeModel C]

theorem results_startOrQueueRemainingPrefill (h : r.startOrQueueRemainingPrefill now id = .ok r') :
    r'.results = r.results := by
  unfold startOrQueueRemainingPrefill at h
  split at h
  · obtain rfl := Except.ok.inj h
    rfl
  · dsimp only at h
    split_ifs at h
    · exact results_onState h fun _ _ => results_startOrQueue
    · have hresults := results_onState h fun _ _ => results_startOrQueue
      exact hresults

theorem ArrivalEffect.results [TransferModel T] {inflight : InFlightRequest}
    (h : ArrivalEffect now inflight r r') : r'.results = r.results := by
  cases h with
  | missed _ hstate => exact (results_startOrQueue hstate).trans rfl
  | hit _ _ hstate =>
    unfold Remains at hstate
    split_ifs at hstate
    · exact results_startOrQueue hstate
    · exact (results_startOrQueue hstate).trans rfl
  | fetching _ _ _ _ _ hstate => exact (congrArg ServingState.results hstate).trans rfl
  | degraded _ _ _ hstate => exact (results_startOrQueue hstate).trans rfl

variable [PlacementPolicy P] [TransferModel T]

theorem step_writesResult (hnext : r.sim.step = some (now, kind, sim))
    (hstep : EventLoop.Step step r r') : WritesResult kind r.toServingState r'.toServingState := by
  have hrun := handleEvent_of_step hnext hstep
  cases kind with
  | requestArrival id =>
    refine .inl ?_
    cases hin : r.inFlight.get id with
    | none =>
      have hnone : ({ r with sim } : CacheAwareRunner C P T).inFlight.get id = none := hin
      simp only [handleEvent, onArrival, hnone] at hrun
      obtain rfl := Except.ok.inj hrun
      rfl
    | some inflight =>
      have heffect := onArrival_effect (r := { r with sim }) hin hrun
      exact heffect.results
  | prefillDone id n i =>
    obtain ⟨s₁, s₂, s₃, s₄, hrel, hs₂, hs₃, hs₄, rfl⟩ := onPrefillDone_ok hrun
    refine .inl ?_
    rw [results_tryAssign hs₄, results_tryAssign hs₃, results_startOrQueueDecode hs₂,
      results_releaseGpu hrel]
  | fetchDone id =>
    obtain ⟨r₁, h₁, h⟩ := Except.bind_eq_ok.1 hrun
    obtain ⟨r₂, h₂, h₃⟩ := Except.bind_eq_ok.1 h
    refine .inl ?_
    rw [results_onState h₃ fun _ _ => results_tryAssign,
      results_onState h₂ fun _ _ => results_tryAssign, results_startOrQueueRemainingPrefill h₁,
      results_takeFetch]
  | decodeDone id n i =>
    obtain ⟨s₁, s₂, s₃, hrel, hs₂, hs₃, rfl⟩ := onDecodeDone_ok hrun
    have hwrites := writesResult_finish hrel ((results_tryAssign hs₃).trans (results_tryAssign hs₂))
    exact hwrites

end CacheAwareRunner

/-! ## Two runs -/

/-- The results of requests that are finished before the horizon. -/
def finishedBefore (horizon : ℕ) (results : List RequestResult) : List RequestResult :=
  results.filter fun x => x.finishNs.toNat < horizon

namespace ServingState

variable {σ : Type} {step : σ → Except Panic (Option σ)} {state : σ → ServingState}
  {fetching : Prop} {horizon : ℕ} {ids : Multiset UInt64}

/-- Past the horizon no result is written that ends before it. -/
theorem ServingLoop.finishedBefore_eq (hloop : ServingLoop fetching step state)
    (hwrites : ∀ s s' now kind sim, (state s).sim.step = some (now, kind, sim) →
      EventLoop.Step step s s' → WritesResult kind (state s) (state s'))
    (hids : ids.Nodup) {s s' : σ} (hreach : EventLoop.Reach step s s')
    (htracked : Tracked ids (state s, none)) (hdue : Due (state s))
      (hbeyond : Beyond horizon (state s)) :
    finishedBefore horizon (state s').results = finishedBefore horizon (state s).results := by
  refine (hreach.invariant (I := fun x => (Tracked ids (state x, none) ∧ Due (state x) ∧
    Beyond horizon (state x)) ∧ finishedBefore horizon (state x).results =
      finishedBefore horizon (state s).results) ?_ ⟨⟨htracked, hdue, hbeyond⟩, rfl⟩).2
  rintro a b ⟨⟨ht, hd, hb⟩, hsame⟩ hstep
  have hadvance := hloop.advance a b hstep
  refine ⟨⟨hadvance.tracked hids ht, hadvance.due hids ht hd, hadvance.beyond hb⟩, ?_⟩
  rw [← hsame]
  obtain ⟨now, kind, sim, hnext, -⟩ := hadvance
  rcases hwrites a b now kind sim hnext hstep with heq | ⟨id, n, i, r, hkind, hr, heq⟩
  · rw [heq]
  · -- the decode ends when its event is due, which is past the horizon
    obtain ⟨ev, hev, hperm, -⟩ := Simulator.step_spec hnext
    have hmem : ev ∈ (state a).sim.pending := hperm.mem_iff.2 List.mem_cons_self
    obtain ⟨j, hj, hdone⟩ := hd ev hmem id n i (hev.trans hkind) r hr
    have hlate := hb.decodes ev hmem id n i (hev.trans hkind)
    have hfinish : ¬r.intoResult.finishNs.toNat < horizon := by
      rw [InFlightRequest.finishNs_of_job hj, hdone]
      omega
    simp [finishedBefore, heq, hfinish]

/-- Runs that look alike to what happens before the horizon have the same results from before it. -/
theorem ServingLoop.finishedBefore_eq_of_shadows (hloop : ServingLoop fetching step state)
    (hwrites : ∀ s s' now kind sim, (state s).sim.step = some (now, kind, sim) →
      EventLoop.Step step s s' → WritesResult kind (state s) (state s'))
    {R : σ → σ → Prop} {seen : Set UInt64}
    (hR : ∀ a b, R a b → (state a).Shadows horizon seen (state b))
    (hstep : ∀ a b, R a b → (state a).sim.early horizon ≠ [] →
      Related (Option.Rel R) (step a) (step b))
    {ids' : Multiset UInt64} (hids : ids.Nodup) (hids' : ids'.Nodup) {n m : ℕ} {s s' t t' : σ}
    (hstart : R s t) (htracked : Tracked ids (state s, none))
      (htracked' : Tracked ids' (state t, none))
    (hdue : Due (state s)) (hdue' : Due (state t)) (hs : EventLoop.run step n s = .ok s')
    (hend : (state s').sim.pending = []) (ht : EventLoop.run step m t = .ok t')
    (hend' : (state t').sim.pending = []) :
    finishedBefore horizon (state s').results = finishedBefore horizon (state t').results := by
  have hgoing : ∀ a, (state a).sim.early horizon ≠ [] → step a ≠ .ok none :=
    fun a hearly hnone => by
    rw [hloop.halted] at hnone
    exact hearly (by simp [Simulator.early, hnone])
  obtain ⟨a, b, hab, hstop, hreach, hrest, hreach', hrest'⟩ := EventLoop.run_related_until
    (fun a b _ => hstep a b) hgoing hstart hs ((hloop.halted s').2 hend) ht
    ((hloop.halted t').2 hend')
  have hkept : ∀ {ids : Multiset UInt64} {x y : σ}, ids.Nodup → EventLoop.Reach step x y →
      Tracked ids (state x, none) → Due (state x) → Tracked ids (state y, none) ∧ Due (state y) :=
    fun hids hreach htracked hdue => hreach.invariant
      (I := fun x => Tracked _ (state x, none) ∧ Due (state x))
      (fun x y hx h => ⟨(hloop.advance x y h).tracked hids hx.1,
        (hloop.advance x y h).due hids hx.1 hx.2⟩)
      ⟨htracked, hdue⟩
  obtain ⟨hta, hda⟩ := hkept hids hreach htracked hdue
  obtain ⟨htb, hdb⟩ := hkept hids' hreach' htracked' hdue'
  have hshadow := hR a b hab
  have hearly : (state a).sim.early horizon = [] := not_not.1 hstop
  rw [hloop.finishedBefore_eq hwrites hids hrest hta hda (beyond_of_early hearly),
    hloop.finishedBefore_eq hwrites hids' hrest' htb hdb
      (beyond_of_early (hshadow.sim.early.trans hearly)), hshadow.results]

theorem tracked_of_start (cluster : ClusterTopology) (requests : List LlmRequest) :
    Tracked (ServingState.ids requests)
      ((ServingState.new cluster).enterAll (sortRequests requests), none) :=
  ids_sortRequests requests ▸ tracked_start cluster (sortRequests requests)

theorem finishedBefore_sortByKey {results : List RequestResult}
    (h : (results.map (·.requestId)).Nodup) :
    finishedBefore horizon (results.sortByKey RequestResult.arrivalKey) =
      (finishedBefore horizon results).sortByKey RequestResult.arrivalKey := by
  refine List.filter_sortByKey _ (List.Nodup.of_map (fun k : ArrivalKey => (ofLex k).2) ?_)
  rw [List.map_map]
  exact h

end ServingState

section

variable {C P T : Type} [ComputeModel C] {horizon : ℕ} {requests requests' : List LlmRequest}

theorem EventDrivenRunner.run_causal (r : EventDrivenRunner C) (hnodes : r.cluster.DistinctNodeIds)
    (hids : DistinctIds requests) (hids' : DistinctIds requests')
    (hearly : SameEarlyWork horizon requests requests') : ∃ results r₁ results' r₂,
      r.run requests = .ok (results, r₁) ∧ r.run requests' = .ok (results', r₂) ∧
      finishedBefore horizon results = finishedBefore horizon results' := by
  obtain ⟨s, hs, hend, hreg, -⟩ :=
    servingLoop.exists_registered step_isOk (r.start requests) hnodes requests rfl
  obtain ⟨t, ht, hend', hreg', -⟩ :=
    servingLoop.exists_registered step_isOk (r.start requests') hnodes requests' rfl
  refine ⟨_, _, _, _, by rw [run, hs]; rfl, by rw [run, ht]; rfl, ?_⟩
  rw [finishedBefore_sortByKey hreg.once, finishedBefore_sortByKey hreg'.once]
  refine congrArg (List.sortByKey _) ?_
  have hshadow : (r.start requests).Shadows horizon _ (r.start requests') :=
    ⟨shadows_start r.cluster hearly hids hids', rfl, rfl⟩
  exact servingLoop.finishedBefore_eq_of_shadows (fun _ _ _ _ _ => step_writesResult)
    (fun _ _ h => h.state) (fun _ _ h => h.step) (Multiset.coe_nodup.2 hids)
    (Multiset.coe_nodup.2 hids') hshadow (tracked_of_start r.cluster requests)
    (tracked_of_start r.cluster requests') (due_start r.cluster _)
    (due_start r.cluster _) hs hend ht hend'

variable [PlacementPolicy P] [TransferModel T]

theorem CacheAwareRunner.run_causal (r : CacheAwareRunner C P T)
    (hnodes : r.cluster.DistinctNodeIds) (hids : DistinctIds requests)
    (hids' : DistinctIds requests') (hearly : SameEarlyWork horizon requests requests') :
    ∃ results r₁ results' r₂,
      r.run requests = .ok (results, r₁) ∧ r.run requests' = .ok (results', r₂) ∧
      finishedBefore horizon results = finishedBefore horizon results' := by
  obtain ⟨s, hs, hend, hreg, -⟩ :=
    servingLoop.exists_registered step_isOk (r.start requests) hnodes requests rfl
  obtain ⟨t, ht, hend', hreg', -⟩ :=
    servingLoop.exists_registered step_isOk (r.start requests') hnodes requests' rfl
  refine ⟨_, _, _, _, by rw [run, hs]; rfl, by rw [run, ht]; rfl, ?_⟩
  rw [finishedBefore_sortByKey hreg.once, finishedBefore_sortByKey hreg'.once]
  refine congrArg (List.sortByKey _) ?_
  have hshadow : (r.start requests).Shadows horizon _ (r.start requests') :=
    ⟨_, rfl, shadows_start r.cluster hearly hids hids'⟩
  exact servingLoop.finishedBefore_eq_of_shadows (fun _ _ _ _ _ => step_writesResult)
    (fun _ _ h => h.state) (fun _ _ h => h.step) (Multiset.coe_nodup.2 hids)
    (Multiset.coe_nodup.2 hids') hshadow (tracked_of_start r.cluster requests)
    (tracked_of_start r.cluster requests') (due_start r.cluster _)
    (due_start r.cluster _) hs hend ht hend'

end

/-! ## The runner without reuse -/

namespace NoReuseRunner

variable {C : Type} [ComputeModel C] {r r' : NoReuseRunner C} {l m : List LlmRequest}

/-- What the runner does depends on the work of the requests. -/
theorem runAll_work (l : List LlmRequest) (r : NoReuseRunner C) :
    runAll (l.map LlmRequest.work) r = runAll l r := by
  induction l generalizing r with
  | nil => rfl
  | cons q rest ih =>
    have hone : r.runOne q.work = r.runOne q := rfl
    simp only [List.map_cons, runAll, hone, ih]

/-- A trace is served in two parts, the second one from where the first one ends. -/
theorem runAll_append {xs ys : List RequestResult} {r₁ : NoReuseRunner C}
    (h : runAll l r = .ok (xs, r₁)) (h' : runAll m r₁ = .ok (ys, r')) :
    runAll (l ++ m) r = .ok (xs ++ ys, r') := by
  induction l generalizing r xs with
  | nil =>
    obtain ⟨rfl, rfl⟩ := Prod.mk.inj (Except.ok.inj h)
    exact h'
  | cons q rest ih =>
    obtain ⟨⟨x, r₂⟩, hone, h⟩ := Except.bind_eq_ok.1 h
    obtain ⟨⟨zs, r₃⟩, hrest, h⟩ := Except.bind_eq_ok.1 h
    obtain ⟨rfl, rfl⟩ := Prod.mk.inj (Except.ok.inj h)
    rw [List.cons_append, runAll, hone, Except.ok_bind]
    dsimp only
    rw [ih hrest]
    rfl

theorem forall_arrivalNs {xs : List RequestResult} {p : UInt64 → Prop}
    (h : List.Forall₂ RequestResult.Reports xs l) (hl : ∀ q ∈ l, p q.arrivalNs) :
    ∀ x ∈ xs, p x.arrivalNs := by
  induction h with
  | nil => simp
  | cons hx _ ih =>
    rw [List.forall_mem_cons] at hl ⊢
    exact ⟨hx.arrivalNs ▸ hl.1, ih hl.2⟩

/-- The sorted trace is served up to the horizon first. -/
theorem run_split (h : r.Staffed) (requests : List LlmRequest) (horizon : ℕ) : ∃ xs ys r₁ r',
    runAll ((earlyRequests horizon (sortRequests requests)).map LlmRequest.work) r = .ok (xs, r₁) ∧
    r.run requests = .ok (xs ++ ys, r') ∧ (∀ x ∈ xs, x.arrivalNs.toNat < horizon) ∧
    ∀ x ∈ ys, horizon ≤ x.arrivalNs.toNat := by
  have hsorted : (sortRequests requests).Pairwise fun q q' =>
      decide (q'.arrivalNs.toNat < horizon) → decide (q.arrivalNs.toNat < horizon) := by
    refine (List.pairwise_sortByKey LlmRequest.arrivalKey requests).imp fun hle hlt => ?_
    have hle := UInt64.le_iff_toNat_le.1 (Prod.Lex.monotone_fst _ _ hle)
    have hlt := of_decide_eq_true hlt
    exact decide_eq_true (lt_of_le_of_lt hle hlt)
  obtain ⟨xs, r₁, hxs, hstaffed, hearly⟩ :=
    exists_runAll h (earlyRequests horizon (sortRequests requests))
  obtain ⟨ys, r', hys, -, hlate⟩ := exists_runAll hstaffed
    ((sortRequests requests).filter fun q => !decide (q.arrivalNs.toNat < horizon))
  refine ⟨xs, ys, r₁, r', (runAll_work _ r).trans hxs, ?_, ?_, ?_⟩
  · rw [run, ← List.filter_append_filter_not hsorted]
    exact runAll_append hxs hys
  · exact forall_arrivalNs (p := (·.toNat < horizon)) hearly
      fun q hq => by simpa using (List.mem_filter.1 hq).2
  · exact forall_arrivalNs (p := (horizon ≤ ·.toNat)) hlate
      fun q hq => by simpa using (List.mem_filter.1 hq).2

end NoReuseRunner

/-- The results of the requests that arrive before the horizon. -/
def arrivedBefore (horizon : ℕ) (results : List RequestResult) : List RequestResult :=
  results.filter fun x => x.arrivalNs.toNat < horizon

theorem NoReuseRunner.run_causal {C : Type} [ComputeModel C] (r : NoReuseRunner C) (h : r.Staffed)
    {horizon : ℕ} {requests requests' : List LlmRequest} (hids : DistinctIds requests)
    (hids' : DistinctIds requests') (hearly : SameEarlyWork horizon requests requests') :
    ∃ results r₁ results' r₂, r.run requests = .ok (results, r₁) ∧
      r.run requests' = .ok (results', r₂) ∧
      arrivedBefore horizon results = arrivedBefore horizon results' := by
  have hfilter : ∀ {xs ys : List RequestResult}, (∀ x ∈ xs, x.arrivalNs.toNat < horizon) →
      (∀ x ∈ ys, horizon ≤ x.arrivalNs.toNat) → arrivedBefore horizon (xs ++ ys) = xs :=
    fun hxs hys => by
      rw [arrivedBefore, List.filter_append, List.filter_eq_self.2 (by simpa using hxs),
        List.filter_eq_nil_iff.2 (by simpa using hys), List.append_nil]
  obtain ⟨xs, ys, r₁, r₂, hxs, hrun, hbefore, hafter⟩ := run_split h requests horizon
  obtain ⟨xs', ys', r₁', r₂', hxs', hrun', hbefore', hafter'⟩ := run_split h requests' horizon
  refine ⟨_, r₂, _, r₂', hrun, hrun', ?_⟩
  rw [hfilter hbefore hafter, hfilter hbefore' hafter']
  rw [hearly.sorted hids hids'] at hxs
  exact (Prod.mk.inj (Except.ok.inj (hxs.symm.trans hxs'))).1

/-! ## Both properties -/

section

variable {C P T : Type} [ComputeModel C] [PlacementPolicy P] [TransferModel T] {horizon : ℕ}
  {requests requests' : List LlmRequest}

/-- **Runs do not look ahead.** Take two traces with distinct ids whose requests that arrive before
a horizon do the same work. Every runner gives both the same results as far as these end before the
horizon; the runner without reuse gives the requests that arrive before it the same results. -/
theorem runs_causal (hids : DistinctIds requests) (hids' : DistinctIds requests')
    (hearly : SameEarlyWork horizon requests requests') :
    (∀ r : EventDrivenRunner C, r.cluster.DistinctNodeIds → ∃ results r₁ results' r₂,
      r.run requests = .ok (results, r₁) ∧ r.run requests' = .ok (results', r₂) ∧
      finishedBefore horizon results = finishedBefore horizon results') ∧
    (∀ r : CacheAwareRunner C P T, r.cluster.DistinctNodeIds → ∃ results r₁ results' r₂,
      r.run requests = .ok (results, r₁) ∧ r.run requests' = .ok (results', r₂) ∧
      finishedBefore horizon results = finishedBefore horizon results') ∧
    ∀ r : NoReuseRunner C, r.Staffed → ∃ results r₁ results' r₂,
      r.run requests = .ok (results, r₁) ∧ r.run requests' = .ok (results', r₂) ∧
      arrivedBefore horizon results = arrivedBefore horizon results' :=
  ⟨fun r h => r.run_causal h hids hids' hearly, fun r h => r.run_causal h hids hids' hearly,
    fun r h => r.run_causal h hids hids' hearly⟩

/-- Before 20 ns the traces differ in the model and the objective of one request. -/
theorem runs_causal_twenty : ∃ results r₁ results' r₂,
    (EventDrivenRunner.new ⟨1, 1, 1⟩ (.singleNode 1 1) unitCompute).run
      [.cold 7 0 8 2, .cold 8 30 8 2] = .ok (results, r₁) ∧
    (EventDrivenRunner.new ⟨1, 1, 1⟩ (.singleNode 1 1) unitCompute).run
      [.cold 9 20 5 3, { LlmRequest.cold 7 0 8 2 with modelId := "b", sloTtftNs := some 1 }] =
        .ok (results', r₂) ∧
    finishedBefore 20 results = finishedBefore 20 results' :=
  (runs_causal (P := RemoteLru) (T := AnalyticalTransferModel) (by decide) (by decide)
    (by decide)).1 (.new ⟨1, 1, 1⟩ (.singleNode 1 1) unitCompute) (by decide)

end

/-! ## What is never read -/

section

variable {C P T : Type} {requests requests' : List LlmRequest}

/-- What a run reports, and the clock and the cluster that it leaves. -/
def EventDrivenRunner.outcome (x : List RequestResult × EventDrivenRunner C) :=
  (x.1, x.2.sim.nowNs, x.2.cluster)

/-- What a run reports and counts, and the clock, the cluster, the cache, the placement policy and
the transfer model that it leaves. -/
def CacheAwareRunner.outcome (x : List RequestResult × CacheAwareRunner C P T) :=
  (x.1, x.2.sim.nowNs, x.2.cluster, x.2.hits, x.2.evictedBytes, x.2.recomputedTokens,
    x.2.fetchedBytes, x.2.cache, x.2.placement, x.2.transfer)

theorem earlyRequests_eq_self (l : List LlmRequest) : earlyRequests (2 ^ 64) l = l :=
  List.filter_eq_self.2 fun q _ => decide_eq_true q.arrivalNs.toNat_lt

theorem sameEarlyWork_of_perm
    (h : (requests.map LlmRequest.work).Perm (requests'.map LlmRequest.work)) :
    SameEarlyWork (2 ^ 64) requests requests' := by
  rw [SameEarlyWork, earlyRequests_eq_self, earlyRequests_eq_self]
  exact h

theorem distinctIds_of_perm (hids : DistinctIds requests)
    (h : (requests.map LlmRequest.work).Perm (requests'.map LlmRequest.work)) :
    DistinctIds requests' := by
  have hperm := h.map (·.requestId)
  rw [List.map_map, List.map_map] at hperm
  exact hperm.nodup_iff.1 hids

theorem early_ne_nil {s : ServingState} (h : s.sim.pending ≠ []) : s.sim.early (2 ^ 64) ≠ [] := by
  obtain ⟨ev, hev⟩ := List.exists_mem_of_ne_nil _ h
  have hmem : (ev.timeNs, ev.kind) ∈ s.sim.early (2 ^ 64) :=
    Simulator.mem_early.2 ⟨ev, hev, ev.timeNs.toNat_lt, rfl⟩
  exact List.ne_nil_of_mem hmem

/-- States that look alike to everything are taken to such states, also when nothing is pending. -/
theorem ServingState.ServingLoop.related {σ : Type} {step : σ → Except Panic (Option σ)}
    {state : σ → ServingState} {fetching : Prop} (hloop : ServingLoop fetching step state)
    {R : σ → σ → Prop} {seen : Set UInt64}
    (hR : ∀ a b, R a b → (state a).Shadows (2 ^ 64) seen (state b))
    (hstep : ∀ a b, R a b → (state a).sim.early (2 ^ 64) ≠ [] →
      Related (Option.Rel R) (step a) (step b)) {n : ℕ} {s t : σ} (h : R s t) :
    Related R (EventLoop.run step n s) (EventLoop.run step n t) := by
  refine EventLoop.run_related (fun a b _ _ hab => ?_) h
  by_cases hend : (state a).sim.pending = []
  · have hend' : (state b).sim.pending = [] := by
      by_contra hne
      refine early_ne_nil hne ?_
      rw [(hR a b hab).sim.early, Simulator.early, hend]
      rfl
    rw [(hloop.halted a).2 hend, (hloop.halted b).2 hend']
    exact .ok .none
  · exact hstep a b hab (early_ne_nil hend)

variable [ComputeModel C] [PlacementPolicy P] [TransferModel T]

/-- **What is never read.** The order in which the requests of a trace stand, their models and their
objectives change nothing. -/
theorem runs_ignore_objectives (hids : DistinctIds requests)
    (h : (requests.map LlmRequest.work).Perm (requests'.map LlmRequest.work)) :
    (∀ r : EventDrivenRunner C, EventDrivenRunner.outcome <$> r.run requests =
      EventDrivenRunner.outcome <$> r.run requests') ∧
    (∀ r : CacheAwareRunner C P T, CacheAwareRunner.outcome <$> r.run requests =
      CacheAwareRunner.outcome <$> r.run requests') ∧
    ∀ r : NoReuseRunner C, r.run requests = r.run requests' := by
  have hids' := distinctIds_of_perm hids h
  have hwork := sameEarlyWork_of_perm h
  have hlength : requests'.length = requests.length := by simpa using h.length_eq.symm
  refine ⟨fun r => ?_, fun r => ?_, fun r => ?_⟩
  · have hstart : (r.start requests).Shadows (2 ^ 64) _ (r.start requests') :=
      ⟨shadows_start r.cluster hwork hids hids', rfl, rfl⟩
    rw [EventDrivenRunner.run, EventDrivenRunner.run, hlength]
    refine (EventDrivenRunner.servingLoop.related (fun _ _ h => h.state) (fun _ _ h => h.step)
      hstart).map_bind_eq fun a b hab => ?_
    refine congrArg Except.ok ?_
    simp only [EventDrivenRunner.outcome, hab.state.results, hab.state.cluster,
      hab.state.sim.nowNs]
  · have hstart : (r.start requests).Shadows (2 ^ 64) _ (r.start requests') :=
      ⟨_, rfl, shadows_start r.cluster hwork hids hids'⟩
    rw [CacheAwareRunner.run, CacheAwareRunner.run, hlength]
    refine (CacheAwareRunner.servingLoop.related (fun _ _ h => h.state) (fun _ _ h => h.step)
      hstart).map_bind_eq fun a b hab => ?_
    obtain ⟨t, rfl, ht⟩ := hab
    refine congrArg Except.ok ?_
    simp only [CacheAwareRunner.outcome, ht.results, ht.cluster, ht.sim.nowNs]
  · have hsorted := hwork.sorted hids hids'
    rw [earlyRequests_eq_self, earlyRequests_eq_self] at hsorted
    rw [NoReuseRunner.run, NoReuseRunner.run, ← NoReuseRunner.runAll_work, hsorted,
      NoReuseRunner.runAll_work]

/-- The same two requests in another order, one of them for another model and with an objective. -/
theorem runs_ignore_objectives_swapped :
    EventDrivenRunner.outcome <$>
      (EventDrivenRunner.new ⟨1, 1, 1⟩ (.singleNode 1 1) unitCompute).run
      [.cold 7 0 8 2, .cold 8 0 8 2] =
    EventDrivenRunner.outcome <$>
      (EventDrivenRunner.new ⟨1, 1, 1⟩ (.singleNode 1 1) unitCompute).run
      [.cold 8 0 8 2, { LlmRequest.cold 7 0 8 2 with modelId := "b", sloTtftNs := some 1 }] :=
  (runs_ignore_objectives (P := RemoteLru) (T := AnalyticalTransferModel) (by decide)
    (by decide)).1 (.new ⟨1, 1, 1⟩ (.singleNode 1 1) unitCompute)

end

end KvFlowSim
