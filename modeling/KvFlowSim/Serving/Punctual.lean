import KvFlowSim.Serving.Once
import KvFlowSim.Serving.Equivalence

/-!
# Arrivals come on time

All arrivals of a run are scheduled before anything else, so at equal times they are handled before
any completion, and no arrival is late (`Punctual`, `Past.arrivalNs_eq`).
-/

namespace KvFlowSim

open ServingState

namespace ServingState

variable {fetching : Prop} {now : UInt64} {x y : ServingState × Held} {s s' s₁ : ServingState}
  {kind : ServingEvent} {sim : Simulator ServingEvent}

/-- The arrivals stand ahead of all other events, for the times that their requests say. No event is
late, but for fetches, whose times are up to the transfer model. -/
structure Punctual (s : ServingState) : Prop where
  inSequence : s.sim.InSequence
  ahead : s.sim.pending.Pairwise fun a b => b.kind.isArrival = true → a.kind.isArrival = true
  notLate : ∀ ev ∈ s.sim.pending, ev.kind.isFetchDone = false → s.sim.nowNs ≤ ev.timeNs
  onTime : ∀ ev ∈ s.sim.pending, ev.kind.isArrival = true →
    ∀ r, s.inFlight.get ev.kind.requestId = some r →
    ev.timeNs = r.request.arrivalNs

theorem isFetchDone_of_isArrival (h : kind.isArrival = true) : kind.isFetchDone = false := by
  cases kind with
  | fetchDone => cases h
  | requestArrival | prefillDone | decodeDone => rfl

theorem Punctual.schedule (h : s.Punctual) {t : UInt64} (hkind : kind.isArrival = false)
    (ht : kind.isFetchDone = false → s.sim.nowNs ≤ t) :
    ({ s with sim := s.sim.schedule t kind } : ServingState).Punctual := by
  refine ⟨h.inSequence.schedule t kind, ?_, fun ev hev hfetch => ?_, fun ev hev harrival => ?_⟩
  · refine List.pairwise_append.2 ⟨h.ahead, List.pairwise_singleton _ _,
      fun a _ b hb harrival => ?_⟩
    obtain rfl := List.mem_singleton.1 hb
    exact absurd (hkind.symm.trans harrival) Bool.false_ne_true
  · rcases List.mem_append.1 hev with hev | hev
    · exact h.notLate ev hev hfetch
    · obtain rfl := List.mem_singleton.1 hev
      exact ht hfetch
  · rcases List.mem_append.1 hev with hev | hev
    · exact h.onTime ev hev harrival
    · obtain rfl := List.mem_singleton.1 hev
      exact absurd (hkind.symm.trans harrival) Bool.false_ne_true

/-- The records may change as long as each stays about the same request. -/
theorem Punctual.records (h : s.Punctual) (hsim : s'.sim = s.sim)
    (hrequest : ∀ id r', s'.inFlight.get id = some r' →
      ∃ r, s.inFlight.get id = some r ∧ r'.request = r.request) : s'.Punctual := by
  refine ⟨hsim ▸ h.inSequence, hsim ▸ h.ahead, fun ev hev ha => ?_, fun ev hev ha r' hr' => ?_⟩
  · rw [hsim] at hev ⊢
    exact h.notLate ev hev ha
  · obtain ⟨r, hr, hsame⟩ := hrequest _ r' hr'
    rw [hsame]
    exact h.onTime ev (hsim ▸ hev) ha r hr

theorem Punctual.move (h : x.1.Punctual) (hclock : x.1.sim.nowNs = now)
    (hmove : Move fetching now x y) : y.1.Punctual := by
  have hrequest : SameRequests x.1 y := by
    have hself : SameRequests x.1 x := fun id r hr => ⟨r, hr, rfl⟩
    exact hself.move hmove
  cases hmove with
  | @start s id budget stage n i done cluster r r' _ _ hdone =>
    have hkind : (stage.doneEvent id n i).isArrival = false := by cases stage <;> rfl
    exact (h.schedule hkind fun _ => hclock.trans_le hdone).records rfl hrequest
  | enqueue => exact h.records (by simp) hrequest
  | dequeue => exact h.records (by simp) hrequest
  | fetch => exact h.schedule rfl fun hfetch => by cases hfetch
  | finish => exact h.records (by simp) hrequest
  | drop => exact h
  | note => exact h.records rfl hrequest

/-- Taking out the next event. If it is an arrival it is on time, and if it is a completion then
every arrival that is left is due later than it. -/
theorem Punctual.pop (h : s.Punctual) (hstep : s.sim.step = some (now, kind, sim)) :
    ({ s with sim := sim } : ServingState).Punctual ∧
      ((kind.isArrival = true →
          ∀ r, s.inFlight.get kind.requestId = some r → now = r.request.arrivalNs) ∧
        (kind.isArrival = false → kind.isFetchDone = false →
          ∀ ev ∈ sim.pending, ev.kind.isArrival = true → now < ev.timeNs)) := by
  obtain ⟨hsequence, pre, ev, post, rfl, hsplit, hrest, hnow, hpre, hpost⟩ :=
    h.inSequence.step hstep
  have hmem : ∀ x ∈ sim.pending, x ∈ s.sim.pending := fun x hx => by
    rw [hsplit]
    rw [hrest] at hx
    exact (List.mem_append.1 hx).elim (List.mem_append_left _) fun hx =>
      List.mem_append_right _ (List.mem_cons_of_mem _ hx)
  have hev : ev ∈ s.sim.pending := by simp [hsplit]
  have hle : ∀ x ∈ sim.pending, ev.timeNs ≤ x.timeNs := fun x hx => by
    rw [hrest] at hx
    exact (List.mem_append.1 hx).elim (fun hx => (hpre x hx).le) (hpost x)
  have hclock : sim.nowNs = now := by
    obtain ⟨_, _, _, _, hclock, _⟩ := Simulator.step_spec hstep
    exact hclock
  have hahead := h.ahead
  rw [hsplit, List.pairwise_append, List.pairwise_cons] at hahead
  refine ⟨⟨hsequence, ?_, fun x hx ha => ?_, fun x hx ha => h.onTime x (hmem x hx) ha⟩, ?_, ?_⟩
  · show sim.pending.Pairwise _
    rw [hrest, List.pairwise_append]
    exact ⟨hahead.1, hahead.2.1.2, fun a ha b hb => hahead.2.2 a ha b (List.mem_cons_of_mem _ hb)⟩
  · show sim.nowNs ≤ x.timeNs
    rw [hclock, hnow]
    exact max_le (h.notLate x (hmem x hx) ha) (hle x hx)
  · intro ha r hr
    rw [hnow, max_eq_right (h.notLate ev hev (isFetchDone_of_isArrival ha))]
    exact h.onTime ev hev ha r hr
  · intro hkind hfetch x hx ha
    -- an arrival that is left stands ahead of the event
    rw [hrest] at hx
    rw [hnow, max_eq_right (h.notLate ev hev hfetch)]
    rcases List.mem_append.1 hx with hx | hx
    · exact hpre x hx
    · exact absurd (hkind.symm.trans (hahead.2.1.1 x hx ha)) Bool.false_ne_true

theorem Advance.punctual (h : Advance fetching s s') (hs : s.Punctual) : s'.Punctual := by
  obtain ⟨now, kind, sim, hstep, s₁, hrelease, hmoves, -⟩ := h
  have hpop := (hs.pop hstep).1
  have hclock : s₁.sim.nowNs = now := by
    obtain ⟨_, _, _, _, hclock, _⟩ := Simulator.step_spec hstep
    rw [hrelease.sim, ← hclock]
  have hfirst : s₁.Punctual := by
    rw [hrelease.eq]
    exact ⟨hpop.inSequence, hpop.ahead, hpop.notLate, hpop.onTime⟩
  exact (hmoves.invariant (I := fun x => x.1.sim.nowNs = now ∧ x.1.Punctual)
    (fun _ _ ⟨hc, hx⟩ hm => ⟨hm.nowNs.trans hc, hx.move hc hm⟩) ⟨hclock, hfirst⟩).2

/-- No arrival is scheduled during a run. -/
theorem Move.arrivals (h : Move fetching now x y) {ev : Event ServingEvent}
    (hev : ev ∈ y.1.sim.pending) (harrival : ev.kind.isArrival = true) : ev ∈ x.1.sim.pending := by
  cases h with
  | @start s id budget stage n i done cluster r r' =>
    rcases List.mem_append.1 hev with hev | hev
    · exact hev
    · obtain rfl := List.mem_singleton.1 hev
      cases stage <;> cases harrival
  | enqueue => simpa using hev
  | dequeue => simpa using hev
  | fetch =>
    rcases List.mem_append.1 hev with hev | hev
    · exact hev
    · obtain rfl := List.mem_singleton.1 hev
      cases harrival
  | finish => simpa using hev
  | drop => exact hev
  | note => exact hev

theorem Advance.arrivals (h : Advance fetching s s') (hnext : s.sim.step = some (now, kind, sim))
    {ev : Event ServingEvent} (hev : ev ∈ s'.sim.pending) (harrival : ev.kind.isArrival = true) :
    ev ∈ sim.pending := by
  obtain ⟨s₁, hrelease, hmoves, -⟩ := h.handles hnext
  have hsim : s₁.sim = sim := hrelease.sim
  have hkept := hmoves.invariant (I := fun x => ∀ ev ∈ x.1.sim.pending, ev.kind.isArrival = true →
    ev ∈ s₁.sim.pending) (fun _ _ hx hm ev hev ha => hx ev (hm.arrivals hev ha) ha)
    fun _ hev _ => hev
  exact hsim ▸ hkept ev hev harrival

theorem punctual_start (cluster : ClusterTopology) {l : List LlmRequest} (hids : DistinctIds l) :
    ((ServingState.new cluster).enterAll l).Punctual := by
  have harrival : ∀ ev ∈ ((ServingState.new cluster).enterAll l).sim.pending,
      ev.kind.isArrival = true := by
    intro ev hev
    obtain ⟨q, -, hkind⟩ := kind_of_mem_start hev
    rw [hkind]
    rfl
  refine ⟨inSequence_enterAll Simulator.inSequence_new l, ?_, fun ev _ _ =>
    ?_, fun ev hev _ r hr => ?_⟩
  · exact (List.pairwise_of_forall fun _ _ => trivial).imp_of_mem fun ha _ _ _ => harrival _ ha
  · rw [nowNs_enterAll]
    exact UInt64.zero_le
  · obtain ⟨q, -, hkind⟩ := kind_of_mem_start hev
    have htimes : (q.requestId, ev.timeNs) ∈
        ((ServingState.new cluster).enterAll l).sim.timesOf ServingEvent.arrival :=
      List.mem_filterMap.2 ⟨ev, hev, by rw [hkind]; rfl⟩
    rw [timesOf_enterAll] at htimes
    simp only [Simulator.timesOf, ServingState.new, Simulator.pending_new, ServingEvent.arrival,
      List.filterMap_nil, List.nil_append, Option.map_some, Option.toList_some,
      ← List.map_eq_flatMap] at htimes
    obtain ⟨q₁, hq₁, heq⟩ := List.mem_map.1 htimes
    obtain ⟨hid₁, htime⟩ := Prod.mk.inj heq
    rcases get_enterAll _ l hr with hr' | ⟨q₂, hq₂, rfl⟩
    · exact absurd hr' (by simp [ServingState.new])
    · have hid₂ : (InFlightRequest.new q₂).id = ev.kind.requestId := KeyedMap.key_of_get hr
      rw [hkind] at hid₂
      have hsame : q₁ = q₂ := List.inj_on_of_nodup_map hids hq₁ hq₂ (hid₁.trans hid₂.symm)
      rw [← htime, hsame]
      rfl

end ServingState

namespace CacheAwareRunner

variable {C P T : Type} [ComputeModel C] [PlacementPolicy P] [TransferModel T]
  {r s : CacheAwareRunner C P T} {past : List (Happening C P T)} {e e' : Happening C P T}
  {requests : List LlmRequest}

theorem Past.punctual (hpast : Past (r.start requests) past s) (hids : DistinctIds requests) :
    s.toServingState.Punctual := by
  induction hpast with
  | nil =>
    have hids' : DistinctIds (sortRequests requests) :=
      ((sortRequests_perm requests).map _).nodup_iff.2 hids
    exact ServingState.punctual_start r.cluster hids'
  | step _ _ hstep ih => exact (step_advance hstep).punctual ih

/-- The events of a run have been handled by now. -/
theorem Past.nowNs_le {start : CacheAwareRunner C P T} (hpast : Past start past s) (he : e ∈ past) :
    e.nowNs ≤ s.sim.nowNs := by
  induction hpast with
  | nil => exact absurd he List.not_mem_nil
  | step _ hnext hstep ih =>
    obtain ⟨hle, hclock⟩ := step_clock hnext hstep
    rw [hclock]
    rcases List.mem_append.1 he with he | he
    · exact (ih he).trans hle
    · obtain rfl := List.mem_singleton.1 he
      exact le_rfl

/-- An arrival is handled when its request says. -/
theorem Past.arrivalNs_eq (hpast : Past (r.start requests) past s) (hids : DistinctIds requests)
    (he : e ∈ past) (harrival : e.event.isArrival = true) {q : LlmRequest}
    (hq : e.request = some q) :
    e.nowNs = q.arrivalNs := by
  obtain ⟨earlier, sim, hearlier, hnext, -⟩ := hpast.of_mem he
  obtain ⟨inflight, hin, rfl⟩ := Option.map_eq_some_iff.1 hq
  exact ((hearlier.punctual hids).pop hnext).2.1 harrival inflight hin

/-- What has been completed was completed before the arrivals that are left. -/
theorem Past.completed_before (hpast : Past (r.start requests) past s) (hids : DistinctIds requests)
    (he : e ∈ past) (hcompletion : e.event.isArrival = false) (hfetch : e.event.isFetchDone = false)
    {ev : Event ServingEvent} (hev : ev ∈ s.sim.pending) (harrival : ev.kind.isArrival = true) :
    e.nowNs < ev.timeNs := by
  induction hpast generalizing ev with
  | nil => exact absurd he List.not_mem_nil
  | step hpast hnext hstep ih =>
    have hleft := (step_advance hstep).arrivals hnext hev harrival
    rcases List.mem_append.1 he with he | he
    · obtain ⟨_, _, hperm, _⟩ := Simulator.step_spec hnext
      exact ih he (hperm.mem_iff.2 (List.mem_cons_of_mem _ hleft)) harrival
    · obtain rfl := List.mem_singleton.1 he
      exact ((hpast.punctual hids).pop hnext).2.2 hcompletion hfetch ev hleft harrival

end CacheAwareRunner

end KvFlowSim
