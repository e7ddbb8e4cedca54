import KvFlowSim.Serving.Books

/-!
# The books along a run

The clock advances from one event to the next, and while it does no GPU that a waiting request needs
is idle: that is where its waiting is paid for (`Waits.pop`). With the bookkeeping of the
operations, every event of either runner keeps the books, from the start of a run on an idle
cluster (`Audited`).
-/

namespace KvFlowSim

open Pool ServingState

namespace ServingState

variable {C : Type} [ComputeModel C] {compute : C} {config : ServingConfig}
  {ready ready' : LlmRequest → UInt64 → Prop} {stage other : Stage}
  {counts : Stage → Bool} {gpus : ℕ} {ids : Multiset UInt64} {now id : UInt64} {s s' : ServingState}
  {r r' : InFlightRequest} {n : NodeId} {i b : ℕ}

/-- While a request waits, the clock does not pass the end of any job on a GPU of the role. -/
theorem le_of_mem_busyTimes (ha : s.Attended) (hd : s.cluster.DistinctNodeIds)
    {kind : ServingEvent} {sim : Simulator ServingEvent}
    (hnext : s.sim.step = some (now, kind, sim)) (hq : s.queue stage ≠ [])
    (hlt : s.sim.nowNs < now) :
    ∀ t ∈ s.busyTimes stage, now.toNat ≤ t := by
  intro t ht
  rw [busyTimes, ClusterTopology.busyTimes] at ht
  obtain ⟨busyUntilNs, hmem, rfl⟩ := Multiset.mem_map.1 ht
  obtain ⟨gpu, hgpu, hserves, rfl⟩ := ClusterTopology.mem_pool.1 hmem
  obtain ⟨n, i, hat⟩ := ClusterTopology.gpuAt_of_mem_gpus hd hgpu
  obtain ⟨ev', hev', -, htime⟩ := ha stage hq n i gpu hat hserves
  obtain ⟨ev, -, hperm, hnow, -, hfirst⟩ := Simulator.step_spec hnext
  have hle : ev.timeNs ≤ ev'.timeNs := by
    rcases List.mem_cons.1 (hperm.mem_iff.1 hev') with rfl | hmem
    · exact le_rfl
    · exact hfirst ev' hmem
  rw [hnow] at hlt ⊢
  rw [max_eq_right ((lt_max_iff.1 hlt).resolve_left (lt_irrefl _)).le,
    ← UInt64.le_iff_toNat_le, ← htime]
  exact hle

/-- The next event is taken out, and the clock advances. -/
theorem Waits.pop (h : s.Waits ready stage counts gpus) (htracked : Tracked ids (s, none))
    (ha : s.Attended) {kind : ServingEvent} {sim : Simulator ServingEvent}
    (hnext : s.sim.step = some (now, kind, sim)) (b : ℕ) (hready : ∀ q t, ready q t → ready' q t) :
    OnBooks ready' stage counts gpus ids now ({ s with sim := sim }, some (kind.requestId, b)) ∧
      ∀ r, s.inFlight.get kind.requestId = some r → ∃ ev ∈ s.sim.pending, ev.kind = kind ∧
        now = max s.sim.nowNs ev.timeNs ∧ (Site.event ev).Shows r := by
  have hbusy : s.queue stage ≠ [] → s.sim.nowNs < now → ∀ t ∈ s.busyTimes stage, now.toNat ≤ t :=
    le_of_mem_busyTimes ha h.distinct hnext
  obtain ⟨ev, rfl, hperm, hnow, hclock, -⟩ := Simulator.step_spec hnext
  have hle : s.sim.nowNs ≤ now := hnow ▸ le_max_left _ _
  have hle' := UInt64.le_iff_toNat_le.1 hle
  refine ⟨⟨hclock, htracked.pop hnext b, h.distinct, h.card, h.shares, fun p hp r hr => ?_, ?_,
    fun id hid r hr => ?_, fun id r hr => (h.records id r hr).mono hready le_rfl, fun y hy => ?_⟩,
    fun r hr => ⟨ev, hperm.mem_iff.2 List.mem_cons_self, rfl, hnow, ?_⟩⟩
  · refine h.sites p ?_ r hr
    rcases List.mem_append.1 hp with hp | hp
    · rcases List.mem_append.1 hp with hp | hp
      · obtain ⟨ev', hev', rfl⟩ := List.mem_map.1 hp
        refine List.mem_append_left _ (List.mem_append_left _ (List.mem_map.2 ⟨ev', ?_, rfl⟩))
        exact hperm.mem_iff.2 (List.mem_cons_of_mem _ hev')
      · exact List.mem_append_left _ (List.mem_append_right _ hp)
    · exact List.mem_append_right _ hp
  · show Pool.backlog (s.busyTimes stage) sim.nowNs.toNat ≤ s.workNs counts
    rw [hclock]
    exact (backlog_anti _ hle').trans h.backlog
  · have hid' : id ∈ s.queue stage := by cases stage <;> exact hid
    obtain ⟨t, ht, hsince, hp⟩ := h.queue id hid' r hr
    refine ⟨t, ht.mono hready, ?_, ?_⟩
    · show t ≤ sim.nowNs
      rw [hclock]
      exact hsince.trans hle
    · show Paid (s.busyTimes stage) t.toNat sim.nowNs.toNat (s.workNs counts)
      rw [hclock]
      rcases hle.eq_or_lt with heq | hlt
      · exact heq ▸ hp
      · exact hp.advance (UInt64.le_iff_toNat_le.1 hsince) hle'
          (hbusy (List.ne_nil_of_mem hid') hlt)
  · exact (h.results y hy).mono hready le_rfl
  · refine h.sites (ev.kind.requestId, .event ev) ?_ r hr
    refine List.mem_append_left _ (List.mem_append_left _ (List.mem_map.2 ⟨ev, ?_, rfl⟩))
    exact hperm.mem_iff.2 List.mem_cons_self

/-! ## Handlers -/

/-- A completed prefill: the request goes on to its decode. -/
theorem OnBooks.prefilled (hids : ids.Nodup) {s₁ s₂ : ServingState}
    (h : OnBooks ready stage counts gpus ids now (s, some (id, 1)))
    (hr : s.inFlight.get id = some r) (hunbegun : r.Unbegun 1) (hdone : r.prefillDoneNs = some now)
    {gpu : GpuResource} (hat : s.cluster.gpuAt n i = some gpu)
    (hrelease : s.releaseGpu n i now = .ok s₁)
    (hdecode : s₁.startOrQueue compute config .decode id now = .ok s₂)
    (hserved : Served compute config .prefill .decode now s₂ s') :
    OnBooks ready stage counts gpus ids now (s', none) := by
  have hr₁ : s₁.inFlight.get id = some r := by
    rw [inFlight_releaseGpu hrelease, hr]
  have hready : Stage.decode = stage → r.ReadyAt ready stage now := by
    rintro rfl
    rw [InFlightRequest.ReadyAt, hdone]
  have hqueued := (h.releaseGpu hat hrelease).startOrQueue hids hr₁ hunbegun le_rfl hready hdecode
  exact hqueued.served hids hserved

/-- A completed decode: the request is done. -/
theorem OnBooks.decoded (hids : ids.Nodup) {s₁ : ServingState}
    (h : OnBooks ready stage counts gpus ids now (s, some (id, b)))
    (hr : s.inFlight.get id = some r) (hstarted : (r.startedNs .decode).isSome) {gpu : GpuResource}
    (hat : s.cluster.gpuAt n i = some gpu) (hrelease : s.releaseGpu n i now = .ok s₁)
    (hserved : Served compute config .decode .prefill now (s₁.finish id) s') :
    OnBooks ready stage counts gpus ids now (s', none) := by
  have hr₁ : s₁.inFlight.get id = some r := by
    rw [inFlight_releaseGpu hrelease, hr]
  exact ((h.releaseGpu hat hrelease).finish hids hr₁ hstarted).served hids hserved

/-- The request in the hand is ready for its first stage, a prefill or, if there is nothing to be
prefilled, its decode. -/
theorem OnBooks.begins (hids : ids.Nodup)
    (h : OnBooks ready stage counts gpus ids now (s, some (id, b)))
    (hr : s.inFlight.get id = some r) (hunbegun : r.Unbegun b) (hb : 2 ≤ b)
    (hready : ready r.request now) (hrun : s.startOrQueue compute config other id now = .ok s') :
    OnBooks ready stage counts gpus ids now (s', none) := by
  have hnone : r.prefillDoneNs = none := (hunbegun .prefill hb).2
  have hbudget : other.weight ≤ b := by
    cases other with
    | prefill => exact hb
    | decode => exact Nat.le_of_succ_le hb
  refine h.startOrQueue hids hr hunbegun hbudget (fun _ => ?_) hrun
  cases stage with
  | prefill => exact hready
  | decode =>
    rw [InFlightRequest.ReadyAt, hnone]
    exact hready

/-- The request in the hand has a hit, and the rest of it is served. -/
theorem OnBooks.remains (hids : ids.Nodup)
    (h : OnBooks ready stage counts gpus ids now (s, some (id, b)))
    (hr : s.inFlight.get id = some r) (hunbegun : r.Unbegun b) (hb : 2 ≤ b)
    (hready : ready r.request now) (hremains : Remains compute config r now s s') :
    OnBooks ready stage counts gpus ids now (s', none) := by
  obtain rfl : r.id = id := KeyedMap.key_of_get hr
  unfold Remains at hremains
  split_ifs at hremains
  · exact h.begins hids hr hunbegun hb hready hremains
  · have hnoted := h.noted hids hr { r with prefillTokens := r.request.newPromptTokens }
      ⟨rfl, rfl, rfl⟩
    exact hnoted.begins hids ((KeyedMap.get_insert _ _ _).trans (if_pos rfl)) hunbegun hb
      hready hremains

/-! ## The start of a run -/

theorem waits_start {cluster : ClusterTopology} (hd : cluster.DistinctNodeIds)
    (hidle : cluster.AllIdle) (ready : LlmRequest → UInt64 → Prop) (stage : Stage)
    (l : List LlmRequest) : ((ServingState.new cluster).enterAll l).Waits ready stage
      (cluster.shares stage) (cluster.busyTimes stage.role).card := by
  have hget : ∀ id r, ((ServingState.new cluster).enterAll l).inFlight.get id = some r →
      ∃ q, r = .new q := by
    intro id r hr
    rcases get_enterAll _ l hr with hr | ⟨q, -, rfl⟩
    · exact absurd hr (by simp [ServingState.new])
    · exact ⟨q, rfl⟩
  have hqueue : ∀ other, ((ServingState.new cluster).enterAll l).queue other = [] := fun other => by
    rw [queue_enterAll]
    cases other <;> rfl
  have hcluster : ((ServingState.new cluster).enterAll l).cluster = cluster := cluster_enterAll _ l
  refine ⟨by rwa [hcluster], by rw [busyTimes, hcluster], fun other hother => by
    rwa [hcluster] at hother,
    fun p hp r hr => ?_, ?_, fun id hid => ?_, fun id r hr => ?_, fun y hy => ?_⟩
  · have hprefill : ((ServingState.new cluster).enterAll l).prefillQueue = [] := hqueue .prefill
    have hdecode : ((ServingState.new cluster).enterAll l).decodeQueue = [] := hqueue .decode
    rw [sites, hprefill, hdecode, List.map_nil, List.map_nil, List.append_nil,
      List.append_nil] at hp
    obtain ⟨ev, hev, rfl⟩ := List.mem_map.1 hp
    obtain ⟨q, -, hkind⟩ := kind_of_mem_start hev
    obtain ⟨q', rfl⟩ := hget _ r hr
    refine ⟨fun other _ => by cases other <;> exact ⟨rfl, rfl⟩, fun other id n i hdone => ?_⟩
    rw [hkind] at hdone
    cases other <;> cases hdone
  · rw [busyTimes, hcluster, ClusterTopology.busyTimes, hidle.pool_eq, Multiset.map_replicate]
    exact (backlog_replicate_zero _ _).trans_le (Nat.zero_le _)
  · rw [hqueue] at hid
    exact absurd hid List.not_mem_nil
  · obtain ⟨q, rfl⟩ := hget id r hr
    refine ⟨fun other _ => by cases other <;> rfl, fun start hstart => ?_⟩
    cases stage <;> cases hstart
  · rw [results_enterAll] at hy
    exact absurd hy List.not_mem_nil

/-! ## Steps -/

/-- The books between two events, with what it takes to keep them. -/
structure Audited (ready : LlmRequest → UInt64 → Prop) (stage : Stage)
    (counts : Stage → Bool) (gpus : ℕ) (ids : Multiset UInt64) (s : ServingState) : Prop where
  tracked : Tracked ids (s, none)
  scheduled : s.Scheduled
  attended : s.Attended
  punctual : s.Punctual
  waits : s.Waits ready stage counts gpus

/-- What is known of the request of the next event, which is handled at a time. -/
structure Upcoming (now : UInt64) (kind : ServingEvent) (s : ServingState)
    (r : InFlightRequest) : Prop where
  unbegun : r.Unbegun (kind.weight - 1)
  arrived : kind.isArrival = true → r.request.arrivalNs = now
  done : ∀ (stage : Stage) (id : UInt64) (n : NodeId) (i : ℕ), kind = stage.doneEvent id n i →
    (r.startedNs stage).isSome ∧ r.endsNs stage = some now
  gpu : ∀ n i, kind.completion = some (n, i) → ∃ gpu, s.cluster.gpuAt n i = some gpu

variable {kind : ServingEvent} {sim : Simulator ServingEvent} {fetching : Prop}

/-- The next event is taken out, with the request that it is about. -/
theorem Audited.pop (h : s.Audited ready stage counts gpus ids)
    (hnext : s.sim.step = some (now, kind, sim)) (hready : ∀ q t, ready q t → ready' q t) :
    OnBooks ready' stage counts gpus ids now
        ({ s with sim := sim }, some (kind.requestId, kind.weight - 1)) ∧
      ∃ r, s.inFlight.get kind.requestId = some r ∧ s.Upcoming now kind r := by
  obtain ⟨hpop, hshows⟩ := h.waits.pop h.tracked h.attended hnext (kind.weight - 1) hready
  obtain ⟨r, hr⟩ := Option.isSome_iff_exists.1 (h.tracked.isSome_get hnext)
  obtain ⟨ev, hev, hkind, hnow, hunbegun, hdone⟩ := hshows r hr
  refine ⟨hpop, r, hr, hkind ▸ hunbegun, fun harrival => ?_, fun st id n i hst => ?_,
    fun n i hcompletion => h.scheduled.addressed ev hev n i (hkind ▸ hcompletion)⟩
  · exact ((h.punctual.pop hnext).2.1 harrival r hr).symm
  · have hlate : s.sim.nowNs ≤ ev.timeNs :=
      h.punctual.notLate ev hev (by rw [hkind, hst]; cases st <;> rfl)
    obtain ⟨hstarted, hends⟩ := hdone st id n i (hkind.trans hst)
    rw [hends, hnow, max_eq_right hlate]
    exact ⟨hstarted, rfl⟩

theorem Audited.advance (h : s.Audited ready stage counts gpus ids) (hids : ids.Nodup)
    (hadvance : Advance fetching s s') (hwaits : s'.Waits ready' stage counts gpus) :
    s'.Audited ready' stage counts gpus ids :=
  ⟨hadvance.tracked hids h.tracked, hadvance.scheduled h.scheduled,
    hadvance.attended h.scheduled h.attended, hadvance.punctual h.punctual, hwaits⟩

theorem audited_start {cluster : ClusterTopology} (hd : cluster.DistinctNodeIds)
    (hidle : cluster.AllIdle) (ready : LlmRequest → UInt64 → Prop) (stage : Stage)
    {requests : List LlmRequest} (hids : DistinctIds requests) :
    ((ServingState.new cluster).enterAll (sortRequests requests)).Audited ready stage
      (cluster.shares stage) (cluster.busyTimes stage.role).card (ServingState.ids requests) := by
  have hids' : DistinctIds (sortRequests requests) :=
    ((sortRequests_perm requests).map _).nodup_iff.2 hids
  exact ⟨ids_sortRequests requests ▸ tracked_start cluster _, scheduled_start hd hidle _,
    attended_start cluster _,
    punctual_start cluster hids', waits_start hd hidle ready stage _⟩

end ServingState

namespace EventDrivenRunner

variable {C : Type} [ComputeModel C] {r r' : EventDrivenRunner C} {stage : Stage}
  {counts : Stage → Bool} {gpus : ℕ} {ids : Multiset UInt64}

/-- Every event keeps the books. A request is ready when it arrives. -/
theorem step_audited (hids : ids.Nodup)
    (h : r.toServingState.Audited (fun q t => t = q.arrivalNs) stage counts gpus ids)
    (hstep : EventLoop.Step step r r') :
    r'.toServingState.Audited (fun q t => t = q.arrivalNs) stage counts gpus ids := by
  refine h.advance hids (step_advance hstep) ?_
  obtain ⟨now, kind, sim, hnext, hrun⟩ := step_ok hstep
  obtain ⟨hpop, inflight, hin, hdue⟩ := h.pop hnext fun _ _ h => h
  cases kind with
  | requestArrival id =>
    have hrun : ({ r with sim } : EventDrivenRunner C).onArrival now id = .ok r' := hrun
    obtain ⟨s, hs, rfl⟩ := onState_eq_ok.1 hrun
    exact (hpop.begins hids hin hdue.unbegun (Nat.le_succ 2) (hdue.arrived rfl).symm hs).waits
  | prefillDone id n i =>
    obtain ⟨s₁, s₂, s₃, s₄, hrelease, hdecode, hfirst, hsecond, rfl⟩ := onPrefillDone_ok hrun
    have hin₁ : s₁.inFlight.get id = some inflight := by
      rw [inFlight_releaseGpu hrelease]
      exact hin
    simp only [startOrQueueDecode, hin₁] at hdecode
    obtain ⟨gpu, hat⟩ := hdue.gpu n i rfl
    exact (hpop.prefilled hids hin hdue.unbegun
      (hdue.done .prefill id n i rfl).2 hat hrelease hdecode
      ⟨s₃, hfirst, hsecond⟩).waits
  | fetchDone id => exact absurd hrun (by simp [handleEvent])
  | decodeDone id n i =>
    obtain ⟨s₁, s₂, s₃, hrelease, hfirst, hsecond, rfl⟩ := onDecodeDone_ok hrun
    obtain ⟨gpu, hat⟩ := hdue.gpu n i rfl
    exact (hpop.decoded hids hin (hdue.done .decode id n i rfl).1 hat hrelease
      ⟨s₂, hfirst, hsecond⟩).waits

end EventDrivenRunner

namespace CacheAwareRunner

variable {C P T : Type} [ComputeModel C] [TransferModel T] {r s s' : CacheAwareRunner C P T}
  {past : List (Happening C P T)} {requests : List LlmRequest}
  {event : ServingEvent} {sim : Simulator ServingEvent} {now : UInt64} {stage : Stage}
  {counts : Stage → Bool} {gpus : ℕ} {ids : Multiset UInt64} {inflight : InFlightRequest}

/-- A request is ready when it arrives or, if KV is fetched for it, when that is done. -/
def ReadyFrom (past : List (Happening C P T)) (q : LlmRequest) (t : UInt64) : Prop :=
  t = q.arrivalNs ∨ ∃ e ∈ past, e.event = .fetchDone q.requestId ∧ e.nowNs = t

theorem ArrivalEffect.onBooks {ready : LlmRequest → UInt64 → Prop} (hids : ids.Nodup)
    (heffect : ArrivalEffect now inflight r s')
    (h : OnBooks ready stage counts gpus ids now (r.toServingState, some (inflight.id, 3)))
    (hin : r.inFlight.get inflight.id = some inflight) (hunbegun : inflight.Unbegun 3)
    (hready : ready inflight.request now) :
    OnBooks ready stage counts gpus ids now (s'.toServingState, none) := by
  cases heffect with
  | missed _ hstate _ =>
    have hnoted := h.noted hids hin { inflight with prefillTokens := inflight.request.promptTokens }
      ⟨rfl, rfl, rfl⟩
    exact hnoted.begins hids ((KeyedMap.get_insert _ _ _).trans (if_pos rfl)) hunbegun
      (by decide) hready
      hstate
  | hit _ _ hstate _ => exact h.remains hids hin hunbegun (by decide) hready hstate
  | @fetching kv tier path estimate _ _ _ _ _ hstate _ =>
    have hnoted := h.noted hids hin { inflight with pendingFetchTier := some tier } ⟨rfl, rfl, rfl⟩
    rw [hstate]
    exact hnoted.fetch hids ((KeyedMap.get_insert _ _ _).trans (if_pos rfl)) hunbegun
  | degraded _ _ _ hstate _ =>
    have hnoted := h.noted hids hin { inflight with
      pendingFetchTier := none, prefillTokens := inflight.request.promptTokens } ⟨rfl, rfl, rfl⟩
    exact hnoted.begins hids ((KeyedMap.get_insert _ _ _).trans (if_pos rfl)) hunbegun
      (by decide) hready
      hstate

variable [PlacementPolicy P]

/-- Every event keeps the books. -/
theorem step_audited (hids : ids.Nodup)
    (h : s.toServingState.Audited (ReadyFrom past) stage counts gpus ids)
    (hnext : s.sim.step = some (now, event, sim))
    (hstep : EventLoop.Step CacheAwareRunner.step s s') :
    s'.toServingState.Audited (ReadyFrom (past ++ [⟨s, now, event, s'⟩])) stage counts
      gpus ids := by
  refine h.advance hids (step_advance hstep) ?_
  have hmore : ∀ q t, ReadyFrom past q t → ReadyFrom (past ++ [⟨s, now, event, s'⟩]) q t :=
    fun q t => Or.imp_right fun ⟨e, he, hevent⟩ => ⟨e, List.mem_append_left _ he, hevent⟩
  obtain ⟨hpop, inflight', hin', hdue⟩ := h.pop hnext hmore
  cases step_cases hnext hstep with
  | absent hnone => exact absurd (hin'.symm.trans hnone) (Option.some_ne_none _)
  | @arrived inflight hin heffect =>
    obtain rfl := Option.some.inj (hin.symm.trans hin')
    exact (heffect.onBooks hids hpop hin hdue.unbegun (.inl (hdue.arrived rfl).symm)).waits
  | @prefilled inflight n i s₁ s₂ hin hrelease hdecode hserved =>
    obtain rfl := Option.some.inj (hin.symm.trans hin')
    obtain ⟨gpu, hat⟩ := hdue.gpu n i rfl
    exact (hpop.prefilled hids hin hdue.unbegun
      (hdue.done .prefill _ n i rfl).2 hat hrelease hdecode
      hserved).waits
  | @fetched inflight s₁ hin hremains hserved hrest =>
    obtain rfl := Option.some.inj (hin.symm.trans hin')
    have hready : ReadyFrom (past ++ [⟨s, now, .fetchDone inflight.id, s'⟩]) inflight.request now :=
      .inr ⟨_, List.mem_append_right _ (List.mem_singleton_self _), rfl, rfl⟩
    have hnoted := hpop.noted hids hin { inflight with pendingFetchTier := none } ⟨rfl, rfl, rfl⟩
    have hremained := hnoted.remains hids
      ((KeyedMap.get_insert _ _ _).trans (if_pos rfl)) hdue.unbegun
      le_rfl hready hremains
    exact (hremained.served hids hserved).waits
  | @decoded inflight n i s₁ hin hrelease hserved =>
    obtain rfl := Option.some.inj (hin.symm.trans hin')
    obtain ⟨gpu, hat⟩ := hdue.gpu n i rfl
    exact (hpop.decoded hids hin (hdue.done .decode _ n i rfl).1 hat hrelease hserved).waits

theorem Past.audited {cluster : ClusterTopology} (hpast : Past (r.start requests) past s)
    (hcluster : r.cluster = cluster) (hd : cluster.DistinctNodeIds) (hidle : cluster.AllIdle)
    (hids : DistinctIds requests) (stage : Stage) :
    s.toServingState.Audited (ReadyFrom past) stage (cluster.shares stage)
      (cluster.busyTimes stage.role).card (ServingState.ids requests) := by
  subst hcluster
  induction hpast with
  | nil => exact audited_start hd hidle _ stage hids
  | step _ hnext hstep ih => exact step_audited (Multiset.coe_nodup.2 hids) ih hnext hstep

end CacheAwareRunner

end KvFlowSim
