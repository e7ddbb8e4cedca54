import KvFlowSim.Serving.Work

/-!
# The books of the waiting

While a request waits for a stage, all GPUs of its role are at work, so what it has waited, once for
each of them, is paid for by the work that they have been given (`Credited`). The books of a state
say so of the requests in the queue and of the waiting that the records and the results show
(`Waits`). Every operation of the shared state keeps them (`OnBooks`).
-/

namespace KvFlowSim

open Pool ServingState

namespace ServingState

/-- The busy times of the GPUs that a stage needs. -/
def busyTimes (s : ServingState) (stage : Stage) : Multiset ℕ := s.cluster.busyTimes stage.role

/-- What a waiting request has waited is paid for. -/
def Credited (ready : LlmRequest → UInt64 → Prop) (stage : Stage) (counts : Stage → Bool)
    (s : ServingState) (r : InFlightRequest) : Prop :=
  ∃ t, r.ReadyAt ready stage t ∧ t ≤ s.sim.nowNs ∧
    Paid (s.busyTimes stage) t.toNat s.sim.nowNs.toNat (s.workNs counts)

/-- The books of the waiting for a stage, whose role is served by so many `gpus`. -/
structure Waits (ready : LlmRequest → UInt64 → Prop) (stage : Stage)
    (counts : Stage → Bool) (gpus : ℕ) (s : ServingState) : Prop where
  distinct : s.cluster.DistinctNodeIds
  card : (s.busyTimes stage).card = gpus
  shares : ∀ other, s.cluster.shares stage other = true → counts other = true
  sites : ∀ p ∈ s.sites, ∀ r, s.inFlight.get p.1 = some r → p.2.Shows r
  backlog : backlog (s.busyTimes stage) s.sim.nowNs.toNat ≤ s.workNs counts
  queue : ∀ id ∈ s.queue stage, ∀ r, s.inFlight.get id = some r → s.Credited ready stage counts r
  records : ∀ id r, s.inFlight.get id = some r → r.Bounded ready stage gpus (s.workNs counts)
  results : ∀ y ∈ s.results, y.Settled ready stage gpus (s.workNs counts)

/-- While an event is handled at a time, the books are kept. -/
structure OnBooks (ready : LlmRequest → UInt64 → Prop) (stage : Stage)
    (counts : Stage → Bool) (gpus : ℕ) (ids : Multiset UInt64) (now : UInt64)
    (x : ServingState × Held) : Prop where
  clock : x.1.sim.nowNs = now
  tracked : Tracked ids x
  waits : x.1.Waits ready stage counts gpus

variable {C : Type} [ComputeModel C] {compute : C} {config : ServingConfig}
  {ready ready' : LlmRequest → UInt64 → Prop} {stage other : Stage}
  {counts : Stage → Bool} {gpus : ℕ} {ids : Multiset UInt64} {now id : UInt64} {s s' : ServingState}
  {r r' : InFlightRequest} {n : NodeId} {i b : ℕ}

/-- What starting a stage does, to the record in particular. -/
theorem start_begun (hr : s.inFlight.get id = some r)
    (hrun : s.start compute config stage id (n, i) now = .ok s') : ∃ done cluster r', now ≤ done ∧
      s.cluster.setBusyUntil n i done = .ok cluster ∧ r.Begun stage now done r' ∧
      s' = { s with
        sim := s.sim.schedule done (stage.doneEvent id n i)
        cluster := cluster
        inFlight := s.inFlight.insert r' } := by
  cases stage with
  | prefill =>
    obtain ⟨cluster, hcluster, rfl⟩ := start_prefill_ok hr hrun
    refine ⟨_, cluster, _, UInt64.le_satAdd _ _, hcluster, ?_, rfl⟩
    exact ⟨rfl, fun other => by cases other <;> rfl, fun other => by cases other <;> rfl⟩
  | decode =>
    obtain ⟨cluster, hcluster, rfl⟩ := start_decode_ok hr hrun
    refine ⟨_, cluster, _, UInt64.le_satAdd _ _, hcluster, ?_, rfl⟩
    exact ⟨rfl, fun other => by cases other <;> rfl, fun other => by cases other <;> rfl⟩

/-- The record of a request is written anew. -/
theorem workNs_insert (sim : Simulator ServingEvent) (cluster : ClusterTopology) (spent : ℕ)
    (hr : s.inFlight.get id = some r) (hid : r'.id = id)
    (hwork : r'.intoResult.workNs counts = r.intoResult.workNs counts + spent) :
    ({ s with sim := sim, cluster := cluster, inFlight := s.inFlight.insert r' } :
      ServingState).workNs counts = s.workNs counts + spent := by
  have hbefore : s.inFlight.sumBy (fun r => r.intoResult.workNs counts) =
      r.intoResult.workNs counts + (s.inFlight.remove id).sumBy fun r =>
      r.intoResult.workNs counts :=
    KeyedMap.sumBy_of_get hr
  simp only [workNs, KeyedMap.sumBy_insert, hid, hbefore, hwork]
  omega

/-- The books are carried on to a state in which as much is paid for. -/
theorem Waits.carry (h : s.Waits ready stage counts gpus) (hclock : s'.sim.nowNs = s.sim.nowNs)
    (hdistinct : s'.cluster.DistinctNodeIds)
    (hshares : ∀ other, s'.cluster.shares stage other = s.cluster.shares stage other)
    (hcard : (s'.busyTimes stage).card = (s.busyTimes stage).card)
    (hpaid : ∀ since, Paid (s.busyTimes stage) since s.sim.nowNs.toNat (s.workNs counts) →
      Paid (s'.busyTimes stage) since s.sim.nowNs.toNat (s'.workNs counts))
    (hsites : ∀ p ∈ s'.sites, ∀ r, s'.inFlight.get p.1 = some r → p.2.Shows r)
    (hqueue : ∀ id ∈ s'.queue stage, ∀ r, s'.inFlight.get id = some r →
      s.Credited ready stage counts r)
    (hrecords : ∀ id r, s'.inFlight.get id = some r → r.Bounded ready stage gpus (s'.workNs counts))
    (hresults : ∀ y ∈ s'.results, y.Settled ready stage gpus (s'.workNs counts)) :
    s'.Waits ready stage counts gpus where
  distinct := hdistinct
  card := hcard.trans h.card
  shares other hother := h.shares other (hshares other ▸ hother)
  sites := hsites
  backlog := hclock ▸ (hpaid _ (.begin h.backlog)).backlog_le
  queue id hid r hr := by
    obtain ⟨t, ht, hle, hp⟩ := hqueue id hid r hr
    exact ⟨t, ht, hclock ▸ hle, hclock ▸ hpaid _ hp⟩
  records := hrecords
  results := hresults

/-- A request that becomes ready now has waited for nothing. -/
theorem Waits.credited (h : s.Waits ready stage counts gpus)
    (hr : r.ReadyAt ready stage s.sim.nowNs) :
    s.Credited ready stage counts r :=
  ⟨_, hr, le_rfl, .begin h.backlog⟩

/-- The request in the hand starts a stage. If it is the one that the books are about, the waiting
of the request has been paid for. -/
theorem OnBooks.start (hids : ids.Nodup)
    (h : OnBooks ready stage counts gpus ids now (s, some (id, b)))
    (hr : s.inFlight.get id = some r) (hunbegun : r.Unbegun b) (hbudget : other.weight ≤ b)
    (hgpu : s.cluster.findIdleGpuFor now other.role = .ok (some (n, i)))
    (hcredit : other = stage → s.Credited ready stage counts r)
    (hrun : s.start compute config other id (n, i) now = .ok s') :
    OnBooks ready stage counts gpus ids now (s', none) := by
  have hmoves : Moves False now (s, some (id, b)) (s', none) := start_moves hbudget hgpu hrun
  have hnot : id ∉ active (s, none) := h.tracked.held_notMem hids
  have hid : r.id = id := KeyedMap.key_of_get hr
  have hclock : s.sim.nowNs = now := h.clock
  have hwaits : s.Waits ready stage counts gpus := h.waits
  have htracked : Tracked ids (s', none) :=
    hmoves.invariant (fun _ _ hx hm => hm.tracked hids hx) h.tracked
  obtain ⟨gpu, hat, -, hserves, -⟩ := ClusterTopology.idle_of_findIdleGpuFor hwaits.distinct hgpu
  obtain ⟨done, cluster, r', hdone, hcluster, hbegun, rfl⟩ := start_begun hr hrun
  have hid' : r'.id = id := (congrArg LlmRequest.requestId hbegun.request).trans hid
  have hunbegun' : r.Unbegun other.weight := fun st hst => hunbegun st (hst.trans hbudget)
  have hwork := workNs_insert (s.sim.schedule done (other.doneEvent id n i)) cluster _ hr hid'
    (hbegun.workNs hunbegun' counts)
  refine ⟨hclock, htracked, hwaits.carry rfl (hwaits.distinct.setBusyUntil hcluster)
    (fun st => ClusterTopology.shares_setBusyUntil hcluster hat stage st) ?_ ?_ ?_ ?_ ?_ ?_⟩
  · exact ClusterTopology.card_busyTimes_setBusyUntil hcluster hat
  · intro since hp
    rw [hwork]
    cases hrole : gpu.serves stage.role with
    | true =>
      -- the GPU is shared by the stage that it is given to
      obtain ⟨rest, hold, hnew⟩ := ClusterTopology.busyTimes_setBusyUntil hcluster hat hrole
      rw [if_pos (hwaits.shares other (ClusterTopology.shares_of_serves hat hrole hserves)),
        busyTimes, hnew, ← hclock]
      rw [busyTimes, hold] at hp
      exact hp.start done.toNat
    | false =>
      rw [busyTimes, ClusterTopology.busyTimes_setBusyUntil_of_not hcluster hat hrole]
      exact hp.mono (Nat.le_add_right _ _)
  · intro p hp r'' hr''
    rw [KeyedMap.get_insert, hid'] at hr''
    rcases mem_sites_schedule hp rfl rfl rfl with hold | ⟨ev, hkind, htime, rfl⟩
    · rw [if_neg fun heq : p.1 = id => hnot (heq ▸ mem_active_of_site hold)] at hr''
      exact hwaits.sites p hold r'' hr''
    · rw [Stage.requestId_doneEvent, if_pos rfl] at hr''
      obtain rfl := Option.some.inj hr''
      exact hbegun.shows hunbegun' hkind htime
  · intro id' hmem r'' hr''
    have hmem' : id' ∈ s.queue stage := by cases stage <;> exact hmem
    have hne : id' ≠ id := fun heq => hnot (heq ▸ mem_active_of_site (mem_sites_queue hmem'))
    rw [KeyedMap.get_insert, hid', if_neg hne] at hr''
    exact hwaits.queue id' hmem' r'' hr''
  · intro id' r'' hr''
    rw [hwork]
    rw [KeyedMap.get_insert, hid'] at hr''
    have hbounded := (hwaits.records id r hr).mono (fun _ _ hq => hq)
      (Nat.le_add_right (s.workNs counts) (if counts other then done.toNat - now.toNat else 0))
    split_ifs at hr'' with heq
    · obtain rfl := Option.some.inj hr''
      by_cases hst : other = stage
      · subst hst
        obtain ⟨t, ht, hle, hp⟩ := hcredit rfl
        refine hbegun.bounded hbounded ht (hclock ▸ hle) ?_
        rw [if_pos (hwaits.shares other (ClusterTopology.shares_of_serves hat hserves hserves)),
          ← hwaits.card, ← hclock]
        unfold Paid at hp
        omega
      · exact hbegun.bounded_other hst hbounded hunbegun'
    · exact (hwaits.records id' r'' hr'').mono (fun _ _ hq => hq) (Nat.le_add_right _ _)
  · intro y hy
    rw [hwork]
    exact (hwaits.results y hy).mono (fun _ _ hq => hq) (Nat.le_add_right _ _)

@[simp] theorem workNs_setQueue (s : ServingState) (other : Stage) (q : List UInt64) :
    (s.setQueue other q).workNs counts = s.workNs counts := by
  rw [workNs, workNs, inFlight_setQueue, results_setQueue]

@[simp] theorem busyTimes_setQueue (s : ServingState) (other : Stage) (q : List UInt64) :
    (s.setQueue other q).busyTimes stage = s.busyTimes stage := by
  rw [busyTimes, busyTimes, cluster_setQueue]

@[simp] theorem credited_setQueue (s : ServingState) (other : Stage) (q : List UInt64) :
    (s.setQueue other q).Credited ready stage counts r ↔ s.Credited ready stage counts r := by
  simp only [Credited, workNs_setQueue, busyTimes_setQueue, sim_setQueue]

/-- A queue is replaced by one of requests that may wait there. -/
theorem Waits.setQueue (h : s.Waits ready stage counts gpus) {q : List UInt64}
    (hq : ∀ id ∈ q, id ∈ s.queue other ∨ ∀ r, s.inFlight.get id = some r →
      r.Unbegun other.weight ∧ (other = stage → s.Credited ready stage counts r)) :
    (s.setQueue other q).Waits ready stage counts gpus := by
  refine h.carry (by rw [sim_setQueue]) (by rw [cluster_setQueue]; exact h.distinct)
    (fun st => by rw [cluster_setQueue]) (by rw [busyTimes_setQueue])
    (fun since hp => by rw [busyTimes_setQueue, workNs_setQueue]; exact hp) ?_ ?_ ?_ ?_
  · intro p hp r hr
    rw [inFlight_setQueue] at hr
    rcases mem_sites_setQueue hp with hold | ⟨hmem, hsite⟩
    · exact h.sites p hold r hr
    · obtain ⟨id, site⟩ := p
      obtain rfl : site = .queue other := hsite
      rcases hq id hmem with hold | hnew
      · exact h.sites _ (mem_sites_queue hold) r hr
      · exact (hnew r hr).1
  · intro id hmem r hr
    rw [inFlight_setQueue] at hr
    rw [queue_setQueue] at hmem
    split_ifs at hmem with hst
    · rcases hq id hmem with hold | hnew
      · exact h.queue id (hst ▸ hold) r hr
      · exact (hnew r hr).2 hst.symm
    · exact h.queue id hmem r hr
  · rw [workNs_setQueue, inFlight_setQueue]
    exact h.records
  · rw [workNs_setQueue, results_setQueue]
    exact h.results

/-- The request in the hand starts a stage or waits for it. -/
theorem OnBooks.startOrQueue (hids : ids.Nodup)
    (h : OnBooks ready stage counts gpus ids now (s, some (id, b)))
    (hr : s.inFlight.get id = some r) (hunbegun : r.Unbegun b) (hbudget : other.weight ≤ b)
    (hready : other = stage → r.ReadyAt ready stage now)
    (hrun : s.startOrQueue compute config other id now = .ok s') :
    OnBooks ready stage counts gpus ids now (s', none) := by
  have hmoves : Moves False now (s, some (id, b)) (s', none) := startOrQueue_moves hrun hbudget
  have htracked : Tracked ids (s', none) :=
    hmoves.invariant (fun _ _ hx hm => hm.tracked hids hx) h.tracked
  have hclock : s.sim.nowNs = now := h.clock
  have hcredit : other = stage → s.Credited ready stage counts r := fun hst =>
    h.waits.credited (hclock ▸ hready hst)
  obtain ⟨gpu, hgpu, hrun⟩ := Except.bind_eq_ok.1 hrun
  cases gpu with
  | some gpu => exact h.start hids hr hunbegun hbudget hgpu hcredit hrun
  | none =>
    obtain rfl := Except.ok.inj hrun
    refine ⟨by rw [sim_setQueue]; exact hclock, htracked, h.waits.setQueue fun id' hmem => ?_⟩
    refine (List.mem_append.1 hmem).imp_right fun hmem r' hr' => ?_
    obtain rfl : id' = id := List.mem_singleton.1 hmem
    obtain rfl := Option.some.inj (hr.symm.trans hr')
    exact ⟨fun st hst => hunbegun st (hst.trans hbudget), hcredit⟩

/-- The requests of a queue are started one after another. -/
theorem OnBooks.assign (hids : ids.Nodup) {q : List UInt64}
    (h : OnBooks ready stage counts gpus ids now (s, none)) (hq : s.queue other = q)
    (hrun : assign compute config other now q s = .ok s') :
    OnBooks ready stage counts gpus ids now (s', none) := by
  induction q generalizing s with
  | nil =>
    obtain rfl := Except.ok.inj hrun
    exact h
  | cons id rest ih =>
    obtain ⟨gpu, hgpu, hrun⟩ := Except.bind_eq_ok.1 hrun
    cases gpu with
    | none =>
      obtain rfl := Except.ok.inj hrun
      exact h
    | some gpu =>
      obtain ⟨s₁, hstart, hrun⟩ := Except.bind_eq_ok.1 hrun
      have hwaits : s.Waits ready stage counts gpus := h.waits
      have hdequeue : Move False now (s, none) (s.setQueue other rest, some (id, other.weight)) :=
        .dequeue hq
      have hmem : (id, .queue other) ∈ s.sites := mem_sites_queue (hq ▸ List.mem_cons_self)
      obtain ⟨r, hr⟩ : ∃ r, s.inFlight.get id = some r :=
        Option.isSome_iff_exists.1 (h.tracked.inFlight id (mem_active_of_site hmem))
      have hheld : OnBooks ready stage counts gpus ids now
          (s.setQueue other rest, some (id, other.weight)) := by
        refine ⟨by rw [sim_setQueue]; exact h.clock, hdequeue.tracked hids h.tracked,
          hwaits.setQueue fun id' hmem' => .inl ?_⟩
        rw [hq]
        exact List.mem_cons_of_mem _ hmem'
      have hcredit : other = stage → (s.setQueue other rest).Credited ready stage counts r := by
        rintro rfl
        exact (credited_setQueue s other rest).2 (hwaits.queue id (hq ▸ List.mem_cons_self) r hr)
      have hrest : s₁.queue other = rest := by rw [queue_start hstart, queue_setQueue_self]
      refine ih (hheld.start hids ?_ (hwaits.sites _ hmem r hr) le_rfl ?_ hcredit hstart) hrest hrun
      · rw [inFlight_setQueue]
        exact hr
      · rw [cluster_setQueue]
        exact hgpu

theorem OnBooks.served (hids : ids.Nodup) {first second : Stage}
    (h : OnBooks ready stage counts gpus ids now (s, none))
    (hserved : Served compute config first second now s s') :
    OnBooks ready stage counts gpus ids now (s', none) := by
  obtain ⟨s₁, h₁, h₂⟩ := hserved
  exact (h.assign hids rfl h₁).assign hids rfl h₂

/-- A GPU is released, perhaps in the middle of another job. -/
theorem OnBooks.releaseGpu {held : Held} (h : OnBooks ready stage counts gpus ids now (s, held))
    {gpu : GpuResource} (hat : s.cluster.gpuAt n i = some gpu)
    (hrun : s.releaseGpu n i now = .ok s') :
    OnBooks ready stage counts gpus ids now (s', held) := by
  obtain ⟨cluster, hcluster, hrun⟩ := Except.bind_eq_ok.1 hrun
  obtain rfl := Except.ok.inj hrun
  have hwaits : s.Waits ready stage counts gpus := h.waits
  have hclock : s.sim.nowNs = now := h.clock
  refine ⟨hclock, ⟨h.tracked.places, h.tracked.inFlight⟩, hwaits.carry rfl
    (hwaits.distinct.setBusyUntil hcluster)
    (fun st => ClusterTopology.shares_setBusyUntil hcluster hat stage st)
    (ClusterTopology.card_busyTimes_setBusyUntil hcluster hat) (fun since hp => ?_) hwaits.sites
    hwaits.queue hwaits.records hwaits.results⟩
  show Paid (cluster.busyTimes stage.role) since _ (s.workNs counts)
  cases hrole : gpu.serves stage.role with
  | true =>
    obtain ⟨rest, hold, hnew⟩ := ClusterTopology.busyTimes_setBusyUntil hcluster hat hrole
    rw [hnew, ← hclock]
    rw [busyTimes, hold] at hp
    exact hp.release
  | false =>
    rw [ClusterTopology.busyTimes_setBusyUntil_of_not hcluster hat hrole]
    exact hp

/-- The request in the hand is done. -/
theorem OnBooks.finish (hids : ids.Nodup)
    (h : OnBooks ready stage counts gpus ids now (s, some (id, b)))
    (hr : s.inFlight.get id = some r) (hstarted : (r.startedNs .decode).isSome) :
    OnBooks ready stage counts gpus ids now (s.finish id, none) := by
  have hmove : Move False now (s, some (id, b)) (s.finish id, none) := .finish hr
  have hwaits : s.Waits ready stage counts gpus := h.waits
  have hwork : (s.finish id).workNs counts = s.workNs counts := by
    simp only [workNs, ServingState.finish, hr, List.map_append, List.map_singleton,
      List.sum_append, List.sum_singleton, KeyedMap.sumBy_of_get hr]
    omega
  refine ⟨hmove.nowNs.trans h.clock, hmove.tracked hids h.tracked, hwaits.carry (by rw [sim_finish])
    (by rw [cluster_finish]; exact hwaits.distinct) (fun st => by rw [cluster_finish])
    (by rw [busyTimes, cluster_finish, busyTimes])
    (fun since hp => by rw [busyTimes, cluster_finish, hwork]; exact hp) ?_ ?_ ?_ ?_⟩
  · intro p hp r' hr'
    simp only [ServingState.finish, hr] at hp hr'
    rw [KeyedMap.get_remove] at hr'
    split_ifs at hr'
    exact hwaits.sites p hp r' hr'
  · intro id' hmem r' hr'
    rw [queue_finish] at hmem
    simp only [ServingState.finish, hr, KeyedMap.get_remove] at hr'
    split_ifs at hr'
    exact hwaits.queue id' hmem r' hr'
  · intro id' r' hr'
    rw [hwork]
    simp only [ServingState.finish, hr, KeyedMap.get_remove] at hr'
    split_ifs at hr'
    exact hwaits.records id' r' hr'
  · intro y hy
    rw [hwork]
    simp only [ServingState.finish, hr] at hy
    rcases List.mem_append.1 hy with hy | hy
    · exact hwaits.results y hy
    · exact ⟨r, List.mem_singleton.1 hy, hstarted, hwaits.records id r hr⟩

/-- The record in the hand is written, with the times that it shows already. -/
theorem OnBooks.noted (hids : ids.Nodup)
    (h : OnBooks ready stage counts gpus ids now (s, some (id, b)))
    (hr : s.inFlight.get id = some r) (r' : InFlightRequest) (hsame : r.SameTimes r') :
    OnBooks ready stage counts gpus ids now (s.noted r', some (id, b)) := by
  have hnot : id ∉ active (s, none) := h.tracked.held_notMem hids
  have hwaits : s.Waits ready stage counts gpus := h.waits
  have hid₀ : r.id = id := KeyedMap.key_of_get hr
  have hid : r'.id = id := (congrArg LlmRequest.requestId hsame.request).trans hid₀
  have hget : ∀ id', (s.noted r').inFlight.get id' =
      if id' = id then some r' else s.inFlight.get id' :=
    fun id' => by rw [ServingState.noted, KeyedMap.get_insert, hid]
  have hwork : (s.noted r').workNs counts = s.workNs counts := by
    have hadd := workNs_insert s.sim s.cluster 0 hr hid
      (hsame.workNs counts)
    exact hadd
  refine ⟨h.clock, ⟨h.tracked.places, fun id' hmem => ?_⟩, hwaits.carry rfl hwaits.distinct
    (fun _ => rfl) rfl (fun since hp => hwork ▸ hp) ?_ ?_ ?_ ?_⟩
  · show ((s.noted r').inFlight.get id').isSome
    rw [hget]
    split_ifs
    · rfl
    · exact h.tracked.inFlight id' hmem
  · intro p hp r'' hr''
    rw [hget, if_neg fun heq : p.1 = id => hnot (heq ▸ mem_active_of_site hp)] at hr''
    exact hwaits.sites p hp r'' hr''
  · intro id' hmem r'' hr''
    have hmem' : id' ∈ s.queue stage := by cases stage <;> exact hmem
    rw [hget, if_neg fun heq : id' = id =>
      hnot (heq ▸ mem_active_of_site (mem_sites_queue hmem'))] at hr''
    exact hwaits.queue id' hmem' r'' hr''
  · intro id' r'' hr''
    rw [hwork]
    rw [hget] at hr''
    split_ifs at hr''
    · obtain rfl := Option.some.inj hr''
      exact hsame.bounded (hwaits.records id r hr)
    · exact hwaits.records id' r'' hr''
  · intro y hy
    rw [hwork]
    exact hwaits.results y hy

/-- The request in the hand waits for a fetch. -/
theorem OnBooks.fetch (hids : ids.Nodup)
    (h : OnBooks ready stage counts gpus ids now (s, some (id, 3)))
    (hr : s.inFlight.get id = some r) (hunbegun : r.Unbegun 3) {t : UInt64} :
    OnBooks ready stage counts gpus ids now
      ({ s with sim := s.sim.schedule t (.fetchDone id) }, none) := by
  have hmove :
      Move True now (s, some (id, 3)) ({ s with sim := s.sim.schedule t (.fetchDone id) }, none) :=
    .fetch trivial le_rfl
  have hwaits : s.Waits ready stage counts gpus := h.waits
  refine ⟨hmove.nowNs.trans h.clock, hmove.tracked hids h.tracked, hwaits.carry rfl hwaits.distinct
    (fun _ => rfl) rfl (fun since hp => hp) ?_ ?_ hwaits.records hwaits.results⟩
  · intro p hp r' hr'
    rcases mem_sites_schedule hp rfl rfl rfl with hold | ⟨ev, hkind, -, rfl⟩
    · exact hwaits.sites p hold r' hr'
    · obtain rfl := Option.some.inj (hr.symm.trans hr')
      refine ⟨fun st hst => hunbegun st (hst.trans ?_), fun st id' n i hdone => ?_⟩
      · rw [hkind]
        exact Nat.le_succ 2
      · rw [hkind] at hdone
        cases st <;> cases hdone
  · intro id' hmem r' hr'
    exact hwaits.queue id' (by cases stage <;> exact hmem) r' hr'

end ServingState

end KvFlowSim
