import KvFlowSim.Serving.NoPanic
import KvFlowSim.Policy.Lru
import Mathlib.Data.Set.Pairwise.Basic

/-!
# One job at a time

A GPU counts as idle as soon as its busy time is not past the clock, while the completion event of
its last job may still be due at that same instant. If a new job is started first, the old
completion event later resets the busy time to the clock, and the GPU counts as idle in the middle
of the new job (`eventDriven_doubleBooked`).

As long as no release shortens a busy time (`ReleasesIdle`), a GPU's busy time only grows, so it
bounds the end of every job that was ever started there, and the jobs of a GPU follow one another
(`gpus_exclusive`).
-/

namespace KvFlowSim

open Relation

/-- The half-open intervals in which two jobs occupy their GPUs are disjoint. -/
def Job.Apart (j j' : Job) : Prop :=
  ∀ t, ¬((j.startNs ≤ t ∧ t < j.doneNs) ∧ j'.startNs ≤ t ∧ t < j'.doneNs)

theorem Job.Apart.symm {j j' : Job} (h : j.Apart j') : j'.Apart j := fun t ht => h t ht.symm

/-- Two jobs are on the same GPU. -/
def Job.SameGpu (j j' : Job) : Prop := j.nodeId = j'.nodeId ∧ j.gpuIdx = j'.gpuIdx

namespace ServingState

/-- The job that the record of a request shows for a stage. -/
def jobOf (s : ServingState) (id : UInt64) (stage : Stage) : Option Job :=
  (s.inFlight.get id).bind fun r => r.job stage

/-- The jobs of the requests in flight. A job that an event starts is among them until the last
event of its request. -/
def jobs (s : ServingState) : Set Job := { j | s.jobOf j.requestId j.stage = some j }

/-- The next event is no completion, or it finds its GPU busy no longer than until now. -/
def releasesIdle (s : ServingState) : Bool :=
  match s.sim.step with
  | none => true
  | some (now, kind, _) =>
    match kind.completion with
    | none => true
    | some (n, i) => (s.cluster.gpuAt n i).all fun gpu => gpu.busyUntilNs ≤ now

/-- The jobs that were started so far, as far as the state remembers them. -/
structure Booked (started : Set Job) (s : ServingState) : Prop where
  jobs : s.jobs ⊆ started
  /-- The busy time of a GPU is past the end of its jobs. -/
  ended : ∀ j ∈ started, ∀ gpu, s.cluster.gpuAt j.nodeId j.gpuIdx = some gpu →
    j.doneNs ≤ gpu.busyUntilNs
  disjoint : started.Pairwise fun j j' => j.SameGpu j' → j.Apart j'

variable {fetching : Prop} {now : UInt64} {x y : ServingState × Held} {s s' s₁ : ServingState}
  {started : Set Job}

/-- Nothing that matters to the jobs has changed, or a request has left. -/
theorem Booked.of_jobs (h : Booked started s) (hcluster : s'.cluster = s.cluster)
    (hjobs : s'.jobs ⊆ s.jobs) : Booked started s' :=
  ⟨hjobs.trans h.jobs, hcluster ▸ h.ended, h.disjoint⟩

/-- A new job on an idle GPU starts after all earlier jobs of the GPU are over. -/
theorem Booked.start {j : Job} {gpu : GpuResource} {cluster : ClusterTopology}
    (h : Booked started s) (hgpu : s.cluster.gpuAt j.nodeId j.gpuIdx = some gpu)
    (hidle : gpu.busyUntilNs ≤ j.startNs) (hdone : j.startNs ≤ j.doneNs)
    (hcluster : s.cluster.setBusyUntil j.nodeId j.gpuIdx j.doneNs = .ok cluster)
    (hs' : s'.cluster = cluster) (hjobs : s'.jobs ⊆ insert j s.jobs) :
    Booked (insert j started) s' where
  jobs := hjobs.trans (Set.insert_subset_insert h.jobs)
  ended k hk gpu' hgpu' := by
    rw [hs'] at hgpu'
    by_cases hsame : k.SameGpu j
    · obtain ⟨hn, hi⟩ := hsame
      rw [hn, hi, ClusterTopology.setBusyUntil_self hcluster, hgpu, Option.map_some] at hgpu'
      obtain rfl := Option.some.inj hgpu'
      rcases Set.mem_insert_iff.1 hk with rfl | hk
      · exact le_rfl
      · exact (h.ended k hk gpu (by rw [hn, hi, hgpu])).trans (hidle.trans hdone)
    · rw [ClusterTopology.setBusyUntil_ne hcluster hsame] at hgpu'
      rcases Set.mem_insert_iff.1 hk with rfl | hk
      · exact absurd ⟨rfl, rfl⟩ hsame
      · exact h.ended k hk gpu' hgpu'
  disjoint := by
    have hafter : ∀ k ∈ started, k.SameGpu j → k.Apart j := by
      rintro k hk ⟨hn, hi⟩ t ⟨⟨-, ht⟩, hstart, -⟩
      have hended := (h.ended k hk gpu (by rw [hn, hi, hgpu])).trans hidle
      exact (ht.trans_le hended).not_ge hstart
    refine (Set.pairwise_insert).2 ⟨h.disjoint, fun k hk _ => ⟨fun hsame => ?_, hafter k hk⟩⟩
    exact (hafter k hk ⟨hsame.1.symm, hsame.2.symm⟩).symm

theorem jobOf_insert {r : InFlightRequest} {cluster : ClusterTopology}
    {sim : Simulator ServingEvent} (id : UInt64) (stage : Stage) :
    ({ s with sim := sim, cluster := cluster, inFlight := s.inFlight.insert r } :
        ServingState).jobOf id stage = if id = r.id then r.job stage else s.jobOf id stage := by
  simp only [jobOf, KeyedMap.get_insert]
  split_ifs <;> rfl

/-- A move starts at most one job, and on an idle GPU. -/
theorem Move.booked (h : Move fetching now x y) (hd : x.1.cluster.DistinctNodeIds)
    (hx : Booked started x.1) : ∃ started', started ⊆ started' ∧ Booked started' y.1 := by
  cases h with
  | @start s id budget stage n i done cluster r r' _ hgpu hdone hcluster hr hr' =>
    obtain ⟨gpu, hat, hidle, -⟩ := ClusterTopology.idle_of_findIdleGpuFor hd hgpu
    refine ⟨insert ⟨id, stage, n, i, now, done⟩ started, Set.subset_insert _ _,
      hx.start hat hidle hdone hcluster rfl fun j hj => ?_⟩
    have hid : r.id = id := KeyedMap.key_of_get hr
    have hid' : r'.id = id := (congrArg LlmRequest.requestId hr'.request).trans hid
    simp only [jobs, Set.mem_ofPred_eq, jobOf_insert, hid', hr'.job] at hj
    split_ifs at hj with hj₁ hj₂
    · exact .inl (Option.some.inj hj).symm
    · refine .inr ?_
      rw [jobs, Set.mem_ofPred_eq, jobOf, hj₁, hr]
      exact hj
    · exact .inr hj
  | enqueue => exact ⟨started, subset_rfl, hx.of_jobs (by simp) (by simp [jobs, jobOf])⟩
  | dequeue => exact ⟨started, subset_rfl, hx.of_jobs (by simp) (by simp [jobs, jobOf])⟩
  | fetch => exact ⟨started, subset_rfl, hx.of_jobs rfl subset_rfl⟩
  | drop => exact ⟨started, subset_rfl, hx⟩
  | @finish s id budget r hr =>
    refine ⟨started, subset_rfl, hx.of_jobs (by simp) fun j hj => ?_⟩
    simp only [jobs, jobOf, ServingState.finish, hr, Set.mem_ofPred_eq, KeyedMap.get_remove] at hj ⊢
    split_ifs at hj
    · simp at hj
    · exact hj
  | @note s held id r r' hr hrequest hjob =>
    refine ⟨started, subset_rfl, hx.of_jobs rfl fun j hj => ?_⟩
    have hid : r.id = id := KeyedMap.key_of_get hr
    have hid' : r'.id = id := (congrArg LlmRequest.requestId hrequest).trans hid
    simp only [jobs, Set.mem_ofPred_eq, jobOf_insert, hid', hjob] at hj
    split_ifs at hj with hj₁
    · rw [jobs, Set.mem_ofPred_eq, jobOf, hj₁, hr]
      exact hj
    · exact hj

theorem Moves.booked (h : Moves fetching now x y) (hd : x.1.cluster.DistinctNodeIds)
    (hx : Booked started x.1) : ∃ started', started ⊆ started' ∧ Booked started' y.1 :=
  (h.invariant (I := fun z => z.1.cluster.DistinctNodeIds ∧
      ∃ started', started ⊆ started' ∧ Booked started' z.1)
    (fun _ _ ⟨hd, _, hsub, hz⟩ hm =>
      ⟨hm.distinctNodeIds hd, (hm.booked hd hz).imp fun _ h => ⟨hsub.trans h.1, h.2⟩⟩)
    ⟨hd, started, subset_rfl, hx⟩).2

/-- The release of a GPU that is idle already does not shorten its busy time. -/
theorem Advance.booked (h : Advance fetching s s') (hidle : s.releasesIdle = true)
    (hd : s.Scheduled) (hs : Booked started s) :
    ∃ started', started ⊆ started' ∧ Booked started' s' := by
  obtain ⟨now, kind, sim, hstep, s₁, hrel, hmoves, -⟩ := h
  refine hmoves.booked (hrel.scheduled hstep hd).distinct ⟨?_, fun j hj gpu hgpu => ?_, hs.disjoint⟩
  · rw [hrel.eq]
    exact hs.jobs
  · rcases hrel.gpuAt hgpu with ⟨-, hgpu⟩ | ⟨hkind, hbusy⟩
    · exact hs.ended j hj gpu hgpu
    · obtain ⟨old, hold⟩ := hrel.gpuAt_old hgpu
      simp only [releasesIdle, hstep, hkind, hold, Option.all_some, decide_eq_true_eq] at hidle
      exact hbusy ▸ (hs.ended j hj old hold).trans hidle

/-- No record of the start shows a job. -/
theorem booked_start (cluster : ClusterTopology) (l : List LlmRequest) :
    Booked ∅ ((ServingState.new cluster).enterAll l) where
  jobs j hj := by
    obtain ⟨r, hr, hjob⟩ := Option.bind_eq_some_iff.1 hj
    rcases get_enterAll _ l hr with hr | ⟨req, -, rfl⟩
    · simp [ServingState.new] at hr
    · cases hst : j.stage <;> simp [hst, InFlightRequest.job, InFlightRequest.new] at hjob
  ended _ hj := absurd hj (Set.notMem_empty _)
  disjoint := Set.pairwise_empty _

/-! ## Runs -/

/-- In the runs all of whose steps are taken from states that meet `guard`, any two different jobs
on one GPU occupy it at different times. -/
def ExclusiveGpus (guard : ServingState → Bool) {σ : Type} (step : σ → Except Panic (Option σ))
    (state : σ → ServingState) (start : σ) : Prop :=
  ∀ s s', EventLoop.GuardedReach step (fun s => guard (state s) = true) start s →
    EventLoop.GuardedReach step (fun s => guard (state s) = true) s s' →
    ∀ j ∈ (state s).jobs, ∀ j' ∈ (state s').jobs, j ≠ j' → j.SameGpu j' →
      j.Apart j'

theorem exclusiveGpus_of_loop {σ : Type} {step : σ → Except Panic (Option σ)}
    {state : σ → ServingState} {start : σ} (hloop : ServingLoop fetching step state)
    (hstart : (state start).Scheduled) (hbooked : Booked ∅ (state start)) :
    ExclusiveGpus releasesIdle step state start := by
  -- along a guarded run the started jobs accumulate
  have hrun : ∀ {s s' started},
      EventLoop.GuardedReach step (fun s => (state s).releasesIdle = true) s s' →
      (state s).Scheduled ∧ Booked started (state s) →
      (state s').Scheduled ∧ ∃ started', started ⊆ started' ∧ Booked started' (state s') := by
    intro s s' started hreach hs
    refine hreach.invariant (I := fun s => (state s).Scheduled ∧
      ∃ started', started ⊆ started' ∧ Booked started' (state s))
      ?_ ⟨hs.1, started, subset_rfl, hs.2⟩
    rintro a b ⟨ha, started₁, hsub, hb⟩ hguard hstep
    have hadv := hloop.advance a b hstep
    obtain ⟨started₂, hsub₂, hb₂⟩ := hadv.booked hguard ha hb
    exact ⟨hadv.scheduled ha, started₂, hsub.trans hsub₂, hb₂⟩
  intro s s' hreach hreach' j hj j' hj' hne hsame
  obtain ⟨hs, started, -, hb⟩ := hrun hreach ⟨hstart, hbooked⟩
  obtain ⟨-, started', hsub, hb'⟩ := hrun hreach' ⟨hs, hb⟩
  exact hb'.disjoint (hsub (hb.jobs hj)) (hb'.jobs hj') hne hsame

end ServingState

section

open ServingState

variable {C P T : Type} [ComputeModel C] [PlacementPolicy P] [TransferModel T]
  (config : ServingConfig) (cluster : ClusterTopology) (compute : C) (iterOrder : IterOrder)
  (transfer : T) (profile : ModelProfile) (placement : P) (requests : List LlmRequest)

/-- **One job at a time.** In every run of either runner on an idle cluster in which no completion
event shortens the busy time of its GPU, different jobs occupy a GPU at different times. -/
theorem gpus_exclusive (hnodes : cluster.DistinctNodeIds) (hidle : cluster.AllIdle) :
    ExclusiveGpus releasesIdle EventDrivenRunner.step (fun r => r.toServingState)
      ((EventDrivenRunner.new config cluster compute).start requests) ∧
    ExclusiveGpus releasesIdle CacheAwareRunner.step (fun r => r.toServingState)
      ((CacheAwareRunner.new iterOrder config cluster compute transfer profile placement).start
        requests) :=
  ⟨exclusiveGpus_of_loop EventDrivenRunner.servingLoop (scheduled_start hnodes hidle _)
      (booked_start cluster _),
    exclusiveGpus_of_loop CacheAwareRunner.servingLoop (scheduled_start hnodes hidle _)
      (booked_start cluster _)⟩

end

/-- One nanosecond for each prompt token, five for a decode step. -/
def unitCompute : LinearComputeModel := ⟨0, 1, 5, 0, 0⟩

/-- The second of two simultaneous requests is prefilled after the first. -/
theorem gpus_exclusive_pair : ∃ r : EventDrivenRunner LinearComputeModel,
    r.jobOf 0 .prefill = some ⟨0, .prefill, 0, 0, 0, 8⟩ ∧
    r.jobOf 1 .prefill = some ⟨1, .prefill, 0, 0, 8, 16⟩ ∧
    (Job.mk 0 .prefill 0 0 0 8).Apart ⟨1, .prefill, 0, 0, 8, 16⟩ := by
  have hjobs : (EventLoop.after EventDrivenRunner.step (fun r => r.releasesIdle) 3
      ((EventDrivenRunner.new ⟨1, 1, 1⟩ (.singleNode 1 1) unitCompute).start
        [.cold 0 0 8 2, .cold 1 0 8 2])).map
      (fun r => (r.jobOf 0 .prefill, r.jobOf 1 .prefill)) =
      some (some ⟨0, .prefill, 0, 0, 0, 8⟩, some ⟨1, .prefill, 0, 0, 8, 16⟩) := by decide
  obtain ⟨r, hr, hjob⟩ := Option.map_eq_some_iff.1 hjobs
  obtain ⟨h₀, h₁⟩ := Prod.mk.inj hjob
  have hexclusive := (gpus_exclusive ⟨1, 1, 1⟩ (.singleNode 1 1) unitCompute .ascending
    AnalyticalTransferModel.rdma400g .llama8bBf16Gqa (RemoteLru.mk 0)
    [.cold 0 0 8 2, .cold 1 0 8 2] (by decide) (by decide)).1
  exact ⟨r, h₀, h₁, hexclusive r r (EventLoop.after_guardedReach hr) .refl
    ⟨0, .prefill, 0, 0, 0, 8⟩ h₀ ⟨1, .prefill, 0, 0, 8, 16⟩ h₁ (by decide) ⟨rfl, rfl⟩⟩

/-- Request 1 arrives at the instant at which request 0 leaves the only prefill GPU, and starts
before the completion of request 0 is handled. That completion then frees the GPU for request 2. -/
theorem eventDriven_doubleBooked :
    DistinctIds [.cold 0 0 10 1, .cold 1 10 10 1, .cold 2 10 10 1] ∧
    (ClusterTopology.singleNode 1 1).DistinctNodeIds ∧ (ClusterTopology.singleNode 1 1).AllIdle ∧
    ¬ServingState.ExclusiveGpus (fun _ => true) EventDrivenRunner.step (fun r => r.toServingState)
      ((EventDrivenRunner.new ⟨1, 1, 1⟩ (.singleNode 1 1) unitCompute).start
        [.cold 0 0 10 1, .cold 1 10 10 1, .cold 2 10 10 1]) := by
  refine ⟨by decide, by decide, by decide, fun h => ?_⟩
  have hjobs : (EventLoop.after EventDrivenRunner.step (fun _ => true) 4
      ((EventDrivenRunner.new ⟨1, 1, 1⟩ (.singleNode 1 1) unitCompute).start
        [.cold 0 0 10 1, .cold 1 10 10 1, .cold 2 10 10 1])).map
      (fun r => (r.jobOf 1 .prefill, r.jobOf 2 .prefill)) =
      some (some ⟨1, .prefill, 0, 0, 10, 20⟩, some ⟨2, .prefill, 0, 0, 10, 20⟩) := by decide
  obtain ⟨r, hr, hjob⟩ := Option.map_eq_some_iff.1 hjobs
  obtain ⟨h₁, h₂⟩ := Prod.mk.inj hjob
  have hapart := h r r (EventLoop.after_guardedReach hr) .refl ⟨1, .prefill, 0, 0, 10, 20⟩ h₁
    ⟨2, .prefill, 0, 0, 10, 20⟩ h₂ (by decide) ⟨rfl, rfl⟩
  exact hapart 10 (by decide)

end KvFlowSim
