import KvFlowSim.Policy.Placing
import KvFlowSim.Serving.Effects
import KvFlowSim.Serving.NoReuse
import KvFlowSim.Serving.SameLoad

/-!
# One run after another

`run` clears the clock, the queues and the counters of a runner, but neither the busy times of its
GPUs or workers nor the queue inside its transfer model. What a later run returns is what a new
runner returns if the left-over times are over when the first request of the trace arrives and it
does not matter which GPUs they make the selection prefer (`reruns_eq_fresh`): they leave the order
of preference as it was, or the GPUs of a stage are interchangeable and none is released in the
middle of a job. Otherwise requests may be delayed, moved or never served (`rerun_strands`,
`rerun_moves`).
-/

namespace KvFlowSim

open Relation Except

/-- The runners that can be had from `fresh` by one run after another. -/
def Calls {ρ : Type} (run : ρ → List LlmRequest → Except Panic (List RequestResult × ρ)) :
    ρ → ρ → Prop :=
  ReflTransGen fun r r' => ∃ requests results, run r requests = .ok (results, r')

/-- An invariant of every run holds between the runs. -/
theorem Calls.invariant {ρ : Type}
    {run : ρ → List LlmRequest → Except Panic (List RequestResult × ρ)} {I : ρ → Prop} {fresh r : ρ}
    (hfresh : I fresh) (hrun : ∀ r requests results r', I r →
      run r requests = .ok (results, r') → I r')
    (h : Calls run fresh r) : I r := by
  induction h with
  | refl => exact hfresh
  | tail _ hlast ih =>
    obtain ⟨requests, results, hlast⟩ := hlast
    exact hrun _ _ _ _ ih hlast

/-- The arrival of the first request. -/
def firstArrivalNs (requests : List LlmRequest) : UInt64 :=
  requests.foldr (fun q t => min q.arrivalNs t) .maxValue

theorem firstArrivalNs_le {requests : List LlmRequest} {q : LlmRequest} (hq : q ∈ requests) :
    firstArrivalNs requests ≤ q.arrivalNs := by
  induction requests with
  | nil => exact absurd hq List.not_mem_nil
  | cons q' rest ih =>
    rcases List.mem_cons.1 hq with rfl | hq
    · exact min_le_left _ _
    · exact (min_le_right _ _).trans (ih hq)

namespace ServingState

theorem timeNs_enterAll (s : ServingState) (l : List LlmRequest) {ev : Event ServingEvent}
    (hev : ev ∈ (s.enterAll l).sim.pending) :
    ev ∈ s.sim.pending ∨ ∃ q ∈ l, ev.timeNs = q.arrivalNs := by
  induction l generalizing s with
  | nil => exact .inl hev
  | cons req rest ih =>
    rcases ih (s.enter req) hev with hev | ⟨q, hq, htime⟩
    · rcases List.mem_append.1 hev with hev | hev
      · exact .inl hev
      · exact .inr ⟨req, List.mem_cons_self, by rw [List.mem_singleton.1 hev]⟩
    · exact .inr ⟨q, List.mem_cons_of_mem _ hq, htime⟩

/-- Nothing happens before the first request arrives. -/
theorem begun_start (cluster : ClusterTopology) (requests : List LlmRequest) :
    ((ServingState.new cluster).enterAll (sortRequests requests)).Begun
      (firstArrivalNs requests) := by
  refine .inr fun ev hev => ?_
  rcases timeNs_enterAll _ _ hev with hev | ⟨q, hq, htime⟩
  · exact absurd hev List.not_mem_nil
  · rw [htime]
    exact firstArrivalNs_le ((sortRequests_perm requests).mem_iff.1 hq)

/-- Runs of a trace on two clusters have the same results if the busy times that differ are over
when the trace begins, and either the GPUs rank alike, or they are interchangeable and none is
released in the middle of a job. -/
theorem LockstepLoop.results_of_start {fetching : Prop} {σ : Type}
    {step : σ → Except Panic (Option σ)} {state : σ → ServingState}
    {A : (ServingState → ServingState → Prop) → σ → σ → Prop} {r r' : σ}
    {requests : List LlmRequest} {cluster cluster' : ClusterTopology}
    (hA : LockstepLoop (firstArrivalNs requests) step state A)
    (hloop : ServingLoop fetching step state)
    (hr : state r = (ServingState.new cluster).enterAll (sortRequests requests))
    (hr' : state r' = (ServingState.new cluster').enterAll (sortRequests requests))
    (hstart : ∀ R : ServingState → ServingState → Prop, R (state r) (state r') → A R r r')
    (hshape : cluster.SameShape cluster')
    (hover : cluster.OverBefore (firstArrivalNs requests) cluster')
    (hgpus : cluster.RankAlike cluster' ∨
      cluster.Uniform ∧ NeverReleasesEarly step state r ∧ NeverReleasesEarly step state r')
    (n : ℕ) :
    Related (fun s t => (state t).results = (state s).results) (EventLoop.run step n r)
      (EventLoop.run step n r') := by
  have hbegun : (state r).Begun (firstArrivalNs requests) := by
    rw [hr]
    exact begun_start cluster requests
  rcases hgpus with hrank | ⟨huniform, hidle, hidle'⟩
  · refine hA.results_of_alike hloop (hstart _ ?_) hbegun n
    rw [hr, hr']
    exact alike_start (.of_rankAlike hshape hover hrank) _
  · have hload : cluster.SameLoad (firstArrivalNs requests) cluster' :=
      .of_overBefore hshape huniform hover
    refine hA.results_of_sameLoad hloop (hstart _ ?_) hbegun ?_ ?_ hidle hidle' n
    · rw [hr, hr']
      exact sameLoad_start hload _
    · rw [hr]
      exact operable_start huniform.1 _
    · rw [hr']
      exact operable_start hload.distinct _

end ServingState

open ServingState

/-! ## The event-driven runner -/

namespace EventDrivenRunner

/-- What a runner keeps from one run to the next. -/
structure Keeps {C : Type} (fresh r : EventDrivenRunner C) : Prop where
  compute : r.compute = fresh.compute
  config : r.config = fresh.config
  shape : fresh.cluster.SameShape r.cluster

theorem Keeps.refl {C : Type} (r : EventDrivenRunner C) : r.Keeps r := ⟨rfl, rfl, .refl _⟩

variable {C : Type} {fresh r r' : EventDrivenRunner C} {requests : List LlmRequest}

/-- The starts of the runs. -/
theorem Keeps.start (h : fresh.Keeps r) (R : ServingState → ServingState → Prop)
    (hR : R (fresh.start requests).toServingState (r.start requests).toServingState) :
    (fresh.start requests).Alike R (r.start requests) := by
  refine ⟨_, ?_, hR⟩
  rw [EventDrivenRunner.start, EventDrivenRunner.start, clearState, clearState, h.compute, h.config]

variable [ComputeModel C]

theorem handleEvent_models {now : UInt64} {event : ServingEvent}
    (h : r.handleEvent now event = .ok r') :
    r'.compute = r.compute ∧ r'.config = r.config := by
  cases event with
  | requestArrival id =>
    rw [handleEvent, onArrival] at h
    obtain ⟨s, -, rfl⟩ := onState_eq_ok.1 h
    exact ⟨rfl, rfl⟩
  | fetchDone id => cases h
  | prefillDone id n i =>
    obtain ⟨s₁, s₂, s₃, s₄, -, -, -, -, rfl⟩ := onPrefillDone_ok h
    exact ⟨rfl, rfl⟩
  | decodeDone id n i =>
    obtain ⟨s₁, s₂, s₃, -, -, -, rfl⟩ := onDecodeDone_ok h
    exact ⟨rfl, rfl⟩

/-- An event changes the shared state only. -/
theorem step_models (hstep : EventLoop.Step step r r') :
    r'.compute = r.compute ∧ r'.config = r.config := by
  obtain ⟨now, event, sim, -, hrun⟩ := step_ok hstep
  exact handleEvent_models (r := { r with sim := sim }) hrun

theorem Keeps.run (h : fresh.Keeps r) {results : List RequestResult}
    (hrun : r.run requests = .ok (results, r')) : fresh.Keeps r' := by
  obtain ⟨s, hs, hok⟩ := Except.bind_eq_ok.1 hrun
  obtain ⟨-, rfl⟩ := Prod.mk.inj (Except.ok.inj hok)
  have hstart : fresh.Keeps (r.start requests) := by
    refine ⟨h.compute, h.config, ?_⟩
    show fresh.cluster.SameShape ((ServingState.new r.cluster).enterAll _).cluster
    rw [cluster_enterAll]
    exact h.shape
  have hend : fresh.Keeps s := by
    refine (EventLoop.run_reach hs).invariant (I := fun s => fresh.Keeps s)
      (fun s s' hs hstep => ?_) hstart
    obtain ⟨hcompute, hconfig⟩ := step_models hstep
    exact ⟨hcompute.trans hs.compute, hconfig.trans hs.config,
      (step_advance hstep).sameShape hs.shape⟩
  exact ⟨hend.compute, hend.config, hend.shape⟩

theorem lockstepLoop (since : UInt64) :
    LockstepLoop since (step (C := C)) (fun r => r.toServingState) Alike where
  related h := h.state
  step h hpops _ := h.step hpops

/-- What earlier runs have left of the cluster makes no difference to a trace. The busy times that
differ are over when its first request arrives. The GPUs rank as in the cluster of `fresh`, or they
need not, because those of a stage are interchangeable and are not released early. -/
def Unnoticed (requests : List LlmRequest) (fresh r : EventDrivenRunner C) : Prop :=
  fresh.cluster.OverBefore (firstArrivalNs requests) r.cluster ∧
    (fresh.cluster.RankAlike r.cluster ∨ fresh.cluster.Uniform ∧
      NeverReleasesEarly step (fun s => s.toServingState) (fresh.start requests) ∧
      NeverReleasesEarly step (fun s => s.toServingState) (r.start requests))

theorem run_nil (r : EventDrivenRunner C) : Prod.fst <$> r.run [] = .ok [] := rfl

/-- Runs with the same results return the same. -/
theorem run_eq_of_results (h : Related (fun s t => t.results = s.results)
    (EventLoop.run step (4 * requests.length) (fresh.start requests))
    (EventLoop.run step (4 * requests.length) (r.start requests))) :
    Prod.fst <$> r.run requests = Prod.fst <$> fresh.run requests :=
  (h.map_bind_eq fun _ _ hst =>
    congrArg (fun l => Except.ok (List.sortByKey RequestResult.arrivalKey l)) hst.symm).symm

theorem Keeps.run_eq (h : fresh.Keeps r) (hunnoticed : requests ≠ [] → fresh.Unnoticed requests r) :
    Prod.fst <$> r.run requests = Prod.fst <$> fresh.run requests := by
  by_cases hnil : requests = []
  · rw [hnil, run_nil, run_nil]
  obtain ⟨hover, hgpus⟩ := hunnoticed hnil
  exact run_eq_of_results ((lockstepLoop _).results_of_start servingLoop rfl rfl h.start h.shape
    hover hgpus _)

end EventDrivenRunner

/-! ## The no-reuse runner -/

namespace NoReuseRunner

open Pool

variable {C : Type} [ComputeModel C] {fresh r r' : NoReuseRunner C} {requests l : List LlmRequest}

/-- All workers are free by the time `t`. -/
def FreeBy (workers : List UInt64) (t : UInt64) : Prop := ∀ x ∈ workers, x ≤ t

-- the bounded quantifier over the list is decided, not the one over all words
instance (workers : List UInt64) (t : UInt64) : Decidable (FreeBy workers t) :=
  List.decidableBAll (· ≤ t) workers

/-- No worker that is still taken makes a request of the trace wait. -/
def FreeFor (r : NoReuseRunner C) (requests : List LlmRequest) : Prop :=
  ∀ q ∈ requests, FreeBy r.prefillBusyUntil q.arrivalNs ∧
    FreeBy r.decodeBusyUntil
      (q.arrivalNs.satAdd (ComputeModel.prefillTimeNs r.compute q.promptTokens))

instance (r : NoReuseRunner C) (requests : List LlmRequest) : Decidable (r.FreeFor requests) :=
  inferInstanceAs (Decidable (∀ q ∈ requests, _ ∧ _))

/-- What a runner keeps from one run to the next. -/
structure Keeps (fresh r : NoReuseRunner C) : Prop where
  compute : r.compute = fresh.compute
  config : r.config = fresh.config
  staffed : r.Staffed
  prefill : r.prefillBusyUntil.length = fresh.prefillBusyUntil.length
  decode : r.decodeBusyUntil.length = fresh.decodeBusyUntil.length

theorem Keeps.runAll (h : fresh.Keeps r) {results : List RequestResult}
    (hrun : runAll l r = .ok (results, r')) : fresh.Keeps r' := by
  induction l generalizing r results with
  | nil =>
    obtain ⟨-, rfl⟩ := Prod.mk.inj (Except.ok.inj hrun)
    exact h
  | cons req rest ih =>
    obtain ⟨p, d, x, r₁, hone, hserves⟩ := runOne_spec h.staffed req
    rw [NoReuseRunner.runAll, hone, Except.ok_bind] at hrun
    obtain ⟨⟨results', r₂⟩, hrest, hok⟩ := Except.bind_eq_ok.1 hrun
    obtain ⟨-, rfl⟩ := Prod.mk.inj (Except.ok.inj hok)
    refine ih ⟨hserves.compute.trans h.compute, hserves.config.trans h.config, hserves.staffed,
      ?_, ?_⟩ hrest
    · have hcard := hserves.prefill.card
      simp only [Multiset.coe_card] at hcard
      exact hcard.trans h.prefill
    · have hcard := hserves.decode.card
      simp only [Multiset.coe_card] at hcard
      exact hcard.trans h.decode

/-- The latest of the left-over times. -/
theorem exists_latest (K : List UInt64) : ∃ t, FreeBy K t ∧ ∀ u, FreeBy K u → t ≤ u := by
  induction K with
  | nil => exact ⟨0, fun x hx => absurd hx List.not_mem_nil, fun u _ => UInt64.zero_le⟩
  | cons x K ih =>
    obtain ⟨t, hle, hleast⟩ := ih
    refine ⟨max x t, fun y hy => ?_, fun u hu => ?_⟩
    · rcases List.mem_cons.1 hy with rfl | hy
      · exact le_max_left _ _
      · exact (hle y hy).trans (le_max_right _ _)
    · exact max_le (hu x List.mem_cons_self) (hleast u fun y hy => hu y (List.mem_cons_of_mem x hy))

/-- Idle workers are as good as new ones. -/
theorem sameFrom_of_freeBy {t : UInt64} {K L : List UInt64} (hlength : L.length = K.length)
    (hK : FreeBy K t) (hL : FreeBy L t) :
    SameFrom t (K : Multiset UInt64) (L : Multiset UInt64) := by
  have hmap : ∀ {M : List UInt64}, FreeBy M t →
      (M : Multiset UInt64).map (max t) = Multiset.replicate M.length t := by
    intro M hM
    refine Multiset.eq_replicate.2 ⟨by simp, fun y hy => ?_⟩
    obtain ⟨x, hx, rfl⟩ := Multiset.mem_map.1 hy
    exact max_eq_left (hM x hx)
  rw [SameFrom, hmap hK, hmap hL, hlength]

theorem Keeps.run_eq (h : fresh.Keeps r) (hstaffed : fresh.Staffed)
    (hprefill : ∀ t ∈ fresh.prefillBusyUntil, t = 0) (hdecode : ∀ t ∈ fresh.decodeBusyUntil, t = 0)
    (hfree : r.FreeFor requests) :
    Prod.fst <$> r.run requests = Prod.fst <$> fresh.run requests := by
  obtain ⟨p, hp, hpleast⟩ := exists_latest r.prefillBusyUntil
  obtain ⟨d, hd, hdleast⟩ := exists_latest r.decodeBusyUntil
  have hzero : ∀ {K : List UInt64} {t : UInt64}, (∀ x ∈ K, x = 0) → FreeBy K t :=
    fun hK x hx => (hK x hx).trans_le UInt64.zero_le
  have halike : fresh.Alike p d r := ⟨h.compute, h.config,
    sameFrom_of_freeBy h.prefill (hzero hprefill) hp,
    sameFrom_of_freeBy h.decode (hzero hdecode) hd⟩
  refine halike.runAll hstaffed h.staffed fun q hq => ?_
  obtain ⟨hq₁, hq₂⟩ := hfree q ((sortRequests_perm requests).mem_iff.1 hq)
  rw [h.compute] at hq₂
  exact ⟨hpleast _ hq₁, hdleast _ hq₂⟩

end NoReuseRunner

/-! ## The cache-aware runner -/

namespace CacheAwareRunner

variable {C P T : Type} {fresh r r' : CacheAwareRunner C P T} {requests : List LlmRequest}

/-- What a runner keeps from one run to the next, besides its cache. -/
structure Keeps (fresh r : CacheAwareRunner C P T) : Prop where
  compute : r.compute = fresh.compute
  config : r.config = fresh.config
  profile : r.profile = fresh.profile
  placement : r.placement = fresh.placement
  shape : fresh.cluster.SameShape r.cluster

/-- The starts of the runs, with the same cache. -/
theorem Keeps.start [TransferModel T] (h : fresh.Keeps r) (hcache : r.cache = fresh.cache)
    {since : UInt64} (htransfer : TransferModel.Alike since fresh.transfer r.transfer)
    (R : ServingState → ServingState → Prop)
    (hR : R (fresh.start requests).toServingState (r.start requests).toServingState) :
    (fresh.start requests).Alike R since (r.start requests) := by
  refine ⟨_, r.transfer, ?_, hR, htransfer⟩
  rw [CacheAwareRunner.start, CacheAwareRunner.start, clearState, clearState, h.compute, h.config,
    h.profile, h.placement, hcache]

variable [ComputeModel C] [TransferModel T] [PlacementPolicy P]

theorem Keeps.run [Placing P] (h : fresh.Keeps r) {results : List RequestResult}
    (hrun : r.run requests = .ok (results, r')) : fresh.Keeps r' := by
  obtain ⟨s, hs, hok⟩ := Except.bind_eq_ok.1 hrun
  obtain ⟨-, rfl⟩ := Prod.mk.inj (Except.ok.inj hok)
  have hstart : fresh.Keeps (r.start requests) := by
    refine ⟨h.compute, h.config, h.profile, h.placement, ?_⟩
    show fresh.cluster.SameShape ((ServingState.new r.cluster).enterAll _).cluster
    rw [cluster_enterAll]
    exact h.shape
  have hend : fresh.Keeps s := by
    refine (EventLoop.run_reach hs).invariant (I := fun s => fresh.Keeps s)
      (fun s s' hs hstep => ?_) hstart
    obtain ⟨now, event, sim, hnext, -⟩ := step_advance hstep
    obtain ⟨hcompute, hconfig, hprofile⟩ := step_models hnext hstep
    exact ⟨hcompute.trans hs.compute, hconfig.trans hs.config, hprofile.trans hs.profile,
      (step_placement hnext hstep).trans hs.placement, (step_advance hstep).sameShape hs.shape⟩
  exact ⟨hend.compute, hend.config, hend.profile, hend.placement, hend.shape⟩

theorem lockstepLoop [ObliviousPolicy P] (since : UInt64) :
    LockstepLoop since (step (C := C) (P := P) (T := T)) (fun r => r.toServingState)
      fun R => Alike R since where
  related h := h.state
  step h hpops hbegun := h.step hpops hbegun.le_now

/-- What earlier runs have left of the cluster and of the transfer model makes no difference to a
trace. -/
def Unnoticed (requests : List LlmRequest) (fresh r : CacheAwareRunner C P T) : Prop :=
  (fresh.cluster.OverBefore (firstArrivalNs requests) r.cluster ∧
    (fresh.cluster.RankAlike r.cluster ∨ fresh.cluster.Uniform ∧
      NeverReleasesEarly step (fun s => s.toServingState) (fresh.start requests) ∧
      NeverReleasesEarly step (fun s => s.toServingState) (r.start requests))) ∧
    TransferModel.Alike (firstArrivalNs requests) fresh.transfer r.transfer

theorem run_nil (r : CacheAwareRunner C P T) : Prod.fst <$> r.run [] = .ok [] := rfl

/-- Runs with the same results return the same. -/
theorem run_eq_of_results (h : Related (fun s t => t.results = s.results)
    (EventLoop.run step (4 * requests.length) (fresh.start requests))
    (EventLoop.run step (4 * requests.length) (r.start requests))) :
    Prod.fst <$> r.run requests = Prod.fst <$> fresh.run requests :=
  (h.map_bind_eq fun _ _ hst =>
    congrArg (fun l => Except.ok (List.sortByKey RequestResult.arrivalKey l)) hst.symm).symm

theorem Keeps.run_eq [ObliviousPolicy P] (h : fresh.Keeps r) (hcache : r.cache = fresh.cache)
    (hunnoticed : requests ≠ [] → fresh.Unnoticed requests r) :
    Prod.fst <$> r.run requests = Prod.fst <$> fresh.run requests := by
  by_cases hnil : requests = []
  · rw [hnil, run_nil, run_nil]
  obtain ⟨⟨hover, hgpus⟩, htransfer⟩ := hunnoticed hnil
  exact run_eq_of_results ((lockstepLoop _).results_of_start servingLoop rfl rfl
    (h.start hcache htransfer) h.shape hover hgpus _)

end CacheAwareRunner

/-! ## All three -/

section

variable {C P T : Type} [ComputeModel C] [PlacementPolicy P] [Placing P] [ObliviousPolicy P]
  [TransferModel T]

/-- **Earlier runs do not leak into later ones**, as long as what they leave behind is not noticed.
After any runs, a run of the event-driven runner returns what a new runner returns if the left-over
busy times are over before the first arrival, and either leave the GPUs ranked as they were, or the
GPUs of a stage are interchangeable and in neither run a completion finds its GPU busy past now. A
run of the no-reuse runner does if no worker that is still taken makes a request wait, and a run of
the cache-aware runner returns what a new one with the same cache does if the transfer model, too,
answers as at first. -/
theorem reruns_eq_fresh (config : ServingConfig) (cluster : ClusterTopology) (compute : C)
    (iterOrder : IterOrder) (transfer : T) (profile : ModelProfile) (placement : P)
    (requests : List LlmRequest) :
    (∀ r, Calls EventDrivenRunner.run (.new config cluster compute) r →
      (requests ≠ [] → (EventDrivenRunner.new config cluster compute).Unnoticed requests r) →
      Prod.fst <$> r.run requests =
        Prod.fst <$> (EventDrivenRunner.new config cluster compute).run requests) ∧
    (∀ r, Calls NoReuseRunner.run (.new config compute) r → r.FreeFor requests →
      Prod.fst <$> r.run requests = Prod.fst <$> (NoReuseRunner.new config compute).run requests) ∧
    ∀ r, Calls CacheAwareRunner.run
        (.new iterOrder config cluster compute transfer profile placement) r →
      let fresh : CacheAwareRunner C P T :=
        { CacheAwareRunner.new iterOrder config cluster compute transfer profile placement with
          cache := r.cache }
      (requests ≠ [] → fresh.Unnoticed requests r) →
      Prod.fst <$> r.run requests = Prod.fst <$> fresh.run requests := by
  refine ⟨fun r hcalls hunnoticed => ?_, fun r hcalls hfree => ?_, fun r hcalls => ?_⟩
  · have hkeeps : (EventDrivenRunner.new config cluster compute).Keeps r :=
      hcalls.invariant (.refl _) fun _ _ _ _ h hrun => h.run hrun
    exact hkeeps.run_eq hunnoticed
  · have hstaffed := NoReuseRunner.staffed_new config compute
    have hkeeps : (NoReuseRunner.new config compute).Keeps r :=
      hcalls.invariant ⟨rfl, rfl, hstaffed, rfl, rfl⟩ fun _ _ _ _ h hrun => h.runAll hrun
    exact hkeeps.run_eq hstaffed (fun t => List.eq_of_mem_replicate)
      (fun t => List.eq_of_mem_replicate) hfree
  · intro fresh hunnoticed
    obtain ⟨hcompute, hconfig, hprofile, hplacement, hshape⟩ : (CacheAwareRunner.new iterOrder
        config cluster compute transfer profile placement).Keeps r :=
      hcalls.invariant ⟨rfl, rfl, rfl, rfl, .refl _⟩ fun _ _ _ _ h hrun => h.run hrun
    have hkeeps : fresh.Keeps r := ⟨hcompute, hconfig, hprofile, hplacement, hshape⟩
    exact hkeeps.run_eq rfl hunnoticed

end

/-- The runner after a run. -/
def again {ρ : Type} (run : ρ → List LlmRequest → Except Panic (List RequestResult × ρ)) (r : ρ)
    (requests : List LlmRequest) : ρ :=
  match run r requests with
  | .ok (_, r') => r'
  | .error _ => r

theorem calls_again {ρ : Type} (run : ρ → List LlmRequest → Except Panic (List RequestResult × ρ))
    (r : ρ) (requests : List LlmRequest) : Calls run r (again run r requests) := by
  unfold again
  split
  next hrun => exact .single ⟨_, _, hrun⟩
  next => exact .refl

/-- Requests that come after everything of the run before is over. Of the two GPUs of each stage the
one that has been used is no longer preferred. -/
theorem reruns_eq_fresh_later :
    let earlier := [LlmRequest.cold 0 0 8 2]
    let requests := [LlmRequest.cold 0 9000000 8 2, LlmRequest.cold 1 9000000 8 2]
    let runner := EventDrivenRunner.new ⟨2, 2, 1⟩ (.singleNode 2 2)
      LinearComputeModel.conservative8b
    let baseline := NoReuseRunner.new ⟨2, 2, 1⟩ LinearComputeModel.conservative8b
    let cached := CacheAwareRunner.new .ascending ⟨2, 2, 1⟩ (.singleNode 2 2)
      LinearComputeModel.conservative8b AnalyticalTransferModel.rdma400g .llama8bBf16Gqa
      (RemoteLru.mk 0)
    ¬runner.cluster.RankAlike (again EventDrivenRunner.run runner earlier).cluster ∧
      Prod.fst <$> (again EventDrivenRunner.run runner earlier).run requests =
        Prod.fst <$> runner.run requests ∧
      Prod.fst <$> (again NoReuseRunner.run baseline earlier).run requests =
        Prod.fst <$> baseline.run requests ∧
      Prod.fst <$> (again CacheAwareRunner.run cached earlier).run requests =
        Prod.fst <$> { cached with cache := (again CacheAwareRunner.run cached earlier).cache }.run
          requests := by
  intro earlier requests runner baseline cached
  obtain ⟨hrunner, hbaseline, hcached⟩ := reruns_eq_fresh ⟨2, 2, 1⟩ (.singleNode 2 2)
    LinearComputeModel.conservative8b .ascending AnalyticalTransferModel.rdma400g .llama8bBf16Gqa
    (RemoteLru.mk 0) requests
  refine ⟨by decide +kernel,
    hrunner _ (calls_again _ runner earlier) fun _ => ⟨?_, .inr ⟨?_, ?_, ?_⟩⟩,
    hbaseline _ (calls_again _ baseline earlier) (by decide +kernel),
    hcached _ (calls_again _ cached earlier) fun _ => ⟨⟨?_, .inr ⟨?_, ?_, ?_⟩⟩, ?_⟩⟩
  · decide +kernel
  · decide +kernel
  · exact fun s hs => hs.of_always (g := fun s => s.releasesIdle) (n := 9) (by decide +kernel)
  · exact fun s hs => hs.of_always (g := fun s => s.releasesIdle) (n := 9) (by decide +kernel)
  · decide +kernel
  · decide +kernel
  · exact fun s hs => hs.of_always (g := fun s => s.releasesIdle) (n := 9) (by decide +kernel)
  · exact fun s hs => hs.of_always (g := fun s => s.releasesIdle) (n := 9) (by decide +kernel)
  · have hsame : (again CacheAwareRunner.run cached earlier).transfer =
        .rdma400g := by decide +kernel
    rw [hsame]
    exact .refl _ _

/-- A second run of the same trace. The GPU for prefill is still busy when the request arrives,
nothing is pending that would release it, and the request is never served. With the no-reuse runner
the request waits for the run before. -/
theorem rerun_strands :
    let requests := [LlmRequest.cold 0 0 8 2]
    let runner := EventDrivenRunner.new ⟨1, 1, 1⟩
      (.singleNode 1 1) LinearComputeModel.conservative8b
    let baseline := NoReuseRunner.new ⟨1, 1, 1⟩ LinearComputeModel.conservative8b
    let cached := CacheAwareRunner.new .ascending ⟨1, 1, 1⟩ (.singleNode 1 1)
      LinearComputeModel.conservative8b AnalyticalTransferModel.rdma400g .llama8bBf16Gqa
      (RemoteLru.mk 0)
    (Prod.fst <$> (again EventDrivenRunner.run runner requests).run requests ≠
        Prod.fst <$> runner.run requests ∧
      Prod.fst <$> (again EventDrivenRunner.run runner requests).run requests = .ok []) ∧
    Prod.fst <$> (again NoReuseRunner.run baseline requests).run requests ≠
      Prod.fst <$> baseline.run requests ∧
    Prod.fst <$> (again CacheAwareRunner.run cached requests).run requests ≠
      Prod.fst <$> { cached with cache := (again CacheAwareRunner.run cached requests).cache }.run
        requests := by
  decide +kernel

/-- A GPU for both stages and one for prefill only. -/
def mixedNode : ClusterTopology where
  nodes := [{
    nodeId := 0
    gpus := [.new 0 80000000000 .unified, .new 1 80000000000 .prefill]
    cpuMemBytes := 1000000000000
    localSsdBytes := 10000000000000 }]

/-- Busy times that are over still make a difference if they change the order in which the GPUs are
preferred: the first request is put on the other GPU. -/
theorem rerun_moves :
    let requests := [LlmRequest.cold 0 9000000 8 2, LlmRequest.cold 1 9000000 80 2]
    let runner := EventDrivenRunner.new ⟨1, 1, 1⟩ mixedNode LinearComputeModel.conservative8b
    let later := again EventDrivenRunner.run runner [.cold 0 0 8 2]
    mixedNode.OverBefore (firstArrivalNs requests) later.cluster ∧
      Prod.fst <$> later.run requests ≠ Prod.fst <$> runner.run requests := by
  decide +kernel

end KvFlowSim
