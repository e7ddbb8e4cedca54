import KvFlowSim.Serving.Audit

/-!
# How long a request waits

While a request waits for a stage, all GPUs of its role are at work. So its waiting, once for every
GPU of the role, and the time of its own job come to no more than the time of all jobs that those
GPUs are given (`waiting_bounded`). This is so in any run of either runner from an idle cluster,
whatever the order in which events of equal times are handled, and also where a completion frees a
GPU too early.
-/

namespace KvFlowSim

open Pool ServingState

namespace RequestResult

/-- The time at which the request is ready for a stage, if no KV is fetched for it. -/
def readyNs (y : RequestResult) : Stage → UInt64
  | .prefill => y.arrivalNs
  | .decode => y.prefillDoneNs

/-- The request waits from `t` on for the stage, and so long that its waiting for each of the `gpus`
and its own job come to no more than `given`. -/
structure WaitsWithin (y : RequestResult) (stage : Stage) (t : UInt64) (gpus given : ℕ) : Prop where
  ready : t ≤ y.startNs stage
  bound : gpus * ((y.startNs stage).toNat - t.toNat) + y.spentNs stage ≤ given

theorem Settled.waitsWithin {ready : LlmRequest → UInt64 → Prop} {stage : Stage} {gpus given : ℕ}
    {y : RequestResult} (h : y.Settled ready stage gpus given) :
    ∃ t, y.WaitsWithin stage t gpus given ∧
      (t = y.readyNs stage ∨ ∃ q : LlmRequest, q.requestId = y.requestId ∧ ready q t ∧
        (t = q.arrivalNs → t = y.readyNs stage)) := by
  obtain ⟨r, rfl, hdecoded, hbounded⟩ := h
  cases hstart : r.startedNs stage with
  | some start =>
    obtain ⟨t, hready, hle, hwaited⟩ := hbounded.waited start hstart
    have hshown : r.intoResult.startNs stage = start := by
      rw [InFlightRequest.startNs_intoResult, hstart, Option.getD_some]
    refine ⟨t, ⟨by rwa [hshown], by rwa [hshown]⟩, ?_⟩
    cases stage with
    | prefill => exact .inr ⟨r.request, rfl, hready, fun ht => ht⟩
    | decode =>
      have hdone : r.intoResult.readyNs .decode = r.prefillDoneNs.getD r.request.arrivalNs := rfl
      rw [InFlightRequest.ReadyAt] at hready
      cases hprefill : r.prefillDoneNs with
      | some done =>
        simp only [hprefill] at hready
        exact .inl (by rw [hdone, hprefill, Option.getD_some, hready])
      | none =>
        simp only [hprefill] at hready
        exact .inr ⟨r.request, rfl, hready, fun ht => by rw [hdone, hprefill, Option.getD_none, ht]⟩
  | none =>
    -- a request without a prefill does not wait for it
    have hstage : stage = .prefill := by
      cases stage with
      | prefill => rfl
      | decode => simp [hstart] at hdecoded
    subst hstage
    have hshown : r.intoResult.startNs .prefill = r.request.arrivalNs := by
      rw [InFlightRequest.startNs_intoResult, hstart, Option.getD_none]
    have hspent : r.intoResult.spentNs .prefill = 0 := by
      rw [spentNs, hshown, InFlightRequest.doneNs_intoResult, hbounded.paired .prefill hstart,
        Option.getD_none, Nat.sub_self]
    refine ⟨r.request.arrivalNs, ⟨hshown.ge, ?_⟩, .inl rfl⟩
    rw [hshown, hspent, Nat.sub_self]
    exact Nat.zero_le _

end RequestResult

namespace ServingState

variable {l : List LlmRequest} {s : ServingState}

/-- When all requests are done, the work is that of the results. -/
theorem workNs_of_done (h : Registered l (s, none)) (hend : s.sim.pending = [])
    (hqueue : ∀ stage, s.queue stage = []) (counts : Stage → Bool) :
    s.workNs counts =
      ((s.results.sortByKey RequestResult.arrivalKey).map (RequestResult.workNs counts)).sum := by
  have hnone : s.inFlight.values = 0 := by
    refine Multiset.eq_zero_of_forall_notMem fun r hr => ?_
    have hactive := h.placed r.id (by rw [KeyedMap.mem_values.1 hr]; rfl)
    rw [mem_active, hend] at hactive
    rcases hactive with ⟨ev, hev, -⟩ | ⟨stage, hid⟩ | hid
    · exact absurd hev List.not_mem_nil
    · rw [show s.queue stage = [] from hqueue stage] at hid
      exact absurd hid List.not_mem_nil
    · cases hid
  rw [workNs, KeyedMap.sumBy, hnone, Multiset.map_zero, Multiset.sum_zero, Nat.zero_add]
  exact (((List.sortByKey_perm _ _).map _).sum_eq).symm

/-- At the end of a run from an idle cluster with GPUs for both roles, all work is that of
the results. -/
theorem ServingLoop.exists_done {fetching : Prop} {σ : Type} {step : σ → Except Panic (Option σ)}
    {state : σ → ServingState} (hloop : ServingLoop fetching step state)
    (hok : ∀ s, Operable fetching (state s) → ∃ o, step s = .ok o) (start : σ)
    {cluster : ClusterTopology} (hd : cluster.DistinctNodeIds) (hidle : cluster.AllIdle)
    (hprefill : cluster.Serves .prefill) (hdecode : cluster.Serves .decode)
    (requests : List LlmRequest)
    (hstart : state start = (ServingState.new cluster).enterAll (sortRequests requests)) :
    ∃ s, EventLoop.run step (4 * requests.length) start = .ok s ∧ (state s).sim.pending = [] ∧
      ∀ counts, (state s).workNs counts =
        (((state s).results.sortByKey RequestResult.arrivalKey).map
          (RequestResult.workNs counts)).sum := by
  obtain ⟨s, hs, hend, hreg, -⟩ := hloop.exists_registered hok start hd requests hstart
  refine ⟨s, hs, hend, workNs_of_done hreg hend fun stage => ?_⟩
  by_contra hne
  refine hloop.unserved hd hidle hstart (EventLoop.run_reach hs) hend stage hne ?_
  cases stage with
  | prefill => exact hprefill
  | decode => exact hdecode

end ServingState

section

variable {C P T : Type} [ComputeModel C] [PlacementPolicy P] [TransferModel T]
  (config : ServingConfig) (cluster : ClusterTopology) (compute : C) (iterOrder : IterOrder)
  (transfer : T) (profile : ModelProfile) (placement : P) (requests : List LlmRequest)

theorem EventDrivenRunner.run_waits (hnodes : cluster.DistinctNodeIds) (hidle : cluster.AllIdle)
    (hprefill : cluster.Serves .prefill) (hdecode : cluster.Serves .decode)
    (hids : DistinctIds requests) :
    ∃ results r', (EventDrivenRunner.new config cluster compute).run requests = .ok (results, r') ∧
      ∀ y ∈ results, ∀ stage, y.WaitsWithin stage (y.readyNs stage) (cluster.pool stage.role).card
        (results.map (RequestResult.workNs (cluster.shares stage))).sum := by
  obtain ⟨s, hs, hend, hwork⟩ := servingLoop.exists_done step_isOk
    ((EventDrivenRunner.new config cluster compute).start requests) hnodes hidle hprefill
    hdecode requests
    rfl
  refine ⟨_, _, by rw [run, hs]; rfl, fun y hy stage => ?_⟩
  have haudited := (EventLoop.run_reach hs).invariant
    (I := fun s => s.toServingState.Audited (fun q t => t = q.arrivalNs) stage
      (cluster.shares stage)
      (cluster.busyTimes stage.role).card (ServingState.ids requests))
    (fun _ _ h hstep => step_audited (Multiset.coe_nodup.2 hids) h hstep)
    (audited_start hnodes hidle _ stage hids)
  have hsettled := haudited.waits.results y ((List.sortByKey_perm _ _).mem_iff.1 hy)
  rw [hwork, ClusterTopology.busyTimes, Multiset.card_map] at hsettled
  obtain ⟨t, hwaits, ht⟩ := hsettled.waitsWithin
  have hready : t = y.readyNs stage := by
    rcases ht with ht | ⟨q, -, harrival, ht⟩
    · exact ht
    · exact ht harrival
  exact hready ▸ hwaits

theorem CacheAwareRunner.run_waits (hnodes : cluster.DistinctNodeIds) (hidle : cluster.AllIdle)
    (hprefill : cluster.Serves .prefill) (hdecode : cluster.Serves .decode)
    (hids : DistinctIds requests) : ∃ results r' past s,
      (CacheAwareRunner.new iterOrder config cluster compute transfer profile placement).run
        requests = .ok (results, r') ∧
      Past ((CacheAwareRunner.new iterOrder config cluster compute transfer profile placement).start
        requests) past s ∧ s.sim.pending = [] ∧
      ∀ y ∈ results, ∀ stage, ∃ t, (t = y.readyNs stage ∨
          ∃ e ∈ past, e.event = .fetchDone y.requestId ∧ e.nowNs = t) ∧
        y.WaitsWithin stage t (cluster.pool stage.role).card
          (results.map (RequestResult.workNs (cluster.shares stage))).sum := by
  obtain ⟨s, hs, hend, hwork⟩ := servingLoop.exists_done step_isOk
    ((CacheAwareRunner.new iterOrder config cluster compute transfer profile placement).start
      requests) hnodes hidle hprefill hdecode requests rfl
  obtain ⟨past, hpast⟩ := exists_past (EventLoop.run_reach hs)
  refine ⟨_, _, past, s, by rw [run, hs]; rfl, hpast, hend, fun y hy stage => ?_⟩
  have haudited := hpast.audited rfl hnodes hidle hids stage
  have hsettled := haudited.waits.results y ((List.sortByKey_perm _ _).mem_iff.1 hy)
  rw [hwork, ClusterTopology.busyTimes, Multiset.card_map] at hsettled
  obtain ⟨t, hwaits, ht⟩ := hsettled.waitsWithin
  refine ⟨t, ?_, hwaits⟩
  rcases ht with ht | ⟨q, hid, harrival | hfetch, ht⟩
  · exact .inl ht
  · exact .inl (ht harrival)
  · exact .inr (hid ▸ hfetch)

/-- **Waiting is paid for by work.** From an idle cluster with GPUs for both roles, each result of
either runner shows a waiting for a stage that, once for every GPU of the role, comes with the job
itself to no more than the time of all jobs of those GPUs. A request waits for its prefill from its
arrival and for its decode from the end of the prefill or, if its KV is fetched, from the end of
the fetch. -/
theorem waiting_bounded (hnodes : cluster.DistinctNodeIds) (hidle : cluster.AllIdle)
    (hprefill : cluster.Serves .prefill) (hdecode : cluster.Serves .decode)
    (hids : DistinctIds requests) :
    (∃ results r', (EventDrivenRunner.new config cluster compute).run requests = .ok (results, r') ∧
      ∀ y ∈ results, ∀ stage, y.WaitsWithin stage (y.readyNs stage) (cluster.pool stage.role).card
        (results.map (RequestResult.workNs (cluster.shares stage))).sum) ∧
    ∃ results r' past s,
      (CacheAwareRunner.new iterOrder config cluster compute transfer profile placement).run
        requests = .ok (results, r') ∧
      CacheAwareRunner.Past
        ((CacheAwareRunner.new iterOrder config cluster compute transfer profile placement).start
          requests) past s ∧ s.sim.pending = [] ∧
      ∀ y ∈ results, ∀ stage, ∃ t, (t = y.readyNs stage ∨
          ∃ e ∈ past, e.event = .fetchDone y.requestId ∧ e.nowNs = t) ∧
        y.WaitsWithin stage t (cluster.pool stage.role).card
          (results.map (RequestResult.workNs (cluster.shares stage))).sum :=
  ⟨EventDrivenRunner.run_waits config cluster compute requests hnodes hidle hprefill hdecode hids,
    CacheAwareRunner.run_waits config cluster compute iterOrder transfer profile placement
      requests hnodes hidle hprefill hdecode hids⟩

/-- Three requests at once, for two prefill GPUs. -/
theorem waiting_bounded_three : ∃ results r',
    (EventDrivenRunner.new ⟨1, 1, 1⟩ (.singleNode 2 1) unitCompute).run
      [.cold 0 0 8 2, .cold 1 0 8 2, .cold 2 0 8 2] = .ok (results, r') ∧
    ∀ y ∈ results, ∀ stage, y.WaitsWithin stage (y.readyNs stage)
      ((ClusterTopology.singleNode 2 1).pool stage.role).card
      (results.map (RequestResult.workNs ((ClusterTopology.singleNode 2 1).shares stage))).sum :=
  (waiting_bounded ⟨1, 1, 1⟩
    (.singleNode 2 1) unitCompute .ascending AnalyticalTransferModel.rdma400g
    .llama8bBf16Gqa (RemoteLru.mk 0) [.cold 0 0 8 2, .cold 1 0 8 2, .cold 2 0 8 2]
    (by decide) (by decide)
    (by decide) (by decide) (by decide)).1

end

end KvFlowSim
