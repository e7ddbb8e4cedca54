import KvFlowSim.Policy.Evictions
import KvFlowSim.Serving.Effects

/-!
# Reproducibility

Two cache-aware runners that differ in the order in which the objects are enumerated, and in nothing
else, handle an event alike unless the event is the end of a prefill whose placement breaks a tie
between least recently used objects (`step_withOrder`). So as long as no placement of a run does
(`untied`), the results and the counters do not depend on the order. With a tie they do:
`run_order_matters`.
-/

namespace KvFlowSim

open Except

namespace CacheAwareRunner

variable {C P T : Type} {r : CacheAwareRunner C P T} {now id : UInt64}

/-- The same runner with another order of enumeration. -/
def withOrder (r : CacheAwareRunner C P T) (o : IterOrder) : CacheAwareRunner C P T :=
  { r with cache := r.cache.withOrder o }

/-- The two runners differ in the order of enumeration only. -/
abbrev SameBut (o : IterOrder) (r r' : CacheAwareRunner C P T) : Prop := r' = r.withOrder o

theorem onState_withOrder (r : CacheAwareRunner C P T) (o : IterOrder)
    (f : ServingState → Except Panic ServingState) :
    Related (SameBut o) (r.onState f) ((r.withOrder o).onState f) := by
  have h : Related Eq (f r.toServingState) (f r.toServingState) := .refl (fun _ => rfl) _
  exact h.map fun s s' hs => by rw [hs]; rfl

theorem takeFetch_withOrder (r : CacheAwareRunner C P T) (o : IterOrder) (id : UInt64) :
    (r.withOrder o).takeFetch id = (r.takeFetch id).withOrder o := by
  have hin : (r.withOrder o).inFlight = r.inFlight := rfl
  unfold takeFetch
  rw [hin]
  split
  · rfl
  · split <;> rfl

theorem accept_withOrder (r : CacheAwareRunner C P T) (o : IterOrder) (placed : Placed P T) :
    (r.withOrder o).accept (placed.withOrder o) = (r.accept placed).withOrder o := by
  obtain ⟨_ | _, _, _, _⟩ := placed <;> rfl

section Handlers

variable [ComputeModel C] (r : CacheAwareRunner C P T) (o : IterOrder) (now id : UInt64)

theorem startOrQueueRemainingPrefill_withOrder :
    Related (SameBut o) (r.startOrQueueRemainingPrefill now id)
      ((r.withOrder o).startOrQueueRemainingPrefill now id) := by
  have hin : (r.withOrder o).inFlight = r.inFlight := rfl
  unfold startOrQueueRemainingPrefill
  rw [hin]
  cases r.inFlight.get id with
  | none => exact .ok rfl
  | some inflight =>
    dsimp only
    split_ifs
    · exact onState_withOrder r o _
    · exact onState_withOrder _ o _

theorem degradeToMiss_withOrder :
    Related (SameBut o) (r.degradeToMiss now id) ((r.withOrder o).degradeToMiss now id) := by
  have hin : (r.withOrder o).inFlight = r.inFlight := rfl
  unfold degradeToMiss
  cases hget : r.inFlight.get id with
  | none =>
    simp only [hin, hget]
    exact .ok rfl
  | some inflight =>
    simp only [hin, hget]
    exact onState_withOrder _ o _

theorem missOnArrival_withOrder (inflight : InFlightRequest) :
    Related (SameBut o) (r.missOnArrival now inflight)
      ((r.withOrder o).missOnArrival now inflight) := by
  unfold missOnArrival
  exact onState_withOrder _ o _

theorem hitOnArrival_withOrder (inflight : InFlightRequest) (kv : KvObject) :
    Related (SameBut o) (r.hitOnArrival now inflight kv)
      ((r.withOrder o).hitOnArrival now inflight kv) := by
  unfold hitOnArrival
  have hcache : (r.withOrder o).cache.updateAccess kv.kvId now =
      (r.cache.updateAccess kv.kvId now).withOrder o := CacheState.updateAccess_withOrder _ _ _ _
  rw [hcache]
  exact startOrQueueRemainingPrefill_withOrder _ o now inflight.id

theorem tryAssignPrefill_withOrder :
    Related (SameBut o) (r.tryAssignPrefill now) ((r.withOrder o).tryAssignPrefill now) :=
  onState_withOrder r o _

theorem tryAssignDecode_withOrder :
    Related (SameBut o) (r.tryAssignDecode now) ((r.withOrder o).tryAssignDecode now) :=
  onState_withOrder r o _

theorem onFetchDone_withOrder :
    Related (SameBut o) (r.onFetchDone now id) ((r.withOrder o).onFetchDone now id) := by
  unfold onFetchDone
  rw [takeFetch_withOrder]
  refine (startOrQueueRemainingPrefill_withOrder _ o now id).bind fun r₁ _ _ h₁ => ?_
  subst h₁
  refine (tryAssignDecode_withOrder r₁ o now).bind fun r₂ _ _ h₂ => ?_
  subst h₂
  exact tryAssignPrefill_withOrder r₂ o now

theorem onDecodeDone_withOrder (n : NodeId) (i : ℕ) :
    Related (SameBut o) (r.onDecodeDone now id n i) ((r.withOrder o).onDecodeDone now id n i) := by
  refine (onState_withOrder r o _).bind fun r₁ _ _ h₁ => ?_
  subst h₁
  refine (onState_withOrder r₁ o _).bind fun r₂ _ _ h₂ => ?_
  subst h₂
  refine (tryAssignDecode_withOrder r₂ o now).bind fun r₃ _ _ h₃ => ?_
  subst h₃
  exact tryAssignPrefill_withOrder r₃ o now

variable [TransferModel T]

theorem handleFetch_withOrder (kv : KvObject) :
    Related (SameBut o) (r.handleFetch now id kv) ((r.withOrder o).handleFetch now id kv) := by
  have htransfer : (r.withOrder o).transfer = r.transfer := rfl
  unfold handleFetch
  rw [htransfer]
  split
  · exact degradeToMiss_withOrder r.countFetchError o now id
  · dsimp only
    split
    · exact degradeToMiss_withOrder _ o now id
    · exact .ok rfl

theorem fetchOnArrival_withOrder (inflight : InFlightRequest) (tier : TierKind) (kv : KvObject) :
    Related (SameBut o) (r.fetchOnArrival now inflight tier kv)
      ((r.withOrder o).fetchOnArrival now inflight tier kv) :=
  handleFetch_withOrder _ o now inflight.id kv

theorem onArrival_withOrder :
    Related (SameBut o) (r.onArrival now id) ((r.withOrder o).onArrival now id) := by
  have hin : (r.withOrder o).inFlight = r.inFlight := rfl
  have hkv : (r.withOrder o).reusableKv = r.reusableKv := rfl
  unfold onArrival
  rw [hin, hkv]
  split
  · exact .ok rfl
  · split
    · exact missOnArrival_withOrder r o now _
    · split
      · exact hitOnArrival_withOrder r o now _ _
      · exact fetchOnArrival_withOrder r o now _ _ _
      · exact fetchOnArrival_withOrder r o now _ _ _
      · exact fetchOnArrival_withOrder r o now _ _ _
      · exact missOnArrival_withOrder r o now _

end Handlers

/-! ## Placements -/

variable [ComputeModel C] [LruPolicy P] [TransferModel T]

/-- The evictions of the KV store step of `on_prefill_done`. -/
def storeEvictions (r : CacheAwareRunner C P T) (id : UInt64) : List Eviction :=
  match r.inFlight.get id with
  | none => []
  | some inflight =>
    let prefixTokens := inflight.request.promptTokens
    if 0 < prefixTokens then
      LruPolicy.evictions r.placement prefixTokens (r.profile.kvBytes prefixTokens) r.cluster
        r.cache.allocKvId.2 r.compute r.transfer
    else []

theorem storeKv_withOrder (h : ∀ e ∈ r.storeEvictions id, e.untied = true) (o : IterOrder) :
    (r.withOrder o).storeKv now id = (r.storeKv now id).withOrder o := by
  cases hin : r.inFlight.get id with
  | none =>
    have hin' : (r.withOrder o).inFlight.get id = none := hin
    simp only [storeKv, hin, hin']
  | some inflight =>
    have hin' : (r.withOrder o).inFlight.get id = some inflight := hin
    by_cases hpos : 0 < inflight.request.promptTokens
    · simp only [storeEvictions, hin, if_pos hpos] at h
      have hplaced : (r.withOrder o).placed now inflight.request =
          (r.placed now inflight.request).withOrder o :=
        LruPolicy.place_withOrder _ _ _ _ _ _ _ _ _ _ o h
      rw [storeKv_of_get hin hpos, storeKv_of_get hin' hpos, hplaced, accept_withOrder]
    · simp only [storeKv, hin, hin', if_neg hpos]

/-- The placement of the next event, if it makes one, breaks no tie between least recently used
objects. -/
def untied (r : CacheAwareRunner C P T) : Bool :=
  match r.sim.step with
  | some (nowNs, .prefillDone requestId nodeId gpuIdx, sim) =>
    match { r with sim }.onState (·.releaseGpu nodeId gpuIdx nowNs) with
    | .ok r => (r.storeEvictions requestId).all Eviction.untied
    | .error _ => true
  | _ => true

theorem onPrefillDone_withOrder {n : NodeId} {i : ℕ} (o : IterOrder)
    (h : ∀ r₁, r.onState (·.releaseGpu n i now) = .ok r₁ → ∀ e ∈ r₁.storeEvictions id,
      e.untied = true) :
    Related (SameBut o) (r.onPrefillDone now id n i)
      ((r.withOrder o).onPrefillDone now id n i) := by
  refine (onState_withOrder r o _).bind fun r₁ _ hr₁ h₁ => ?_
  subst h₁
  rw [storeKv_withOrder (h r₁ hr₁) o]
  refine (onState_withOrder _ o _).bind fun r₂ _ _ h₂ => ?_
  subst h₂
  refine (tryAssignPrefill_withOrder r₂ o now).bind fun r₃ _ _ h₃ => ?_
  subst h₃
  exact tryAssignDecode_withOrder r₃ o now

/-- One event, whose placement breaks no tie. -/
theorem step_withOrder (h : r.untied = true) (o : IterOrder) :
    Related (Option.Rel (SameBut o)) r.step (r.withOrder o).step := by
  have hsim : (r.withOrder o).sim = r.sim := rfl
  unfold step
  rw [hsim]
  cases hnext : r.sim.step with
  | none => exact .ok .none
  | some p =>
    obtain ⟨now, kind, sim⟩ := p
    refine Related.map (R := SameBut o) ?_ fun _ _ => .some
    cases kind with
    | requestArrival id => exact onArrival_withOrder { r with sim } o now id
    | fetchDone id => exact onFetchDone_withOrder { r with sim } o now id
    | decodeDone id n i => exact onDecodeDone_withOrder { r with sim } o now id n i
    | prefillDone id n i =>
      refine onPrefillDone_withOrder o fun r₁ hr₁ => ?_
      simp only [untied, hnext, hr₁] at h
      exact List.all_eq_true.1 h

/-! ## Runs -/

/-- What a run reports: the results and the counters. -/
def report (p : List RequestResult × CacheAwareRunner C P T) : List RequestResult × CacheHitStats :=
  (p.1, p.2.hits)

/-- **Reproducibility.** If no placement of a run breaks a tie between least recently used objects,
then the run reports the same for any other order of enumeration. -/
theorem run_orderIrrelevant (r : CacheAwareRunner C P T) (requests : List LlmRequest)
    (o₁ o₂ : IterOrder)
    (huntied : ∀ s, EventLoop.Reach step ((r.withOrder o₁).start requests) s → s.untied = true) :
    report <$> (r.withOrder o₂).run requests = report <$> (r.withOrder o₁).run requests := by
  have hloop : Related (SameBut o₂)
      (EventLoop.run step (4 * requests.length) ((r.withOrder o₁).start requests))
      (EventLoop.run step (4 * requests.length) ((r.withOrder o₂).start requests)) := by
    refine EventLoop.run_related (fun s t hreach _ hst => ?_) rfl
    subst hst
    exact step_withOrder (huntied s hreach) o₂
  have hrun : Related (fun p q => report q = report p) ((r.withOrder o₁).run requests)
      ((r.withOrder o₂).run requests) := by
    refine hloop.bind fun s t _ hst => ?_
    subst hst
    exact .ok rfl
  exact (hrun.map fun _ _ h => h.symm).eq.symm

end CacheAwareRunner

/-! ## Two runs on a node with little memory -/

/-- A node whose remote memory holds the KV of sixteen tokens. -/
def tightNode : ClusterTopology where
  nodes := (ClusterTopology.singleNode 2 2).nodes.map fun node =>
    { node with cpuMemBytes := 2097152 }

/-- Three requests of eight tokens in three sessions, the second of them at `arrivalNs`, and a
fourth one that would reuse the KV of the first. -/
def tightTrace (arrivalNs : UInt64) : List LlmRequest :=
  [.cold 0 0 8 2, .cold 1 arrivalNs 8 2, .cold 2 9000000 8 2,
    { LlmRequest.cold 3 18000000 12 2 with sessionId := 0, newPromptTokens := 4 }]

/-- The runner on that node. -/
def tightRunner (o : IterOrder) :
    CacheAwareRunner LinearComputeModel RemoteLru AnalyticalTransferModel :=
  .new o ⟨2, 2, 1⟩ tightNode .conservative8b .rdma400g .llama8bBf16Gqa ⟨0⟩

/-- The first two prefills end one after the other: the third request evicts the first KV. -/
theorem run_orderIrrelevant_tight :
    CacheAwareRunner.report <$> (tightRunner .descending).run (tightTrace 50) =
      CacheAwareRunner.report <$> (tightRunner .ascending).run (tightTrace 50) := by
  have halways : EventLoop.always CacheAwareRunner.step CacheAwareRunner.untied 17
      (((tightRunner .ascending).withOrder .ascending).start (tightTrace 50)) = true := by
    decide +kernel
  have hasc : (tightRunner .ascending).withOrder .ascending = tightRunner .ascending := rfl
  have hdesc : (tightRunner .ascending).withOrder .descending = tightRunner .descending := rfl
  have h := CacheAwareRunner.run_orderIrrelevant (tightRunner .ascending) (tightTrace 50) .ascending
    .descending fun s hs => hs.of_always halways
  rwa [hasc, hdesc] at h

/-- The first two prefills end at the same time: which KV the third request evicts, and whether the
fourth one is a hit, depends on the order of enumeration. -/
theorem run_order_matters :
    CacheAwareRunner.report <$> (tightRunner .descending).run (tightTrace 0) ≠
      CacheAwareRunner.report <$> (tightRunner .ascending).run (tightTrace 0) := by
  intro h
  have hmisses := congrArg (fun x => x.toOption.map fun p => p.2.misses) h
  revert hmisses
  decide +kernel

end KvFlowSim
