import KvFlowSim.Cluster.Alike
import KvFlowSim.Serving.Lockstep
import KvFlowSim.Serving.NoPanic
import KvFlowSim.Serving.WorkConserving

/-!
# Runs on clusters that cannot be told apart

Two runs of a runner that start from states which differ in busy times only, and those so that the
selection does not notice it (`ClusterTopology.Alike`), go through the same events in lock-step:
every operation of the shared state takes alike states to alike states (`Alike.lockstep`), and the
next events of alike states are the same (`Alike.pops`). So the results are the same
(`LockstepLoop.results_of_alike`).
-/

namespace KvFlowSim

open Except

namespace ServingState

/-- The states differ in busy times that the selection does not notice from `since` on. -/
def Alike (since : UInt64) (s t : ServingState) : Prop :=
  ∃ cluster, t = { s with cluster := cluster } ∧ s.cluster.Alike since cluster

section

variable {since now id : UInt64} {s t : ServingState} {stage : Stage}

theorem Alike.setQueue (h : s.Alike since t) (stage : Stage) (q : List UInt64) :
    (s.setQueue stage q).Alike since (t.setQueue stage q) := by
  obtain ⟨cluster, rfl, hc⟩ := h
  cases stage <;> exact ⟨cluster, rfl, hc⟩

theorem Alike.queue (h : s.Alike since t) (stage : Stage) : t.queue stage = s.queue stage := by
  obtain ⟨cluster, rfl, -⟩ := h
  cases stage <;> rfl

theorem Alike.inFlight (h : s.Alike since t) : t.inFlight = s.inFlight := by
  obtain ⟨cluster, rfl, -⟩ := h
  rfl

theorem Alike.results (h : s.Alike since t) : t.results = s.results := by
  obtain ⟨cluster, rfl, -⟩ := h
  rfl

theorem Alike.finish (h : s.Alike since t) (id : UInt64) :
    (s.finish id).Alike since (t.finish id) := by
  obtain ⟨cluster, rfl, hc⟩ := h
  unfold ServingState.finish
  cases s.inFlight.get id with
  | none => exact ⟨cluster, rfl, hc⟩
  | some r => exact ⟨cluster, rfl, hc⟩

theorem Alike.findIdleGpuFor (h : s.Alike since t) (hnow : since ≤ now) (stage : Stage) :
    t.cluster.findIdleGpuFor now stage.role = s.cluster.findIdleGpuFor now stage.role := by
  obtain ⟨cluster, rfl, hc⟩ := h
  exact hc.findIdleGpuFor hnow stage.role_eq

theorem Alike.releaseGpu (h : s.Alike since t) (hnow : since ≤ now) (n : NodeId) (i : ℕ) :
    Related (Alike since) (s.releaseGpu n i now) (t.releaseGpu n i now) := by
  obtain ⟨cluster, rfl, hc⟩ := h
  exact (hc.setBusyUntil hnow n i).bind fun _ c' _ hc' => .ok ⟨c', rfl, hc'⟩

variable {C : Type} [ComputeModel C] {compute : C} {config : ServingConfig}

theorem Alike.start (h : s.Alike since t) (hnow : since ≤ now) (gpu : NodeId × ℕ) :
    Related (Alike since) (s.start compute config stage id gpu now)
      (t.start compute config stage id gpu now) := by
  obtain ⟨cluster, rfl, hc⟩ := h
  unfold ServingState.start
  dsimp only
  cases s.inFlight.get id with
  | none => exact .ok ⟨cluster, rfl, hc⟩
  | some r =>
    have hle : ∀ d, since ≤ now.satAdd d := fun d => hnow.trans (UInt64.le_satAdd now d)
    have hstage : Related (fun p q => q = (p.1, q.2.1, p.2.2) ∧ p.2.1.Alike since q.2.1)
        (stage.start s.sim s.cluster compute config r gpu.1 gpu.2 now)
        (stage.start s.sim cluster compute config r gpu.1 gpu.2 now) := by
      cases stage with
      | prefill => exact (hc.setBusyUntil (hle _) gpu.1 gpu.2).bind fun c c' _ hc' => .ok ⟨rfl, hc'⟩
      | decode => exact (hc.setBusyUntil (hle _) gpu.1 gpu.2).bind fun c c' _ hc' => .ok ⟨rfl, hc'⟩
    refine hstage.bind ?_
    rintro ⟨sim, c, r'⟩ ⟨_, c', _⟩ - ⟨hpq, hc'⟩
    cases hpq
    exact .ok ⟨c', rfl, hc'⟩

theorem Alike.startOrQueue (h : s.Alike since t) (hnow : since ≤ now) (id : UInt64)
    (stage : Stage) :
    Related (Alike since) (s.startOrQueue compute config stage id now)
      (t.startOrQueue compute config stage id now) := by
  unfold ServingState.startOrQueue
  rw [h.findIdleGpuFor hnow]
  refine (Related.refl (fun _ => rfl) (s.cluster.findIdleGpuFor now stage.role)).bind ?_
  rintro gpu _ - rfl
  cases gpu with
  | none =>
    rw [h.queue]
    exact .ok (h.setQueue stage _)
  | some gpu => exact h.start hnow gpu

theorem Alike.assign (h : s.Alike since t) (hnow : since ≤ now) (q : List UInt64) :
    Related (Alike since) (assign compute config stage now q s)
      (assign compute config stage now q t) := by
  induction q generalizing s t with
  | nil => exact .ok h
  | cons id rest ih =>
    rw [ServingState.assign, ServingState.assign, h.findIdleGpuFor hnow]
    refine (Related.refl (fun _ => rfl) (s.cluster.findIdleGpuFor now stage.role)).bind ?_
    rintro gpu _ - rfl
    cases gpu with
    | none => exact .ok h
    | some gpu => exact ((h.setQueue stage rest).start hnow gpu).bind fun _ _ _ h' => ih h'

theorem Alike.tryAssign (h : s.Alike since t) (hnow : since ≤ now) (stage : Stage) :
    Related (Alike since) (s.tryAssign compute config stage now)
      (t.tryAssign compute config stage now) := by
  unfold ServingState.tryAssign
  rw [h.queue]
  exact h.assign hnow _

/-- The operations keep states alike. -/
theorem Alike.lockstep (hnow : since ≤ now) : Lockstep now (Alike since) where
  shape h := by
    obtain ⟨cluster, rfl, hc⟩ := h
    exact hc.sameShape
  record {s t} h id := by
    rw [h.inFlight]
    cases s.inFlight.get id with
    | none => exact .none
    | some r => exact .some (.refl r)
  note h hr hr' tokens tier := by
    rw [h.inFlight] at hr'
    obtain rfl := Option.some.inj (hr.symm.trans hr')
    obtain ⟨cluster, rfl, hc⟩ := h
    exact ⟨cluster, rfl, hc⟩
  fetch h id doneNs := by
    obtain ⟨cluster, rfl, hc⟩ := h
    exact ⟨cluster, rfl, hc⟩
  finish h id := h.finish id
  startOrQueue compute config s t h stage id := h.startOrQueue hnow id stage
  tryAssign compute config s t h stage := h.tryAssign hnow stage

end

/-! ## The start -/

theorem enterAll_withCluster (s : ServingState) (cluster : ClusterTopology) (l : List LlmRequest) :
    ({ s with cluster := cluster } : ServingState).enterAll l =
      { s.enterAll l with cluster := cluster } := by
  induction l generalizing s with
  | nil => rfl
  | cons req rest ih => exact ih (s.enter req)

/-- The starts of two runs on clusters that cannot be told apart. -/
theorem alike_start {since : UInt64} {cluster cluster' : ClusterTopology}
    (h : cluster.Alike since cluster') (l : List LlmRequest) :
    ((ServingState.new cluster).enterAll l).Alike since
      ((ServingState.new cluster').enterAll l) := by
  refine ⟨cluster', enterAll_withCluster (ServingState.new cluster) cluster' l, ?_⟩
  rw [cluster_enterAll]
  exact h

/-! ## The clock -/

/-- Nothing happens before `since`. -/
def Begun (since : UInt64) (s : ServingState) : Prop :=
  since ≤ s.sim.nowNs ∨ ∀ ev ∈ s.sim.pending, since ≤ ev.timeNs

theorem Begun.le_now {since now : UInt64} {s : ServingState} {kind : ServingEvent}
    {sim : Simulator ServingEvent} (h : s.Begun since)
    (hstep : s.sim.step = some (now, kind, sim)) :
    since ≤ now := by
  obtain ⟨ev, -, hperm, hnow, -⟩ := Simulator.step_spec hstep
  rw [hnow]
  rcases h with h | h
  · exact h.trans (le_max_left _ _)
  · exact (h ev (hperm.mem_iff.2 List.mem_cons_self)).trans (le_max_right _ _)

/-- Nothing happens before the next event any more. -/
theorem begun_next {now : UInt64} {s : ServingState} {kind : ServingEvent}
    {sim : Simulator ServingEvent} (hstep : s.sim.step = some (now, kind, sim)) : s.Begun now := by
  obtain ⟨ev, -, hperm, rfl, -, hfirst⟩ := Simulator.step_spec hstep
  rcases le_total ev.timeNs s.sim.nowNs with hle | hle
  · exact .inl (max_eq_left hle).le
  · refine .inr fun ev' hev' => ?_
    rw [max_eq_right hle]
    rcases List.mem_cons.1 (hperm.mem_iff.1 hev') with rfl | hev'
    · exact le_rfl
    · exact hfirst ev' hev'

theorem Advance.begun {since : UInt64} {fetching : Prop} {s s' : ServingState}
    (h : Advance fetching s s') (hs : s.Begun since) : s'.Begun since := by
  obtain ⟨now, kind, sim, hstep, s₁, hrel, hmoves, -⟩ := h
  obtain ⟨-, -, -, -, hsim, -⟩ := Simulator.step_spec hstep
  refine .inl ?_
  rw [hmoves.nowNs, hrel.sim, hsim]
  exact hs.le_now hstep

/-- The next events are the same. -/
theorem Alike.pops {since : UInt64} {s t : ServingState} (h : s.Alike since t)
    (hbegun : s.Begun since) : Pops (fun _ => Alike since) s t := by
  obtain ⟨cluster, rfl, hc⟩ := h
  cases hstep : s.sim.step with
  | none => exact .none hstep hstep
  | some p =>
    obtain ⟨now, kind, sim⟩ := p
    have hnow := hbegun.le_now hstep
    have halike : Alike since { s with sim := sim } { s with sim := sim, cluster := cluster } :=
      ⟨cluster, rfl, hc⟩
    refine .some hstep hstep (.refl kind) (Alike.lockstep hnow) halike fun n i n' i' hc hc' => ?_
    obtain ⟨rfl, rfl⟩ := Prod.mk.inj (Option.some.inj (hc.symm.trans hc'))
    exact halike.releaseGpu hnow n i

/-! ## The cluster of a run -/

section

variable {fetching : Prop} {now : UInt64} {x y : ServingState × Held} {s s' : ServingState}
  {cluster : ClusterTopology}

theorem Move.sameShape (h : Move fetching now x y) (hx : cluster.SameShape x.1.cluster) :
    cluster.SameShape y.1.cluster := by
  cases h with
  | start _ _ _ hcluster => exact hx.setBusyUntil hcluster
  | finish => simpa using hx
  | enqueue => simpa using hx
  | dequeue => simpa using hx
  | fetch => exact hx
  | drop => exact hx
  | note => exact hx

/-- Events write busy times and nothing else of the cluster. -/
theorem Advance.sameShape (h : Advance fetching s s') (hs : cluster.SameShape s.cluster) :
    cluster.SameShape s'.cluster := by
  obtain ⟨now, kind, sim, -, s₁, hrelease, hmoves, -⟩ := h
  refine hmoves.invariant (I := fun x => cluster.SameShape x.1.cluster)
    (fun _ _ hx hm => hm.sameShape hx) ?_
  rcases hrelease.cluster with ⟨-, hsame⟩ | ⟨n, i, -, hset⟩
  · rw [hsame]
    exact hs
  · exact ClusterTopology.SameShape.setBusyUntil hs hset

end

/-! ## Two runs -/

/-- A loop that, in lock-step, keeps runners alike whose states are in a relation. -/
structure LockstepLoop {σ : Type} (since : UInt64) (step : σ → Except Panic (Option σ))
    (state : σ → ServingState) (A : (ServingState → ServingState → Prop) → σ → σ → Prop) :
    Prop where
  related : ∀ {R r r'}, A R r r' → R (state r) (state r')
  step : ∀ {Q R r r'}, A Q r r' → Pops R (state r) (state r') → (state r).Begun since →
    Related (Option.Rel fun s s' => ∃ now kind sim, (state r).sim.step = some (now, kind, sim) ∧
      A (R now) s s') (step r) (step r')

section

variable {since : UInt64} {fetching : Prop} {σ : Type} {step : σ → Except Panic (Option σ)}
  {state : σ → ServingState} {A : (ServingState → ServingState → Prop) → σ → σ → Prop} {r r' : σ}

theorem ServingLoop.begun (hloop : ServingLoop fetching step state) (hr : (state r).Begun since)
    {s : σ} (h : EventLoop.Reach step r s) : (state s).Begun since :=
  h.invariant (I := fun s => (state s).Begun since)
    (fun a b ha hstep => (hloop.advance a b hstep).begun ha) hr

/-- Runs from starts that cannot be told apart have the same results. -/
theorem LockstepLoop.results_of_alike (hA : LockstepLoop since step state A)
    (hloop : ServingLoop fetching step state) (h : A (Alike since) r r')
    (hbegun : (state r).Begun since) (n : ℕ) :
    Related (fun s t => (state t).results = (state s).results) (EventLoop.run step n r)
      (EventLoop.run step n r') := by
  have hrun : Related (A (Alike since)) (EventLoop.run step n r) (EventLoop.run step n r') := by
    refine EventLoop.run_related (fun s t hs _ hst => ?_) h
    have hnow := hloop.begun hbegun hs
    exact EventLoop.related_step (hA.step hst ((hA.related hst).pops hnow) hnow)
      fun _ _ _ _ ⟨_, _, _, _, hnext⟩ => hnext
  exact hrun.imp fun s t hst => (hA.related hst).results

end

end ServingState

end KvFlowSim
