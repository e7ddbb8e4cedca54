import KvFlowSim.Cluster.Uniform
import KvFlowSim.Serving.AnyTrace
import KvFlowSim.Serving.LeftOver

/-!
# Runs on uniform clusters with the same load

On a uniform cluster it does not show in the results which of the idle GPUs a job is put on. Two
states have the `SameLoad` if they differ only in this, and in busy times that are over: their
clusters have the same load, and their events and records are the same but for the GPUs that they
name. The operations of the shared state keep this up (`SameLoad.lockstep`).

The completion of a job releases the GPU that it names, whatever else has been put there since. So
the GPUs do show if one is released in the middle of a job. As long as the completions of both runs
find their GPUs idle (`releasesIdle`), the next events of states with the same load are handled
alike (`SameLoad.pops`), and the results are the same (`LockstepLoop.results_of_sameLoad`).
-/

namespace KvFlowSim

open Except

/-- The records are the same but for the GPUs. -/
def InFlightRequest.SameButGpus (r r' : InFlightRequest) : Prop :=
  ∃ prefillNode prefillGpu decodeNode decodeGpu,
    r' = { r with
      prefillNode := prefillNode, prefillGpu := prefillGpu
      decodeNode := decodeNode, decodeGpu := decodeGpu }

namespace InFlightRequest.SameButGpus

variable {r r' : InFlightRequest}

theorem refl (r : InFlightRequest) : r.SameButGpus r := ⟨_, _, _, _, rfl⟩

theorem notes (h : r.SameButGpus r') : r.SameNotes r' := by
  obtain ⟨_, _, _, _, rfl⟩ := h
  exact ⟨rfl, rfl, rfl⟩

theorem intoResult_eq (h : r.SameButGpus r') : r'.intoResult = r.intoResult := by
  obtain ⟨_, _, _, _, rfl⟩ := h
  rfl

theorem note (h : r.SameButGpus r') (tokens : UInt32) (tier : Option TierKind) :
    ({ r with prefillTokens := tokens, pendingFetchTier := tier } : InFlightRequest).SameButGpus
      { r' with prefillTokens := tokens, pendingFetchTier := tier } := by
  obtain ⟨_, _, _, _, rfl⟩ := h
  exact ⟨_, _, _, _, rfl⟩

end InFlightRequest.SameButGpus

namespace ServingState

/-- The states differ in the GPUs that their jobs are on, and in busy times that are over. -/
structure SameLoad (now : UInt64) (s t : ServingState) : Prop where
  sim : s.sim.Corresponds ServingEvent.SameJob t.sim
  cluster : s.cluster.SameLoad now t.cluster
  queue : ∀ stage, t.queue stage = s.queue stage
  results : t.results = s.results
  record : ∀ id, Option.Rel InFlightRequest.SameButGpus (s.inFlight.get id) (t.inFlight.get id)

variable {now since id : UInt64} {s t : ServingState} {stage : Stage}

/-! ## Updates -/

theorem SameLoad.setQueue (h : s.SameLoad now t) (stage : Stage) (q : List UInt64) :
    (s.setQueue stage q).SameLoad now (t.setQueue stage q) where
  sim := by simpa using h.sim
  cluster := by simpa using h.cluster
  queue other := by rw [queue_setQueue, queue_setQueue, h.queue]
  results := by simpa using h.results
  record := by simpa using h.record

theorem SameLoad.withCluster (h : s.SameLoad now t) {c c' : ClusterTopology}
    (hc : c.SameLoad now c') :
    ({ s with cluster := c } : ServingState).SameLoad now { t with cluster := c' } where
  sim := h.sim
  cluster := hc
  queue := Stage.forall_iff.2 ⟨h.queue .prefill, h.queue .decode⟩
  results := h.results
  record := h.record

theorem SameLoad.schedule (h : s.SameLoad now t) (doneNs : UInt64) {kind kind' : ServingEvent}
    (hkind : kind.SameJob kind') :
    ({ s with sim := s.sim.schedule doneNs kind } : ServingState).SameLoad now
      { t with sim := t.sim.schedule doneNs kind' } where
  sim := h.sim.schedule doneNs hkind
  cluster := h.cluster
  queue := Stage.forall_iff.2 ⟨h.queue .prefill, h.queue .decode⟩
  results := h.results
  record := h.record

theorem SameLoad.insert (h : s.SameLoad now t) {r r' : InFlightRequest} (hr : r.SameButGpus r') :
    ({ s with inFlight := s.inFlight.insert r } : ServingState).SameLoad now
      { t with inFlight := t.inFlight.insert r' } where
  sim := h.sim
  cluster := h.cluster
  queue := Stage.forall_iff.2 ⟨h.queue .prefill, h.queue .decode⟩
  results := h.results
  record id := by
    simp only [KeyedMap.get_insert, hr.notes.id_eq]
    split_ifs
    · exact .some hr
    · exact h.record id

/-- There are records for a request in both states or in neither. -/
theorem SameLoad.get_cases (h : s.SameLoad now t) (id : UInt64) :
    (s.inFlight.get id = none ∧ t.inFlight.get id = none) ∨
      ∃ r r', s.inFlight.get id = some r ∧ t.inFlight.get id = some r' ∧ r.SameButGpus r' := by
  have hrecord := h.record id
  generalize s.inFlight.get id = o at hrecord ⊢
  generalize t.inFlight.get id = o' at hrecord ⊢
  cases hrecord with
  | none => exact .inl ⟨rfl, rfl⟩
  | some hsame => exact .inr ⟨_, _, rfl, rfl, hsame⟩

theorem SameLoad.finish (h : s.SameLoad now t) (id : UInt64) :
    (s.finish id).SameLoad now (t.finish id) := by
  unfold ServingState.finish
  rcases h.get_cases id with ⟨hs, ht⟩ | ⟨r, r', hs, ht, hsame⟩
  · rw [hs, ht]
    exact h
  · rw [hs, ht]
    refine ⟨h.sim, h.cluster, Stage.forall_iff.2 ⟨h.queue .prefill, h.queue .decode⟩, ?_,
      fun id' => ?_⟩
    · dsimp only
      rw [h.results, hsame.intoResult_eq]
    · simp only [KeyedMap.get_remove]
      split_ifs
      · exact .none
      · exact h.record id'

/-! ## Starting jobs -/

variable {C : Type} [ComputeModel C] {compute : C} {config : ServingConfig} {p p' : NodeId × ℕ}

/-- A stage is started on GPUs that may be booked alike. -/
theorem Stage.start_sameButGpus {r r' : InFlightRequest} (hr : r.SameButGpus r')
    {c c' : ClusterTopology} (hbook : ∀ doneNs, Related (ClusterTopology.SameLoad now)
      (c.setBusyUntil p.1 p.2 doneNs) (c'.setBusyUntil p'.1 p'.2 doneNs))
    (sim sim' : Simulator ServingEvent) :
    Related (fun x x' => ∃ doneNs, x.1 = sim.schedule doneNs (stage.doneEvent r.id p.1 p.2) ∧
        x'.1 = sim'.schedule doneNs (stage.doneEvent r.id p'.1 p'.2) ∧
        x.2.1.SameLoad now x'.2.1 ∧ x.2.2.SameButGpus x'.2.2)
      (stage.start sim c compute config r p.1 p.2 now)
      (stage.start sim' c' compute config r' p'.1 p'.2 now) := by
  obtain ⟨_, _, _, _, rfl⟩ := hr
  cases stage with
  | prefill =>
    simp only [Stage.start, startPrefill]
    refine (hbook _).bind fun c c' _ hc => ?_
    exact .ok ⟨_, rfl, rfl, hc, _, _, _, _, rfl⟩
  | decode =>
    simp only [Stage.start, startDecode]
    refine (hbook _).bind fun c c' _ hc => ?_
    exact .ok ⟨_, rfl, rfl, hc, _, _, _, _, rfl⟩

/-- A job is started on an idle GPU of the role in either state. -/
theorem SameLoad.start (h : s.SameLoad now t) (id : UInt64)
    (hp : s.cluster.IdleAt now stage.role p) (hp' : t.cluster.IdleAt now stage.role p') :
    Related (SameLoad now) (s.start compute config stage id p now)
      (t.start compute config stage id p' now) := by
  unfold ServingState.start
  rcases h.get_cases id with ⟨hs, ht⟩ | ⟨r, r', hs, ht, hsame⟩
  · rw [hs, ht]
    exact .ok h
  · rw [hs, ht]
    refine (Stage.start_sameButGpus hsame (fun doneNs => h.cluster.book stage.role_eq hp hp' doneNs)
      s.sim t.sim).bind ?_
    rintro ⟨_, c, r₁⟩ ⟨_, c', r₁'⟩ - ⟨doneNs, rfl, rfl, hc, hsame₁⟩
    have hscheduled := h.schedule doneNs (.done stage r.id p.1 p'.1 p.2 p'.2)
    exact .ok ((hscheduled.withCluster hc).insert hsame₁)

theorem SameLoad.startOrQueue (h : s.SameLoad now t) (stage : Stage) (id : UInt64) :
    Related (SameLoad now) (s.startOrQueue compute config stage id now)
      (t.startOrQueue compute config stage id now) := by
  unfold ServingState.startOrQueue
  refine (h.cluster.findIdleGpuFor stage.role_eq).bind fun o o' _ ho => ?_
  cases ho with
  | none =>
    rw [h.queue]
    exact .ok (h.setQueue stage _)
  | some hidle => exact h.start id hidle.1 hidle.2

theorem SameLoad.assign (h : s.SameLoad now t) (q : List UInt64) :
    Related (SameLoad now) (assign compute config stage now q s)
      (assign compute config stage now q t) := by
  induction q generalizing s t with
  | nil => exact .ok h
  | cons id rest ih =>
    rw [ServingState.assign, ServingState.assign]
    refine (h.cluster.findIdleGpuFor stage.role_eq).bind fun o o' _ ho => ?_
    cases ho with
    | none => exact .ok h
    | some hidle =>
      refine ((h.setQueue stage rest).start id ?_ ?_).bind fun _ _ _ h₁ => ih h₁
      · simpa using hidle.1
      · simpa using hidle.2

theorem SameLoad.tryAssign (h : s.SameLoad now t) (stage : Stage) :
    Related (SameLoad now) (s.tryAssign compute config stage now)
      (t.tryAssign compute config stage now) := by
  unfold ServingState.tryAssign
  rw [h.queue]
  exact h.assign _

/-- The operations keep the load the same. -/
theorem SameLoad.lockstep (now : UInt64) : Lockstep now (SameLoad now) where
  shape h := h.cluster.shape
  record {s t} h id := by
    rcases h.get_cases id with ⟨hs, ht⟩ | ⟨r, r', hs, ht, hsame⟩
    · rw [hs, ht]
      exact .none
    · rw [hs, ht]
      exact .some hsame.notes
  note {s t id r r'} h hr hr' tokens tier := by
    have hrecord := h.record id
    rw [hr, hr'] at hrecord
    cases hrecord with
    | some hsame => exact h.insert (hsame.note tokens tier)
  fetch h id doneNs := h.schedule doneNs (.fetch id)
  finish h id := h.finish id
  startOrQueue compute config s t h stage id := h.startOrQueue stage id
  tryAssign compute config s t h stage := h.tryAssign stage

/-! ## The next event -/

variable {fetching : Prop} {kind : ServingEvent} {sim : Simulator ServingEvent} {n : NodeId} {i : ℕ}

/-- A completion that finds its GPU idle. -/
theorem Operable.exists_idle (hs : Operable fetching s) (hidle : s.releasesIdle = true)
    (hstep : s.sim.step = some (now, kind, sim)) (hkind : kind.completion = some (n, i)) :
    ∃ gpu, s.cluster.gpuAt n i = some gpu ∧ gpu.busyUntilNs ≤ now := by
  obtain ⟨ev, rfl, hperm, -⟩ := Simulator.step_spec hstep
  obtain ⟨gpu, hgpu⟩ := hs.addressed ev (hperm.mem_iff.2 List.mem_cons_self) n i hkind
  simp only [releasesIdle, hstep, hkind, hgpu, Option.all_some, decide_eq_true_eq] at hidle
  exact ⟨gpu, hgpu, hidle⟩

/-- The next events are of one job, and release GPUs that are idle anyway. -/
theorem SameLoad.pops (h : s.SameLoad since t) (hbegun : s.Begun since)
    (hs : Operable fetching s) (ht : Operable fetching t) (hidle : s.releasesIdle = true)
    (hidle' : t.releasesIdle = true) : Pops SameLoad s t := by
  have hnext := h.sim.step
  generalize hstep : s.sim.step = o at hnext
  generalize hstep' : t.sim.step = o' at hnext
  cases hnext with
  | none => exact .none hstep hstep'
  | @some p p' hp =>
    obtain ⟨now, kind, sim⟩ := p
    obtain ⟨now', kind', sim'⟩ := p'
    obtain ⟨rfl, hkind, hsim⟩ := hp
    have hload : SameLoad now' { s with sim := sim } { t with sim := sim' } :=
      ⟨hsim, h.cluster.mono (hbegun.le_now hstep),
        Stage.forall_iff.2 ⟨h.queue .prefill, h.queue .decode⟩, h.results, h.record⟩
    refine .some hstep hstep' hkind (SameLoad.lockstep now') hload fun n i n' i' hc hc' => ?_
    obtain ⟨gpu, hgpu, hle⟩ := hs.exists_idle hidle hstep hc
    obtain ⟨gpu', hgpu', hle'⟩ := ht.exists_idle hidle' hstep' hc'
    exact (hload.cluster.release hgpu hle hgpu' hle').bind fun c c' _ hcc =>
      .ok (hload.withCluster hcc)

/-! ## Two runs -/

theorem SameLoad.enterAll (h : s.SameLoad since t) (l : List LlmRequest) :
    (s.enterAll l).SameLoad since (t.enterAll l) := by
  induction l generalizing s t with
  | nil => exact h
  | cons req rest ih =>
    exact ih ((h.schedule req.arrivalNs (.arrival req.requestId)).insert (.refl _))

/-- The starts of two runs on uniform clusters with the same load. -/
theorem sameLoad_start {cluster cluster' : ClusterTopology}
    (h : cluster.SameLoad since cluster') (l : List LlmRequest) :
    ((ServingState.new cluster).enterAll l).SameLoad since
      ((ServingState.new cluster').enterAll l) := by
  have hnew : (ServingState.new cluster).SameLoad since (ServingState.new cluster') :=
    ⟨⟨rfl, rfl, .nil⟩, h, Stage.forall_iff.2 ⟨rfl, rfl⟩, rfl, fun _ => .none⟩
  exact hnew.enterAll l

/-- Whenever the next event of the run from `start` is a completion, it finds its GPU busy no longer
than until now. -/
def NeverReleasesEarly {σ : Type} (step : σ → Except Panic (Option σ)) (state : σ → ServingState)
    (start : σ) : Prop :=
  ∀ s, EventLoop.Reach step start s → (state s).releasesIdle = true

variable {σ : Type} {step : σ → Except Panic (Option σ)} {state : σ → ServingState}
  {A : (ServingState → ServingState → Prop) → σ → σ → Prop} {r r' : σ}

theorem ServingLoop.operable (hloop : ServingLoop fetching step state)
    (hr : Operable fetching (state r)) {s : σ} (h : EventLoop.Reach step r s) :
    Operable fetching (state s) :=
  h.invariant (I := fun s => Operable fetching (state s))
    (fun a b ha hstep => (hloop.advance a b hstep).operable ha) hr

/-- Runs from starts with the same load have the same results, if neither releases a GPU in the
middle of a job. The load of the two is the same from the last event on. -/
theorem LockstepLoop.results_of_sameLoad (hA : LockstepLoop since step state A)
    (hloop : ServingLoop fetching step state) (h : A (SameLoad since) r r')
    (hbegun : (state r).Begun since) (hr : Operable fetching (state r))
    (hr' : Operable fetching (state r')) (hidle : NeverReleasesEarly step state r)
    (hidle' : NeverReleasesEarly step state r') (n : ℕ) :
    Related (fun s t => (state t).results = (state s).results) (EventLoop.run step n r)
      (EventLoop.run step n r') := by
  have hrun : Related (fun s t => ∃ last, (state s).Begun last ∧ A (SameLoad last) s t)
      (EventLoop.run step n r) (EventLoop.run step n r') := by
    refine EventLoop.run_related ?_ ⟨since, hbegun, h⟩
    rintro s t hs ht ⟨last, hlast, hst⟩
    have hpops := (hA.related hst).pops hlast (hloop.operable hr hs) (hloop.operable hr' ht)
      (hidle s hs) (hidle' t ht)
    refine EventLoop.related_step (hA.step hst hpops (hloop.begun hbegun hs)) ?_
    rintro s' t' hstep - ⟨now, kind, sim, hnext, hst'⟩
    exact ⟨now, (hloop.advance s s' hstep).begun (begun_next hnext), hst'⟩
  refine hrun.imp fun s t hst => ?_
  obtain ⟨last, -, hst⟩ := hst
  exact (hA.related hst).results

end ServingState

end KvFlowSim
