import KvFlowSim.Foundations.Backlog
import KvFlowSim.Cluster.Pool
import KvFlowSim.Serving.AnyTrace
import KvFlowSim.Serving.Timeline

/-!
# Work and waiting in the records

A record shows of a request which stages it has started, when these end and from when on it waited
for them. The time of the jobs that the records and the results show is the work that the GPUs have
been given (`ServingState.workNs`). A record is `Bounded` if the waiting that it shows for a stage,
once for every GPU, comes with its own job to no more than a given amount.
-/

namespace KvFlowSim

open Pool ServingState

/-! ## The pool of a role -/

namespace ClusterTopology

variable {c c' : ClusterTopology} {n : NodeId} {i : ℕ} {t : UInt64} {role : WorkerRole}
  {gpu : GpuResource}

/-- The busy times of the GPUs that serve a role, as numbers. -/
def busyTimes (c : ClusterTopology) (role : WorkerRole) : Multiset ℕ :=
  (c.pool role).map UInt64.toNat

/-- Some GPU of the role of `stage` also serves that of `other`. -/
def shares (c : ClusterTopology) (stage other : Stage) : Bool :=
  c.gpus.any fun gpu => gpu.serves stage.role && gpu.serves other.role

/-- A write to a GPU of the role replaces its busy time. -/
theorem busyTimes_setBusyUntil (hset : c.setBusyUntil n i t = .ok c')
    (hgpu : c.gpuAt n i = some gpu) (hrole : gpu.serves role = true) :
    ∃ rest, c.busyTimes role = gpu.busyUntilNs.toNat ::ₘ rest ∧
      c'.busyTimes role = t.toNat ::ₘ rest := by
  obtain ⟨rest, hold, hnew⟩ := pool_eq_cons hset hgpu hrole
  refine ⟨rest.map UInt64.toNat, ?_, ?_⟩
  · rw [busyTimes, hold, Multiset.map_cons]
  · rw [busyTimes, hnew, Multiset.map_cons]

theorem busyTimes_setBusyUntil_of_not (hset : c.setBusyUntil n i t = .ok c')
    (hgpu : c.gpuAt n i = some gpu) (hrole : gpu.serves role = false) :
    c'.busyTimes role = c.busyTimes role := by
  rw [busyTimes, pool_setBusyUntil hset hgpu hrole, busyTimes]

theorem card_busyTimes_setBusyUntil (hset : c.setBusyUntil n i t = .ok c')
    (hgpu : c.gpuAt n i = some gpu) : (c'.busyTimes role).card = (c.busyTimes role).card := by
  cases hrole : gpu.serves role with
  | true =>
    obtain ⟨rest, hold, hnew⟩ := busyTimes_setBusyUntil hset hgpu hrole
    rw [hold, hnew, Multiset.card_cons, Multiset.card_cons]
  | false => rw [busyTimes_setBusyUntil_of_not hset hgpu hrole]

/-- A write changes no role. -/
theorem shares_setBusyUntil (hset : c.setBusyUntil n i t = .ok c') (hgpu : c.gpuAt n i = some gpu)
    (stage other : Stage) : c'.shares stage other = c.shares stage other := by
  obtain ⟨pre, post, hpre, hpost⟩ := gpus_setBusyUntil hset hgpu
  simp only [shares, hpre, hpost, List.any_append, List.any_cons, GpuResource.serves_setBusyUntil]

theorem shares_of_serves (hgpu : c.gpuAt n i = some gpu) {stage other : Stage}
    (hstage : gpu.serves stage.role = true) (hother : gpu.serves other.role = true) :
    c.shares stage other = true := by
  rw [shares, List.any_eq_true]
  exact ⟨gpu, mem_gpus_of_gpuAt hgpu, by rw [hstage, hother]; rfl⟩

end ClusterTopology

/-! ## The time of a job -/

namespace RequestResult

def startNs (y : RequestResult) : Stage → UInt64
  | .prefill => y.prefillStartNs
  | .decode => y.decodeStartNs

def doneNs (y : RequestResult) : Stage → UInt64
  | .prefill => y.prefillDoneNs
  | .decode => y.finishNs

/-- The time that a stage of the request has taken. -/
def spentNs (y : RequestResult) (stage : Stage) : ℕ :=
  (y.doneNs stage).toNat - (y.startNs stage).toNat

/-- The time of the stages that count. -/
def workNs (counts : Stage → Bool) (y : RequestResult) : ℕ :=
  (if counts .prefill then y.spentNs .prefill else 0) + if counts .decode then y.spentNs
  .decode else 0

end RequestResult

namespace InFlightRequest

def startedNs (r : InFlightRequest) : Stage → Option UInt64
  | .prefill => r.prefillStartNs
  | .decode => r.decodeStartNs

def endsNs (r : InFlightRequest) : Stage → Option UInt64
  | .prefill => r.prefillDoneNs
  | .decode => r.finishNs

theorem startNs_intoResult (r : InFlightRequest) (stage : Stage) :
    r.intoResult.startNs stage = (r.startedNs stage).getD r.request.arrivalNs := by
  cases stage <;> rfl

theorem doneNs_intoResult (r : InFlightRequest) (stage : Stage) :
    r.intoResult.doneNs stage = (r.endsNs stage).getD r.request.arrivalNs := by
  cases stage <;> rfl

/-- No stage of that weight or less has been started. -/
def Unbegun (r : InFlightRequest) (weight : ℕ) : Prop :=
  ∀ stage : Stage, stage.weight ≤ weight → r.startedNs stage = none ∧ r.endsNs stage = none

/-- `r'` is the record `r` after the stage was started. -/
structure Begun (r : InFlightRequest) (stage : Stage) (now done : UInt64) (r' : InFlightRequest) :
    Prop where
  request : r'.request = r.request
  startedNs : ∀ other, r'.startedNs other = if other = stage then some now else r.startedNs other
  endsNs : ∀ other, r'.endsNs other = if other = stage then some done else r.endsNs other

variable {r r' : InFlightRequest} {stage other : Stage} {now done : UInt64}

theorem Begun.spentNs_self (h : r.Begun stage now done r') :
    r'.intoResult.spentNs stage = done.toNat - now.toNat := by
  rw [RequestResult.spentNs, startNs_intoResult, doneNs_intoResult, h.startedNs,
    h.endsNs, if_pos rfl, if_pos rfl, Option.getD_some, Option.getD_some]

theorem Begun.spentNs_ne (h : r.Begun stage now done r') (hne : other ≠ stage) :
    r'.intoResult.spentNs other = r.intoResult.spentNs other := by
  rw [RequestResult.spentNs, startNs_intoResult, doneNs_intoResult, h.startedNs,
    h.endsNs, if_neg hne, if_neg hne, h.request, RequestResult.spentNs, startNs_intoResult,
    doneNs_intoResult]

theorem Unbegun.spentNs (h : r.Unbegun stage.weight) : r.intoResult.spentNs stage = 0 := by
  obtain ⟨hstart, hdone⟩ := h stage le_rfl
  rw [RequestResult.spentNs, startNs_intoResult, doneNs_intoResult, hstart, hdone, Nat.sub_self]

/-- The job that is started adds its time. -/
theorem Begun.workNs (h : r.Begun stage now done r') (hr : r.Unbegun stage.weight)
    (counts : Stage → Bool) : r'.intoResult.workNs counts =
      r.intoResult.workNs counts + if counts stage then done.toNat - now.toNat else 0 := by
  have hself := h.spentNs_self
  have hzero := hr.spentNs
  cases stage with
  | prefill =>
    have hne := h.spentNs_ne (show Stage.decode ≠ .prefill by decide)
    simp only [RequestResult.workNs, hself, hzero, hne]
    split_ifs <;> omega
  | decode =>
    have hne := h.spentNs_ne (show Stage.prefill ≠ .decode by decide)
    simp only [RequestResult.workNs, hself, hzero, hne]
    split_ifs <;> omega

end InFlightRequest

namespace ServingState

/-- The time of all jobs that have been started, of the stages that count. -/
def workNs (counts : Stage → Bool) (s : ServingState) : ℕ :=
  s.inFlight.sumBy (fun r => r.intoResult.workNs counts) +
    (s.results.map (RequestResult.workNs counts)).sum

end ServingState

/-! ## Records and waiting requests -/

/-- The record of a request at a place shows the stage that is under way there, with the time of its
end, and none of the stages that are to come. -/
def Site.Shows (r : InFlightRequest) : Site → Prop
  | .queue stage => r.Unbegun stage.weight
  | .event ev => r.Unbegun (ev.kind.weight - 1) ∧ ∀ (stage : Stage) (id : UInt64)
    (n : NodeId) (i : ℕ),
      ev.kind = stage.doneEvent id n i → (r.startedNs stage).isSome ∧
      r.endsNs stage = some ev.timeNs

namespace InFlightRequest

/-- The time at which the request is ready for a stage. `ready` says it of what precedes
its prefill. -/
def ReadyAt (ready : LlmRequest → UInt64 → Prop) (r : InFlightRequest) : Stage → UInt64 → Prop
  | .prefill, t => ready r.request t
  | .decode, t => match r.prefillDoneNs with
    | some done => t = done
    | none => ready r.request t

/-- A job that the record shows for the stage has been waited for while others were served: with its
own time, no more than `given` for all of the `gpus`. -/
structure Bounded (ready : LlmRequest → UInt64 → Prop) (stage : Stage) (gpus given : ℕ)
    (r : InFlightRequest) : Prop where
  paired : ∀ other, r.startedNs other = none → r.endsNs other = none
  waited : ∀ start, r.startedNs stage = some start → ∃ t, r.ReadyAt ready stage t ∧ t ≤ start ∧
    gpus * (start.toNat - t.toNat) + r.intoResult.spentNs stage ≤ given

variable {ready ready' : LlmRequest → UInt64 → Prop} {stage other : Stage} {gpus given given' : ℕ}
  {r r' : InFlightRequest} {t now done : UInt64}

theorem ReadyAt.mono (h : r.ReadyAt ready stage t) (hready : ∀ q t, ready q t → ready' q t) :
    r.ReadyAt ready' stage t := by
  cases stage with
  | prefill => exact hready _ _ h
  | decode =>
    unfold ReadyAt at h ⊢
    cases hdone : r.prefillDoneNs with
    | some done => simpa only [hdone] using h
    | none =>
      simp only [hdone] at h ⊢
      exact hready _ _ h

theorem Bounded.mono (h : r.Bounded ready stage gpus given) (hready : ∀ q t, ready q t → ready' q t)
    (hle : given ≤ given') : r.Bounded ready' stage gpus given' :=
  ⟨h.paired, fun start hstart =>
    (h.waited start hstart).imp fun _ ht => ⟨ht.1.mono hready, ht.2.1, ht.2.2.trans hle⟩⟩

/-- A stage that is started does not matter to when the request was ready for it or an
earlier one. -/
theorem Begun.readyAt (h : r.Begun stage now done r') (hother : stage.weight ≤ other.weight) :
    r'.ReadyAt ready other t ↔ r.ReadyAt ready other t := by
  cases other with
  | prefill => rw [ReadyAt, ReadyAt, h.request]
  | decode =>
    have hstage : stage = .decode := by
      cases stage with
      | prefill => exact absurd hother (by decide)
      | decode => rfl
    have hdone : r'.prefillDoneNs = r.prefillDoneNs := by
      have hends := h.endsNs .prefill
      rwa [if_neg (by rw [hstage]; decide)] at hends
    rw [ReadyAt, ReadyAt, hdone, h.request]

/-- The stage is started after its waiting was paid for. -/
theorem Begun.bounded (h : r.Begun stage now done r') (hr : r.Bounded ready stage gpus given)
    (ht : r.ReadyAt ready stage t) (hle : t ≤ now)
    (hpaid : gpus * (now.toNat - t.toNat) + (done.toNat - now.toNat) ≤ given) :
    r'.Bounded ready stage gpus given where
  paired other hnone := by
    rw [h.startedNs] at hnone
    rw [h.endsNs]
    split_ifs at hnone ⊢
    exact hr.paired other hnone
  waited start hstart := by
    rw [h.startedNs, if_pos rfl] at hstart
    obtain rfl := Option.some.inj hstart
    exact ⟨t, (h.readyAt le_rfl).2 ht, hle, by rw [h.spentNs_self]; exact hpaid⟩

/-- Another stage is started. -/
theorem Begun.bounded_other (h : r.Begun other now done r') (hne : other ≠ stage)
    (hr : r.Bounded ready stage gpus given) (hunbegun : r.Unbegun other.weight) :
    r'.Bounded ready stage gpus given where
  paired stage' hnone := by
    rw [h.startedNs] at hnone
    rw [h.endsNs]
    split_ifs at hnone ⊢
    exact hr.paired stage' hnone
  waited start hstart := by
    rw [h.startedNs, if_neg (Ne.symm hne)] at hstart
    by_cases hle : stage.weight ≤ other.weight
    · -- a later stage has not been started before an earlier one
      rw [(hunbegun stage hle).1] at hstart
      cases hstart
    · rw [h.spentNs_ne (Ne.symm hne)]
      obtain ⟨t, ht, hwaited⟩ := hr.waited start hstart
      exact ⟨t, (h.readyAt (Nat.le_of_not_le hle)).2 ht, hwaited⟩

/-- While the stage is under way the record shows it. -/
theorem Begun.shows (h : r.Begun stage now done r') (hr : r.Unbegun stage.weight)
    {ev : Event ServingEvent} {n : NodeId} {i : ℕ} {id : UInt64}
    (hkind : ev.kind = stage.doneEvent id n i) (htime : ev.timeNs = done) :
    (Site.event ev).Shows r' := by
  have hpos : 0 < stage.weight := by cases stage <;> decide
  refine ⟨fun other hle => ?_, fun other id' n' i' hother => ?_⟩
  · rw [hkind, Stage.weight_doneEvent] at hle
    have hne : other ≠ stage := by
      rintro rfl
      omega
    rw [h.startedNs, h.endsNs, if_neg hne, if_neg hne]
    exact hr other (by omega)
  · have hsame : other = stage := by
      have hdone := hother.symm.trans hkind
      cases other <;> cases stage <;> first | rfl | cases hdone
    rw [h.startedNs, h.endsNs, if_pos hsame, if_pos hsame, htime]
    exact ⟨rfl, rfl⟩

/-- Two records of one request that show the same times. -/
structure SameTimes (r r' : InFlightRequest) : Prop where
  request : r'.request = r.request
  startedNs : r'.startedNs = r.startedNs
  endsNs : r'.endsNs = r.endsNs

theorem SameTimes.spentNs (h : r.SameTimes r') (stage : Stage) :
    r'.intoResult.spentNs stage = r.intoResult.spentNs stage := by
  simp only [RequestResult.spentNs, startNs_intoResult, doneNs_intoResult, h.request, h.startedNs,
    h.endsNs]

theorem SameTimes.workNs (h : r.SameTimes r') (counts : Stage → Bool) :
    r'.intoResult.workNs counts = r.intoResult.workNs counts := by
  simp only [RequestResult.workNs, h.spentNs]

theorem SameTimes.readyAt (h : r.SameTimes r') :
    r'.ReadyAt ready stage t ↔ r.ReadyAt ready stage t := by
  have hdone : r'.prefillDoneNs = r.prefillDoneNs := congrFun h.endsNs .prefill
  cases stage <;> simp only [ReadyAt, h.request, hdone]

theorem SameTimes.bounded (h : r.SameTimes r') (hr : r.Bounded ready stage gpus given) :
    r'.Bounded ready stage gpus given where
  paired other hnone := by
    rw [h.startedNs] at hnone
    rw [h.endsNs]
    exact hr.paired other hnone
  waited start hstart := by
    rw [h.startedNs] at hstart
    rw [h.spentNs]
    exact (hr.waited start hstart).imp fun _ ht => ⟨h.readyAt.2 ht.1, ht.2⟩

end InFlightRequest

/-- The result shows the record of a request that has been decoded, with the waiting for
the stage. -/
def RequestResult.Settled (ready : LlmRequest → UInt64 → Prop) (stage : Stage) (gpus given : ℕ)
    (y : RequestResult) : Prop :=
  ∃ r : InFlightRequest, y = r.intoResult ∧ (r.startedNs .decode).isSome ∧
    r.Bounded ready stage gpus given

theorem RequestResult.Settled.mono {ready ready' : LlmRequest → UInt64 → Prop} {stage : Stage}
    {gpus given given' : ℕ} {y : RequestResult} (h : y.Settled ready stage gpus given)
    (hready : ∀ q t, ready q t → ready' q t) (hle : given ≤ given') :
    y.Settled ready' stage gpus given' :=
  h.imp fun _ hr => ⟨hr.1, hr.2.1, hr.2.2.mono hready hle⟩

end KvFlowSim
