import KvFlowSim.Serving.Effects
import KvFlowSim.Serving.HitPartition

/-!
# What happened so far

A run of the cache-aware runner with a memory: `Past` collects the events of a run with the states
before and after each of them, and `Session` those of all runs that a runner has been through. What
a claim says about the past of a request or of a cached object is said of this list: which KV an
arrival found (`Happening.found`), which one a prefill left behind (`Happening.stored`) and which
counter grew (`Happening.credits`). What an event does to the cache is said in these terms,
too (`CacheChange`).
-/

namespace KvFlowSim

open ServingState CacheState

/-- An event, with the states between which it was handled. -/
structure Happening (C P T : Type) where
  before : CacheAwareRunner C P T
  nowNs : UInt64
  event : ServingEvent
  after : CacheAwareRunner C P T

namespace Happening

variable {C P T : Type} (h : Happening C P T)

/-- The record of the request that the event is about. -/
def inflight : Option InFlightRequest := h.before.inFlight.get h.event.requestId

/-- The request that the event is about, if it is in flight. -/
def request : Option LlmRequest := h.inflight.map (·.request)

/-- The KV that an arrival finds in the cache. -/
def found : Option KvObject :=
  match h.event with
  | .requestArrival id => (h.before.inFlight.get id).bind h.before.reusableKv
  | _ => none

/-- The KV that a completed prefill leaves in the cache, unless its placement fails. -/
def stored : Option KvObject :=
  match h.event with
  | .prefillDone id _ _ =>
    match h.before.inFlight.get id with
    | none => none
    | some inflight =>
      if 0 < inflight.request.promptTokens ∧
          h.after.hits.placementErrors = h.before.hits.placementErrors then
        h.after.cache.objects.get h.before.cache.nextKvId
      else none
  | _ => none

/-- The event counts its request. -/
def credits (c : Counter) : Prop := h.before.hits.count c < h.after.hits.count c

instance (c : Counter) : Decidable (h.credits c) := inferInstanceAs (Decidable (_ < _))

/-- What the event does to the cache. -/
inductive CacheChange (e : Happening C P T) : Prop
  | same (hcache : e.after.cache = e.before.cache) (hstored : e.stored = none)
      (hfound : e.found = none ∨ ¬e.credits .hitsGpu)
  /-- The KV that has been found is on a GPU. -/
  | touched {kv : KvObject} (hget : e.before.cache.objects.get kv.kvId = some kv)
      (hstored : e.stored = none) (hfound : e.found = some kv) (hcredits : e.credits .hitsGpu)
      (hcache : e.after.cache = e.before.cache.updateAccess kv.kvId e.nowNs)
  /-- The victims make room, and the KV of a request is stored. -/
  | placed {q : LlmRequest} {ev : List EvictedKv} {obj : KvObject} {loc : CacheLocation}
      (hevent : ∃ n i, e.event = .prefillDone q.requestId n i) (hrequest : e.request = some q)
      (hpos : 0 < q.promptTokens) (hvictims : Victims e.before.cache.allocKvId.2 ev)
      (hobj : obj = newObject e.before.cache.nextKvId q.sessionId q.promptTokens
        (e.before.profile.kvBytes q.promptTokens) e.nowNs loc)
      (hstored : e.stored = some obj) (hfound : e.found = none)
      (hcache : e.after.cache = (e.before.cache.allocKvId.2.removeAll ev).store obj)
  /-- There are victims, but nothing is stored. -/
  | failed {ev : List EvictedKv} (hvictims : Victims e.before.cache.allocKvId.2 ev)
      (hstored : e.stored = none) (hfound : e.found = none)
      (hcache : e.after.cache = e.before.cache.allocKvId.2.removeAll ev)

variable {h}

/-- What a completed prefill leaves behind is the KV of its request. -/
theorem CacheChange.stored_spec (hchange : h.CacheChange) {o : KvObject} (ho : h.stored = some o) :
    ∃ q loc, (∃ n i, h.event = .prefillDone q.requestId n i) ∧ h.request = some q ∧
      0 < q.promptTokens ∧ o = newObject h.before.cache.nextKvId q.sessionId q.promptTokens
        (h.before.profile.kvBytes q.promptTokens) h.nowNs loc := by
  cases hchange with
  | same _ hnone => exact absurd (hnone.symm.trans ho) (Option.some_ne_none o).symm
  | touched _ hnone => exact absurd (hnone.symm.trans ho) (Option.some_ne_none o).symm
  | failed _ hnone => exact absurd (hnone.symm.trans ho) (Option.some_ne_none o).symm
  | @placed q ev obj loc hevent hrequest hpos _ hobj hstored =>
    obtain rfl := Option.some.inj (hstored.symm.trans ho)
    exact ⟨q, loc, hevent, hrequest, hpos, hobj⟩

/-- An object of the cache has just been stored or used, or it was there before. -/
theorem CacheChange.object (hchange : h.CacheChange) {k : KvId} {o' : KvObject}
    (ho' : h.after.cache.objects.get k = some o') :
    h.stored = some o' ∨
      (∃ o, h.before.cache.objects.get k = some o ∧ h.found = some o ∧ h.credits .hitsGpu ∧
        o' = { o with lastAccessNs := h.nowNs }) ∨
      (h.before.cache.objects.get k = some o' ∧ (∀ o, h.stored = some o → o.kvId ≠ k) ∧
        ∀ o, h.found = some o → h.credits .hitsGpu → o.kvId ≠ k) := by
  have hkept : ∀ ev : List EvictedKv,
      (h.before.cache.allocKvId.2.removeAll ev).objects.get k = some o' →
      h.before.cache.objects.get k = some o' := by
    intro ev hget
    rw [get_removeAll] at hget
    split_ifs at hget
    exact hget
  cases hchange with
  | same hcache hstored hfound =>
    refine .inr (.inr ⟨hcache ▸ ho', fun o ho => ?_, fun o ho hcredits => ?_⟩)
    · exact absurd (hstored.symm.trans ho) (Option.some_ne_none o).symm
    · rcases hfound with hfound | hnot
      · exact absurd (hfound.symm.trans ho) (Option.some_ne_none o).symm
      · exact absurd hcredits hnot
  | @touched kv hget hstored hfound hcredits hcache =>
    rw [hcache, get_updateAccess hget] at ho'
    split_ifs at ho' with hk
    · exact .inr (.inl ⟨kv, hk ▸ hget, hfound, hcredits, (Option.some.inj ho').symm⟩)
    · refine .inr (.inr ⟨ho', fun o ho => ?_, fun o ho _ => ?_⟩)
      · exact absurd (hstored.symm.trans ho) (Option.some_ne_none o).symm
      · obtain rfl := Option.some.inj (hfound.symm.trans ho)
        exact Ne.symm hk
  | @placed q ev obj loc _ _ _ _ hobj hstored hfound hcache =>
    have hid : obj.kvId = h.before.cache.nextKvId := by rw [hobj]; rfl
    rw [hcache, get_store] at ho'
    split_ifs at ho' with hk
    · exact .inl (hstored.trans ho')
    · refine .inr (.inr ⟨hkept ev ho', fun o ho => ?_, fun o ho _ => ?_⟩)
      · obtain rfl := Option.some.inj (hstored.symm.trans ho)
        exact Ne.symm hk
      · exact absurd (hfound.symm.trans ho) (Option.some_ne_none o).symm
  | @failed ev _ hstored hfound hcache =>
    refine .inr (.inr ⟨hkept ev (hcache ▸ ho'), fun o ho => ?_, fun o ho _ => ?_⟩)
    · exact absurd (hstored.symm.trans ho) (Option.some_ne_none o).symm
    · exact absurd (hfound.symm.trans ho) (Option.some_ne_none o).symm

end Happening

namespace CacheAwareRunner

variable {C P T : Type}

/-- A look-up finds an object of the cache. -/
theorem get_of_reusableKv {r : CacheAwareRunner C P T} {inflight : InFlightRequest} {kv : KvObject}
    (h : r.reusableKv inflight = some kv) : r.cache.objects.get kv.kvId = some kv := by
  simp only [reusableKv] at h
  split_ifs at h
  obtain ⟨k, -, hget⟩ := Option.bind_eq_some_iff.1 h
  rwa [KeyedMap.key_of_get hget]

/-- An event without a record neither finds nor stores anything. -/
theorem found_stored_of_absent {r r' : CacheAwareRunner C P T} {now : UInt64} {event : ServingEvent}
    (hnone : r.inFlight.get event.requestId = none) :
    (Happening.mk r now event r').found = none ∧ (Happening.mk r now event r').stored = none := by
  cases event with
  | requestArrival id =>
    have hin : r.inFlight.get id = none := hnone
    simp only [Happening.found, Happening.stored, hin, Option.bind_none, and_self]
  | prefillDone id n i =>
    have hin : r.inFlight.get id = none := hnone
    simp only [Happening.found, Happening.stored, hin, and_self]
  | fetchDone | decodeDone => exact ⟨rfl, rfl⟩

variable [ComputeModel C] [PlacementPolicy P] [TransferModel T]

/-- What a step does to the cache. -/
theorem step_cacheChange [Placing P] {r r' : CacheAwareRunner C P T} {now : UInt64}
    {event : ServingEvent} {sim : Simulator ServingEvent}
    (hnext : r.sim.step = some (now, event, sim)) (hstep : EventLoop.Step step r r') :
    (Happening.mk r now event r').CacheChange := by
  have hnot : r'.hits.hitsGpu = r.hits.hitsGpu → ¬(Happening.mk r now event r').credits .hitsGpu :=
    fun h hlt => absurd h (Nat.ne_of_gt hlt)
  cases step_cases hnext hstep with
  | absent hnone _ hrest =>
    have hneither : (Happening.mk r now event r').found = none ∧
        (Happening.mk r now event r').stored = none := found_stored_of_absent hnone
    exact .same (congrArg Rest.cache hrest) hneither.2 (.inl hneither.1)
  | @arrived inflight hin h =>
    have hin' : r.inFlight.get inflight.id = some inflight := hin
    cases h with
    | missed _ _ hrest =>
      exact .same (congrArg Rest.cache hrest) rfl (.inr (hnot (congrArg (·.hits.hitsGpu) hrest)))
    | fetching _ _ _ _ _ _ hrest =>
      exact .same (congrArg Rest.cache hrest) rfl (.inr (hnot (congrArg (·.hits.hitsGpu) hrest)))
    | degraded _ _ _ _ hrest =>
      exact .same (congrArg Rest.cache hrest) rfl (.inr (hnot (congrArg (·.hits.hitsGpu) hrest)))
    | @hit kv hfound _ _ hrest =>
      have hhits : r'.hits.hitsGpu = r.hits.hitsGpu + 1 := congrArg (fun x => x.hits.hitsGpu) hrest
      have hfound' : (Happening.mk r now (.requestArrival inflight.id) r').found = some kv := by
        simp only [Happening.found, hin', Option.bind_some]
        exact hfound
      refine .touched (get_of_reusableKv hfound) rfl hfound' ?_ (congrArg Rest.cache hrest)
      show r.hits.hitsGpu < r'.hits.hitsGpu
      omega
  | fetched _ _ _ hrest => exact .same (congrArg Rest.cache hrest) rfl (.inl rfl)
  | decoded _ _ _ hrest => exact .same (congrArg Rest.cache hrest) rfl (.inl rfl)
  | @prefilled inflight n i s₁ _ hin hrelease _ _ hrest =>
    have hin' : r.inFlight.get inflight.id = some inflight := hin
    have hin₁ : s₁.inFlight.get inflight.id = some inflight := by
      rw [inFlight_releaseGpu hrelease, hin]
    have hstore : StoreEffect now inflight.request r.rest r'.rest := by
      rw [hrest]
      exact storeKv_effect (r := { r with toServingState := s₁ }) hin₁
    cases hstore with
    | skipped hzero hrest =>
      refine .same (congrArg Rest.cache hrest) ?_ (.inl rfl)
      simp [Happening.stored, hin', hzero]
    | @stored ev loc _ _ hpos hvictims _ _ hrest =>
      have hcache : r'.cache = (r.cache.allocKvId.2.removeAll ev).store (newObject r.cache.nextKvId
        inflight.request.sessionId inflight.request.promptTokens
        (r.profile.kvBytes inflight.request.promptTokens) now loc) := congrArg Rest.cache hrest
      have herrors : r'.hits.placementErrors = r.hits.placementErrors :=
        congrArg (fun x => x.hits.placementErrors) hrest
      refine .placed ⟨n, i, rfl⟩ ?_ hpos hvictims rfl ?_ rfl hcache
      · simp only [Happening.request, Happening.inflight, ServingEvent.requestId, hin',
          Option.map_some]
      · simp only [Happening.stored, hin', hpos, herrors, and_self, if_true]
        rw [hcache, get_store]
        exact if_pos rfl
    | @failed ev _ hvictims hrest =>
      have herrors : r'.hits.placementErrors = r.hits.placementErrors + 1 :=
        congrArg (fun x => x.hits.placementErrors) hrest
      refine .failed hvictims ?_ rfl (congrArg Rest.cache hrest)
      simp [Happening.stored, hin', herrors]

/-- The states of a run, with the events handled so far. -/
inductive Past (start : CacheAwareRunner C P T) :
    List (Happening C P T) → CacheAwareRunner C P T → Prop
  | nil : Past start [] start
  | step {past : List (Happening C P T)} {r r' : CacheAwareRunner C P T} {now : UInt64}
      {event : ServingEvent} {sim : Simulator ServingEvent} (h : Past start past r)
      (hnext : r.sim.step = some (now, event, sim)) (hstep : EventLoop.Step step r r') :
      Past start (past ++ [⟨r, now, event, r'⟩]) r'

/-- A run of at most `n` events. -/
def replay (start : CacheAwareRunner C P T) : ℕ → List (Happening C P T) × CacheAwareRunner C P T
  | 0 => ([], start)
  | n + 1 =>
    let done := replay start n
    match done.2.sim.step, done.2.step with
    | some (now, event, _), .ok (some r') => (done.1 ++ [⟨done.2, now, event, r'⟩], r')
    | _, _ => done

theorem past_replay (start : CacheAwareRunner C P T) (n : ℕ) :
    Past start (start.replay n).1 (start.replay n).2 := by
  induction n with
  | zero => exact .nil
  | succ n ih =>
    dsimp only [replay]
    split
    next hnext hstep => exact ih.step hnext hstep
    next => exact ih

theorem replay_of_step {start r r' : CacheAwareRunner C P T} {n : ℕ} {now : UInt64}
    {event : ServingEvent} {sim : Simulator ServingEvent} (h : (start.replay n).2 = r)
    (hnext : r.sim.step = some (now, event, sim)) (hstep : EventLoop.Step step r r') :
    start.replay (n + 1) = ((start.replay n).1 ++ [⟨r, now, event, r'⟩], r') := by
  have hstep : r.step = .ok (some r') := hstep
  simp only [replay, h, hnext, hstep]

theorem replay_of_stop {start r : CacheAwareRunner C P T} {n : ℕ} (h : (start.replay n).2 = r)
    (hstop : r.step = .ok none) : start.replay (n + 1) = start.replay n := by
  rw [replay, h, hstop]
  cases r.sim.step <;> rfl

/-- A run of the event loop that does not panic is computed. -/
theorem replay_of_run {start s : CacheAwareRunner C P T} {n : ℕ}
    (h : EventLoop.run step n start = .ok s) : (start.replay n).2 = s := by
  induction n generalizing s with
  | zero => exact Except.ok.inj h
  | succ n ih =>
    obtain ⟨s₁, hs₁, ⟨hstop, rfl⟩ | hstep⟩ := EventLoop.run_succ_eq_ok.1 h
    · rw [replay_of_stop (ih hs₁) hstop]
      exact ih hs₁
    · obtain ⟨now, event, sim, hnext, -⟩ := step_advance hstep
      rw [replay_of_step (ih hs₁) hnext hstep]

/-- The last event of a run that is computed. -/
theorem exists_last_of_replay {start : CacheAwareRunner C P T} {n : ℕ} {p : Happening C P T → Bool}
    (h : (start.replay n).1.getLast?.any p = true) :
    ∃ past e, (start.replay n).1 = past ++ [e] ∧ Past start (past ++ [e]) (start.replay n).2 ∧
      p e = true := by
  obtain ⟨e, he, hp⟩ := (Option.any_eq_true _ _).1 h
  obtain ⟨past, hpast⟩ := List.getLast?_eq_some_iff.1 he
  exact ⟨past, e, hpast, hpast ▸ past_replay start n, hp⟩

/-- The runner after its results have been handed out. -/
def delivered (r : CacheAwareRunner C P T) : CacheAwareRunner C P T :=
  { r with toServingState := r.takeResults.2 }

/-- The states of a runner between two runs, with the events of all runs so far. -/
inductive Session (fresh : CacheAwareRunner C P T) :
    List (Happening C P T) → CacheAwareRunner C P T → Prop
  | fresh : Session fresh [] fresh
  | run {earlier current : List (Happening C P T)} {r s : CacheAwareRunner C P T}
      {requests : List LlmRequest} (h : Session fresh earlier r)
      (hpast : Past (r.start requests) current s) (hend : s.sim.pending = []) :
      Session fresh (earlier ++ current) s.delivered

variable {fresh start r r' s : CacheAwareRunner C P T} {past earlier : List (Happening C P T)}
  {requests : List LlmRequest} {e : Happening C P T}

/-- The last event of a run. -/
theorem Past.last (hpast : Past start (past ++ [e]) s) :
    Past start past e.before ∧ s = e.after ∧ EventLoop.Step CacheAwareRunner.step e.before e.after ∧
      ∃ sim, e.before.sim.step = some (e.nowNs, e.event, sim) := by
  generalize hl : past ++ [e] = l at hpast
  cases hpast with
  | nil => simp at hl
  | step hinit hnext hstep =>
    obtain ⟨rfl, rfl⟩ := List.concat_inj.1 (by simpa using hl)
    exact ⟨hinit, rfl, hstep, _, hnext⟩

/-- Every event of the past has been handled. -/
theorem Past.of_mem (hpast : Past start past s) (he : e ∈ past) :
    ∃ earlier sim, Past start earlier e.before ∧
      e.before.sim.step = some (e.nowNs, e.event, sim) ∧
      EventLoop.Step CacheAwareRunner.step e.before e.after := by
  induction hpast with
  | nil => exact absurd he List.not_mem_nil
  | step hpast hnext hstep ih =>
    rcases List.mem_append.1 he with he | he
    · exact ih he
    · obtain rfl := List.mem_singleton.1 he
      exact ⟨_, _, hpast, hnext, hstep⟩

/-- Every state of a run has a past. -/
theorem exists_past (h : EventLoop.Reach step start r) : ∃ past, Past start past r := by
  induction h with
  | refl => exact ⟨[], .nil⟩
  | tail _ hstep ih =>
    obtain ⟨past, hpast⟩ := ih
    obtain ⟨now, event, sim, hnext, -⟩ := step_advance hstep
    exact ⟨_, hpast.step hnext hstep⟩

theorem Past.reach (h : Past start past r) : EventLoop.Reach CacheAwareRunner.step start r := by
  induction h with
  | nil => exact .refl
  | step _ _ hstep ih => exact ih.tail hstep

/-- What `run` returns comes from the end of a run with a past. -/
theorem exists_past_of_run {results : List RequestResult} (h : r.run requests = .ok (results, r')) :
    ∃ past s, Past (r.start requests) past s ∧ s.sim.pending = [] ∧ r' = s.delivered ∧
      results = s.results.sortByKey RequestResult.arrivalKey := by
  obtain ⟨s, hs, hend, hresults, -⟩ := run_spec h
  obtain ⟨past, hpast⟩ := exists_past (EventLoop.run_reach hs)
  refine ⟨past, s, hpast, hend, ?_, hresults⟩
  rw [run, hs] at h
  exact (Prod.mk.inj (Except.ok.inj h)).2.symm

/-- Runs make a session. -/
theorem Session.of_run {results : List RequestResult} (h : Session fresh earlier r)
    (hrun : r.run requests = .ok (results, r')) :
    ∃ current, Session fresh (earlier ++ current) r' := by
  obtain ⟨past, s, hpast, hend, rfl, -⟩ := exists_past_of_run hrun
  exact ⟨past, h.run hpast hend⟩

/-- An invariant of every step, of the start of a run and of its end holds throughout. -/
theorem Session.invariant {I : List (Happening C P T) → CacheAwareRunner C P T → Prop}
    (hfresh : I [] fresh) (hstart : ∀ past r requests, I past r → I past (r.start requests))
    (hstep : ∀ past r r' now event sim, I past r → r.sim.step = some (now, event, sim) →
      EventLoop.Step step r r' → I (past ++ [⟨r, now, event, r'⟩]) r')
    (hend : ∀ past r, I past r → I past r.delivered) (h : Session fresh earlier r)
    (hpast : Past (r.start requests) past s) : I (earlier ++ past) s := by
  have hrun : ∀ earlier r requests past s, I earlier r → Past (r.start requests) past s →
      I (earlier ++ past) s := by
    intro earlier r requests past s hI hpast
    induction hpast with
    | nil => simpa using hstart earlier r requests hI
    | step _ hnext hstep' ih =>
      rw [← List.append_assoc]
      exact hstep _ _ _ _ _ _ ih hnext hstep'
  have hsession : I earlier r := by
    clear hpast
    induction h with
    | fresh => exact hfresh
    | run _ hpast' _ ih => exact hend _ _ (hrun _ _ _ _ _ ih hpast')
  exact hrun _ _ _ _ _ hsession hpast

end CacheAwareRunner

end KvFlowSim
