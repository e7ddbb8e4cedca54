import KvFlowSim.Serving.Provenance

/-!
# Which object was used least recently

The policies go by `last_access_ns`. A placement sets it and so does a hit on a GPU, but a hit on
any other tier does not: `last_access_ns` is never later than the last use of an object
(`Past.lastAccess_le`), and it is the time of the last use as long as the object has not been
fetched (`Past.recent`). So an object that has not been fetched is evicted only if it is a least
recently used one of its tier (`lru_evictions`). An object that has just been fetched may be the one
to go (`lru_evicts_used`).
-/

namespace KvFlowSim

open ServingState CacheState

namespace Happening

variable {C P T : Type} (e : Happening C P T)

/-- The event completes a fetch. -/
def completesFetch : Bool :=
  match e.event with
  | .fetchDone id => (e.before.tierOf id).isSome
  | _ => false

/-- The event credits a hit on the CPU tier or on a remote one. -/
def creditsFetch : Bool := e.credits .hitsCpu || e.credits .hitsRemote

/-- The event uses the object: it stores it, or it looks it up for a hit that is credited at once,
or by a `later` event when the KV has been fetched. -/
def uses (later : List (Happening C P T)) (k : KvId) : Bool :=
  e.stored.any (fun o => o.kvId = k) ||
    e.found.any (fun o => o.kvId = k) && (e.credits .hitsGpu ||
      later.any fun e' => e'.event = .fetchDone e.event.requestId && e'.creditsFetch)

/-- The time of the last use of an object. -/
def lastUse : List (Happening C P T) → KvId → UInt64
  | [], _ => 0
  | e :: later, k => if e.uses later k then max e.nowNs (lastUse later k) else lastUse later k

/-- A look-up of the object has led to a fetch that has been completed. -/
def fetched : List (Happening C P T) → KvId → Bool
  | [], _ => false
  | e :: later, k => e.found.any (fun o => o.kvId = k) && later.any (fun e' =>
      e'.event = .fetchDone e.event.requestId && e'.completesFetch) || fetched later k

/-- If the event evicts the object from a tier, the object has not been used later than anything
that stays in it. -/
def LeastRecent (past : List (Happening C P T)) (k : KvId) : Prop :=
  ∀ v k' o, e.before.cache.objects.get k = some v → e.after.cache.objects.get k = none →
    e.after.cache.objects.get k' = some o → v.location.slot = o.location.slot →
      lastUse (past ++ [e]) k ≤ lastUse (past ++ [e]) k'

/-- What the event evicts from a tier has not been used later than anything that stays in it. -/
def EvictsLru (past : List (Happening C P T)) : Prop := ∀ k, e.LeastRecent past k

variable {e} {past later : List (Happening C P T)} {k : KvId}

/-- The uses of an object that has not been fetched do not depend on what comes later. -/
theorem uses_of_unfetched (hcredits : ∀ e' ∈ later, e'.creditsFetch = true →
    e'.completesFetch = true)
    (h : fetched (e :: later) k = false) : e.uses later k = e.uses [] k := by
  simp only [uses, List.any_nil, Bool.or_false]
  by_cases hfound : e.found.any (fun o => o.kvId = k) = true
  · have hnone : (later.any fun e' =>
        e'.event = .fetchDone e.event.requestId && e'.creditsFetch) = false := by
      simp only [fetched, hfound, Bool.true_and, Bool.or_eq_false_iff, List.any_eq_false] at h
      rw [List.any_eq_false]
      intro e' he' hcredited
      obtain ⟨hevent, hcredit⟩ := Bool.and_eq_true_iff.1 hcredited
      exact h.1 e' he' (Bool.and_eq_true_iff.2 ⟨hevent, hcredits e' he' hcredit⟩)
    rw [hnone, Bool.or_false]
  · simp [hfound]

/-- An event that completes no fetch fetches nothing. -/
theorem fetched_concat (hquiet : e.completesFetch = false) (h : fetched past k = false) :
    fetched (past ++ [e]) k = false := by
  induction past with
  | nil => simp [fetched]
  | cons e₀ past ih =>
    simp only [List.cons_append, fetched, List.any_append, List.any_cons, List.any_nil, hquiet,
      Bool.and_false, Bool.or_false, Bool.or_eq_false_iff] at h ⊢
    exact ⟨h.1, ih h.2⟩

/-- What has been fetched stays fetched. -/
theorem fetched_of_append {l l' : List (Happening C P T)} (h : fetched (l ++ l') k = false) :
    fetched l k = false := by
  induction l with
  | nil => rfl
  | cons e₀ l ih =>
    simp only [List.cons_append, fetched, List.any_append, Bool.or_eq_false_iff,
      Bool.and_eq_false_iff] at h ⊢
    exact ⟨h.1.imp_right And.left, ih h.2⟩

theorem uses_nil (e : Happening C P T) (k : KvId) :
    e.uses [] k = (e.stored.any (fun o => o.kvId = k) ||
    e.found.any (fun o => o.kvId = k) && e.credits .hitsGpu) := by
  rw [uses, List.any_nil, Bool.or_false]

/-- An event that neither stores the object nor counts a hit on it does not use it. -/
theorem uses_eq_false (hstored : ∀ o, e.stored = some o → o.kvId ≠ k)
    (hfound : ∀ o, e.found = some o → e.credits .hitsGpu → o.kvId ≠ k) : e.uses [] k = false := by
  have hany : ∀ {x : Option KvObject}, (∀ o, x = some o → o.kvId ≠ k) →
      x.any (fun o => o.kvId = k) = false := fun {x} hx => by
    cases x with
    | none => rfl
    | some o => simpa using hx o rfl
  rw [uses_nil, hany hstored, Bool.false_or]
  by_cases hcredits : e.credits .hitsGpu
  · rw [hany fun o ho => hfound o ho hcredits, Bool.false_and]
  · simp [hcredits]

/-- The last use of an object that has not been fetched is kept up from event to event. -/
theorem lastUse_concat
    (hcredits : ∀ e' ∈ past ++ [e], e'.creditsFetch = true → e'.completesFetch = true)
    (h : fetched (past ++ [e]) k = false) :
    lastUse (past ++ [e]) k =
      if e.uses [] k then max (lastUse past k) e.nowNs else lastUse past k := by
  induction past with
  | nil =>
    simp only [List.nil_append, lastUse]
    split_ifs
    · exact max_comm _ _
    · rfl
  | cons e₀ past ih =>
    have hpast : ∀ e' ∈ past ++ [e], e'.creditsFetch = true → e'.completesFetch = true :=
      fun e' he' => hcredits e' (List.mem_cons_of_mem _ he')
    have hrest : fetched (past ++ [e]) k = false := by
      simp only [List.cons_append, fetched, Bool.or_eq_false_iff] at h
      exact h.2
    have huses : e₀.uses past k = e₀.uses [] k :=
      uses_of_unfetched (fun e' he' => hpast e' (List.mem_append_left _ he')) (fetched_of_append h)
    rw [List.cons_append, lastUse, uses_of_unfetched hpast h, ih hpast hrest, lastUse, huses]
    split_ifs <;> simp only [max_assoc]

/-- A later event does not take a use back. -/
theorem uses_append (h : e.uses later k = true) (later' : List (Happening C P T)) :
    e.uses (later ++ later') k = true := by
  simp only [uses, List.any_append, Bool.or_eq_true, Bool.and_eq_true] at h ⊢
  exact h.imp_right (And.imp_right (Or.imp_right Or.inl))

theorem lastUse_le_concat : lastUse past k ≤ lastUse (past ++ [e]) k := by
  induction past with
  | nil => exact UInt64.zero_le
  | cons e₀ past ih =>
    rw [List.cons_append, lastUse, lastUse]
    by_cases huses : e₀.uses past k = true
    · rw [if_pos huses, if_pos (uses_append huses [e])]
      exact max_le_max_left _ ih
    · rw [if_neg huses]
      split_ifs
      · exact ih.trans (le_max_right _ _)
      · exact ih

/-- An event is no later than the last use of what it uses. -/
theorem nowNs_le_lastUse (h : e.uses [] k = true) : e.nowNs ≤ lastUse (past ++ [e]) k := by
  induction past with
  | nil =>
    rw [List.nil_append, lastUse, if_pos h]
    exact le_max_left _ _
  | cons e₀ past ih =>
    rw [List.cons_append, lastUse]
    split_ifs
    · exact ih.trans (le_max_right _ _)
    · exact ih

end Happening

namespace CacheAwareRunner

open Happening

variable {C P T : Type} [ComputeModel C] [PlacementPolicy P] [TransferModel T]
  {start r r' s : CacheAwareRunner C P T} {now : UInt64} {event : ServingEvent}
  {sim : Simulator ServingEvent} {past : List (Happening C P T)} {e : Happening C P T}

/-- Handling an event moves the clock to its time and no further. -/
theorem step_clock (hnext : r.sim.step = some (now, event, sim))
    (hstep : EventLoop.Step step r r') :
    r.sim.nowNs ≤ now ∧ r'.sim.nowNs = now := by
  obtain ⟨ev, -, -, hmax, hclock, -⟩ := Simulator.step_spec hnext
  refine ⟨hmax ▸ le_max_left _ _, ?_⟩
  obtain ⟨s₁, hrelease, hmoves, -⟩ := (step_advance hstep).handles hnext
  rw [hmoves.nowNs, hrelease.sim, hclock]

/-- Only the completion of a fetch credits a fetched hit. -/
theorem creditsFetch_of_step (hnext : r.sim.step = some (now, event, sim))
    (hstep : EventLoop.Step step r r')
    (hquiet : (Happening.mk r now event r').completesFetch = false) :
    (Happening.mk r now event r').creditsFetch = false := by
  have hno : ∀ c, c ≠ .misses → c ≠ .hitsGpu → ¬(Happening.mk r now event r').credits c := by
    intro c hne hgpu hcredits
    obtain ⟨inflight, hin, ⟨-, rfl, -⟩ | ⟨rfl, tier, htier, -⟩⟩ :=
      (step_cases hnext hstep).credits hne hcredits
    · exact hgpu rfl
    · have hin' : r.inFlight.get inflight.id = some inflight := hin
      simp [completesFetch, ServingState.tierOf, hin', htier] at hquiet
  simp [creditsFetch, hno .hitsCpu (by decide) (by decide), hno .hitsRemote (by decide) (by decide)]

/-- An event sets the time of the last access of the objects that it uses and leaves the others. -/
theorem step_uses [Placing P] (hnext : r.sim.step = some (now, event, sim))
    (hstep : EventLoop.Step step r r') {k : KvId} {o' : KvObject}
    (ho' : r'.cache.objects.get k = some o') :
    ((Happening.mk r now event r').uses [] k = true ∧ o'.lastAccessNs = now) ∨
      ((Happening.mk r now event r').uses [] k = false ∧ r.cache.objects.get k = some o') := by
  have hchange := step_cacheChange hnext hstep
  obtain rfl : o'.kvId = k := KeyedMap.key_of_get ho'
  rcases hchange.object ho' with hstored | ⟨o, hget, hfound, hcredits, rfl⟩ | ⟨hget,
    hstored, hfound⟩
  · obtain ⟨q, loc, -, -, -, rfl⟩ := hchange.stored_spec hstored
    exact .inl ⟨by simp [uses_nil, hstored], rfl⟩
  · exact .inl ⟨by simp [uses_nil, hfound, hcredits], rfl⟩
  · exact .inr ⟨uses_eq_false hstored hfound, hget⟩

theorem Past.completesFetch (hpast : Past start past s) :
    ∀ e ∈ past, e.creditsFetch = true → e.completesFetch = true := by
  intro e he hcredits
  obtain ⟨_, _, _, hnext, hstep⟩ := hpast.of_mem he
  by_contra hnot
  have hnone := creditsFetch_of_step hnext hstep (Bool.eq_false_iff.2 hnot)
  exact absurd (hnone.symm.trans hcredits) Bool.false_ne_true

/-- The completion of a fetch leaves the cache as it is. -/
theorem completesFetch_of_evicts (hnext : r.sim.step = some (now, event, sim))
    (hstep : EventLoop.Step step r r') {k : KvId} {v : KvObject}
    (hv : r.cache.objects.get k = some v) (hgone : r'.cache.objects.get k = none) :
    (Happening.mk r now event r').completesFetch = false := by
  have hchanged : r'.cache ≠ r.cache := fun hcache => by simp [hcache, hv] at hgone
  cases step_cases hnext hstep with
  | absent _ _ hrest => exact absurd (congrArg Rest.cache hrest) hchanged
  | arrived => rfl
  | prefilled => rfl
  | fetched _ _ _ hrest => exact absurd (congrArg Rest.cache hrest) hchanged
  | decoded => rfl

variable [Placing P]

/-- The last use of an object is never earlier than the time of its last access. -/
theorem Past.lastAccess_le (hblank : start.cache.Blank) (hpast : Past start past s) {k : KvId}
    {o : KvObject} (hk : s.cache.objects.get k = some o) : o.lastAccessNs ≤ lastUse past k := by
  induction hpast generalizing o with
  | nil => simp [hblank.objects] at hk
  | step _ hnext hstep ih =>
    rcases step_uses hnext hstep hk with ⟨huses, hlast⟩ | ⟨-, hold⟩
    · exact hlast ▸ nowNs_le_lastUse huses
    · exact (ih hold).trans lastUse_le_concat

/-- As long as an object has not been fetched, the time of its last access is that of its
last use. -/
theorem Past.recent (hblank : start.cache.Blank) (hpast : Past start past s) {k : KvId}
    (hfetched : Happening.fetched past k = false) : lastUse past k ≤ s.sim.nowNs ∧
      ∀ o, s.cache.objects.get k = some o → o.lastAccessNs = lastUse past k := by
  have hcredits := hpast.completesFetch
  induction hpast with
  | nil => exact ⟨UInt64.zero_le, fun o hk => by simp [hblank.objects] at hk⟩
  | step hpast hnext hstep ih =>
    obtain ⟨hle, hclock⟩ := step_clock hnext hstep
    obtain ⟨hbefore, hrecent⟩ := ih (fetched_of_append hfetched) hpast.completesFetch
    rw [lastUse_concat hcredits hfetched]
    refine ⟨?_, fun o hk => ?_⟩
    · rw [hclock]
      split_ifs
      · exact max_le (hbefore.trans hle) le_rfl
      · exact hbefore.trans hle
    · rcases step_uses hnext hstep hk with ⟨huses, hlast⟩ | ⟨huses, hold⟩
      · rw [if_pos huses, max_eq_right (hbefore.trans hle), hlast]
      · rw [huses, hrecent o hold]
        rfl

/-- What goes in a step was not accessed later than what stays in its tier, and it goes unused. -/
theorem step_leastRecent (hnext : r.sim.step = some (now, event, sim))
    (hstep : EventLoop.Step step r r') {k k' : KvId} {v o : KvObject}
    (hv : r.cache.objects.get k = some v) (hgone : r'.cache.objects.get k = none)
    (ho : r'.cache.objects.get k' = some o) (hslot : v.location.slot = o.location.slot) :
    (v.lastAccessNs ≤ o.lastAccessNs ∨ o.lastAccessNs = now) ∧
      (Happening.mk r now event r').uses [] k = false := by
  obtain rfl : v.kvId = k := KeyedMap.key_of_get hv
  obtain rfl : o.kvId = k' := KeyedMap.key_of_get ho
  -- the victims of a placement are those that the eviction loops chose
  have hleast : ∀ ev, Victims r.cache.allocKvId.2 ev →
      (r.cache.allocKvId.2.removeAll ev).objects.get v.kvId = none →
      (r.cache.allocKvId.2.removeAll ev).objects.get o.kvId = some o →
      v.lastAccessNs ≤ o.lastAccessNs := by
    intro ev hvictims hnone hkept
    rw [get_removeAll] at hnone
    split_ifs at hnone with hmem
    · exact hvictims.leastRecent v o hmem hv hkept hslot
    · exact absurd (hv.symm.trans hnone) (by simp)
  have hnone : ∀ {x : Option KvObject} {P : KvObject → Prop}, x = none → ∀ o, x = some o → P o :=
    fun hx o ho => absurd (hx.symm.trans ho) (Option.some_ne_none o).symm
  cases step_cacheChange hnext hstep with
  | same hcache =>
    rw [hcache, hv] at hgone
    cases hgone
  | touched hget _ _ _ hcache =>
    rw [hcache, get_updateAccess hget, hv] at hgone
    split_ifs at hgone
  | @placed _ ev obj _ _ _ _ hvictims hobj hstored hfound hcache =>
    rw [hcache, get_store] at hgone ho
    split_ifs at hgone with hid
    refine ⟨?_, uses_eq_false (fun o' ho' => ?_) (hnone hfound)⟩
    · split_ifs at ho
      · obtain rfl := Option.some.inj ho
        exact .inr (by rw [hobj]; rfl)
      · exact .inl (hleast ev hvictims hgone ho)
    · obtain rfl := Option.some.inj (hstored.symm.trans ho')
      exact Ne.symm hid
  | @failed ev hvictims hstored hfound hcache =>
    rw [hcache] at hgone ho
    exact ⟨.inl (hleast ev hvictims hgone ho), uses_eq_false (hnone hstored) (hnone hfound)⟩

end CacheAwareRunner

section

open CacheAwareRunner

variable {C P T : Type} [ComputeModel C] [PlacementPolicy P] [TransferModel T] [Placing P]

/-- **Eviction is least recently used.** In a run of a fresh runner an object that has not been
fetched is evicted from a tier only if it was not used later than anything that stays in it. -/
theorem lru_evictions (iterOrder : IterOrder) (config : ServingConfig) (cluster : ClusterTopology)
    (compute : C) (transfer : T) (profile : ModelProfile) (placement : P)
    (requests : List LlmRequest) {past : List (Happening C P T)} {e : Happening C P T}
    {s : CacheAwareRunner C P T}
    (hpast : Past ((CacheAwareRunner.new iterOrder config cluster compute transfer profile
      placement).start requests) (past ++ [e]) s)
    {k : KvId} (hfetched : Happening.fetched past k = false) : e.LeastRecent past k := by
  intro v k' o hv hgone ho hslot
  have hblank : ((CacheAwareRunner.new iterOrder config cluster compute transfer profile
    placement).start requests).cache.Blank :=
    blank_new iterOrder config cluster compute transfer profile placement
  obtain ⟨hbefore, rfl, hstep, sim, hnext⟩ := hpast.last
  obtain ⟨hleast, hunused⟩ := step_leastRecent hnext hstep hv hgone ho hslot
  obtain ⟨hclock, hrecent⟩ := hbefore.recent hblank hfetched
  -- the eviction itself is neither a use of the object nor the end of a fetch
  have hlast : Happening.lastUse (past ++ [e]) k = Happening.lastUse past k := by
    have hquiet := completesFetch_of_evicts hnext hstep hv hgone
    rw [Happening.lastUse_concat hpast.completesFetch
      (Happening.fetched_concat hquiet hfetched), hunused]
    rfl
  rw [hlast, ← hrecent v hv]
  refine le_trans ?_ (hpast.lastAccess_le hblank ho)
  rcases hleast with hleast | hnow
  · exact hleast
  · rw [hnow, hrecent v hv]
    exact hclock.trans (step_clock hnext hstep).1

end

/-! ## A tier with room for twenty tokens -/

/-- Two KVs of eight tokens, of which that of the session is used again by a request that
arrives then. -/
def reuseTrace (sessionId arrivalNs : UInt64) : List LlmRequest :=
  [.cold 0 0 8 2, .cold 1 500000 8 2,
    { LlmRequest.cold 2 arrivalNs 12 2 with sessionId := sessionId, newPromptTokens := 4 }]

/-- A run of them on a node whose memory holds the KV of twenty tokens. -/
def reuseRun (sessionId arrivalNs : UInt64) :
    CacheAwareRunner LinearComputeModel RemoteLru AnalyticalTransferModel :=
  (CacheAwareRunner.new .ascending ⟨2, 2, 1⟩ (memoryNode 2621440) .conservative8b .rdma400g
    .llama8bBf16Gqa ⟨0⟩).start (reuseTrace sessionId arrivalNs)

/-- If the third request fetches the KV of the second, that of the first makes room for its own. -/
theorem lru_evictions_unfetched :
    ∃ past e, CacheAwareRunner.Past (reuseRun 1 9000000) (past ++ [e])
        ((reuseRun 1 9000000).replay 9).2 ∧
      (past.any fun e => e.completesFetch) = true ∧
      (e.before.cache.objects.get 0).isSome ∧ e.after.cache.objects.get 0 = none ∧
      (e.after.cache.objects.get 1).isSome ∧ e.LeastRecent past 0 := by
  have hlast : ((reuseRun 1 9000000).replay 9).1.getLast?.any (fun e =>
      (e.before.cache.objects.get 0).isSome ∧ e.after.cache.objects.get 0 = none ∧
        (e.after.cache.objects.get 1).isSome) = true := by
    decide +kernel
  have hfetched : Happening.fetched ((reuseRun 1 9000000).replay 9).1.dropLast 0 = false := by
    decide +kernel
  have hfetch :
      (((reuseRun 1 9000000).replay 9).1.dropLast.any fun e => e.completesFetch) = true := by
    decide +kernel
  obtain ⟨past, e, hsplit, hpast, he⟩ := CacheAwareRunner.exists_last_of_replay hlast
  obtain ⟨hold, hgone, hnew⟩ := of_decide_eq_true he
  rw [hsplit, List.dropLast_concat] at hfetched hfetch
  exact ⟨past, e, hpast, hfetch, hold, hgone, hnew, lru_evictions .ascending ⟨2, 2, 1⟩
    (memoryNode 2621440) LinearComputeModel.conservative8b AnalyticalTransferModel.rdma400g
    .llama8bBf16Gqa (RemoteLru.mk 0) (reuseTrace 1 9000000) hpast hfetched⟩

/-- The third request hits the KV of the first, which is then evicted to make room for its own. The
KV of the second, last used before that, stays. -/
theorem lru_evicts_used :
    ∃ past e, CacheAwareRunner.Past (reuseRun 0 9000000) (past ++ [e])
      ((reuseRun 0 9000000).replay 9).2 ∧
      ¬e.EvictsLru past := by
  have hlast : ((reuseRun 0 9000000).replay 9).1.getLast?.any (fun e =>
      (e.before.cache.objects.get 0).map (fun v => v.location.slot) =
        some (some (0, .remoteMemory)) ∧
        e.after.cache.objects.get 0 = none ∧
        (e.after.cache.objects.get 1).map (fun o => o.location.slot) =
          some (some (0, .remoteMemory)) ∧
        Happening.lastUse ((reuseRun 0 9000000).replay 9).1 1 <
          Happening.lastUse ((reuseRun 0 9000000).replay 9).1 0) = true := by
    decide +kernel
  obtain ⟨past, e, hsplit, hpast, he⟩ := CacheAwareRunner.exists_last_of_replay hlast
  obtain ⟨hv, hgone, ho, hlt⟩ := of_decide_eq_true he
  obtain ⟨v, hv, hvslot⟩ := Option.map_eq_some_iff.1 hv
  obtain ⟨o, ho, hoslot⟩ := Option.map_eq_some_iff.1 ho
  refine ⟨past, e, hpast, fun hlru => hlt.not_ge ?_⟩
  rw [hsplit]
  exact hlru 0 v 1 o hv hgone ho (hvslot.trans hoslot.symm)

end KvFlowSim
