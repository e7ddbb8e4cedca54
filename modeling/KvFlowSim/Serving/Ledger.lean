import KvFlowSim.Serving.Recency

/-!
# The bytes of the cache

A ledger of the bytes that go into the cache and out of it. What is resident and what has been
evicted is, at any time, what was there when the run began and what has been stored since
(`bytes_conserved`). The runner's own counter `evicted_bytes` leaves out what a placement evicts
that fails in the end.
-/

namespace KeyedMap

variable {K V : Type} [DecidableEq K] {key : V → K}

theorem nodup_values (m : KeyedMap key) : m.values.Nodup := by
  rw [Multiset.nodup_iff_ne_cons_cons]
  intro v rest hvalues
  have hget : m.get (key v) = some v := mem_values.1 (hvalues ▸ Multiset.mem_cons_self v _)
  have hrest := (values_eq_cons hget).symm.trans hvalues
  have hmem : v ∈ (m.remove (key v)).values := by
    rw [(Multiset.cons_inj_right v).1 hrest]
    exact Multiset.mem_cons_self v rest
  rw [mem_values, get_remove, if_pos rfl] at hmem
  cases hmem

end KeyedMap

namespace KvFlowSim

open ServingState CacheState

namespace CacheState

variable {c : CacheState} {obj : KvObject} {ev : List EvictedKv}

/-- The bytes of all objects. -/
def residentBytes (c : CacheState) : ℕ := c.objects.sumBy fun o => o.bytes.toNat

theorem residentBytes_updateAccess (c : CacheState) (k : KvId) (now : UInt64) :
    (c.updateAccess k now).residentBytes = c.residentBytes := by
  unfold CacheState.updateAccess
  split
  next => rfl
  next obj hget =>
    have hid : obj.kvId = k := KeyedMap.key_of_get hget
    have hget' : c.objects.get obj.kvId = some obj := by rw [hid, hget]
    exact KeyedMap.sumBy_insert_of_get hget' rfl

theorem residentBytes_store (hnone : c.objects.get obj.kvId = none) :
    (c.store obj).residentBytes = obj.bytes.toNat + c.residentBytes :=
  KeyedMap.sumBy_insert_of_none hnone

/-- The victims take their bytes along. -/
theorem residentBytes_removeAll (h : Victims c ev) :
    (c.removeAll ev).residentBytes + (ev.map fun e => e.bytes.toNat).sum = c.residentBytes := by
  obtain ⟨hnodup, hresident, -⟩ := h
  induction ev using List.reverseRecOn with
  | nil => simp
  | append_singleton ev e ih =>
    rw [List.map_append, List.nodup_append] at hnodup
    have ih := ih hnodup.1 fun e' he' => hresident e' (List.mem_append_left _ he')
    obtain ⟨o, ho, hbytes⟩ := hresident e (List.mem_append_right _ (List.mem_singleton_self e))
    have hnot : e.kvId ∉ ev.map EvictedKv.kvId := fun hmem => hnodup.2.2 _ hmem _ (by simp) rfl
    have hget : (c.removeAll ev).objects.get e.kvId =
        some o := by rw [get_removeAll, if_neg hnot, ho]
    have hout : (c.removeAll ev).residentBytes =
        o.bytes.toNat + ((c.removeAll ev).remove e.kvId).2.residentBytes := by
      simp only [residentBytes, CacheState.remove, hget]
      exact KeyedMap.sumBy_of_get hget
    rw [removeAll_concat, List.map_append, List.sum_append, List.map_singleton, List.sum_singleton,
      ← hbytes]
    omega

theorem values_removeAll (c : CacheState) (ev : List EvictedKv) : (c.removeAll ev).objects.values =
    c.objects.values.filter fun o => o.kvId ∉ ev.map EvictedKv.kvId := by
  refine ((c.removeAll ev).objects.nodup_values.ext (c.objects.nodup_values.filter _)).2 fun o => ?_
  rw [Multiset.mem_filter, KeyedMap.mem_values, KeyedMap.mem_values, get_removeAll]
  split_ifs with hmem <;> simp [hmem]

end CacheState

namespace Happening

variable {C P T : Type} (e : Happening C P T)

/-- The bytes that the event stores. -/
def storedBytes : ℕ := e.stored.elim 0 fun o => o.bytes.toNat

/-- The objects that are no longer there after the event. -/
def evicted : Multiset KvObject :=
  e.before.cache.objects.values.filter fun o => e.after.cache.objects.get o.kvId = none

def evictedBytes : ℕ := (e.evicted.map fun o => o.bytes.toNat).sum

/-- The event is a placement that fails. -/
def placementFails : Prop := e.after.hits.placementErrors ≠ e.before.hits.placementErrors

instance : Decidable e.placementFails := inferInstanceAs (Decidable (_ ≠ _))

variable {e} {ev : List EvictedKv}

theorem evictedBytes_of_kept
    (h : ∀ k o, e.before.cache.objects.get k = some o → (e.after.cache.objects.get k).isSome) :
    e.evictedBytes = 0 := by
  have hnone : e.evicted = 0 := by
    refine Multiset.filter_eq_nil.2 fun o ho hgone => ?_
    have hsome := h o.kvId o (KeyedMap.mem_values.1 ho)
    rw [hgone] at hsome
    cases hsome
  rw [evictedBytes, hnone]
  rfl

/-- What the victims of a placement take is what is gone after it. -/
theorem evictedBytes_of_victims (hvictims : Victims e.before.cache.allocKvId.2 ev)
    (h : ∀ k o, e.before.cache.objects.get k = some o →
      (e.after.cache.objects.get k = none ↔ k ∈ ev.map EvictedKv.kvId)) :
    e.evictedBytes = (ev.map fun v => v.bytes.toNat).sum := by
  have hevicted : e.evicted =
      e.before.cache.objects.values.filter fun o => o.kvId ∈ ev.map EvictedKv.kvId :=
    Multiset.filter_congr fun o ho => h o.kvId o (KeyedMap.mem_values.1 ho)
  have hkept : (e.before.cache.allocKvId.2.removeAll ev).objects.values =
      e.before.cache.objects.values.filter fun o => o.kvId ∉ ev.map EvictedKv.kvId :=
    values_removeAll _ ev
  have hsplit := congrArg (fun s => (s.map fun o => o.bytes.toNat).sum)
    (Multiset.filter_add_not (fun o : KvObject => o.kvId ∈ ev.map EvictedKv.kvId)
      e.before.cache.objects.values)
  have hbytes : (e.before.cache.allocKvId.2.removeAll ev).residentBytes +
      (ev.map fun v => v.bytes.toNat).sum = e.before.cache.residentBytes :=
    residentBytes_removeAll hvictims
  simp only [Multiset.map_add, Multiset.sum_add, ← hevicted, ← hkept] at hsplit
  change e.evictedBytes + (e.before.cache.allocKvId.2.removeAll ev).residentBytes =
    e.before.cache.residentBytes at hsplit
  omega

/-- A placement that fails keeps everything but the victims. -/
theorem gone_of_failed (hcache : e.after.cache = e.before.cache.allocKvId.2.removeAll ev) (k : KvId)
    (o : KvObject) (hget : e.before.cache.objects.get k = some o) :
    e.after.cache.objects.get k = none ↔ k ∈ ev.map EvictedKv.kvId := by
  have hget' : e.before.cache.allocKvId.2.objects.get k = some o := hget
  rw [hcache, get_removeAll]
  split_ifs with hmem <;> simp [hmem, hget']

/-- So does one that succeeds. -/
theorem gone_of_stored {obj : KvObject} (hsound : e.before.cache.Sound)
    (hid : obj.kvId = e.before.cache.nextKvId)
    (hcache : e.after.cache = (e.before.cache.allocKvId.2.removeAll ev).store obj) (k : KvId)
    (o : KvObject) (hget : e.before.cache.objects.get k = some o) :
    e.after.cache.objects.get k = none ↔ k ∈ ev.map EvictedKv.kvId := by
  have hne : k ≠ obj.kvId := by
    rw [hid]
    exact (hsound.below k o hget).ne
  have hget' : e.before.cache.allocKvId.2.objects.get k = some o := hget
  rw [hcache, get_store, if_neg hne, get_removeAll]
  split_ifs with hmem <;> simp [hmem, hget']

/-- An event balances. -/
theorem CacheChange.balance (h : e.CacheChange) (hsound : e.before.cache.Sound) :
    e.after.cache.residentBytes + e.evictedBytes =
      e.before.cache.residentBytes + e.storedBytes := by
  cases h with
  | same hcache hstored =>
    have hkept : e.evictedBytes = 0 :=
      evictedBytes_of_kept fun k o hget => by rw [hcache, hget]; rfl
    rw [hkept, storedBytes, hstored, hcache]
    rfl
  | @touched kv hget hstored _ _ hcache =>
    have hkept : e.evictedBytes = 0 := evictedBytes_of_kept fun k o hk => by
      rw [hcache, get_updateAccess hget]
      split_ifs
      · rfl
      · rw [hk]
        rfl
    rw [hkept, storedBytes, hstored, hcache, residentBytes_updateAccess]
    rfl
  | @placed q ev obj loc _ _ _ hvictims hobj hstored _ hcache =>
    have hid : obj.kvId = e.before.cache.nextKvId := by rw [hobj]; rfl
    have hnone : (e.before.cache.allocKvId.2.removeAll ev).objects.get obj.kvId = none := by
      rw [get_removeAll, hid]
      split_ifs
      · rfl
      · rw [← Option.not_isSome_iff_eq_none, Option.isSome_iff_exists]
        rintro ⟨o, ho⟩
        exact lt_irrefl _ (hsound.below _ o ho)
    have hevicted := evictedBytes_of_victims hvictims (gone_of_stored hsound hid hcache)
    have hbytes : (e.before.cache.allocKvId.2.removeAll ev).residentBytes +
        (ev.map fun v => v.bytes.toNat).sum = e.before.cache.residentBytes :=
      residentBytes_removeAll hvictims
    rw [hevicted, storedBytes, hstored, hcache, residentBytes_store hnone, Option.elim_some]
    omega
  | @failed ev hvictims hstored _ hcache =>
    have hevicted := evictedBytes_of_victims hvictims (gone_of_failed hcache)
    have hbytes : (e.before.cache.allocKvId.2.removeAll ev).residentBytes +
        (ev.map fun v => v.bytes.toNat).sum = e.before.cache.residentBytes :=
      residentBytes_removeAll hvictims
    rw [hevicted, storedBytes, hstored, hcache, Option.elim_none]
    omega

end Happening

/-! ## Runs -/

section

variable {C P T : Type}

def storedBytes (past : List (Happening C P T)) : ℕ := (past.map Happening.storedBytes).sum

def evictedBytes (past : List (Happening C P T)) : ℕ := (past.map Happening.evictedBytes).sum

end

/-- The loop that counts the victims of a placement. -/
theorem toNat_foldl_satAdd (ev : List EvictedKv) (sum : UInt64) :
    (ev.foldl (fun sum kv => sum.satAdd kv.bytes) sum).toNat =
      min (sum.toNat + (ev.map fun v => v.bytes.toNat).sum) (2 ^ 64 - 1) := by
  induction ev generalizing sum with
  | nil =>
    have := sum.toNat_lt
    simp only [List.foldl_nil, List.map_nil, List.sum_nil]
    omega
  | cons v rest ih =>
    rw [List.foldl_cons, ih, UInt64.toNat_satAdd, List.map_cons, List.sum_cons]
    have hmax := UInt64.toNat_maxValue
    omega

namespace CacheAwareRunner

variable {C P T : Type} [ComputeModel C] [PlacementPolicy P] [TransferModel T] [Placing P]
  {fresh r r' s : CacheAwareRunner C P T} {earlier past : List (Happening C P T)} {now : UInt64}
  {event : ServingEvent} {sim : Simulator ServingEvent} {requests : List LlmRequest}

/-- The counter takes in what is gone, unless the placement has failed. -/
theorem step_evictedBytes (hsound : r.cache.Sound) (hnext : r.sim.step = some (now, event, sim))
    (hstep : EventLoop.Step step r r') : r'.evictedBytes.toNat =
      min (r.evictedBytes.toNat + if (Happening.mk r now event r').placementFails then 0
        else (Happening.mk r now event r').evictedBytes) (2 ^ 64 - 1) := by
  have hlt := r.evictedBytes.toNat_lt
  -- an event that takes nothing out of the cache
  have hquiet : r'.evictedBytes = r.evictedBytes → (∀ k o, r.cache.objects.get k = some o →
      (r'.cache.objects.get k).isSome) → r'.evictedBytes.toNat =
        min (r.evictedBytes.toNat + if (Happening.mk r now event r').placementFails then 0
          else (Happening.mk r now event r').evictedBytes) (2 ^ 64 - 1) := by
    intro hcounter hkept
    rw [Happening.evictedBytes_of_kept (e := ⟨r, now, event, r'⟩) hkept, hcounter, ite_self]
    omega
  have hsame : r'.cache = r.cache → ∀ k o, r.cache.objects.get k = some o →
      (r'.cache.objects.get k).isSome := fun hcache k o hget => by
    rw [hcache, hget]
    rfl
  cases step_cases hnext hstep with
  | absent _ _ hrest =>
    exact hquiet (congrArg Rest.evictedBytes hrest) (hsame (congrArg Rest.cache hrest))
  | arrived _ h =>
    cases h with
    | missed _ _ hrest | fetching _ _ _ _ _ _ hrest | degraded _ _ _ _ hrest =>
      exact hquiet (congrArg Rest.evictedBytes hrest) (hsame (congrArg Rest.cache hrest))
    | @hit kv hfound _ _ hrest =>
      have hcache : r'.cache = r.cache.updateAccess kv.kvId now := congrArg Rest.cache hrest
      have hget : r.cache.objects.get kv.kvId = some kv := get_of_reusableKv hfound
      refine hquiet (congrArg Rest.evictedBytes hrest) fun k o hk => ?_
      rw [hcache, get_updateAccess hget]
      split_ifs
      · rfl
      · rw [hk]
        rfl
  | @prefilled inflight n i s₁ _ hin hrelease _ _ hrest =>
    have hin₁ : s₁.inFlight.get inflight.id = some inflight := by
      rw [inFlight_releaseGpu hrelease, hin]
    have hstore : StoreEffect now inflight.request r.rest r'.rest := by
      rw [hrest]
      exact storeKv_effect (r := { r with toServingState := s₁ }) hin₁
    cases hstore with
    | skipped _ hrest =>
      exact hquiet (congrArg Rest.evictedBytes hrest) (hsame (congrArg Rest.cache hrest))
    | @stored ev loc _ _ _ hvictims _ _ hrest =>
      have hok : ¬(Happening.mk r now (.prefillDone inflight.id n i) r').placementFails := by
        intro hne
        exact hne (congrArg (fun x => x.hits.placementErrors) hrest)
      have hevicted := Happening.evictedBytes_of_victims
        (e := ⟨r, now, .prefillDone inflight.id n i, r'⟩) hvictims
        (Happening.gone_of_stored hsound rfl (congrArg Rest.cache hrest))
      rw [if_neg hok, hevicted, ← toNat_foldl_satAdd]
      exact congrArg (fun x => x.evictedBytes.toNat) hrest
    | failed _ _ hrest =>
      have hfails : (Happening.mk r now (.prefillDone inflight.id n i) r').placementFails := by
        have herrors : r'.hits.placementErrors = r.hits.placementErrors + 1 :=
          congrArg (fun x => x.hits.placementErrors) hrest
        show r'.hits.placementErrors ≠ r.hits.placementErrors
        omega
      have hcounter : r'.evictedBytes = r.evictedBytes := congrArg Rest.evictedBytes hrest
      rw [if_pos hfails, hcounter]
      omega
  | fetched _ _ _ hrest =>
    exact hquiet (congrArg Rest.evictedBytes hrest) (hsame (congrArg Rest.cache hrest))
  | decoded _ _ _ hrest =>
    exact hquiet (congrArg Rest.evictedBytes hrest) (hsame (congrArg Rest.cache hrest))

/-- The ledger of a run. -/
theorem Past.ledger (hfresh : fresh.cache.Sound) (h : Session fresh earlier r)
    (hpast : Past (r.start requests) past s) (hmax : s.cache.nextKvId ≠ UInt64.maxValue) :
    s.cache.residentBytes + KvFlowSim.evictedBytes past = r.cache.residentBytes + storedBytes past ∧
      s.evictedBytes.toNat =
        min (KvFlowSim.evictedBytes (past.filter fun e => ¬e.placementFails)) (2 ^ 64 - 1) := by
  induction hpast with
  | nil => exact ⟨rfl, rfl⟩
  | @step past s s' now event sim hbefore hnext hstep ih =>
    have hmax' := (step_cache hnext hstep).nextKvId_ne hmax
    have hsound : s.cache.Sound := h.sound hfresh hbefore hmax'
    have hbalance := (step_cacheChange hnext hstep).balance hsound
    have hcounter := step_evictedBytes hsound hnext hstep
    obtain ⟨hbytes, hcounted⟩ := ih hmax'
    constructor
    · rw [KvFlowSim.evictedBytes, storedBytes, List.map_append, List.map_append, List.sum_append,
        List.sum_append, List.map_singleton, List.map_singleton, List.sum_singleton,
        List.sum_singleton,
        ← KvFlowSim.evictedBytes, ← storedBytes]
      dsimp only at hbalance
      omega
    · rw [hcounter, hcounted, List.filter_append, KvFlowSim.evictedBytes, KvFlowSim.evictedBytes,
        List.map_append, List.sum_append]
      by_cases hfails : (Happening.mk s now event s').placementFails
      · simp [hfails]
      · simp only [hfails, if_false, not_false_eq_true, decide_true, List.filter_cons_of_pos,
          List.filter_nil, List.map_singleton, List.sum_singleton]
        omega

end CacheAwareRunner

section

open CacheAwareRunner

variable {C P T : Type} [ComputeModel C] [PlacementPolicy P] [TransferModel T] [Placing P]

/-- **The bytes of the cache are conserved.** At any time of a run, with any of the policies, what
is resident and what has been evicted in the run is what was resident when it began and what it has
stored. The counter of the runner adds up, up to the largest word, what has been evicted by the
placements that succeeded. (The ids of the cache must not be used up.) -/
theorem bytes_conserved (iterOrder : IterOrder) (config : ServingConfig) (cluster : ClusterTopology)
    (compute : C) (transfer : T) (profile : ModelProfile) (placement : P)
    (requests : List LlmRequest) {earlier past : List (Happening C P T)}
    {r s : CacheAwareRunner C P T}
    (h : Session (.new iterOrder config cluster compute transfer profile placement) earlier r)
    (hpast : Past (r.start requests) past s) (hmax : s.cache.nextKvId ≠ UInt64.maxValue) :
    s.cache.residentBytes + evictedBytes past = r.cache.residentBytes + storedBytes past ∧
      s.evictedBytes.toNat =
        min (evictedBytes (past.filter fun e => ¬e.placementFails)) (2 ^ 64 - 1) := by
  have hfresh := (blank_new iterOrder config cluster compute transfer profile placement).sound
  exact hpast.ledger hfresh h hmax

end

/-- The second of two prompts of eight tokens evicts the first. -/
theorem bytes_conserved_evicted :
    ((reuseRun 0 0).replay 6).2.cache.residentBytes + evictedBytes ((reuseRun 0 0).replay 6).1 =
      storedBytes ((reuseRun 0 0).replay 6).1 ∧
    evictedBytes (((reuseRun 0 0).replay 6).1.filter fun e => ¬e.placementFails) = 1048576 := by
  have hcounter : ((reuseRun 0 0).replay 6).2.evictedBytes = 1048576 := by decide +kernel
  obtain ⟨hbytes, hcounted⟩ := bytes_conserved .ascending ⟨2, 2, 1⟩ (memoryNode 2621440)
    LinearComputeModel.conservative8b AnalyticalTransferModel.rdma400g .llama8bBf16Gqa
    (RemoteLru.mk 0)
    (reuseTrace 0 0) .fresh (CacheAwareRunner.past_replay (reuseRun 0 0) 6) (by decide +kernel)
  refine ⟨hbytes.trans (Nat.zero_add _), ?_⟩
  rw [hcounter, show (1048576 : UInt64).toNat = 1048576 from rfl] at hcounted
  omega

end KvFlowSim
