import KvFlowSim.Cache.Reachable
import KvFlowSim.Serving.AmpleCache

/-!
# Runs whose look-ups are exact

An object goes out of reach when another one is stored under its key (`Cache/Reachable.lean`). The
runner stores the KV of a request under its session and prompt length, once for each request. So
nothing goes out of reach in a run of requests that differ in these, and that no object of the cache
has yet: at any time a look-up finds an object if and only if the object is resident under the key
that is asked for (`lookups_exact`), whatever has been evicted so far.
-/

namespace KvFlowSim

open ServingState CacheState

namespace CacheState

variable {c : CacheState} {obj : KvObject} {key : UInt64 × UInt32}

/-- An object of the cache has the key. -/
def Files (c : CacheState) (key : UInt64 × UInt32) : Prop :=
  ∃ k o, c.objects.get k = some o ∧ o.key = key

theorem Reachable.updateAccess (h : c.Reachable) (k : KvId) (now : UInt64) :
    (c.updateAccess k now).Reachable := by
  cases hget : c.objects.get k with
  | none => rwa [updateAccess_of_get_none hget]
  | some obj =>
    have hindex : (c.updateAccess k now).bySessionPrefix = c.bySessionPrefix := by
      simp only [CacheState.updateAccess, hget]
    exact h.replace (o := { obj with lastAccessNs := now }) hindex hget
      rfl (get_updateAccess hget now)

theorem Reachable.removeAll (h : c.Reachable) (evicted : List EvictedKv) :
    (c.removeAll evicted).Reachable := by
  induction evicted using List.reverseRecOn with
  | nil => exact h
  | append_singleton evicted e ih =>
    rw [removeAll_concat]
    exact ih.remove e.kvId

/-- In an index that leads to every object and to objects of its keys only, a look-up finds what
there is. -/
theorem lookup_iff (hr : c.Reachable) (hindexed : c.Indexed) (sessionId : UInt64)
    (prefixTokens : UInt32) : c.lookup sessionId prefixTokens = some obj ↔
      obj.key = (sessionId, prefixTokens) ∧ c.objects.get obj.kvId = some obj := by
  constructor
  · intro h
    obtain ⟨k, hk, hget⟩ := Option.bind_eq_some_iff.1 h
    obtain ⟨o, ho, hkey⟩ := hindexed _ k hk
    obtain rfl : obj = o := Option.some.inj (hget.symm.trans ho)
    have hid : obj.kvId = k := KeyedMap.key_of_get hget
    exact ⟨hkey, by rwa [hid]⟩
  · rintro ⟨hkey, hget⟩
    obtain ⟨hsession, htokens⟩ := Prod.mk.inj hkey
    rw [← hsession, ← htokens]
    exact hr _ obj hget

end CacheState

namespace Happening

variable {C P T : Type} {e : Happening C P T} {key : UInt64 × UInt32}

/-- What has a key after an event had it before, or has been stored by the event. -/
theorem CacheChange.files (h : e.CacheChange) (hfiles : e.after.cache.Files key) :
    e.before.cache.Files key ∨ ∃ o, e.stored = some o ∧ o.key = key := by
  obtain ⟨k, o, hget, hkey⟩ := hfiles
  rcases h.object hget with hstored | ⟨o₀, hget₀, -, -, rfl⟩ | ⟨hget₀, -, -⟩
  · exact .inr ⟨o, hstored, hkey⟩
  · exact .inl ⟨k, o₀, hget₀, hkey⟩
  · exact .inl ⟨k, o, hget₀, hkey⟩

/-- An event that stores nothing under the key of an object puts nothing out of reach. -/
theorem CacheChange.reachable (h : e.CacheChange) (hsound : e.before.cache.Sound)
    (hr : e.before.cache.Reachable) (hfree : ∀ o, e.stored = some o → ¬e.before.cache.Files o.key) :
    e.after.cache.Reachable := by
  have halloc : e.before.cache.allocKvId.2.Reachable := hr
  cases h with
  | same hcache => rwa [hcache]
  | touched _ _ _ _ hcache =>
    rw [hcache]
    exact hr.updateAccess _ _
  | @placed q ev obj loc _ _ _ _ hobj hstored _ hcache =>
    have hid : obj.kvId = e.before.cache.nextKvId := by rw [hobj]; rfl
    have hold : ∀ k o, (e.before.cache.allocKvId.2.removeAll ev).objects.get k = some o →
        e.before.cache.objects.get k = some o := by
      intro k o hget
      rw [get_removeAll] at hget
      split_ifs at hget
      exact hget
    have hnone : (e.before.cache.allocKvId.2.removeAll ev).objects.get obj.kvId = none := by
      rw [← Option.not_isSome_iff_eq_none, Option.isSome_iff_exists, hid]
      rintro ⟨o, ho⟩
      exact lt_irrefl _ (hsound.below _ o (hold _ o ho))
    rw [hcache, reachable_store_iff (halloc.removeAll ev) hnone]
    intro k o hget hkey
    exact hfree obj hstored ⟨k, o, hold k o hget, hkey⟩
  | failed _ _ _ hcache =>
    rw [hcache]
    exact halloc.removeAll _

/-- What is stored has the key of the prompt that has been prefilled. -/
theorem CacheChange.prefilled (h : e.CacheChange) {o : KvObject} (ho : e.stored = some o) :
    ∃ q, e.prefilled = some q ∧ 0 < q.promptTokens ∧ o.key = q.promptKey := by
  obtain ⟨q, loc, ⟨n, i, hevent⟩, hrequest, hpos, rfl⟩ := h.stored_spec ho
  refine ⟨q, ?_, hpos, rfl⟩
  rw [Happening.prefilled, hevent]
  exact hrequest

end Happening

namespace CacheAwareRunner

variable {C P T : Type} {fresh r s : CacheAwareRunner C P T} {earlier past : List (Happening C P T)}
  {e : Happening C P T} {requests : List LlmRequest} {key : UInt64 × UInt32}

theorem prefills_concat {q : LlmRequest} (hq : e.prefilled = some q) :
    prefills (past ++ [e]) = prefills past ++ [q] := by
  simp [prefills, hq]

variable [ComputeModel C] [PlacementPolicy P] [TransferModel T]

/-- The keys of the prompts are used once each. -/
theorem Past.nodup_promptKeys (hpast : Past (r.start requests) past s) (hids : DistinctIds requests)
    (hkeys : (promptKeys requests).Nodup) : (promptKeys (prefills past)).Nodup := by
  obtain ⟨l, hperm, hsub⟩ := hpast.prefills_subperm hids
  have hperm' : (promptKeys l).Perm (promptKeys (prefills past)) := (hperm.filter _).map _
  exact hperm'.nodup_iff.1 (hkeys.sublist ((hsub.filter _).map _))

variable [Placing P]

/-- The keys in the cache were there before the run, or belong to prompts that have
been prefilled. -/
theorem Past.files (hpast : Past (r.start requests) past s) (hfiles : s.cache.Files key) :
    r.cache.Files key ∨ key ∈ promptKeys (prefills past) := by
  induction hpast with
  | nil => exact .inl hfiles
  | @step past s s' now event sim _ hnext hstep ih =>
    have hchange : (Happening.mk s now event s').CacheChange := step_cacheChange hnext hstep
    rcases hchange.files hfiles with hfiles | ⟨o, ho, rfl⟩
    · refine (ih hfiles).imp_right fun hmem => ?_
      rw [prefills, List.filterMap_append, promptKeys, List.filter_append, List.map_append]
      exact List.mem_append_left _ hmem
    · obtain ⟨q, hq, hpos, hkey⟩ := hchange.prefilled ho
      rw [prefills_concat hq, promptKeys_concat, if_pos hpos, hkey]
      exact .inr (List.mem_append_right _ (List.mem_singleton_self _))

/-- **Nothing goes out of reach** when all prompts have keys of their own. -/
theorem Past.reachable (hfresh : fresh.cache.Sound) (h : Session fresh earlier r)
    (hr : r.cache.Reachable) (hids : DistinctIds requests) (hkeys : (promptKeys requests).Nodup)
    (hnew : ∀ key ∈ promptKeys requests, ¬r.cache.Files key)
    (hpast : Past (r.start requests) past s) (hmax : s.cache.nextKvId ≠ UInt64.maxValue) :
    s.cache.Reachable := by
  induction hpast with
  | nil => exact hr
  | @step past s s' now event sim hbefore hnext hstep ih =>
    have hmax' := (step_cache hnext hstep).nextKvId_ne hmax
    have hchange : (Happening.mk s now event s').CacheChange := step_cacheChange hnext hstep
    have hpast : Past (r.start requests) (past ++ [⟨s, now, event, s'⟩]) s' :=
      hbefore.step hnext hstep
    refine hchange.reachable (h.sound hfresh hbefore hmax') (ih hmax') fun o ho hfiles => ?_
    obtain ⟨q, hq, hpos, hkey⟩ := hchange.prefilled ho
    rw [hkey] at hfiles
    have hprefills : prefills (past ++ [⟨s, now, event, s'⟩]) = prefills past ++ [q] :=
      prefills_concat hq
    rcases hbefore.files hfiles with hold | hmem
    · -- the prompt is one of the trace, whose keys are new to the cache
      have hq' : q ∈ requests := (hpast.prefills_subperm hids).subset (by simp [hprefills])
      exact hnew _ (List.mem_map_of_mem (List.mem_filter.2 ⟨hq', by simpa using hpos⟩)) hold
    · have hnodup := hpast.nodup_promptKeys hids hkeys
      rw [hprefills, promptKeys_concat, if_pos hpos] at hnodup
      exact (List.nodup_append.1 hnodup).2.2 _ hmem _ (List.mem_singleton_self _) rfl

end CacheAwareRunner

section

open CacheAwareRunner

variable {C P T : Type} [ComputeModel C] [PlacementPolicy P] [TransferModel T] [Placing P]

/-- **Exact look-ups.** Let the requests of a run have prompts with keys of their own, which no
object of the cache has when the run begins, and let every object be reachable then. With any of the
policies and at any time of the run, a look-up finds exactly the object that is resident under its
key. (The ids of the cache must not be used up.) -/
theorem lookups_exact (iterOrder : IterOrder) (config : ServingConfig) (cluster : ClusterTopology)
    (compute : C) (transfer : T) (profile : ModelProfile) (placement : P)
    (requests : List LlmRequest) {earlier past : List (Happening C P T)}
    {r s : CacheAwareRunner C P T}
    (h : Session (.new iterOrder config cluster compute transfer profile placement) earlier r)
    (hr : r.cache.Reachable) (hids : DistinctIds requests) (hkeys : (promptKeys requests).Nodup)
    (hnew : ∀ key ∈ promptKeys requests, ¬r.cache.Files key)
    (hpast : Past (r.start requests) past s) (hmax : s.cache.nextKvId ≠ UInt64.maxValue)
    (sessionId : UInt64) (prefixTokens : UInt32) (kv : KvObject) :
    s.cache.lookup sessionId prefixTokens = some kv ↔
      kv.key = (sessionId, prefixTokens) ∧ s.cache.objects.get kv.kvId = some kv := by
  have hfresh := (blank_new iterOrder config cluster compute transfer profile placement).sound
  exact lookup_iff (hpast.reachable hfresh h hr hids hkeys hnew hmax)
    (h.sound hfresh hpast hmax).indexed sessionId prefixTokens

end

/-- After the arrival of the second request of a session, the prompt of the first one is found. -/
theorem lookups_exact_pair : ∃ kv, ((twoModels "a").replay 4).2.cache.lookup 0 8 = some kv ∧
    kv.key = (0, 8) ∧ ((twoModels "a").replay 4).2.cache.objects.get kv.kvId = some kv := by
  have hblank := CacheAwareRunner.blank_new .ascending ⟨1, 1, 1⟩ (.singleNode 1 1)
    LinearComputeModel.conservative8b AnalyticalTransferModel.rdma400g .llama8bBf16Gqa
    (LocalGpuLru.mk 0)
  have hsome : (((twoModels "a").replay 4).2.cache.lookup 0 8).isSome := by decide +kernel
  obtain ⟨kv, hkv⟩ := Option.isSome_iff_exists.1 hsome
  refine ⟨kv, hkv, (lookups_exact .ascending ⟨1, 1, 1⟩ (.singleNode 1 1)
    LinearComputeModel.conservative8b AnalyticalTransferModel.rdma400g .llama8bBf16Gqa
    (LocalGpuLru.mk 0) (modelTrace "a") .fresh ?_ (by decide) (by decide) ?_
    (CacheAwareRunner.past_replay (twoModels "a") 4) (by decide +kernel) 0 8 kv).1 hkv⟩
  · intro k o hk
    simp [hblank.objects] at hk
  · rintro key - ⟨k, o, hk, -⟩
    simp [hblank.objects] at hk

end KvFlowSim
