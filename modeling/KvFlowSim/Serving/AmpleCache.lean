import KvFlowSim.Serving.Punctual
import KvFlowSim.Serving.LeftOver
import Mathlib.Algebra.Order.BigOperators.Group.List
import Mathlib.Algebra.Order.Ring.Nat

/-!
# A GPU cache with room for everything

If the GPU tier of the target node can hold the KV of all prompts of a trace, `LocalGpuLru` never
evicts anything and every object is on a GPU. The index of the cache then has exactly the prefixes
whose prefill has been completed (`Stocked`), so an arrival is a hit if and only if the prefix that
it could reuse is one of them (`hits_reusable`).
-/

namespace KvFlowSim

open ServingState CacheState

/-! ## The cache -/

/-- The place of the KV of the prompt in the index. -/
def LlmRequest.promptKey (q : LlmRequest) : UInt64 × UInt32 := (q.sessionId, q.promptTokens)

namespace CacheState

variable {c : CacheState} {keys : List (UInt64 × UInt32)} {obj : KvObject}

/-- The cache has an object for each of the keys and for no other, and all objects are on GPUs. -/
structure Stocked (keys : List (UInt64 × UInt32)) (c : CacheState) : Prop where
  onGpu : ∀ k o, c.objects.get k = some o → o.location.tier = some .gpu
  filed : ∀ key k, c.bySessionPrefix.lookup key = some k → (c.objects.get k).isSome
  keys : ∀ key, (c.bySessionPrefix.lookup key).isSome ↔ key ∈ keys

theorem Blank.stocked (h : c.Blank) : c.Stocked [] where
  onGpu k o hk := by simp [h.objects] at hk
  filed key k hk := by simp [h.index] at hk
  keys key := by simp [h.index]

/-- A look-up succeeds for the keys, and what it finds is on a GPU. -/
theorem Stocked.lookup (h : c.Stocked keys) (sessionId : UInt64) (prefixTokens : UInt32) :
    ((c.lookup sessionId prefixTokens).isSome ↔ (sessionId, prefixTokens) ∈ keys) ∧
      ∀ kv ∈ c.lookup sessionId prefixTokens, kv.location.tier = some .gpu := by
  refine ⟨?_, fun kv hkv => ?_⟩
  · rw [← h.keys, CacheState.lookup]
    cases hindex : c.bySessionPrefix.lookup (sessionId, prefixTokens) with
    | none => rfl
    | some k => simp [h.filed _ k hindex]
  · obtain ⟨k, -, hk⟩ := Option.bind_eq_some_iff.1 hkv
    exact h.onGpu k kv hk

theorem Stocked.updateAccess (h : c.Stocked keys) (k : KvId) (now : UInt64) :
    (c.updateAccess k now).Stocked keys := by
  cases hget : c.objects.get k with
  | none => rwa [updateAccess_of_get_none hget]
  | some obj =>
    have hindex : (c.updateAccess k now).bySessionPrefix = c.bySessionPrefix := by
      simp only [CacheState.updateAccess, hget]
    refine ⟨fun k' o hk' => ?_, fun key k' hk' => ?_, fun key => by rw [hindex, h.keys]⟩
    · rw [get_updateAccess hget] at hk'
      split_ifs at hk'
      · obtain rfl := Option.some.inj hk'
        exact h.onGpu k obj hget
      · exact h.onGpu k' o hk'
    · rw [get_updateAccess hget]
      split_ifs
      · rfl
      · exact h.filed key k' (hindex ▸ hk')

theorem Stocked.store (h : c.Stocked keys) (hgpu : obj.location.tier = some .gpu) :
    (c.allocKvId.2.store obj).Stocked (keys ++ [obj.key]) := by
  have hindex : ∀ key, (c.allocKvId.2.store obj).bySessionPrefix.lookup key =
      if key = obj.key then some obj.kvId else c.bySessionPrefix.lookup key :=
    fun key => Finmap.lookup_insert_eq _ _ _ _
  have hget : ∀ k, (c.allocKvId.2.store obj).objects.get k =
      if k = obj.kvId then some obj else c.objects.get k := fun k => get_store _ _ _
  refine ⟨fun k o hk => ?_, fun key k hk => ?_, fun key => ?_⟩
  · rw [hget] at hk
    split_ifs at hk
    · obtain rfl := Option.some.inj hk
      exact hgpu
    · exact h.onGpu k o hk
  · rw [hindex] at hk
    rw [hget]
    split_ifs with hid
    · rfl
    · split_ifs at hk
      · exact absurd (Option.some.inj hk).symm hid
      · exact h.filed key k hk
  · rw [hindex, List.mem_append, List.mem_singleton, ← h.keys]
    split_ifs with hkey <;> simp [hkey]

end CacheState

/-- With room on a GPU the KV is stored there, and nothing else changes. -/
theorem LocalGpuLru.place_of_room {C T : Type} [ComputeModel C] [TransferModel T]
    (self : LocalGpuLru) (kvId : KvId) (sessionId : UInt64) (prefixTokens : UInt32)
    (bytes now : UInt64) {cluster : ClusterTopology} {c : CacheState} (compute : C) (transfer : T)
    (hgpu : cluster.HasGpu self.targetNode)
    (hroom : bytes ≤ c.availableSpace self.targetNode .gpu) :
    ∃ gpuId,
      PlacementPolicy.place self kvId sessionId prefixTokens bytes now cluster c compute transfer =
      ⟨.ok (.gpu self.targetNode gpuId, []), self,
        c.store (newObject kvId sessionId prefixTokens bytes now (.gpu self.targetNode gpuId)),
        transfer⟩ := by
  obtain ⟨gpuId, hfound⟩ := findGpuWithSpace_of_space ⟨hgpu, hroom⟩
  refine ⟨gpuId, ?_⟩
  simp only [PlacementPolicy.place, placeObject, hfound]
  rw [insertAt_of_room (n := self.targetNode) (t := .gpu) rfl hroom]
  rfl

/-! ## The cluster -/

theorem ClusterTopology.HasGpu.of_sameShape {cluster cluster' : ClusterTopology} {n : NodeId}
    (hgpu : cluster.HasGpu n) (h : cluster.SameShape cluster') : cluster'.HasGpu n := by
  obtain ⟨node, hnode, hne⟩ := hgpu
  have hrel := h.rel_head n
  rw [hnode] at hrel
  cases hnode' : cluster'.node n with
  | none =>
    rw [hnode'] at hrel
    cases hrel
  | some node' =>
    rw [hnode'] at hrel
    cases hrel with
    | some hhead =>
      refine ⟨node', hnode', fun hnil => ?_⟩
      obtain ⟨gpu, gpus, hgpus⟩ := List.exists_cons_of_ne_nil hne
      rw [hnil, hgpus] at hhead
      cases hhead

/-! ## The prefills of a run -/

/-- The request whose prefill the event completes. -/
def Happening.prefilled {C P T : Type} (e : Happening C P T) : Option LlmRequest :=
  match e.event with
  | .prefillDone .. => e.request
  | _ => none

/-- The requests whose prefill has been completed. -/
def prefills {C P T : Type} (past : List (Happening C P T)) : List LlmRequest :=
  past.filterMap Happening.prefilled

/-- The keys under which the KV of the prompts is filed. -/
def promptKeys (l : List LlmRequest) : List (UInt64 × UInt32) :=
  (l.filter fun q => 0 < q.promptTokens).map LlmRequest.promptKey

/-- What the KV of the prompts takes. -/
def promptBytes (profile : ModelProfile) (l : List LlmRequest) : ℕ :=
  (l.map fun q => (profile.kvBytes q.promptTokens).toNat).sum

theorem promptKeys_concat (l : List LlmRequest) (q : LlmRequest) :
    promptKeys (l ++ [q]) = promptKeys l ++ if 0 < q.promptTokens then [q.promptKey] else [] := by
  rw [promptKeys, List.filter_append, List.map_append, ← promptKeys]
  split_ifs with hpos <;> simp [hpos]

theorem promptBytes_concat (profile : ModelProfile) (l : List LlmRequest) (q : LlmRequest) :
    promptBytes profile (l ++ [q]) =
      promptBytes profile l + (profile.kvBytes q.promptTokens).toNat := by
  simp [promptBytes]

theorem promptBytes_le {profile : ModelProfile} {l l' : List LlmRequest} (h : l.Subperm l') :
    promptBytes profile l ≤ promptBytes profile l' := by
  obtain ⟨l₁, hperm, hsub⟩ := h
  have hsum := (hperm.map fun q => (profile.kvBytes q.promptTokens).toNat).sum_eq
  have hle := (hsub.map fun q => (profile.kvBytes q.promptTokens).toNat).sum_le_sum
    fun _ _ => Nat.zero_le _
  exact hsum.symm.trans_le hle

/-- The prefix of the request is the prompt of another one of its session, whose prefill was
completed before the request arrives. -/
def Reusable {C P T : Type} (past : List (Happening C P T)) (q : LlmRequest) : Prop :=
  0 < q.reusedPrefixTokens ∧ ∃ e ∈ past, ∃ q₀ ∈ e.prefilled,
    q₀.sessionId = q.sessionId ∧ q₀.promptTokens = q.reusedPrefixTokens ∧ e.nowNs < q.arrivalNs

instance {C P T : Type} (past : List (Happening C P T)) (q : LlmRequest) :
    Decidable (Reusable past q) :=
  inferInstanceAs (Decidable (_ ∧ _))

/-- What comes later does not matter to a request that has arrived. -/
theorem reusable_concat {C P T : Type} {past : List (Happening C P T)} {e : Happening C P T}
    {q : LlmRequest} (hle : q.arrivalNs ≤ e.nowNs) :
    Reusable (past ++ [e]) q ↔ Reusable past q := by
  refine and_congr_right fun _ => ?_
  constructor
  · rintro ⟨e', he', q₀, hprefilled, hsession, htokens, hlt⟩
    rcases List.mem_append.1 he' with he' | he'
    · exact ⟨e', he', q₀, hprefilled, hsession, htokens, hlt⟩
    · rw [List.mem_singleton.1 he'] at hlt
      exact absurd hlt hle.not_gt
  · rintro ⟨e', he', hrest⟩
    exact ⟨e', List.mem_append_left _ he', hrest⟩

namespace CacheAwareRunner

section

variable {C P T : Type} [ComputeModel C] [PlacementPolicy P] [TransferModel T]
  {r s : CacheAwareRunner C P T} {past : List (Happening C P T)} {e : Happening C P T}
  {requests : List LlmRequest}

/-- Every request is prefilled at most once. -/
theorem Past.prefills_subperm (hpast : Past (r.start requests) past s)
    (hids : DistinctIds requests) :
    (prefills past).Subperm requests := by
  have hsplit : ∀ l : List (Happening C P T),
      (∀ e ∈ l, ∃ q, e.request = some q ∧ q.requestId = e.event.requestId) →
      (prefills l).map (·.requestId) =
        (l.filter fun e => e.event.weight = 2).map fun e => e.event.requestId := by
    intro l hl
    induction l with
    | nil => rfl
    | cons e l ih =>
      obtain ⟨q, hq, hid⟩ := hl e List.mem_cons_self
      have ih := ih fun e he => hl e (List.mem_cons_of_mem _ he)
      cases hevent : e.event with
      | prefillDone id n i =>
        rw [hevent] at hid
        simp only [prefills, List.filterMap_cons, Happening.prefilled, hevent, hq] at ih ⊢
        simp [ServingEvent.weight, hevent, hid, ih]
      | requestArrival | fetchDone | decodeDone =>
        simp only [prefills, List.filterMap_cons, Happening.prefilled, hevent] at ih ⊢
        simp [ServingEvent.weight, hevent, ih]
  have hmem : ∀ q ∈ prefills past, q ∈ requests := by
    intro q hq
    obtain ⟨e, he, hprefilled⟩ := List.mem_filterMap.1 hq
    obtain ⟨q', hq', hrequest, -⟩ := hpast.exists_request hids he
    unfold Happening.prefilled at hprefilled
    split at hprefilled
    · exact Option.some.inj (hrequest.symm.trans hprefilled) ▸ hq'
    · cases hprefilled
  have hnodup : ((prefills past).map (·.requestId)).Nodup := by
    rw [hsplit past fun e he => (hpast.exists_request hids he).imp fun q h => h.2]
    exact Multiset.coe_nodup.1
      (Multiset.nodup_of_le ((Multiset.le_add_right _ _).trans (hpast.once 2))
      (Multiset.coe_nodup.2 hids))
  exact hnodup.of_map.subperm hmem

end

section

variable {C T : Type} {r r' s s' : CacheAwareRunner C LocalGpuLru T}
  {past : List (Happening C LocalGpuLru T)} {n : NodeId} {profile : ModelProfile} {now : UInt64}
  {event : ServingEvent} {sim : Simulator ServingEvent}

/-- The cache has the KV of every completed prefill on a GPU, and nothing has gone wrong so far. -/
structure Amply (n : NodeId) (profile : ModelProfile) (past : List (Happening C LocalGpuLru T))
    (s : CacheAwareRunner C LocalGpuLru T) : Prop where
  stocked : s.cache.Stocked (promptKeys (prefills past))
  usage : (s.cache.usage n .gpu).toNat = promptBytes profile (prefills past)
  placement : s.placement = ⟨n⟩
  profile : s.profile = profile
  hasGpu : s.cluster.HasGpu n
  errors : s.hits.placementErrors = 0
  evicted : s.evictedBytes = 0
  unmarked : ∀ id, s.tierOf id = none

/-- What an arrival finds is on a GPU, and it finds what has been prefilled. -/
theorem Amply.reusableKv (h : s.Amply n profile past) (inflight : InFlightRequest) :
    ((s.reusableKv inflight).isSome ↔ 0 < inflight.request.reusedPrefixTokens ∧
      (inflight.request.sessionId, inflight.request.reusedPrefixTokens) ∈ promptKeys
        (prefills past)) ∧
    ∀ kv ∈ s.reusableKv inflight, kv.location.tier = some .gpu := by
  have hlookup := h.stocked.lookup inflight.request.sessionId inflight.request.reusedPrefixTokens
  unfold CacheAwareRunner.reusableKv
  dsimp only
  split_ifs with hpos
  · exact ⟨hlookup.1.trans (and_iff_right hpos).symm, hlookup.2⟩
  · simp [hpos]

/-- An event that completes no prefill leaves everything as it was, but for accesses. -/
theorem Amply.quiet (h : s.Amply n profile past)
    (hprefilled : (Happening.mk s now event s').prefilled = none)
    (hcache : s'.cache = s.cache ∨ ∃ k, s'.cache = s.cache.updateAccess k now)
    (hrest : { s'.rest with
      cache := s.cache, hits := s.hits, recomputedTokens := s.recomputedTokens } = s.rest)
    (herrors : s'.hits.placementErrors = s.hits.placementErrors)
    (hgpu : s'.cluster.HasGpu n) (hunmarked : ∀ id, s'.tierOf id = none) :
    s'.Amply n profile (past ++ [⟨s, now, event, s'⟩]) := by
  have hsame : prefills (past ++ [⟨s, now, event, s'⟩]) = prefills past := by
    rw [prefills, List.filterMap_append, List.filterMap_cons_none hprefilled]
    exact List.append_nil _
  refine ⟨?_, ?_, (congrArg Rest.placement hrest).trans h.placement,
    (congrArg Rest.profile hrest).trans h.profile, hgpu, herrors.trans h.errors,
    (congrArg Rest.evictedBytes hrest).trans h.evicted, hunmarked⟩
  · rw [hsame]
    rcases hcache with hcache | ⟨k, hcache⟩
    · exact hcache ▸ h.stocked
    · exact hcache ▸ h.stocked.updateAccess k now
  · rw [hsame, ← h.usage]
    rcases hcache with hcache | ⟨k, hcache⟩
    · rw [hcache]
    · rw [hcache, usage_updateAccess]

variable [ComputeModel C] [TransferModel T]

/-- The KV store step, with room on a GPU. -/
theorem storeKv_of_room (now : UInt64) {id : UInt64} {inflight : InFlightRequest}
    (hin : r.inFlight.get id = some inflight) (hpos : 0 < inflight.request.promptTokens)
    (hgpu : r.cluster.HasGpu r.placement.targetNode)
    (hroom : r.profile.kvBytes inflight.request.promptTokens ≤
      r.cache.availableSpace r.placement.targetNode .gpu) :
    ∃ gpuId, (r.storeKv now id).rest = { r.rest with
      cache := r.cache.allocKvId.2.store (newObject r.cache.nextKvId inflight.request.sessionId
        inflight.request.promptTokens (r.profile.kvBytes inflight.request.promptTokens) now
        (.gpu r.placement.targetNode gpuId)) } := by
  obtain ⟨gpuId, hplace⟩ := r.placement.place_of_room r.cache.allocKvId.1 inflight.request.sessionId
    inflight.request.promptTokens (r.profile.kvBytes inflight.request.promptTokens) now
    (c := r.cache.allocKvId.2) r.compute r.transfer hgpu hroom
  refine ⟨gpuId, ?_⟩
  rw [storeKv_of_get hin hpos, placed, hplace]
  rfl

/-- A completed prefill of a request with a prompt adds the KV of the prompt. -/
theorem Amply.stored (h : s.Amply n profile past) {inflight : InFlightRequest} {s₁ : ServingState}
    (hprefilled : (Happening.mk s now event s').prefilled = some inflight.request)
    (hin : s₁.inFlight.get inflight.id = some inflight)
    (hroom : promptBytes profile (prefills (past ++ [⟨s, now, event, s'⟩])) ≤
      (s.cache.capacity n .gpu).toNat)
    (hgpu₁ : s₁.cluster.HasGpu n) (hgpu : s'.cluster.HasGpu n)
      (hunmarked : ∀ id, s'.tierOf id = none)
    (hrest : s'.rest = ({ s with toServingState := s₁ }.storeKv now inflight.id).rest) :
    s'.Amply n profile (past ++ [⟨s, now, event, s'⟩]) := by
  have hconcat : prefills (past ++ [⟨s, now, event, s'⟩]) =
      prefills past ++ [inflight.request] := by
    rw [prefills, List.filterMap_append, List.filterMap_cons_some hprefilled]
    rfl
  rw [hconcat, promptBytes_concat] at hroom
  by_cases hpos : 0 < inflight.request.promptTokens
  · have husage := h.usage
    have havailable : s.profile.kvBytes inflight.request.promptTokens ≤
        s.cache.availableSpace n .gpu := by
      rw [availableSpace, UInt64.le_iff_toNat_le, UInt64.toNat_satSub, h.profile]
      omega
    have htarget : s.placement.targetNode = n := congrArg LocalGpuLru.targetNode h.placement
    obtain ⟨gpuId, hstore⟩ := storeKv_of_room (r := { s with toServingState := s₁ }) now hin hpos
      (htarget.symm ▸ hgpu₁) (htarget.symm ▸ havailable)
    rw [hstore, htarget] at hrest
    obtain ⟨obj, hobj⟩ : ∃ obj, obj = newObject s.cache.nextKvId inflight.request.sessionId
      inflight.request.promptTokens (s.profile.kvBytes inflight.request.promptTokens) now
      (.gpu n gpuId) := ⟨_, rfl⟩
    have hcache : s'.cache = s.cache.allocKvId.2.store obj := by
      rw [hobj]
      exact congrArg Rest.cache hrest
    have hslot : obj.location.slot = some (n, .gpu) := by rw [hobj]; rfl
    have htier : obj.location.tier = some .gpu := by rw [hobj]; rfl
    have hkey : obj.key = inflight.request.promptKey := by rw [hobj]; rfl
    have hbytes : obj.bytes = s.profile.kvBytes inflight.request.promptTokens := by rw [hobj]; rfl
    refine ⟨?_, ?_, (congrArg Rest.placement hrest).trans h.placement,
      (congrArg Rest.profile hrest).trans h.profile, hgpu,
      (congrArg (fun x => x.hits.placementErrors) hrest).trans h.errors,
      (congrArg Rest.evictedBytes hrest).trans h.evicted, hunmarked⟩
    · rw [hconcat, promptKeys_concat, if_pos hpos, hcache, ← hkey]
      exact h.stocked.store htier
    · have hle : s.cache.usage n .gpu ≤ s.cache.capacity n .gpu := by
        rw [UInt64.le_iff_toNat_le]
        omega
      have hsum := UInt64.toNat_add_of_le havailable
      rw [hconcat, promptBytes_concat, hcache, usage_store hslot, if_pos rfl,
        usage_alloc, hbytes, hsum, h.usage, h.profile]
  · have hzero : inflight.request.promptTokens = 0 := by simpa [UInt32.pos_iff_ne_zero] using hpos
    rw [storeKv_of_zero (r := { s with toServingState := s₁ }) hin hzero] at hrest
    have hcache : s'.cache = s.cache := congrArg Rest.cache hrest
    refine ⟨?_, ?_, (congrArg Rest.placement hrest).trans h.placement,
      (congrArg Rest.profile hrest).trans h.profile, hgpu,
      (congrArg (fun x => x.hits.placementErrors) hrest).trans h.errors,
      (congrArg Rest.evictedBytes hrest).trans h.evicted, hunmarked⟩
    · rw [hconcat, promptKeys_concat, if_neg hpos, List.append_nil, hcache]
      exact h.stocked
    · rw [hconcat, promptBytes_concat, hcache, h.usage, hzero]
      simp [ModelProfile.kvBytes]

/-- **One event.** As long as the GPU tier has room for the prompts that have been prefilled, it has
their KV. -/
theorem Amply.step (h : s.Amply n profile past) (hnext : s.sim.step = some (now, event, sim))
    (hstep : EventLoop.Step CacheAwareRunner.step s s')
    (hroom : promptBytes profile (prefills (past ++ [⟨s, now, event, s'⟩])) ≤
      (s.cache.capacity n .gpu).toNat) : s'.Amply n profile (past ++ [⟨s, now, event, s'⟩]) := by
  have hshape := (step_advance hstep).sameShape (ClusterTopology.SameShape.refl s.cluster)
  have hgpu : s'.cluster.HasGpu n := h.hasGpu.of_sameShape hshape
  have heffect := step_cases hnext hstep
  have hunmarked : ∀ id, s'.tierOf id = none := by
    intro id
    refine Option.eq_none_iff_forall_ne_some.2 fun tier htier => ?_
    rcases heffect.tierOf htier with hold | ⟨inflight, kv, -, -, hfound, hloc, hcounter⟩
    · exact absurd (hold.symm.trans (h.unmarked id)) (by simp)
    · rw [(h.reusableKv inflight).2 kv hfound] at hloc
      rw [← Option.some.inj hloc] at hcounter
      cases hcounter
  have hquiet : ∀ {hits : CacheHitStats} {tokens : UInt64} {cache : CacheState},
      (Happening.mk s now event s').prefilled = none →
      s'.rest = { s.rest with cache := cache, hits := hits, recomputedTokens := tokens } →
      (cache = s.cache ∨ ∃ k, cache = s.cache.updateAccess k now) →
      hits.placementErrors = s.hits.placementErrors →
        s'.Amply n profile (past ++ [⟨s, now, event, s'⟩]) := by
    intro hits tokens cache hprefilled hrest hcache herrors
    have hcache' : s'.cache = cache := congrArg Rest.cache hrest
    have hhits' : s'.hits = hits := congrArg Rest.hits hrest
    refine h.quiet hprefilled (by rwa [hcache']) ?_ (by rwa [hhits']) hgpu hunmarked
    rw [hrest]
    rfl
  cases heffect with
  | absent hnone _ hrest =>
    refine hquiet ?_ hrest (.inl rfl) rfl
    have hin : s.inFlight.get event.requestId = none := hnone
    cases event with
    | prefillDone id m i =>
      simp only [Happening.prefilled, Happening.request, Happening.inflight, hin, Option.map_none]
    | requestArrival | fetchDone | decodeDone => rfl
  | arrived _ harrival =>
    cases harrival with
    | missed _ _ hrest => exact hquiet rfl hrest (.inl rfl) rfl
    | hit _ _ _ hrest => exact hquiet rfl hrest (.inr ⟨_, rfl⟩) rfl
    | fetching _ _ _ _ _ _ hrest => exact hquiet rfl hrest (.inl rfl) rfl
    | degraded _ _ _ _ hrest => exact hquiet rfl hrest (.inl rfl) rfl
  | @fetched inflight _ hin _ _ hrest =>
    rw [pendingFetchTier_of_get hin (h.unmarked _)] at hrest
    exact hquiet rfl hrest (.inl rfl) rfl
  | decoded _ _ _ hrest => exact hquiet rfl hrest (.inl rfl) rfl
  | @prefilled inflight m i s₁ _ hin hrelease _ _ hrest =>
    obtain ⟨cluster, hset, hs₁⟩ := Except.bind_eq_ok.1 hrelease
    have hshape₁ : s.cluster.SameShape s₁.cluster := by
      rw [← Except.ok.inj hs₁]
      exact ClusterTopology.SameShape.setBusyUntil (.refl s.cluster) hset
    have hin₁ : s₁.inFlight.get inflight.id = some inflight := by
      rw [inFlight_releaseGpu hrelease, hin]
    have hin' : s.inFlight.get inflight.id = some inflight := hin
    refine h.stored ?_ hin₁ hroom (h.hasGpu.of_sameShape hshape₁) hgpu hunmarked hrest
    simp only [Happening.prefilled, Happening.request, Happening.inflight,
      ServingEvent.requestId, hin', Option.map_some]

variable {requests : List LlmRequest} {e : Happening C LocalGpuLru T}

/-- With room for all prompts, the cache has the KV of every completed prefill throughout a run. -/
theorem Past.amply (hpast : Past (r.start requests) past s) (hids : DistinctIds requests)
    (hblank : r.cache.Blank) (hplacement : r.placement = ⟨n⟩) (hgpu : r.cluster.HasGpu n)
    (hroom : promptBytes r.profile requests ≤ (r.cache.capacity n .gpu).toNat) :
    s.Amply n r.profile past := by
  induction hpast with
  | nil =>
    have hcluster : (r.start requests).cluster = r.cluster := cluster_enterAll _ _
    refine ⟨hblank.stocked, ?_, hplacement, rfl, hcluster ▸ hgpu, rfl, rfl,
      fun id => tierOf_start r.cluster _ id⟩
    exact congrArg UInt64.toNat (hblank.usage (n, .gpu))
  | step hpast hnext hstep ih =>
    have hsession : Session r [] r := .fresh
    have hcapacity := (hsession.withinCapacity hblank.sound.withinCapacity hpast).2
    refine ih.step hnext hstep ?_
    rw [hcapacity]
    exact (promptBytes_le ((hpast.step hnext hstep).prefills_subperm hids)).trans hroom

/-- An arrival that is still to come can reuse what is in the cache. -/
theorem reusable_iff (hpast : Past (r.start requests) past s) (hids : DistinctIds requests)
    (hnext : s.sim.step = some (now, event, sim)) (harrival : event.isArrival = true)
    {inflight : InFlightRequest} (hin : s.inFlight.get event.requestId = some inflight) :
    (0 < inflight.request.reusedPrefixTokens ∧
      (inflight.request.sessionId, inflight.request.reusedPrefixTokens) ∈ promptKeys
        (prefills past)) ↔
      Reusable past inflight.request := by
  refine and_congr_right fun hpos => ?_
  simp only [promptKeys, prefills, List.mem_map, List.mem_filter, List.mem_filterMap,
    LlmRequest.promptKey, Prod.mk.injEq, decide_eq_true_eq]
  constructor
  · rintro ⟨q₀, ⟨⟨e, he, hprefilled⟩, -⟩, hsession, htokens⟩
    refine ⟨e, he, q₀, hprefilled, hsession, htokens, ?_⟩
    have hkind : e.event.isArrival = false ∧ e.event.isFetchDone = false := by
      unfold Happening.prefilled at hprefilled
      split at hprefilled
      next hevent => rw [hevent]; exact ⟨rfl, rfl⟩
      next => cases hprefilled
    have htime := ((hpast.punctual hids).pop hnext).2.1 harrival inflight hin
    obtain ⟨ev, rfl, hperm, hnow, -⟩ := Simulator.step_spec hnext
    have hev : ev ∈ s.sim.pending := hperm.mem_iff.2 List.mem_cons_self
    rw [← htime, hnow]
    exact (hpast.completed_before hids he hkind.1 hkind.2 hev harrival).trans_le (le_max_right _ _)
  · rintro ⟨e, he, q₀, hprefilled, hsession, htokens, -⟩
    exact ⟨q₀, ⟨⟨e, he, hprefilled⟩, htokens.symm ▸ hpos⟩, hsession, htokens⟩

/-- An event counts a request that arrives, as a hit if its prefix is there and as a
miss otherwise. -/
theorem Amply.credits (h : s.Amply n profile past) (hnext : s.sim.step = some (now, event, sim))
    (hstep : EventLoop.Step CacheAwareRunner.step s s') {c : Counter}
    (hc : (Happening.mk s now event s').credits c) :
    ∃ inflight, s.inFlight.get inflight.id = some inflight ∧ event = .requestArrival inflight.id ∧
      ((c = .hitsGpu ∧ (s.reusableKv inflight).isSome) ∨
        (c = .misses ∧ (s.reusableKv inflight).isSome = false)) := by
  have hno : ∀ hits : CacheHitStats, s'.hits = hits → hits.count c ≠ s.hits.count c := by
    rintro _ rfl
    exact hc.ne'
  have hcounted : ∀ c', s'.hits = s.hits.counted c' → c = c' := by
    intro c' hhits
    by_contra hne
    exact hno _ hhits (by rw [CacheHitStats.count_counted, if_neg hne, add_zero])
  have hgpu : ∀ {inflight : InFlightRequest} {kv : KvObject}, s.reusableKv inflight = some kv →
      kv.location.tier = some .gpu := fun hfound => (h.reusableKv _).2 _ hfound
  have hfetch : ∀ {inflight : InFlightRequest} {kv : KvObject} {tier : TierKind},
      s.reusableKv inflight = some kv → kv.location.tier = some tier → tier.fetchCounter.isSome →
        False := by
    intro inflight kv tier hfound htier hcounter
    rw [← Option.some.inj ((hgpu hfound).symm.trans htier)] at hcounter
    cases hcounter
  cases step_cases hnext hstep with
  | absent _ _ hrest => exact absurd rfl (hno _ (congrArg Rest.hits hrest))
  | @arrived inflight hin harrival =>
    refine ⟨inflight, hin, rfl, ?_⟩
    cases harrival with
    | missed hnone _ hrest =>
      refine .inr ⟨hcounted .misses (congrArg Rest.hits hrest), ?_⟩
      rw [← Bool.not_eq_true, Option.isSome_iff_exists]
      rintro ⟨kv, hfound⟩
      exact hnone kv hfound (hgpu hfound)
    | hit hfound _ _ hrest =>
      exact .inl ⟨hcounted .hitsGpu (congrArg Rest.hits hrest),
        Option.isSome_iff_exists.2 ⟨_, hfound⟩⟩
    | fetching hfound htier hcounter => exact (hfetch hfound htier hcounter).elim
    | degraded hfound htier hcounter => exact (hfetch hfound htier hcounter).elim
  | prefilled _ _ _ _ hrest =>
    obtain ⟨k, hk⟩ := hits_storeKv { s with toServingState := _ } now _
    refine absurd ?_ (hno _ ((congrArg Rest.hits hrest).trans hk))
    cases c <;> rfl
  | @fetched inflight _ hin _ _ hrest =>
    rw [pendingFetchTier_of_get hin (h.unmarked _)] at hrest
    exact absurd rfl (hno _ (congrArg Rest.hits hrest))
  | decoded _ _ _ hrest => exact absurd rfl (hno _ (congrArg Rest.hits hrest))

/-- Every request that is counted is a hit if it could reuse its prefix, and a miss otherwise. -/
theorem Past.credits_reusable (hpast : Past (r.start requests) past s) (hids : DistinctIds requests)
    (hamply : ∀ past s, Past (r.start requests) past s → s.Amply n profile past) (he : e ∈ past)
    {c : Counter} (hc : e.credits c) {q : LlmRequest} (hq : e.request = some q) :
    e.event.isArrival = true ∧
      ((c = .hitsGpu ∧ Reusable past q) ∨ (c = .misses ∧ ¬Reusable past q)) := by
  induction hpast with
  | nil => exact absurd he List.not_mem_nil
  | @step past s s' now event sim hpast hnext hstep ih =>
    have hconcat : ∀ e' ∈ past ++ [⟨s, now, event, s'⟩], e'.event.isArrival = true →
        e'.request = some q → (Reusable (past ++ [⟨s, now, event, s'⟩]) q ↔ Reusable past q) := by
      intro e' he' harrival hq'
      have htime := (hpast.step hnext hstep).arrivalNs_eq hids he' harrival hq'
      have hle := (hpast.step hnext hstep).nowNs_le he'
      rw [(step_clock hnext hstep).2] at hle
      exact reusable_concat (htime.symm.trans_le hle)
    rcases List.mem_append.1 he with hold | hnew
    · obtain ⟨harrival, hclass⟩ := ih hold
      exact ⟨harrival, by rwa [hconcat e he harrival hq]⟩
    · obtain rfl := List.mem_singleton.1 hnew
      obtain ⟨inflight, hin, hevent, hclass⟩ := (hamply past s hpast).credits hnext hstep hc
      have harrival : event.isArrival = true := by rw [hevent]; rfl
      refine ⟨harrival, ?_⟩
      rw [hconcat _ he harrival hq]
      have hin' : s.inFlight.get event.requestId = some inflight := by rw [hevent]; exact hin
      obtain rfl : inflight.request = q := by
        rw [Happening.request, Happening.inflight, hin'] at hq
        exact Option.some.inj hq
      have hiff := ((hamply past s hpast).reusableKv inflight).1.trans
        (reusable_iff hpast hids hnext harrival hin')
      rwa [← hiff, Bool.not_eq_true]

/-- **With an ample GPU cache, hits are exactly the reusable prefixes.** If the GPU tier of the
target node has room for the KV of all prompts, a request is a GPU hit if and only if its prefix is
the prompt of a request of its session whose prefill was completed before it arrives. All other
requests are misses, and nothing is evicted or refused. -/
theorem hits_reusable (iterOrder : IterOrder) (config : ServingConfig) (cluster : ClusterTopology)
    (compute : C) (transfer : T) (profile : ModelProfile) (placement : LocalGpuLru)
    (requests : List LlmRequest) (hids : DistinctIds requests)
    (hgpu : cluster.HasGpu placement.targetNode)
    (hroom : (requests.map fun q => (profile.kvBytes q.promptTokens).toNat).sum ≤
      ((new iterOrder config cluster compute transfer profile placement).cache.capacity
        placement.targetNode .gpu).toNat)
    {results : List RequestResult}
    (hrun : (new iterOrder config cluster compute transfer profile placement).run requests =
      .ok (results, r')) :
    ∃ past s, Past ((new iterOrder config cluster compute transfer profile placement).start
        requests) past s ∧ s.sim.pending = [] ∧ r' = s.delivered ∧
      (∀ q ∈ requests,
        ((∃ e ∈ past, e.request = some q ∧ e.credits .hitsGpu) ↔ Reusable past q) ∧
        ((∃ e ∈ past, e.request = some q ∧ e.credits .misses) ↔ ¬Reusable past q)) ∧
      r'.hits.hitsGpu = requests.countP (Reusable past) ∧
      r'.hits.misses = requests.countP (fun q => ¬Reusable past q) ∧
      r'.hits.hitsCpu = 0 ∧ r'.hits.hitsRemote = 0 ∧ r'.hits.placementErrors = 0 ∧
      r'.evictedBytes = 0 := by
  obtain ⟨past, s, hpast, hend, hr', -⟩ := exists_past_of_run hrun
  have hblank := blank_new iterOrder config cluster compute transfer profile placement
  have hamply : ∀ past s, Past
      ((new iterOrder config cluster compute transfer profile placement).start
      requests) past s → s.Amply placement.targetNode profile past :=
    fun past s hpast => hpast.amply hids hblank rfl hgpu hroom
  have hclass : ∀ q ∈ requests,
      ((∃ e ∈ past, e.request = some q ∧ e.credits .hitsGpu) ↔ Reusable past q) ∧
      ((∃ e ∈ past, e.request = some q ∧ e.credits .misses) ↔ ¬Reusable past q) := by
    intro q hq
    have hsort : ∀ e ∈ past, e.request = some q → ∀ c, e.credits c →
        (c = .hitsGpu ∧ Reusable past q) ∨ (c = .misses ∧ ¬Reusable past q) :=
      fun e he hrequest c hc => (hpast.credits_reusable hids hamply he hc hrequest).2
    obtain ⟨e, he, c, hrequest, hc⟩ := hpast.exists_credits hids hend hq
    refine ⟨⟨?_, fun hreusable => ?_⟩, ⟨?_, fun hnot => ?_⟩⟩
    · rintro ⟨e', he', hrequest', hc'⟩
      rcases hsort e' he' hrequest' .hitsGpu hc' with ⟨-, hreusable⟩ | ⟨hne, -⟩
      · exact hreusable
      · cases hne
    · rcases hsort e he hrequest c hc with ⟨rfl, -⟩ | ⟨-, hnot⟩
      · exact ⟨e, he, hrequest, hc⟩
      · exact absurd hreusable hnot
    · rintro ⟨e', he', hrequest', hc'⟩
      rcases hsort e' he' hrequest' .misses hc' with ⟨hne, -⟩ | ⟨-, hnot⟩
      · cases hne
      · exact hnot
    · rcases hsort e he hrequest c hc with ⟨-, hreusable⟩ | ⟨rfl, -⟩
      · exact absurd hreusable hnot
      · exact ⟨e, he, hrequest, hc⟩
  have hcount := hpast.count_eq hids hend
  -- no event is credited to the other two counters
  have hzero : ∀ c, c ≠ .hitsGpu → c ≠ .misses → s.hits.count c = 0 := by
    intro c hgpu' hmiss
    rw [hcount, List.countP_eq_zero]
    intro q _ hcredited
    obtain ⟨e, he, hrequest, hc⟩ := of_decide_eq_true hcredited
    rcases (hpast.credits_reusable hids hamply he hc hrequest).2 with ⟨heq, -⟩ | ⟨heq, -⟩
    · exact hgpu' heq
    · exact hmiss heq
  subst hr'
  refine ⟨past, s, hpast, hend, rfl, hclass, (hcount .hitsGpu).trans ?_, (hcount .misses).trans ?_,
    hzero .hitsCpu (by decide) (by decide), hzero .hitsRemote (by decide) (by decide),
    (hamply past s hpast).errors, (hamply past s hpast).evicted⟩
  · exact List.countP_congr fun q hq => by simpa using (hclass q hq).1
  · exact List.countP_congr fun q hq => by simpa using (hclass q hq).2

end

/-- Two requests of one session with room for both prompts. The prompt of the first is the prefix of
the second. -/
theorem hits_reusable_pair : ∃ results r' past s,
    (new .ascending ⟨1, 1, 1⟩ (.singleNode 1 1) LinearComputeModel.conservative8b
      AnalyticalTransferModel.rdma400g .llama8bBf16Gqa (LocalGpuLru.mk 0)).run (modelTrace "a") =
        .ok (results, r') ∧
      Past ((new .ascending ⟨1, 1, 1⟩ (.singleNode 1 1) LinearComputeModel.conservative8b
        AnalyticalTransferModel.rdma400g .llama8bBf16Gqa (LocalGpuLru.mk 0)).start (modelTrace "a"))
          past s ∧
      r'.hits.hitsGpu = (modelTrace "a").countP (Reusable past) ∧
      r'.hits.misses = (modelTrace "a").countP (fun q => ¬Reusable past q) ∧
        r'.evictedBytes = 0 := by
  have hok : ((new .ascending ⟨1, 1, 1⟩ (.singleNode 1 1) LinearComputeModel.conservative8b
      AnalyticalTransferModel.rdma400g .llama8bBf16Gqa (LocalGpuLru.mk 0)).run
        (modelTrace "a")).toOption.isSome = true := by
    decide +kernel
  obtain ⟨⟨results, r'⟩, hsome⟩ := Option.isSome_iff_exists.1 hok
  have hrun := Except.toOption_eq_some.1 hsome
  obtain ⟨past, s, hpast, -, -, -, hhits, hmisses, -, -, -, hevicted⟩ :=
    hits_reusable .ascending ⟨1, 1, 1⟩ (.singleNode 1 1) LinearComputeModel.conservative8b
      AnalyticalTransferModel.rdma400g .llama8bBf16Gqa ⟨0⟩ (modelTrace "a") (by decide)
      ⟨_, rfl, by decide⟩ (by decide +kernel) hrun
  exact ⟨results, r', past, s, hrun, hpast, hhits, hmisses, hevicted⟩

end CacheAwareRunner

end KvFlowSim
