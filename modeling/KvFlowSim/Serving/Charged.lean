import KvFlowSim.Serving.Once

/-!
# What a request is charged

The event that counts a request also adds the tokens that are prefilled for it to
`recomputed_tokens`: all of its prompt for a miss, only the new ones for a hit (`Charges`). No other
event adds to them, so at the end they are the sum over the requests, if that fits the
word (`Past.recomputedTokens_eq`).
-/

namespace KvFlowSim

open ServingState

/-- The tokens that are prefilled for a request that is counted so. -/
def Counter.tokens (c : Counter) (q : LlmRequest) : UInt32 :=
  if c = .misses then q.promptTokens else q.newPromptTokens

/-- The tokens of a list of counted requests. -/
def chargedTokens (l : List (LlmRequest × Counter)) : ℕ :=
  (l.map fun p => (p.2.tokens p.1).toNat).sum

theorem chargedTokens_concat (l : List (LlmRequest × Counter)) (q : LlmRequest) (c : Counter) :
    chargedTokens (l ++ [(q, c)]) = chargedTokens l + (c.tokens q).toNat := by
  simp [chargedTokens]

theorem UInt64.toNat_add_toUInt64 {a : UInt64} {t : UInt32} (h : a.toNat + t.toNat < 2 ^ 64) :
    (a + t.toUInt64).toNat = a.toNat + t.toNat ∧
    (a.satAdd t.toUInt64).toNat = a.toNat + t.toNat := by
  have hmax := UInt64.toNat_maxValue
  rw [UInt64.toNat_add, UInt64.toNat_satAdd, UInt32.toNat_toUInt64]
  omega

section

variable {C P T : Type}

/-- The request has been counted in the counter. -/
def CountedAs (past : List (Happening C P T)) (q : LlmRequest) (c : Counter) : Prop :=
  ∃ e ∈ past, e.request = some q ∧ e.credits c

instance (past : List (Happening C P T)) (q : LlmRequest) (c : Counter) :
    Decidable (CountedAs past q c) :=
  inferInstanceAs (Decidable (∃ e ∈ past, _))

theorem CountedAs.mono {past later : List (Happening C P T)} {q : LlmRequest} {c : Counter}
    (h : CountedAs past q c) (hsub : past ⊆ later) : CountedAs later q c :=
  h.imp fun _ he => he.imp_left fun hmem => hsub hmem

/-- The tokens that have to be prefilled for a request: all of its prompt if it has been counted as
a miss. -/
def tokensOf (past : List (Happening C P T)) (q : LlmRequest) : UInt32 :=
  if CountedAs past q .misses then q.promptTokens else q.newPromptTokens

/-- The event counts its request in `c`, and charges the tokens that are prefilled for it. -/
structure Charges (e : Happening C P T) (q : LlmRequest) (c : Counter) : Prop where
  request : e.request = some q
  hits : ∀ c', e.after.hits.count c' = e.before.hits.count c' + if c' = c then 1 else 0
  tokens : e.before.recomputedTokens.toNat + (c.tokens q).toNat < 2 ^ 64 →
    e.after.recomputedTokens.toNat = e.before.recomputedTokens.toNat + (c.tokens q).toNat

/-- The event counts no request and charges nothing. -/
structure Uncharged (e : Happening C P T) : Prop where
  hits : ∀ c, e.after.hits.count c = e.before.hits.count c
  tokens : e.after.recomputedTokens = e.before.recomputedTokens

theorem Charges.countedAs {e : Happening C P T} {q : LlmRequest} {c : Counter} (h : Charges e q c)
    (past : List (Happening C P T)) : CountedAs (past ++ [e]) q c := by
  refine ⟨e, List.mem_append_right _ (List.mem_singleton_self e), h.request, ?_⟩
  rw [Happening.credits, h.hits, if_pos rfl]
  exact Nat.lt_succ_self _

end

namespace CacheAwareRunner

variable {C P T : Type} {r r' : CacheAwareRunner C P T} {now : UInt64} {event : ServingEvent}
  {inflight : InFlightRequest}

theorem request_of_get (hin : r.inFlight.get event.requestId = some inflight) :
    (Happening.mk r now event r').request = some inflight.request := by
  rw [Happening.request, Happening.inflight, hin]
  rfl

/-- The two events that count a request as what it is found to be. -/
theorem charges_counted {c : Counter} {cache : CacheState}
    (hin : r.inFlight.get event.requestId = some inflight)
    (hrest : r'.rest = { r.rest with
      cache := cache
      hits := r.hits.counted c
      recomputedTokens := r.recomputedTokens + (c.tokens inflight.request).toUInt64 }) :
    Charges ⟨r, now, event, r'⟩ inflight.request c := by
  have hhits : r'.hits = r.hits.counted c := congrArg Rest.hits hrest
  have htokens : r'.recomputedTokens = r.recomputedTokens + (c.tokens inflight.request).toUInt64 :=
    congrArg Rest.recomputedTokens hrest
  refine ⟨request_of_get hin, fun c' => ?_, fun hlt => ?_⟩
  · show r'.hits.count c' = _
    rw [hhits, CacheHitStats.count_counted]
  · show r'.recomputedTokens.toNat = _
    rw [htokens, (UInt64.toNat_add_toUInt64 hlt).1]

theorem charges_degraded (hin : r.inFlight.get event.requestId = some inflight)
    (hrest : r'.rest = { r.rest with
      hits := { r.hits.counted .misses with fetchErrors := r.hits.fetchErrors + 1 }
      recomputedTokens := r.recomputedTokens.satAdd inflight.request.promptTokens.toUInt64 }) :
    Charges ⟨r, now, event, r'⟩ inflight.request .misses := by
  have hhits : r'.hits = { r.hits.counted .misses with fetchErrors := r.hits.fetchErrors + 1 } :=
    congrArg Rest.hits hrest
  have htokens : r'.recomputedTokens =
      r.recomputedTokens.satAdd inflight.request.promptTokens.toUInt64 :=
    congrArg Rest.recomputedTokens hrest
  refine ⟨request_of_get hin, fun c' => ?_, fun hlt => ?_⟩
  · show r'.hits.count c' = _
    rw [hhits]
    cases c' <;> rfl
  · show r'.recomputedTokens.toNat = _
    rw [htokens]
    exact (UInt64.toNat_add_toUInt64 hlt).2

theorem charges_fetched {c : Counter} {tier : TierKind}
    (hin : r.inFlight.get event.requestId = some inflight)
    (htier : inflight.pendingFetchTier = some tier) (hc : tier.fetchCounter = some c)
    (hrest : r'.rest = { r.rest with
      hits := inflight.pendingFetchTier.elim r.hits (creditFetch r.hits)
      recomputedTokens := r.recomputedTokens + inflight.request.newPromptTokens.toUInt64 }) :
    Charges ⟨r, now, event, r'⟩ inflight.request c := by
  have hhits : r'.hits = creditFetch r.hits tier := by
    rw [htier] at hrest
    exact congrArg Rest.hits hrest
  have htokens : r'.recomputedTokens =
      r.recomputedTokens + inflight.request.newPromptTokens.toUInt64 :=
    congrArg Rest.recomputedTokens hrest
  have hnew : c.tokens inflight.request = inflight.request.newPromptTokens := by
    cases tier <;> cases hc <;> rfl
  refine ⟨request_of_get hin, fun c' => ?_, fun hlt => ?_⟩
  · show r'.hits.count c' = _
    rw [hhits]
    cases tier <;> cases hc <;> cases c' <;> rfl
  · show r'.recomputedTokens.toNat = _
    rw [hnew] at hlt ⊢
    rw [htokens, (UInt64.toNat_add_toUInt64 hlt).1]

/-- The KV store step recomputes nothing. -/
theorem recomputedTokens_storeKv [ComputeModel C] [PlacementPolicy P] [TransferModel T]
    (r : CacheAwareRunner C P T) (now id : UInt64) :
    (r.storeKv now id).recomputedTokens = r.recomputedTokens := by
  unfold storeKv
  split
  · rfl
  · dsimp only
    split_ifs
    · split <;> rfl
    · rfl

variable [ComputeModel C] [PlacementPolicy P] [TransferModel T] {s s' : CacheAwareRunner C P T}
  {sim : Simulator ServingEvent} {past : List (Happening C P T)} {requests : List LlmRequest}

/-- A request whose fetch is done next has been marked for it. -/
theorem Past.fetch_marked (hpast : Past (r.start requests) past s) (hids : DistinctIds requests)
    {id : UInt64} (hnext : s.sim.step = some (now, .fetchDone id, sim)) :
    ∃ tier c, s.tierOf id = some tier ∧ tier.fetchCounter = some c := by
  obtain ⟨arrivals, h⟩ := hpast.balanced hids
  have hmarked : (s.tierOf id).isSome :=
    (h.marked id).2 ((waiting_step hnext).mem_iff.2 List.mem_cons_self)
  obtain ⟨tier, htier⟩ := Option.isSome_iff_exists.1 hmarked
  obtain ⟨c, hc⟩ := Option.isSome_iff_exists.1 (h.tiers id tier htier)
  exact ⟨tier, c, htier, hc⟩

/-- An event charges its request or nothing. -/
theorem Past.charges (hpast : Past (r.start requests) past s) (hids : DistinctIds requests)
    (hnext : s.sim.step = some (now, event, sim))
    (hstep : EventLoop.Step CacheAwareRunner.step s s') :
    (∃ q ∈ requests, ∃ c, q.requestId = event.requestId ∧ Charges ⟨s, now, event, s'⟩ q c) ∨
      Uncharged ⟨s, now, event, s'⟩ := by
  obtain ⟨inflight, hin, hmem, hid⟩ := hpast.exists_inFlight hids hnext
  cases step_cases hnext hstep with
  | absent hnone _ _ => exact absurd (hin.symm.trans hnone) (Option.some_ne_none _)
  | @arrived inflight' hin' h =>
    obtain rfl : inflight = inflight' := Option.some.inj (hin.symm.trans hin')
    cases h with
    | missed _ _ hrest => exact .inl ⟨_, hmem, .misses, hid, charges_counted hin hrest⟩
    | hit _ _ _ hrest => exact .inl ⟨_, hmem, .hitsGpu, hid, charges_counted hin hrest⟩
    | fetching _ _ _ _ _ _ hrest =>
      have hhits : s'.hits = { s.hits with pendingFetches := s.hits.pendingFetches + 1 } :=
        congrArg Rest.hits hrest
      refine .inr ⟨fun c => ?_, congrArg Rest.recomputedTokens hrest⟩
      show s'.hits.count c = _
      rw [hhits]
      cases c <;> rfl
    | degraded _ _ _ _ hrest => exact .inl ⟨_, hmem, .misses, hid, charges_degraded hin hrest⟩
  | @prefilled inflight n i s₁ _ _ _ _ _ hrest =>
    obtain ⟨k, hk⟩ := hits_storeKv { s with toServingState := s₁ } now inflight.id
    have hhits : s'.hits = { s.hits with placementErrors := k } :=
      (congrArg Rest.hits hrest).trans hk
    have htokens : s'.recomputedTokens = s.recomputedTokens :=
      (congrArg Rest.recomputedTokens hrest).trans (recomputedTokens_storeKv _ _ _)
    refine .inr ⟨fun c => ?_, htokens⟩
    show s'.hits.count c = _
    rw [hhits]
    cases c <;> rfl
  | @fetched inflight' _ hin' _ _ hrest =>
    obtain rfl : inflight = inflight' := Option.some.inj (hin.symm.trans hin')
    obtain ⟨tier, c, htier, hc⟩ := hpast.fetch_marked hids hnext
    have hmark : inflight.pendingFetchTier = some tier := by
      rwa [tierOf, show s.inFlight.get inflight.id = some inflight from hin] at htier
    exact .inl ⟨_, hmem, c, hid, charges_fetched hin hmark hc hrest⟩
  | decoded _ _ _ hrest =>
    have hhits : s'.hits = s.hits := congrArg Rest.hits hrest
    exact .inr ⟨fun c => congrArg (CacheHitStats.count · c) hhits,
      congrArg Rest.recomputedTokens hrest⟩

/-- As long as they fit the word, the recomputed tokens are those of the requests counted so far. -/
theorem Past.charged (hpast : Past (r.start requests) past s) (hids : DistinctIds requests) :
    ∃ l : List (LlmRequest × Counter), counted past = (l.map fun p => (p.1.requestId, p.2)) ∧
      (∀ p ∈ l, p.1 ∈ requests ∧ CountedAs past p.1 p.2) ∧
      (chargedTokens l < 2 ^ 64 → s.recomputedTokens.toNat = chargedTokens l) := by
  induction hpast with
  | nil => exact ⟨[], rfl, fun p hp => absurd hp List.not_mem_nil, fun _ => rfl⟩
  | @step past s s' now event sim hpast hnext hstep ih =>
    obtain ⟨l, hcounted, hmem, hsum⟩ := ih
    rcases hpast.charges hids hnext hstep with ⟨q, hq, c, hid, hcharges⟩ | huncharged
    · refine ⟨l ++ [(q, c)], ?_, fun p hp => ?_, fun hlt => ?_⟩
      · rw [counted_concat, hcounted, newEntries_of_counted hcharges.hits, List.map_append,
          List.map_singleton, hid]
      · rcases List.mem_append.1 hp with hp | hp
        · exact ⟨(hmem p hp).1, (hmem p hp).2.mono (List.subset_append_left _ _)⟩
        · obtain rfl := List.mem_singleton.1 hp
          exact ⟨hq, hcharges.countedAs past⟩
      · rw [chargedTokens_concat] at hlt ⊢
        have hbefore : s.recomputedTokens.toNat = chargedTokens l := hsum (by omega)
        have hafter : s'.recomputedTokens.toNat = s.recomputedTokens.toNat + (c.tokens q).toNat :=
          hcharges.tokens (by rw [hbefore]; exact hlt)
        rw [hafter, hbefore]
    · refine ⟨l, ?_, fun p hp => ⟨(hmem p hp).1, (hmem p hp).2.mono (List.subset_append_left _ _)⟩,
        fun hlt => ?_⟩
      · rw [counted_concat, newEntries_of_count_eq huncharged.hits, List.append_nil, hcounted]
      · exact (congrArg UInt64.toNat huncharged.tokens).trans (hsum hlt)

/-- A request is counted in one counter. -/
theorem Past.countedAs_unique (hpast : Past (r.start requests) past s) (hids : DistinctIds requests)
    {q : LlmRequest} {c c' : Counter} (h : CountedAs past q c)
    (h' : CountedAs past q c') : c = c' := by
  obtain ⟨e, he, hq, hc⟩ := h
  obtain ⟨e', he', hq', hc'⟩ := h'
  refine hpast.counter_unique hids he he' ?_ hc hc'
  obtain ⟨q₁, -, hq₁, hid₁⟩ := hpast.exists_request hids he
  obtain ⟨q₂, -, hq₂, hid₂⟩ := hpast.exists_request hids he'
  obtain rfl : q = q₁ := Option.some.inj (hq.symm.trans hq₁)
  obtain rfl : q = q₂ := Option.some.inj (hq'.symm.trans hq₂)
  exact hid₁.symm.trans hid₂

/-- The tokens of a request are those of its counter. -/
theorem Past.tokensOf_eq (hpast : Past (r.start requests) past s) (hids : DistinctIds requests)
    {q : LlmRequest} {c : Counter} (h : CountedAs past q c) : tokensOf past q = c.tokens q := by
  unfold tokensOf Counter.tokens
  by_cases hc : c = .misses
  · rw [if_pos hc, if_pos (hc ▸ h)]
  · rw [if_neg hc, if_neg fun h' => hc (hpast.countedAs_unique hids h h')]

/-- At the end the recomputed tokens are the sum over the requests, if that fits the word. -/
theorem Past.recomputedTokens_eq (hpast : Past (r.start requests) past s)
    (hids : DistinctIds requests) (hend : s.sim.pending = [])
    (hfits : (requests.map fun q => (tokensOf past q).toNat).sum < 2 ^ 64) :
    s.recomputedTokens.toNat = (requests.map fun q => (tokensOf past q).toNat).sum := by
  obtain ⟨l, hcounted, hmem, hsum⟩ := hpast.charged hids
  have hperm := hpast.counted_perm hids hend
  have hids' : (l.map Prod.fst).map (·.requestId) = (counted past).map (·.1) := by
    simp [hcounted, Function.comp_def]
  have hnodup : (l.map Prod.fst).Nodup := by
    refine List.Nodup.of_map (·.requestId) ?_
    rw [hids']
    exact hperm.nodup_iff.2 hids
  have hall : (l.map Prod.fst).Perm requests := by
    have hsub : (l.map Prod.fst).Subperm requests := hnodup.subperm fun q hq => by
      obtain ⟨p, hp, rfl⟩ := List.mem_map.1 hq
      exact (hmem p hp).1
    refine hsub.perm_of_length_le (le_of_eq ?_)
    have hlength := hperm.length_eq
    rw [← hids'] at hlength
    simpa using hlength.symm
  have hcharged : chargedTokens l = (requests.map fun q => (tokensOf past q).toNat).sum :=
    calc chargedTokens l
        = (l.map fun p => (tokensOf past p.1).toNat).sum := by
          refine congrArg List.sum (List.map_congr_left fun p hp => ?_)
          rw [hpast.tokensOf_eq hids (hmem p hp).2]
      _ = ((l.map Prod.fst).map fun q => (tokensOf past q).toNat).sum := by
          rw [List.map_map]
          rfl
      _ = (requests.map fun q => (tokensOf past q).toNat).sum := (hall.map _).sum_eq
  rw [← hcharged] at hfits ⊢
  exact hsum hfits

end CacheAwareRunner

end KvFlowSim
