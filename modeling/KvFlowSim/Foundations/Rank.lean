import KvFlowSim.Foundations.SortByKey

/-!
# Ranks

The element at position `k` of the sorted list has rank `k`: at most `k` elements are less, and more
than `k` are no greater (`hasRank_getElem`). There is one value of a rank only (`HasRank.unique`),
and values are in the order of their ranks (`HasRank.mono`). None of this depends on the order of
the list.
-/

namespace List

variable {α : Type*} [LinearOrder α] {l l' : List α} {k k' : ℕ} {v v' : α}

/-- The value `v` has rank `k` in `l`. -/
structure HasRank (l : List α) (k : ℕ) (v : α) : Prop where
  mem : v ∈ l
  lt : l.countP (fun x => x < v) ≤ k
  le : k < l.countP fun x => x ≤ v

theorem HasRank.perm (h : l.HasRank k v) (hp : l ~ l') : l'.HasRank k v :=
  ⟨hp.mem_iff.1 h.mem, hp.countP_eq _ ▸ h.lt, hp.countP_eq _ ▸ h.le⟩

theorem HasRank.mono (h : l.HasRank k v) (h' : l.HasRank k' v') (hk : k ≤ k') : v ≤ v' := by
  by_contra hlt
  have hcount : l.countP (fun x => x ≤ v') ≤ l.countP fun x => x < v :=
    countP_mono_left fun x _ hx => by
      simp only [decide_eq_true_eq] at hx ⊢
      exact hx.trans_lt (not_le.1 hlt)
  have := h.lt
  have := h'.le
  omega

theorem HasRank.unique (h : l.HasRank k v) (h' : l.HasRank k v') : v = v' :=
  le_antisymm (h.mono h' le_rfl) (h'.mono h le_rfl)

/-- The first and the last rank are those of the least and of the greatest element. -/
theorem HasRank.le_of_mem (h : l.HasRank 0 v) {x : α} (hx : x ∈ l) : v ≤ x := by
  have hnone := countP_eq_zero.1 (Nat.le_zero.1 h.lt) x hx
  simpa using hnone

theorem HasRank.ge_of_mem (h : l.HasRank (l.length - 1) v) {x : α} (hx : x ∈ l) : x ≤ v := by
  have hall : l.countP (fun x => x ≤ v) = l.length :=
    le_antisymm countP_le_length (by have := h.le; omega)
  simpa using countP_eq_length.1 hall x hx

theorem hasRank_getElem (hs : l.Pairwise (· ≤ ·)) (hk : k < l.length) : l.HasRank k l[k] := by
  have hpair := pairwise_iff_getElem.1 hs
  have hle : ∀ x ∈ l.take (k + 1), x ≤ l[k] := fun x hx => by
    obtain ⟨i, hi, rfl⟩ := getElem_of_mem hx
    rw [length_take] at hi
    rw [getElem_take]
    rcases (show i ≤ k by omega).lt_or_eq with hlt | rfl
    · exact hpair i k _ hk hlt
    · exact le_rfl
  have hge : ∀ x ∈ l.drop k, ¬x < l[k] := fun x hx => by
    obtain ⟨i, hi, rfl⟩ := getElem_of_mem hx
    rw [getElem_drop, not_lt]
    rcases i.eq_zero_or_pos with rfl | hpos
    · exact le_rfl
    · exact hpair k (k + i) hk _ (by omega)
  have hmem : l[k] ∈ l := getElem_mem hk
  generalize l[k] = v at hle hge hmem
  refine ⟨hmem, ?_, ?_⟩
  · have hzero : (l.drop k).countP (fun x => x < v) = 0 :=
      countP_eq_zero.2 fun x hx => by simpa using hge x hx
    have hfew : (l.take k).countP (fun x => x < v) ≤ k :=
      countP_le_length.trans (length_take_le k l)
    have hsplit := congrArg (countP fun x => x < v) (take_append_drop k l)
    rw [countP_append] at hsplit
    omega
  · have hall : (l.take (k + 1)).countP (fun x => x ≤ v) = k + 1 := by
      rw [countP_eq_length.2 fun x hx => by simpa using hle x hx, length_take]
      omega
    have hsplit := congrArg (countP fun x => x ≤ v) (take_append_drop (k + 1) l)
    rw [countP_append] at hsplit
    omega

/-- The sort of a list of values depends on their multiset only. -/
theorem sortByKey_id_eq_of_perm (h : l ~ l') : sortByKey id l = sortByKey id l' :=
  ((sortByKey_perm id l).trans (h.trans (sortByKey_perm id l').symm)).eq_of_pairwise
    (fun _ _ _ _ hab hba => le_antisymm hab hba) (pairwise_sortByKey id l)
    (pairwise_sortByKey id l')

/-- What stands at position `k` of the sorted list has rank `k` in the list. -/
theorem hasRank_sortByKey (hk : k < (sortByKey id l).length) : l.HasRank k (sortByKey id l)[k] :=
  (hasRank_getElem (pairwise_sortByKey id l) hk).perm (sortByKey_perm id l)

end List
