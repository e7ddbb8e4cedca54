import Mathlib.Data.List.Sort

/-!
# Sorting by a key

The stable sort by a key in a linear order, as an insertion sort. A list with pairwise distinct keys
has one sorted arrangement only, so the sort does not depend on the order it is given
(`sortByKey_eq_of_perm`).
-/

namespace List

variable {α κ : Type*} [LinearOrder κ] (key : α → κ)

/-- The stable sort by `key`. -/
def sortByKey (l : List α) : List α := l.insertionSort fun a b => key a ≤ key b

instance total_le_key : Std.Total fun a b : α => key a ≤ key b :=
  ⟨fun a b => le_total (key a) (key b)⟩

instance trans_le_key : IsTrans α fun a b => key a ≤ key b := ⟨fun _ _ _ h₁ h₂ => le_trans h₁ h₂⟩

theorem sortByKey_perm (l : List α) : sortByKey key l ~ l := perm_insertionSort _ l

theorem pairwise_sortByKey (l : List α) : (sortByKey key l).Pairwise fun a b => key a ≤ key b :=
  pairwise_insertionSort _ l

variable {key}

theorem sortByKey_eq_self {l : List α} (h : l.Pairwise fun a b => key a ≤ key b) :
    sortByKey key l = l :=
  h.insertionSort_eq

/-- Lists with the same elements, of distinct keys, sort to the same list. -/
theorem sortByKey_eq_of_perm {l₁ l₂ : List α} (hnd : (l₁.map key).Nodup) (h : l₁ ~ l₂) :
    sortByKey key l₁ = sortByKey key l₂ := by
  have hp : sortByKey key l₁ ~ sortByKey key l₂ :=
    (sortByKey_perm key l₁).trans (h.trans (sortByKey_perm key l₂).symm)
  refine hp.eq_of_pairwise (fun a b ha hb hab hba => ?_) (pairwise_sortByKey key l₁)
    (pairwise_sortByKey key l₂)
  have ha' := (sortByKey_perm key l₁).mem_iff.1 ha
  have hb' := h.mem_iff.2 ((sortByKey_perm key l₂).mem_iff.1 hb)
  exact inj_on_of_nodup_map hnd ha' hb' (le_antisymm hab hba)

/-- What is left of a sorted list of distinct keys is sorted. -/
theorem filter_sortByKey (p : α → Bool) {l : List α} (hnd : (l.map key).Nodup) :
    (sortByKey key l).filter p = sortByKey key (l.filter p) := by
  have hsorted := (pairwise_sortByKey key l).filter p
  rw [← sortByKey_eq_self hsorted]
  have hperm := (sortByKey_perm key l).filter p
  exact sortByKey_eq_of_perm
    ((hperm.map key).nodup_iff.2 (hnd.sublist (filter_sublist.map key))) hperm

/-- A list in which what satisfies `p` comes first. -/
theorem filter_append_filter_not {p : α → Bool} {l : List α}
    (h : l.Pairwise fun a b => p b → p a) : l.filter p ++ l.filter (!p ·) = l := by
  induction l with
  | nil => rfl
  | cons a l ih =>
    obtain ⟨ha, hl⟩ := pairwise_cons.1 h
    by_cases hp : p a
    · simp [hp, ih hl]
    · have hnone : l.filter p = [] := filter_eq_nil_iff.2 fun b hb hpb => hp (ha b hb hpb)
      have hall : l.filter (!p ·) = l := by simpa [hnone] using ih hl
      simp [hp, hnone, hall]

/-- Sorting commutes with a map that keeps the keys. -/
theorem map_sortByKey {β : Type*} {key' : β → κ} {g : α → β} (h : ∀ a, key' (g a) = key a)
    (l : List α) : (sortByKey key l).map g = sortByKey key' (l.map g) :=
  map_insertionSort _ _ _ _ fun a _ b _ => by rw [h, h]

/-- A first element with the least key stays in front. -/
theorem sortByKey_cons_of_le {a : α} {l : List α} (h : ∀ b ∈ l, key a ≤ key b) :
    sortByKey key (a :: l) = a :: sortByKey key l := by
  change orderedInsert _ a (sortByKey key l) = _
  cases hsorted : sortByKey key l with
  | nil => rfl
  | cons b rest =>
    have hb : b ∈ l := (sortByKey_perm key l).mem_iff.1 (hsorted ▸ mem_cons_self)
    rw [orderedInsert_cons, if_pos (h b hb)]

/-- The stable order of two elements: by key, and by `S` where the keys are equal. -/
def KeyLex (key : α → κ) (S : α → α → Prop) (a b : α) : Prop :=
  key a < key b ∨ key a = key b ∧ S a b

theorem KeyLex.le {S : α → α → Prop} {a b : α} (h : KeyLex key S a b) : key a ≤ key b := by
  rcases h with hlt | ⟨heq, -⟩
  · exact hlt.le
  · exact heq.le

theorem keyLex_of_le {S : α → α → Prop} {a b : α} (h : key a ≤ key b) (hS : S a b) :
    KeyLex key S a b :=
  h.lt_or_eq.imp_right fun heq => ⟨heq, hS⟩

theorem pairwise_orderedInsert_keyLex {S : α → α → Prop} {a : α} {l : List α}
    (hl : l.Pairwise (KeyLex key S)) (ha : ∀ b ∈ l, S a b) :
    (l.orderedInsert (fun a b => key a ≤ key b) a).Pairwise (KeyLex key S) := by
  induction l with
  | nil => exact pairwise_singleton _ _
  | cons b l ih =>
    obtain ⟨hb, hl'⟩ := pairwise_cons.1 hl
    rw [orderedInsert_cons]
    split_ifs with hab
    · refine pairwise_cons.2 ⟨fun x hx => keyLex_of_le ?_ (ha x hx), hl⟩
      rcases mem_cons.1 hx with rfl | hx
      · exact hab
      · exact hab.trans (hb x hx).le
    · refine pairwise_cons.2 ⟨fun x hx => ?_, ih hl' fun x hx => ha x (mem_cons_of_mem _ hx)⟩
      rcases mem_cons.1 ((perm_orderedInsert _ _ _).mem_iff.1 hx) with rfl | hx
      · exact .inl (not_le.1 hab)
      · exact hb x hx

/-- The sort is stable: elements of equal keys stay in the order they had. -/
theorem pairwise_keyLex_sortByKey {S : α → α → Prop} {l : List α} (h : l.Pairwise S) :
    (sortByKey key l).Pairwise (KeyLex key S) := by
  induction l with
  | nil => exact .nil
  | cons a l ih =>
    obtain ⟨ha, hl⟩ := pairwise_cons.1 h
    exact pairwise_orderedInsert_keyLex (ih hl) fun b hb =>
      ha b ((sortByKey_perm key l).mem_iff.1 hb)

end List
