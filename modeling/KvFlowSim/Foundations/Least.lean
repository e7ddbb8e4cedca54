import Mathlib.Data.List.MinMax
import Mathlib.Data.List.Forall2

/-!
# The first least element of a list

`List.argmin` takes the first of the least elements. If the least element is unique, then the order
of the list does not matter (`argmin_eq_of_perm`). Lists whose elements correspond one to one, and
compare alike, have corresponding least elements (`rel_argmin`). A scan that keeps the best so far
finds the first least element (`foldl_best_eq_argmin`). A list is split at its first least element
in one way only (`eq_of_least_split`).
-/

namespace List

variable {α β κ μ : Type*} [LinearOrder κ] [LinearOrder μ] {f : α → κ} {g : β → μ}
  {R : α → β → Prop}

/-- A unique least element does not depend on the order of the list. -/
theorem argmin_eq_of_perm {l₁ l₂ : List α} {a : α} (h : l₁ ~ l₂) (hmin : l₁.argmin f = some a)
    (hunique : ∀ x ∈ l₁, f x ≤ f a → x = a) : l₂.argmin f = some a := by
  have ha : a ∈ l₂ := h.mem_iff.1 (argmin_mem hmin)
  cases hb : l₂.argmin f with
  | none =>
    rw [argmin_eq_none.1 hb] at ha
    exact absurd ha not_mem_nil
  | some b =>
    rw [hunique b (h.mem_iff.2 (argmin_mem hb)) (le_of_mem_argmin ha hb)]

/-- A scan of the candidates that replaces the best one only by a better one. -/
theorem foldl_best_eq_argmin {γ : Type*} (candidate : γ → Option α) (l : List γ) :
    l.foldl (fun best c => match candidate c with
      | none => best
      | some a => if best.all fun b => f a < f b then some a else best) none =
      (l.filterMap candidate).argmin f := by
  rw [argmin, foldl_filterMap]
  congr 1
  funext best c
  cases candidate c with
  | none => rfl
  | some a =>
    cases best with
    | none => rfl
    | some b => simp only [Option.all_some, decide_eq_true_eq, argAux]

/-- The elements of a kind with their positions. -/
theorem mem_filter_zipIdx {l : List α} (p : α → Bool) {q : α × ℕ} :
    q ∈ l.zipIdx.filter (fun q => p q.1) ↔ l[q.2]? = some q.1 ∧ p q.1 = true := by
  rw [mem_filter, mem_zipIdx_iff_getElem?]

theorem filter_zipIdx_eq_nil {l : List α} (p : α → Bool) :
    l.zipIdx.filter (fun q => p q.1) = [] ↔ ∀ a ∈ l, p a = false := by
  rw [eq_nil_iff_forall_not_mem]
  constructor
  · intro h a ha
    obtain ⟨i, hi⟩ := getElem?_of_mem ha
    exact Bool.eq_false_iff.2 fun hp => h (a, i) ((mem_filter_zipIdx p).2 ⟨hi, hp⟩)
  · intro h q hq
    obtain ⟨hi, hp⟩ := (mem_filter_zipIdx p).1 hq
    exact absurd hp (Bool.eq_false_iff.1 (h q.1 (mem_of_getElem? hi)))

/-- Corresponding elements that compare alike have corresponding least elements. -/
theorem rel_argmin {l : List α} {l' : List β} (h : Forall₂ R l l')
    (hle : ∀ a b a' b', R a b → R a' b' → (f a ≤ f a' ↔ g b ≤ g b')) :
    Option.Rel R (l.argmin f) (l'.argmin g) := by
  rw [argmin, argmin]
  refine rel_foldl (P := Option.Rel R) (R := R) (fun o o' ho a b hab => ?_) .none h
  cases ho with
  | none => exact .some hab
  | @some c c' hc =>
    have hlt : f a < f c ↔ g b < g c' := by
      rw [← not_le, ← not_le, hle c c' a b hc hab]
    simp only [argAux, hlt]
    split_ifs
    · exact .some hab
    · exact .some hc

theorem forall₂_zipIdx {l : List α} {l' : List β} (h : Forall₂ R l l') (n : ℕ) :
    Forall₂ (fun p q => R p.1 q.1 ∧ p.2 = q.2) (l.zipIdx n) (l'.zipIdx n) := by
  induction h generalizing n with
  | nil => exact .nil
  | cons hab _ ih => exact .cons ⟨hab, rfl⟩ (ih (n + 1))

theorem rel_getElem? {l : List α} {l' : List β} (h : Forall₂ R l l') (n : ℕ) :
    Option.Rel R l[n]? l'[n]? := by
  induction h generalizing n with
  | nil => exact .none
  | cons hab _ ih =>
    cases n with
    | zero => exact .some hab
    | succ n => exact ih n

theorem rel_modify {R' : α → β → Prop} {l : List α} {l' : List β} {u : α → α} {v : β → β}
    (h : Forall₂ R l l') (hR : ∀ a b, R a b → R' a b) (n : ℕ)
    (huv : ∀ a b, R a b → R' (u a) (v b)) :
    Forall₂ R' (l.modify n u) (l'.modify n v) := by
  induction h generalizing n with
  | nil => simp
  | @cons a b l l' hab hl ih =>
    cases n with
    | zero => exact .cons (huv a b hab) (hl.imp hR)
    | succ n => exact .cons (hR a b hab) (ih n)

theorem rel_find? {l : List α} {l' : List β} {p : α → Bool} {q : β → Bool} (h : Forall₂ R l l')
    (hpq : ∀ a b, R a b → p a = q b) : Option.Rel R (l.find? p) (l'.find? q) := by
  induction h with
  | nil => exact .none
  | @cons a b _ _ hab _ ih =>
    rw [find?_cons, find?_cons, ← hpq a b hab]
    cases p a
    · exact ih
    · exact .some hab

/-- A list is split at its first least element in one way only. -/
theorem eq_of_least_split {pre pre' post post' : List α} {a a' : α}
    (h : pre ++ a :: post = pre' ++ a' :: post') (hpre : ∀ x ∈ pre, f a < f x)
    (hpost : ∀ x ∈ post, f a ≤ f x) (hpre' : ∀ x ∈ pre', f a' < f x)
    (hpost' : ∀ x ∈ post', f a' ≤ f x) : pre = pre' ∧ a = a' ∧ post = post' := by
  have hle : f a ≤ f a' := by
    have hmem : a' ∈ pre ++ a :: post := by simp [h]
    rcases mem_append.1 hmem with hmem | hmem
    · exact (hpre a' hmem).le
    · rcases mem_cons.1 hmem with rfl | hmem
      · exact le_rfl
      · exact hpost a' hmem
  have hge : f a' ≤ f a := by
    have hmem : a ∈ pre' ++ a' :: post' := by simp [← h]
    rcases mem_append.1 hmem with hmem | hmem
    · exact (hpre' a hmem).le
    · rcases mem_cons.1 hmem with rfl | hmem
      · exact le_rfl
      · exact hpost' a hmem
  have heq : f a = f a' := le_antisymm hle hge
  -- what stands ahead is the longest prefix of elements that are not least
  have hfirst : pre = pre' := by
    have htake := congrArg (takeWhile fun x => decide (f a < f x)) h
    rw [takeWhile_append_of_pos (by simpa using hpre), takeWhile_cons_of_neg (by simp),
      append_nil, takeWhile_append_of_pos (by simpa [heq] using hpre'),
      takeWhile_cons_of_neg (by simp [heq]), append_nil] at htake
    exact htake
  rw [hfirst, append_cancel_left_eq, cons.injEq] at h
  exact ⟨hfirst, h⟩

end List
