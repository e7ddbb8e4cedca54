import Mathlib.Data.List.Perm.Basic

/-!
# A priority queue as a list

`popFirst before l` takes out of `l` the first element that no other element precedes strictly in
the priority order `before`. For a total and transitive `before` the popped element may go ahead
of everything that stays (`popFirst_before`), and what was pushed earlier goes first among equals
(`popFirst_split`). Queues whose elements correspond, and order alike, pop corresponding
elements (`rel_popFirst`).
-/

namespace List

variable {α : Type*}

/-- Takes out the first element of highest priority; `before a b` says that `a` may go ahead
of `b`. -/
def popFirst (before : α → α → Bool) : List α → Option (α × List α)
  | [] => none
  | x :: xs =>
    match popFirst before xs with
    | none => some (x, [])
    | some (m, rest) => if before x m then some (x, xs) else some (m, x :: rest)

variable {before : α → α → Bool}

theorem popFirst_eq_none {l : List α} : popFirst before l = none ↔ l = [] := by
  cases l with
  | nil => simp [popFirst]
  | cons x xs =>
    simp only [popFirst, reduceCtorEq, iff_false]
    split
    · simp
    · split <;> simp

/-- The popped element splits the list: what stood ahead of it is strictly later in priority, what
stood behind it is not earlier. -/
theorem popFirst_split (total : ∀ a b, before a b = true ∨ before b a = true)
    (trans : ∀ a b c, before a b = true → before b c = true → before a c = true)
    {l rest : List α} {a : α} (h : popFirst before l = some (a, rest)) :
    ∃ pre post, l = pre ++ a :: post ∧ rest = pre ++ post ∧
      (∀ b ∈ pre, before b a = false) ∧ ∀ b ∈ post, before a b = true := by
  induction l generalizing a rest with
  | nil => simp [popFirst] at h
  | cons x xs ih =>
    rw [popFirst] at h
    split at h
    next hnone =>
      obtain ⟨rfl, rfl⟩ := Prod.mk.inj (Option.some.inj h)
      obtain rfl := popFirst_eq_none.1 hnone
      exact ⟨[], [], rfl, rfl, by simp, by simp⟩
    next m r hm =>
      obtain ⟨pre, post, rfl, rfl, hpre, hpost⟩ := ih hm
      split_ifs at h with hx
      · obtain ⟨rfl, rfl⟩ := Prod.mk.inj (Option.some.inj h)
        refine ⟨[], _, rfl, rfl, by simp, fun b hb => ?_⟩
        rcases mem_append.1 hb with hb | hb
        · refine trans _ _ _ hx ((total m b).resolve_right ?_)
          simp [hpre b hb]
        · rcases mem_cons.1 hb with rfl | hb
          · exact hx
          · exact trans _ _ _ hx (hpost b hb)
      · obtain ⟨rfl, rfl⟩ := Prod.mk.inj (Option.some.inj h)
        refine ⟨x :: pre, post, rfl, rfl, ?_, hpost⟩
        simpa [hx] using hpre

theorem popFirst_perm (total : ∀ a b, before a b = true ∨ before b a = true)
    (trans : ∀ a b c, before a b = true → before b c = true → before a c = true)
    {l rest : List α} {a : α} (h : popFirst before l = some (a, rest)) : l ~ a :: rest := by
  obtain ⟨pre, post, rfl, rfl, -, -⟩ := popFirst_split total trans h
  exact perm_middle

theorem popFirst_before (total : ∀ a b, before a b = true ∨ before b a = true)
    (trans : ∀ a b c, before a b = true → before b c = true → before a c = true)
    {l rest : List α} {a : α} (h : popFirst before l = some (a, rest)) :
    ∀ b ∈ rest, before a b = true := by
  obtain ⟨pre, post, rfl, rfl, hpre, hpost⟩ := popFirst_split total trans h
  intro b hb
  rcases mem_append.1 hb with hb | hb
  · refine (total a b).resolve_right ?_
    simp [hpre b hb]
  · exact hpost b hb

theorem rel_popFirst {β : Type*} (before : α → α → Bool) (before' : β → β → Bool)
    {R : α → β → Prop}
    (hbefore : ∀ {a b a' b'}, R a b → R a' b' → before a a' = before' b b') {l : List α}
    {l' : List β} (h : Forall₂ R l l') :
    Option.Rel (fun p q => R p.1 q.1 ∧ Forall₂ R p.2 q.2) (popFirst before l)
      (popFirst before' l') := by
  induction h with
  | nil => exact .none
  | @cons a b l l' hab hl ih =>
    rw [popFirst, popFirst]
    generalize popFirst before l = o at ih ⊢
    generalize popFirst before' l' = o' at ih ⊢
    cases ih with
    | none => exact .some ⟨hab, .nil⟩
    | some hpq =>
      dsimp only
      rw [hbefore hab hpq.1]
      split_ifs
      · exact .some ⟨hab, hl⟩
      · exact .some ⟨hpq.1, .cons hab hpq.2⟩

end List
