import Mathlib.Data.List.Induction
import Mathlib.Tactic.Common

/-!
# Runs with a record of each step

A program whose operations are called by others, in any order, is a relation `next : σ → ρ → σ →
Prop`: the record of a call says what was called and what was answered. `Run next s h s'` is a run
from `s` to `s'` with the records `h`. What is known of a run so far is its past, so proofs go by
`snoc_iff`, and `invariant` is the induction rule; `append_iff` takes a run apart at any time.
-/

namespace Labelled

variable {σ ρ : Type*}

/-- A run with its records. -/
inductive Run (next : σ → ρ → σ → Prop) : σ → List ρ → σ → Prop
  | nil (s : σ) : Run next s [] s
  | cons {s s' s'' : σ} {r : ρ} {h : List ρ} (hnext : next s r s') (hrun : Run next s' h s'') :
    Run next s (r :: h) s''

namespace Run

variable {next : σ → ρ → σ → Prop} {s s' s'' : σ} {r : ρ} {h h' : List ρ}

theorem nil_iff : Run next s [] s' ↔ s' = s := by
  constructor
  · rintro ⟨⟩
    rfl
  · rintro rfl
    exact .nil s'

theorem cons_iff : Run next s (r :: h) s'' ↔ ∃ s', next s r s' ∧ Run next s' h s'' := by
  constructor
  · rintro (_ | ⟨hnext, hrun⟩)
    exact ⟨_, hnext, hrun⟩
  · rintro ⟨s', hnext, hrun⟩
    exact .cons hnext hrun

theorem append_iff : Run next s (h ++ h') s'' ↔ ∃ s', Run next s h s' ∧ Run next s' h' s'' := by
  induction h generalizing s with
  | nil => simp only [List.nil_append, nil_iff, exists_eq_left]
  | cons r h ih =>
    simp only [List.cons_append, cons_iff, ih]
    constructor
    · rintro ⟨s₁, hnext, s', hrun, hrun'⟩
      exact ⟨s', ⟨s₁, hnext, hrun⟩, hrun'⟩
    · rintro ⟨s', ⟨s₁, hnext, hrun⟩, hrun'⟩
      exact ⟨s₁, hnext, s', hrun, hrun'⟩

theorem snoc_iff : Run next s (h ++ [r]) s'' ↔ ∃ s', Run next s h s' ∧ next s' r s'' := by
  simp only [append_iff, cons_iff, nil_iff, exists_eq_right']

/-- What holds at first, and is preserved by every step, holds after every run. -/
theorem invariant {I : List ρ → σ → Prop} (hrun : Run next s h s') (hs : I [] s)
    (hnext : ∀ past s r s', I past s → next s r s' → I (past ++ [r]) s') : I h s' := by
  induction h using List.reverseRecOn generalizing s' with
  | nil =>
    obtain rfl := nil_iff.1 hrun
    exact hs
  | append_singleton h r ih =>
    obtain ⟨s₁, hrun, hstep⟩ := snoc_iff.1 hrun
    exact hnext h s₁ r s' (ih hrun) hstep

end Run

end Labelled
