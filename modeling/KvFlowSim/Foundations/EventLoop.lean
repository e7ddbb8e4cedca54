import Mathlib.Logic.Relation
import Mathlib.Tactic.Common
import Mathlib.Data.Nat.Notation

/-!
# Event loops

A program that repeats `while let Some(event) = next() { handle(event) }` is a partial step function
`step : σ → Except ε (Option σ)`: `none` when no event is left, an error when the handler panics.
This file develops the runs of such a loop:

* `Reach` and `GuardedReach`: the states between two events, in any run and in the runs all of
  whose steps are taken from states that meet a guard; `Reach.invariant` is the induction rule;
* `after`: the state after exactly `n` events, for the runs that are computed;
* `run`: the loop itself, with a bound on the number of events. A measure that every event lowers
  makes the bound harmless (`run_halted`) and bounds the length of every run (`after_measure`);
* `always`: a check of all states of a run that is computed;
* `run_simulates` and `run_related`: a lock-step simulation, in one or both directions, carries over
  to whole runs, and one that holds up to some point carries over to the runs up to there
  (`run_related_until`).
-/

namespace Except

universe u v

variable {ε : Type v} {α β : Type u}

theorem bind_eq_ok {x : Except ε α} {f : α → Except ε β} {b : β} :
    (x >>= f) = .ok b ↔ ∃ a, x = .ok a ∧ f a = .ok b := by
  cases x with
  | error e => exact ⟨fun h => (nomatch h), fun ⟨_, h, _⟩ => (nomatch h)⟩
  | ok a => exact ⟨fun h => ⟨a, rfl, h⟩, fun ⟨_, h, h'⟩ => by cases h; exact h'⟩

theorem map_eq_ok {x : Except ε α} {f : α → β} {b : β} :
    (f <$> x) = .ok b ↔ ∃ a, x = .ok a ∧ f a = b := by
  cases x with
  | error e => exact ⟨fun h => (nomatch h), fun ⟨_, h, _⟩ => (nomatch h)⟩
  | ok a => exact ⟨fun h => ⟨a, rfl, Except.ok.inj h⟩, fun ⟨_, h, h'⟩ => by cases h; exact h' ▸ rfl⟩

theorem toOption_eq_some {x : Except ε α} {a : α} : x.toOption = some a ↔ x = .ok a := by
  cases x <;> simp [Except.toOption]

/-- `x` does not fail and its value satisfies `P`. -/
def Returns (P : α → Prop) (x : Except ε α) : Prop := ∃ a, x = .ok a ∧ P a

theorem Returns.ok {P : α → Prop} {a : α} (h : P a) : Returns P (.ok a : Except ε α) := ⟨a, rfl, h⟩

theorem Returns.bind {P : α → Prop} {Q : β → Prop} {x : Except ε α} {f : α → Except ε β}
    (hx : Returns P x) (hf : ∀ a, P a → Returns Q (f a)) : Returns Q (x >>= f) := by
  obtain ⟨a, rfl, ha⟩ := hx
  exact hf a ha

theorem Returns.map {P : α → Prop} {Q : β → Prop} {x : Except ε α} {f : α → β}
    (hx : Returns P x) (hf : ∀ a, P a → Q (f a)) : Returns Q (f <$> x) := by
  obtain ⟨a, rfl, ha⟩ := hx
  exact ⟨f a, rfl, hf a ha⟩

/-- Two computations fail alike or return related values. -/
inductive Related {α' : Type u} (R : α → α' → Prop) : Except ε α → Except ε α' → Prop
  | error (e : ε) : Related R (.error e) (.error e)
  | ok {a : α} {a' : α'} (h : R a a') : Related R (.ok a) (.ok a')

namespace Related

variable {α' β' : Type u} {R : α → α' → Prop} {S : β → β' → Prop} {x : Except ε α}
  {x' : Except ε α'}

theorem bind {f : α → Except ε β} {f' : α' → Except ε β'} (hx : Related R x x')
    (hf : ∀ a a', x = .ok a → R a a' → Related S (f a) (f' a')) :
    Related S (x >>= f) (x' >>= f') := by
  cases hx with
  | error e => exact .error e
  | ok h => exact hf _ _ rfl h

theorem map {f : α → β} {f' : α' → β'} (hx : Related R x x')
    (hf : ∀ a a', R a a' → S (f a) (f' a')) :
    Related S (f <$> x) (f' <$> x') := by
  cases hx with
  | error e => exact .error e
  | ok h => exact .ok (hf _ _ h)

theorem imp {R' : α → α' → Prop} (hx : Related R x x') (hR : ∀ a a', R a a' → R' a a') :
    Related R' x x' := by
  cases hx with
  | error e => exact .error e
  | ok h => exact .ok (hR _ _ h)

theorem mapM {γ : Type*} {l : List γ} {f : γ → Except ε α} {f' : γ → Except ε α'}
    (h : ∀ c ∈ l, Related R (f c) (f' c)) : Related (List.Forall₂ R) (l.mapM f) (l.mapM f') := by
  induction l with
  | nil => exact .ok .nil
  | cons c l ih =>
    rw [List.mapM_cons, List.mapM_cons]
    refine (h c List.mem_cons_self).bind fun a a' _ ha => ?_
    refine (ih fun x hx => h x (List.mem_cons_of_mem c hx)).bind fun b b' _ hb => ?_
    exact .ok (.cons ha hb)

/-- What related computations return in the end is the same, if it is for related values. -/
theorem map_bind_eq {ζ : Type u} {f : α → Except ε β} {f' : α' → Except ε β'}
    {g : β → ζ} {g' : β' → ζ} (hx : Related R x x')
    (hf : ∀ a a', R a a' → g <$> f a = g' <$> f' a') :
    g <$> (x >>= f) = g' <$> (x' >>= f') := by
  cases hx with
  | error e => rfl
  | ok h => exact hf _ _ h

theorem refl {R : α → α → Prop} (hR : ∀ a, R a a) (x : Except ε α) : Related R x x := by
  cases x with
  | error e => exact .error e
  | ok a => exact .ok (hR a)

theorem eq {x y : Except ε α} (h : Related Eq x y) : x = y := by
  cases h with
  | error e => rfl
  | ok h => rw [h]

/-- A computation whose values are images of the other's. -/
theorem eq_map {f : α → α'} (h : Related R x x') (hf : ∀ a a', R a a' → a' = f a) :
    x' = f <$> x := by
  cases h with
  | error e => rfl
  | ok h => exact congrArg Except.ok (hf _ _ h)

end Related

@[simp] theorem ok_bind (a : α) (f : α → Except ε β) : (Except.ok a >>= f) = f a := rfl

end Except

namespace EventLoop

open Relation

variable {σ τ ε : Type*} (step : σ → Except ε (Option σ))

/-- One event is handled. -/
def Step (s s' : σ) : Prop := step s = .ok (some s')

/-- `s'` is a state between two events of a run from `s`. -/
abbrev Reach : σ → σ → Prop := ReflTransGen (Step step)

/-- One event is handled, in a state that meets `g`. -/
def GuardedStep (g : σ → Prop) (s s' : σ) : Prop := g s ∧ Step step s s'

/-- `s'` is reached from `s` by steps that are all taken from states that meet `g`. -/
abbrev GuardedReach (g : σ → Prop) : σ → σ → Prop := ReflTransGen (GuardedStep step g)

/-- The state after exactly `n` events, if each of them is handled in a state that passes `g`. -/
def after (g : σ → Bool) : ℕ → σ → Option σ
  | 0, s => some s
  | n + 1, s =>
    if g s then
      match step s with
      | .ok (some s') => after g n s'
      | _ => none
    else none

/-- The loop, stopped after at most `n` events. -/
def run : ℕ → σ → Except ε σ
  | 0, s => .ok s
  | n + 1, s =>
    match step s with
    | .error e => .error e
    | .ok none => .ok s
    | .ok (some s') => run n s'

variable {step}

/-- An invariant of every step is an invariant of every run. -/
theorem Reach.invariant {I : σ → Prop} (hstep : ∀ s s', I s → Step step s s' → I s') {s s' : σ}
    (h : Reach step s s') (hs : I s) : I s' := by
  induction h with
  | refl => exact hs
  | tail _ hlast ih => exact hstep _ _ ih hlast

/-- What no step lowers grows along a run. -/
theorem Reach.monotone {I : σ → Prop} {f : σ → ℕ} (hI : ∀ s s', I s → Step step s s' → I s')
    (hf : ∀ s s', I s → Step step s s' → f s ≤ f s') {s s' : σ} (h : Reach step s s') (hs : I s) :
    f s ≤ f s' :=
  (h.invariant (I := fun x => I x ∧ f s ≤ f x)
    (fun x x' hx hstep => ⟨hI x x' hx.1 hstep, Nat.le_trans hx.2 (hf x x' hx.1 hstep)⟩)
    ⟨hs, Nat.le_refl _⟩).2

theorem GuardedReach.invariant {g I : σ → Prop}
    (hstep : ∀ s s', I s → g s → Step step s s' → I s') {s s' : σ}
    (h : GuardedReach step g s s') (hs : I s) : I s' := by
  induction h with
  | refl => exact hs
  | tail _ hlast ih => exact hstep _ _ ih hlast.1 hlast.2

theorem after_guardedReach {g : σ → Bool} {n : ℕ} {s s' : σ} (h : after step g n s = some s') :
    GuardedReach step (fun s => g s = true) s s' := by
  induction n generalizing s with
  | zero => obtain rfl := Option.some.inj h; exact .refl
  | succ n ih =>
    rw [after] at h
    split_ifs at h with hg
    split at h
    next s₁ hs₁ => exact .head ⟨hg, hs₁⟩ (ih h)
    next => simp at h

theorem run_reach {n : ℕ} {s s' : σ} (h : run step n s = .ok s') : Reach step s s' := by
  induction n generalizing s with
  | zero => obtain rfl := Except.ok.inj h; exact .refl
  | succ n ih =>
    rw [run] at h
    split at h
    next => simp at h
    next => obtain rfl := Except.ok.inj h; exact .refl
    next s₁ hs₁ => exact .head hs₁ (ih h)

/-- The last event of a bounded run. -/
theorem run_succ_eq_ok {n : ℕ} {s s'' : σ} : run step (n + 1) s = .ok s'' ↔
    ∃ s', run step n s = .ok s' ∧ (step s' = .ok none ∧ s'' = s' ∨ Step step s' s'') := by
  induction n generalizing s with
  | zero =>
    rw [run]
    cases hs : step s with
    | error e => simp [run, Step, hs]
    | ok o => cases o <;> simp [run, Step, hs, eq_comm]
  | succ n ih =>
    rw [run]
    cases hs : step s with
    | error e => simp [run, hs]
    | ok o =>
      cases o with
      | none => simp [run, Step, hs, eq_comm]
      | some s₁ =>
        have htail : run step (n + 1) s = run step n s₁ := by rw [run, hs]
        rw [htail]
        exact ih

/-! ## Termination -/

section Measure

variable {μ : σ → ℕ}

/-- A measure that every event lowers bounds the number of events. -/
theorem after_measure (hμ : ∀ s s', Step step s s' → μ s' < μ s) {g : σ → Bool} {n : ℕ} {s s' : σ}
    (h : after step g n s = some s') : n + μ s' ≤ μ s := by
  induction n generalizing s with
  | zero => obtain rfl := Option.some.inj h; omega
  | succ n ih =>
    rw [after] at h
    split_ifs at h
    split at h
    next s₁ hs₁ =>
      have h₁ := hμ s s₁ hs₁
      have h₂ := ih h
      omega
    next => simp at h

/-- A loop that is allowed as many events as the measure counts ends because no event is left. -/
theorem run_halted (hμ : ∀ s s', Step step s s' → μ s' < μ s)
    (hzero : ∀ s, μ s = 0 → step s = .ok none) {n : ℕ} {s s' : σ} (hn : μ s ≤ n)
    (h : run step n s = .ok s') : step s' = .ok none := by
  induction n generalizing s with
  | zero =>
    obtain rfl := Except.ok.inj h
    exact hzero s (by omega)
  | succ n ih =>
    rw [run] at h
    split at h
    next => simp at h
    next hs => obtain rfl := Except.ok.inj h; exact hs
    next s₁ hs₁ =>
      have := hμ s s₁ hs₁
      exact ih (by omega) h

end Measure

/-! ## Checking a run -/

/-- The run from `s` ends within `n` events, and every state of it passes `g`. -/
def always (step : σ → Except ε (Option σ)) (g : σ → Bool) : ℕ → σ → Bool
  | 0, _ => false
  | n + 1, s =>
    g s && match step s with
      | .ok (some s') => always step g n s'
      | _ => true

theorem Reach.of_always {g : σ → Bool} {n : ℕ} {s s' : σ} (h : Reach step s s')
    (halways : always step g n s = true) : g s' = true := by
  induction h using ReflTransGen.head_induction_on generalizing n with
  | refl =>
    cases n with
    | zero => simp [always] at halways
    | succ n => exact (Bool.and_eq_true_iff.1 halways).1
  | @head s₀ s₁ hstep _ ih =>
    have hstep : step s₀ = .ok (some s₁) := hstep
    cases n with
    | zero => simp [always] at halways
    | succ n =>
      rw [always, hstep] at halways
      exact ih (Bool.and_eq_true_iff.1 halways).2

/-! ## Runs that do not fail -/

theorem run_isOk {I : σ → Prop} (hstep : ∀ s s', I s → Step step s s' → I s')
    (hok : ∀ s, I s → ∃ o, step s = .ok o) (n : ℕ) {s : σ} (hs : I s) :
    ∃ s', run step n s = .ok s' := by
  induction n generalizing s with
  | zero => exact ⟨s, rfl⟩
  | succ n ih =>
    obtain ⟨_ | s₁, h⟩ := hok s hs
    · exact ⟨s, by rw [run, h]⟩
    · obtain ⟨s', h'⟩ := ih (hstep s s₁ hs h)
      exact ⟨s', by rw [run, h]; exact h'⟩

/-! ## Lock-step simulation -/

/-- **Lock-step simulation.** If related states take related steps all along a run, then the run is
matched, event by event, by a run of the other loop. The steps in question lie between the first and
the last state of the run, so each may use what is known of either end. -/
theorem run_simulates {step₂ : τ → Except ε (Option τ)} {R : σ → τ → Prop} {n : ℕ}
    {s s' : σ} {t : τ} (hstep : ∀ s₁ t₁ s₂, Reach step s s₁ → Reach step s₂ s' → R s₁ t₁ →
      Step step s₁ s₂ →
      ∃ t₂, Step step₂ t₁ t₂ ∧ R s₂ t₂)
    (hstop : ∀ s₁ t₁, R s₁ t₁ → step s₁ = .ok none → step₂ t₁ = .ok none)
    (hR : R s t) (h : run step n s = .ok s') : ∃ t', run step₂ n t = .ok t' ∧ R s' t' := by
  induction n generalizing s t with
  | zero =>
    obtain rfl := Except.ok.inj h
    exact ⟨t, rfl, hR⟩
  | succ n ih =>
    rw [run] at h
    split at h
    next => simp at h
    next hs =>
      obtain rfl := Except.ok.inj h
      exact ⟨t, by rw [run, hstop s t hR hs], hR⟩
    next s₁ hs₁ =>
      obtain ⟨t₁, ht₁, hR₁⟩ := hstep s t s₁ .refl (run_reach h) hR hs₁
      have ht₁ : step₂ t = .ok (some t₁) := ht₁
      obtain ⟨t', ht', hR'⟩ := ih
        (fun s₂ t₂ s₃ hreach => hstep s₂ t₂ s₃ (.head hs₁ hreach)) hR₁ h
      exact ⟨t', by rw [run, ht₁]; exact ht', hR'⟩

/-- Loops whose steps are related all along a run fail alike or end in related states. -/
theorem run_related {σ τ ε : Type} {step : σ → Except ε (Option σ)}
    {step₂ : τ → Except ε (Option τ)} {R : σ → τ → Prop} {n : ℕ} {s : σ} {t : τ}
    (hstep : ∀ s₁ t₁, Reach step s s₁ → Reach step₂ t t₁ → R s₁ t₁ →
      Except.Related (Option.Rel R) (step s₁) (step₂ t₁))
    (hR : R s t) : Except.Related R (run step n s) (run step₂ n t) := by
  induction n generalizing s t with
  | zero => exact .ok hR
  | succ n ih =>
    have h := hstep s t .refl .refl hR
    rw [run, run]
    generalize hs : step s = x at h
    generalize ht : step₂ t = y at h
    cases h with
    | error e => exact .error e
    | ok ho =>
      cases ho with
      | none => exact .ok hR
      | some hR₁ =>
        exact ih (fun s₂ t₂ hs₂ ht₂ => hstep s₂ t₂ (.head hs hs₂) (.head ht ht₂)) hR₁

/-- Steps that are related in one way are related in every way that follows from it and them. -/
theorem related_step {σ τ ε : Type} {step : σ → Except ε (Option σ)}
    {step₂ : τ → Except ε (Option τ)} {R R' : σ → τ → Prop} {s : σ} {t : τ}
    (h : Except.Related (Option.Rel R) (step s) (step₂ t))
    (hR : ∀ s' t', Step step s s' → Step step₂ t t' → R s' t' → R' s' t') :
    Except.Related (Option.Rel R') (step s) (step₂ t) := by
  generalize hs : step s = x at h ⊢
  generalize ht : step₂ t = y at h ⊢
  cases h with
  | error e => exact .error e
  | ok ho =>
    cases ho with
    | none => exact .ok .none
    | some h => exact .ok (.some (hR _ _ hs ht h))

/-- Loops whose steps are related as long as a condition holds pass through related states in which
it no longer does, if they end. -/
theorem run_related_until {σ τ ε : Type} {step : σ → Except ε (Option σ)}
    {step₂ : τ → Except ε (Option τ)} {R : σ → τ → Prop} {going : σ → Prop} {n m : ℕ} {s s' : σ}
    {t t' : τ}
    (hstep : ∀ s₁ t₁, Reach step s s₁ → R s₁ t₁ → going s₁ →
      Except.Related (Option.Rel R) (step s₁) (step₂ t₁))
    (hgoing : ∀ s₁, going s₁ → step s₁ ≠ .ok none) (hR : R s t)
    (hs : run step n s = .ok s') (hend : step s' = .ok none) (ht : run step₂ m t = .ok t')
    (hend' : step₂ t' = .ok none) :
    ∃ s₁ t₁, R s₁ t₁ ∧ ¬going s₁ ∧ Reach step s s₁ ∧ Reach step s₁ s' ∧ Reach step₂ t t₁ ∧
      Reach step₂ t₁ t' := by
  induction n generalizing m s t with
  | zero =>
    obtain rfl := Except.ok.inj hs
    exact ⟨s, t, hR, fun hgo => hgoing s hgo hend, .refl, .refl, .refl, run_reach ht⟩
  | succ n ih =>
    by_cases hgo : going s
    · have hrel := hstep s t .refl hR hgo
      rw [run] at hs
      split at hs
      next => simp at hs
      next hnone => exact absurd hnone (hgoing s hgo)
      next s₁ hs₁ =>
        rw [hs₁] at hrel
        generalize ht₁ : step₂ t = y at hrel
        cases hrel with
        | ok ho =>
          cases ho with
          | some hR₁ =>
            cases m with
            | zero =>
              obtain rfl := Except.ok.inj ht
              rw [hend'] at ht₁
              cases ht₁
            | succ m =>
              rw [run, ht₁] at ht
              obtain ⟨s₂, t₂, hR₂, hstop, hreach, hrest, hreach', hrest'⟩ :=
                ih (fun a b hab => hstep a b (.head hs₁ hab)) hR₁ hs ht
              exact ⟨s₂, t₂, hR₂, hstop, .head hs₁ hreach, hrest, .head ht₁ hreach', hrest'⟩
    · exact ⟨s, t, hR, hgo, .refl, run_reach hs, .refl, run_reach ht⟩

end EventLoop
