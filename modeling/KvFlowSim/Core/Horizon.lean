import KvFlowSim.Core.Simulator
import KvFlowSim.Foundations.Least

/-!
# Simulators up to a horizon

Two simulators that have the same clock and the same events before a horizon
(`Simulator.SameBefore`) return the same event as long as there is one before the horizon, whatever
is pending from the horizon on. Of the events of equal time the one that was scheduled first is
returned, so the order of the events before the horizon counts, while their sequence numbers need
not be the same.
-/

namespace KvFlowSim

namespace Simulator

variable {α : Type} {horizon : ℕ} {sim sim' : Simulator α} {now : UInt64} {kind : α}

/-- The times and kinds of the pending events before the horizon. -/
def early (horizon : ℕ) (sim : Simulator α) : List (UInt64 × α) :=
  (sim.pending.filter fun ev => ev.timeNs.toNat < horizon).map fun ev => (ev.timeNs, ev.kind)

theorem mem_early {p : UInt64 × α} : p ∈ early horizon sim ↔
    ∃ ev ∈ sim.pending, ev.timeNs.toNat < horizon ∧ (ev.timeNs, ev.kind) = p := by
  simp [early, and_assoc]

theorem early_schedule (sim : Simulator α) (t : UInt64) (k : α) :
    (sim.schedule t k).early horizon =
      sim.early horizon ++ if t.toNat < horizon then [(t, k)] else [] := by
  by_cases ht : t.toNat < horizon <;> simp [early, ht]

/-- The simulators agree on the clock and on what happens before the horizon. -/
structure SameBefore (horizon : ℕ) (sim sim' : Simulator α) : Prop where
  nowNs : sim'.nowNs = sim.nowNs
  early : sim'.early horizon = sim.early horizon
  inSequence : sim.InSequence
  inSequence' : sim'.InSequence

theorem SameBefore.schedule (h : SameBefore horizon sim sim') (t : UInt64) (k : α) :
    SameBefore horizon (sim.schedule t k) (sim'.schedule t k) :=
  ⟨h.nowNs, by rw [early_schedule, early_schedule, h.early], h.inSequence.schedule t k,
    h.inSequence'.schedule t k⟩

/-- While something is pending before the horizon, a step returns the first of it. -/
theorem InSequence.step_early (h : sim.InSequence) (hearly : sim.early horizon ≠ []) :
    ∃ now kind sim₁ t pre post, sim.step = some (now, kind, sim₁) ∧ sim₁.InSequence ∧
      now = max sim.nowNs t ∧ sim₁.nowNs = now ∧ t.toNat < horizon ∧
      sim.early horizon = pre ++ (t, kind) :: post ∧ sim₁.early horizon = pre ++ post ∧
      (∀ p ∈ pre, t < p.1) ∧ ∀ p ∈ post, t ≤ p.1 := by
  cases hstep : sim.step with
  | none =>
    rw [step_eq_none] at hstep
    exact absurd (by simp [early, hstep]) hearly
  | some p =>
    obtain ⟨now, kind, sim₁⟩ := p
    obtain ⟨hseq, pre, ev, post, rfl, hsplit, hrest, hnow, hpre, hpost⟩ := h.step hstep
    obtain ⟨_, _, _, _, hclock, _⟩ := step_spec hstep
    -- the event that is returned is no later than one before the horizon
    have ht : ev.timeNs.toNat < horizon := by
      obtain ⟨p, hp⟩ := List.exists_mem_of_ne_nil _ hearly
      obtain ⟨x, hx, hxt, -⟩ := mem_early.1 hp
      have hle : ev.timeNs ≤ x.timeNs := by
        rw [hsplit] at hx
        rcases List.mem_append.1 hx with hx | hx
        · exact (hpre x hx).le
        · rcases List.mem_cons.1 hx with rfl | hx
          · exact le_rfl
          · exact hpost x hx
      rw [UInt64.le_iff_toNat_le] at hle
      omega
    let before (l : List (Event α)) : List (UInt64 × α) :=
      (l.filter fun ev => ev.timeNs.toNat < horizon).map fun ev => (ev.timeNs, ev.kind)
    have hof : ∀ (l : List (Event α)) (p : UInt64 × α), p ∈ before l → ∃ x ∈ l, x.timeNs = p.1 := by
      intro l p hp
      obtain ⟨x, hx, rfl⟩ := List.mem_map.1 hp
      exact ⟨x, (List.mem_filter.1 hx).1, rfl⟩
    refine ⟨now, ev.kind, sim₁, ev.timeNs, before pre, before post, rfl, hseq, hnow, hclock, ht, ?_,
      ?_, fun p hp => ?_, fun p hp => ?_⟩
    · simp [early, before, hsplit, ht]
    · simp [early, before, hrest]
    · obtain ⟨x, hx, hxp⟩ := hof pre p hp
      exact hxp ▸ hpre x hx
    · obtain ⟨x, hx, hxp⟩ := hof post p hp
      exact hxp ▸ hpost x hx

/-- Simulators that agree before the horizon return the same event from before it. -/
theorem SameBefore.step (h : SameBefore horizon sim sim') (hearly : sim.early horizon ≠ []) :
    ∃ now kind t sim₁ sim₁', sim.step = some (now, kind, sim₁) ∧
      sim'.step = some (now, kind, sim₁') ∧ (t, kind) ∈ sim.early horizon ∧
      sim₁.early horizon ⊆ sim.early horizon ∧ SameBefore horizon sim₁ sim₁' := by
  obtain ⟨now, kind, sim₁, t, pre, post, hstep, hseq, hnow, hclock, -, hsplit, hrest,
      hpre, hpost⟩ :=
    h.inSequence.step_early hearly
  obtain ⟨now', kind', sim₁', t', pre', post', hstep', hseq', hnow', hclock', -, hsplit', hrest',
    hpre', hpost'⟩ := h.inSequence'.step_early (h.early ▸ hearly)
  have hlists : pre ++ (t, kind) :: post = pre' ++ (t', kind') :: post' := by
    rw [← hsplit, ← hsplit', h.early]
  obtain ⟨rfl, hev, rfl⟩ := List.eq_of_least_split (f := Prod.fst) hlists hpre hpost hpre' hpost'
  obtain ⟨rfl, rfl⟩ := Prod.mk.inj hev
  have hsame : now' = now := by rw [hnow, hnow', h.nowNs]
  refine ⟨now, kind, t, sim₁, sim₁', hstep, hsame ▸ hstep', by simp [hsplit], ?_, ?_⟩
  · rw [hrest, hsplit]
    intro p hp
    rcases List.mem_append.1 hp with hp | hp
    · exact List.mem_append_left _ hp
    · exact List.mem_append_right _ (List.mem_cons_of_mem _ hp)
  · exact ⟨by rw [hclock, hclock', hsame], by rw [hrest, hrest'], hseq, hseq'⟩

end Simulator

end KvFlowSim
