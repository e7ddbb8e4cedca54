import KvFlowSim.Foundations.UInt
import KvFlowSim.Foundations.PopFirst
import Mathlib.Data.List.Basic

/-!
# The discrete-event simulator

`core/event.rs` and `core/simulator.rs`: a priority queue of timed events whose ties are broken by
a sequence number, and a clock that each step advances to the time of the event it returns. The
heap is the list of pending events in the order they were scheduled; `pop` takes out a maximum of
the source's (reversed) order, the earliest scheduled one if several are equal.

What the rest of the development uses about a step is `Simulator.step_spec`.
-/

namespace KvFlowSim

variable {α : Type}

/-- A scheduled event. -/
structure Event (α : Type) where
  timeNs : UInt64
  seq : UInt64
  kind : α
  deriving DecidableEq

namespace Event

/-- `Ord::cmp`, reversed so that the maximum is the event of smallest time, then of smallest
sequence number. -/
def cmp (a b : Event α) : Ordering :=
  (compare b.timeNs a.timeNs).then (compare b.seq a.seq)

/-- `a` may be popped ahead of `b`. -/
def popsBefore (a b : Event α) : Bool := (a.cmp b).isGE

theorem popsBefore_iff {a b : Event α} : a.popsBefore b = true ↔
    a.timeNs < b.timeNs ∨ a.timeNs = b.timeNs ∧ a.seq ≤ b.seq := by
  simp only [popsBefore, cmp, compare, compareOfLessAndEq]
  split_ifs <;> simp only [Ordering.then, Ordering.isGE] <;> grind

theorem popsBefore_total (a b : Event α) : a.popsBefore b = true ∨ b.popsBefore a = true := by
  simp only [popsBefore_iff]
  grind

theorem popsBefore_trans (a b c : Event α) (h₁ : a.popsBefore b = true)
    (h₂ : b.popsBefore c = true) : a.popsBefore c = true := by
  simp only [popsBefore_iff] at *
  grind

end Event

/-- The priority queue: the heap's content in scheduling order, and the next sequence number. -/
structure EventQueue (α : Type) where
  queue : List (Event α)
  nextSeq : UInt64
  deriving DecidableEq

namespace EventQueue

def new : EventQueue α := ⟨[], 0⟩

def schedule (q : EventQueue α) (timeNs : UInt64) (kind : α) : EventQueue α where
  queue := q.queue ++ [⟨timeNs, q.nextSeq, kind⟩]
  nextSeq := q.nextSeq.satAdd 1

def pop (q : EventQueue α) : Option (Event α × EventQueue α) :=
  (q.queue.popFirst Event.popsBefore).map fun p => (p.1, { q with queue := p.2 })

end EventQueue

/-- The simulator: a clock and the pending events. -/
structure Simulator (α : Type) where
  nowNs : UInt64
  queue : EventQueue α
  deriving DecidableEq

namespace Simulator

def new : Simulator α := ⟨0, .new⟩

def schedule (sim : Simulator α) (timeNs : UInt64) (kind : α) : Simulator α :=
  { sim with queue := sim.queue.schedule timeNs kind }

/-- Advances the clock to the next event and returns the clock, the event and the simulator left. -/
def step (sim : Simulator α) : Option (UInt64 × α × Simulator α) :=
  match sim.queue.pop with
  | none => none
  | some (ev, queue) =>
    let nowNs := max sim.nowNs ev.timeNs
    some (nowNs, ev.kind, ⟨nowNs, queue⟩)

/-- The pending events, in the order they were scheduled. -/
abbrev pending (sim : Simulator α) : List (Event α) := sim.queue.queue

@[simp] theorem pending_new : (new : Simulator α).pending = [] := rfl

@[simp] theorem nowNs_schedule (sim : Simulator α) (t : UInt64) (k : α) :
    (sim.schedule t k).nowNs = sim.nowNs := rfl

@[simp] theorem pending_schedule (sim : Simulator α) (t : UInt64) (k : α) :
    (sim.schedule t k).pending = sim.pending ++ [⟨t, sim.queue.nextSeq, k⟩] := rfl

theorem step_eq_none {sim : Simulator α} : sim.step = none ↔ sim.pending = [] := by
  unfold step EventQueue.pop
  rw [← @List.popFirst_eq_none _ Event.popsBefore]
  cases sim.pending.popFirst Event.popsBefore <;> simp

/-- What a step does: it pops an event and moves the clock on to it. -/
theorem step_ok {sim sim' : Simulator α} {now : UInt64} {kind : α}
    (h : sim.step = some (now, kind, sim')) : ∃ ev rest,
      sim.pending.popFirst Event.popsBefore = some (ev, rest) ∧ ev.kind = kind ∧
        max sim.nowNs ev.timeNs = now ∧ ⟨now, { sim.queue with queue := rest }⟩ = sim' := by
  unfold step EventQueue.pop at h
  cases hp : sim.queue.queue.popFirst Event.popsBefore with
  | none => simp [hp] at h
  | some p =>
    simp only [hp, Option.map_some, Option.some.injEq, Prod.mk.injEq] at h
    obtain ⟨rfl, rfl, rfl⟩ := h
    exact ⟨p.1, p.2, rfl, rfl, rfl, rfl⟩

/-- What a step returns: a pending event of least time, with the clock moved on to it. -/
theorem step_spec {sim sim' : Simulator α} {now : UInt64} {kind : α}
    (h : sim.step = some (now, kind, sim')) :
    ∃ ev, ev.kind = kind ∧ sim.pending.Perm (ev :: sim'.pending) ∧
      now = max sim.nowNs ev.timeNs ∧ sim'.nowNs = now ∧
      ∀ x ∈ sim'.pending, ev.timeNs ≤ x.timeNs := by
  obtain ⟨ev, rest, hp, rfl, rfl, rfl⟩ := step_ok h
  refine ⟨ev, rfl, List.popFirst_perm Event.popsBefore_total Event.popsBefore_trans hp, rfl, rfl,
    fun x hx => ?_⟩
  have hbefore := List.popFirst_before Event.popsBefore_total Event.popsBefore_trans hp x hx
  rcases Event.popsBefore_iff.1 hbefore with hlt | ⟨heq, -⟩
  · exact hlt.le
  · exact heq.le

/-- A step of a simulator that has no event behind the clock. -/
theorem step_notPast {sim sim' : Simulator α} {now : UInt64} {kind : α}
    (h : sim.step = some (now, kind, sim')) (hpast : ∀ ev ∈ sim.pending, sim.nowNs ≤ ev.timeNs) :
    sim.nowNs ≤ now ∧ sim'.nowNs = now ∧ (∀ ev ∈ sim'.pending, ev ∈ sim.pending) ∧
      ∀ ev ∈ sim'.pending, sim'.nowNs ≤ ev.timeNs := by
  obtain ⟨ev, -, hperm, hnow, hsim, hfirst⟩ := step_spec h
  have hmem : ∀ x ∈ sim'.pending, x ∈ sim.pending := fun x hx =>
    hperm.mem_iff.2 (List.mem_cons_of_mem _ hx)
  refine ⟨hnow ▸ le_max_left _ _, hsim, hmem, fun x hx => ?_⟩
  rw [hsim, hnow]
  exact max_le (hpast x (hmem x hx)) (hfirst x hx)

/-- The pending events stand in the order of their sequence numbers. -/
structure InSequence (sim : Simulator α) : Prop where
  pairwise : sim.pending.Pairwise fun a b => a.seq ≤ b.seq
  le_next : ∀ ev ∈ sim.pending, ev.seq ≤ sim.queue.nextSeq

theorem inSequence_new : (new : Simulator α).InSequence :=
  ⟨.nil, fun _ h => absurd h List.not_mem_nil⟩

theorem InSequence.schedule {sim : Simulator α} (h : sim.InSequence) (t : UInt64) (k : α) :
    (sim.schedule t k).InSequence := by
  refine ⟨?_, fun ev hev => ?_⟩
  · rw [pending_schedule, List.pairwise_append]
    refine ⟨h.pairwise, List.pairwise_singleton _ _, fun a ha b hb => ?_⟩
    obtain rfl := List.mem_singleton.1 hb
    exact h.le_next a ha
  · refine le_trans ?_ (UInt64.le_satAdd sim.queue.nextSeq 1)
    rcases List.mem_append.1 hev with hev | hev
    · exact h.le_next ev hev
    · obtain rfl := List.mem_singleton.1 hev
      exact le_rfl

/-- A step takes out the event that was scheduled first among those of least time. -/
theorem InSequence.step {sim sim' : Simulator α} {now : UInt64} {kind : α} (h : sim.InSequence)
    (hstep : sim.step = some (now, kind, sim')) :
    sim'.InSequence ∧ ∃ pre ev post, ev.kind = kind ∧ sim.pending = pre ++ ev :: post ∧
      sim'.pending = pre ++ post ∧ now = max sim.nowNs ev.timeNs ∧
      (∀ x ∈ pre, ev.timeNs < x.timeNs) ∧ ∀ x ∈ post, ev.timeNs ≤ x.timeNs := by
  obtain ⟨ev, rest, hp, rfl, rfl, rfl⟩ := step_ok hstep
  obtain ⟨pre, post, hsplit, rfl, hpre, hpost⟩ :=
    List.popFirst_split Event.popsBefore_total Event.popsBefore_trans hp
  have hseq := h.pairwise
  rw [hsplit, List.pairwise_append] at hseq
  refine ⟨⟨?_, fun x hx => h.le_next x ?_⟩, pre, ev, post, rfl, hsplit, rfl, rfl,
    fun x hx => ?_, fun x hx => ?_⟩
  · refine List.Pairwise.sublist ?_ h.pairwise
    rw [hsplit]
    exact (List.sublist_cons_self ev post).append_left pre
  · rw [hsplit]
    rcases List.mem_append.1 hx with hx | hx
    · exact List.mem_append_left _ hx
    · exact List.mem_append_right _ (List.mem_cons_of_mem _ hx)
  · have hlate := hpre x hx
    rw [← Bool.not_eq_true, Event.popsBefore_iff, not_or, not_lt, not_and, not_le] at hlate
    refine lt_of_le_of_ne hlate.1 fun heq => ?_
    exact (hlate.2 heq.symm).not_ge (hseq.2.2 x hx ev List.mem_cons_self)
  · rcases Event.popsBefore_iff.1 (hpost x hx) with hlt | ⟨heq, -⟩
    · exact hlt.le
    · exact heq.le

/-! ## Simulators with corresponding events -/

/-- The simulators differ in what their events say only, and there as `K` allows. -/
structure Corresponds {β : Type} (K : α → β → Prop) (sim : Simulator α) (sim' : Simulator β) :
    Prop where
  nowNs : sim'.nowNs = sim.nowNs
  nextSeq : sim'.queue.nextSeq = sim.queue.nextSeq
  pending : List.Forall₂ (fun ev ev' => ev'.timeNs = ev.timeNs ∧ ev'.seq = ev.seq ∧
    K ev.kind ev'.kind) sim.pending sim'.pending

variable {β : Type} {K : α → β → Prop} {sim : Simulator α} {sim' : Simulator β}

theorem Corresponds.schedule (h : sim.Corresponds K sim') (t : UInt64) {k : α} {k' : β}
    (hk : K k k') : (sim.schedule t k).Corresponds K (sim'.schedule t k') where
  nowNs := h.nowNs
  nextSeq := congrArg (·.satAdd 1) h.nextSeq
  pending := List.rel_append h.pending (.cons ⟨rfl, h.nextSeq, hk⟩ .nil)

/-- They step in lock-step. -/
theorem Corresponds.step (h : sim.Corresponds K sim') :
    Option.Rel (fun p p' => p'.1 = p.1 ∧ K p.2.1 p'.2.1 ∧ p.2.2.Corresponds K p'.2.2)
      sim.step sim'.step := by
  have hpop := List.rel_popFirst Event.popsBefore Event.popsBefore
    (fun ha hb => by simp only [Event.popsBefore, Event.cmp, ha.1, ha.2.1, hb.1, hb.2.1]) h.pending
  unfold Simulator.step EventQueue.pop
  generalize sim.queue.queue.popFirst Event.popsBefore = o at hpop ⊢
  generalize sim'.queue.queue.popFirst Event.popsBefore = o' at hpop ⊢
  cases hpop with
  | none => exact .none
  | some hev =>
    obtain ⟨⟨htime, -, hkind⟩, hrest⟩ := hev
    refine .some ⟨?_, hkind, ?_, h.nextSeq, hrest⟩ <;> simp only [h.nowNs, htime]

end Simulator

end KvFlowSim
