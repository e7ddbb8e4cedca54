import KvFlowSim.Core.Simulator
import KvFlowSim.Foundations.Labelled
import Mathlib.Algebra.Ring.Nat
import Mathlib.Data.List.Nodup

/-!
# The simulator as a stable queue

The calls of `schedule` and `step` come in any order. `History` records them with their answers, and
what the simulator is for is said of this record alone: which events await their turn (`Awaits`),
what the clock shows (`clock`), and which event is due (`Due`). `Simulator.stable_of_run`: whatever
maximum the heap pops, a step returns the event that is due.

The events are numbered as they are scheduled, and as long as there are fewer than 2^64 the sequence
numbers of the queue are these numbers. So no two events are equal in the order of the heap, and any
heap that pops a maximum gives the same answers (`answers_unique`), that of `Simulator.step` among
them (`exists_run`).
-/

namespace KvFlowSim

open Labelled

variable {α : Type}

/-- `BinaryHeap::pop` takes out some maximum of `Event::cmp`, and leaves the others in any order. -/
structure EventQueue.Pops (q : EventQueue α) (ev : Event α) (q' : EventQueue α) : Prop where
  perm : q.queue.Perm (ev :: q'.queue)
  maximal : ∀ x ∈ q'.queue, ev.popsBefore x = true
  nextSeq : q'.nextSeq = q.nextSeq

namespace Simulator

/-- A call. -/
inductive Call (α : Type)
  | schedule (timeNs : UInt64) (kind : α)
  | step

/-- The answers to the steps of a sequence of calls. -/
def answers (sim : Simulator α) : List (Call α) → List (Option (UInt64 × α))
  | [] => []
  | .schedule timeNs kind :: calls => (sim.schedule timeNs kind).answers calls
  | .step :: calls =>
    match sim.step with
    | none => none :: sim.answers calls
    | some (nowNs, kind, sim') => some (nowNs, kind) :: sim'.answers calls

/-- A call that has been answered; a step with the clock value that it returns, and the event whose
kind it returns. -/
inductive Record (α : Type)
  | schedule (timeNs : UInt64) (kind : α)
  | step (answer : Option (UInt64 × Event α))
  deriving DecidableEq

/-- The calls so far, the latest one last. -/
abbrev History (α : Type) := List (Record α)

namespace Record

def call : Record α → Call α
  | schedule timeNs kind => .schedule timeNs kind
  | step _ => .step

/-- What is scheduled. -/
def entry : Record α → Option (UInt64 × α)
  | schedule timeNs kind => some (timeNs, kind)
  | step _ => none

/-- What is returned. -/
def delivery : Record α → Option (UInt64 × Event α)
  | schedule _ _ => none
  | step answer => answer

/-- What the caller of a step sees. -/
def answer : Record α → Option (Option (UInt64 × α))
  | schedule _ _ => none
  | step answer => some (answer.map fun p => (p.1, p.2.kind))

end Record

/-- What a call does to a simulator whose heap pops any maximum. -/
inductive Next : Simulator α → Record α → Simulator α → Prop
  | schedule (sim : Simulator α) (timeNs : UInt64) (kind : α) :
    Next sim (.schedule timeNs kind) (sim.schedule timeNs kind)
  | idle {sim : Simulator α} (hempty : sim.pending = []) : Next sim (.step none) sim
  | step {sim : Simulator α} {ev : Event α} {queue : EventQueue α} {nowNs : UInt64}
    (hpops : sim.queue.Pops ev queue) (hnow : nowNs = max sim.nowNs ev.timeNs) :
    Next sim (.step (some (nowNs, ev))) ⟨nowNs, queue⟩

/-! ## What the simulator is for -/

namespace History

variable (h : History α)

/-- The events that have been scheduled, numbered from zero on. -/
def scheduled : List (Event α) :=
  (h.filterMap Record.entry).zipIdx.map fun p => ⟨p.1.1, .ofNat p.2, p.1.2⟩

/-- The events that have been returned. -/
def returned : List (Event α) := (h.filterMap Record.delivery).map fun p => p.2

/-- The clock value returned last. -/
def clock : UInt64 := ((h.filterMap Record.delivery).map fun p => p.1).getLastD 0

/-- The event has been scheduled, but not been returned. -/
def Awaits (ev : Event α) : Prop := ev ∈ scheduled h ∧ ev ∉ returned h

/-- No event was scheduled in the past. -/
def Timely : Prop := ∀ past timeNs kind rest, h = past ++ Record.schedule timeNs kind :: rest →
  clock past ≤ timeNs

/-- What a step is to return next: of the events that wait the one of least time, and the one
scheduled first among these, at a clock that never goes back. -/
structure Due (now : UInt64) (ev : Event α) : Prop where
  awaits : h.Awaits ev
  first : ∀ x, h.Awaits x → x ≠ ev → ev.timeNs < x.timeNs ∨ ev.timeNs = x.timeNs ∧ ev.seq < x.seq
  now_eq : now = max (clock h) ev.timeNs
  clock_le : clock h ≤ now
  onTime : h.Timely → now = ev.timeNs

/-- The answer that a step is to give next. -/
def Owes : Option (UInt64 × Event α) → Prop
  | none => ∀ ev, ¬h.Awaits ev
  | some (now, ev) => h.Due now ev

/-- Each event is returned once and in its turn. -/
structure Stable : Prop where
  /-- The events are told apart by their numbers, which tell when they were scheduled. -/
  numbered : (scheduled h).Pairwise fun a b => a.seq < b.seq
  once : (returned h).Nodup
  inTurn : ∀ past answer rest, h = past ++ Record.step answer :: rest → Owes past answer
  /-- After as many steps in a row as events waited, none waits any more. -/
  drained : ∀ past rest, h = past ++ rest → (∀ r ∈ rest, r.call = .step) →
    (scheduled past).length ≤ (returned past).length + rest.length →
      (returned h).Perm (scheduled h)

end History

/-! ## The record of a run -/

namespace History

variable {h : History α} {sim sim' : Simulator α} {timeNs now now' : UInt64} {kind : α}
  {ev ev' : Event α} {answer : Option (UInt64 × Event α)}

theorem scheduled_schedule (h : History α) (timeNs : UInt64) (kind : α) :
    scheduled (h ++ [.schedule timeNs kind]) =
      scheduled h ++ [⟨timeNs, .ofNat (scheduled h).length, kind⟩] := by
  simp [scheduled, Record.entry, List.zipIdx_append]

theorem scheduled_step (h : History α) (answer : Option (UInt64 × Event α)) :
    scheduled (h ++ [.step answer]) = scheduled h := by
  have hnone : [Record.step answer].filterMap Record.entry = [] := rfl
  simp only [scheduled, List.filterMap_append, hnone, List.append_nil]

theorem returned_schedule (h : History α) (timeNs : UInt64) (kind : α) :
    returned (h ++ [.schedule timeNs kind]) = returned h := by
  simp [returned, Record.delivery]

theorem returned_none (h : History α) : returned (h ++ [.step none]) = returned h := by
  simp [returned, Record.delivery]

theorem returned_some (h : History α) (now : UInt64) (ev : Event α) :
    returned (h ++ [.step (some (now, ev))]) = returned h ++ [ev] := by
  simp [returned, Record.delivery]

theorem clock_schedule (h : History α) (timeNs : UInt64) (kind : α) :
    clock (h ++ [.schedule timeNs kind]) = clock h := by
  simp [clock, Record.delivery]

theorem clock_none (h : History α) : clock (h ++ [.step none]) = clock h := by
  simp [clock, Record.delivery]

theorem clock_some (h : History α) (now : UInt64) (ev : Event α) :
    clock (h ++ [.step (some (now, ev))]) = now := by
  simp [clock, Record.delivery]

theorem Timely.of_append {rest : History α} (ht : Timely (h ++ rest)) : h.Timely := by
  rintro past timeNs kind rest' rfl
  exact ht past timeNs kind (rest' ++ rest) (List.append_assoc _ _ _)

theorem Timely.clock_le (ht : Timely (h ++ [.schedule timeNs kind])) : clock h ≤ timeNs :=
  ht h timeNs kind [] rfl

theorem length_scheduled_le (h rest : History α) :
    (scheduled h).length ≤ (scheduled (h ++ rest)).length := by
  simp only [scheduled, List.filterMap_append, List.length_map, List.length_zipIdx,
    List.length_append]
  omega

/-! ## The numbers of the events -/

theorem seq_lt_of_mem (hlt : (scheduled h).length < 2 ^ 64) (hev : ev ∈ scheduled h) :
    ev.seq.toNat < (scheduled h).length := by
  obtain ⟨⟨x, i⟩, hx, rfl⟩ := List.mem_map.1 hev
  have hi : i < (scheduled h).length := by
    rw [scheduled, List.length_map, List.length_zipIdx]
    exact List.snd_lt_of_mem_zipIdx hx
  rw [UInt64.toNat_ofNat_of_lt' (hi.trans hlt)]
  exact hi

theorem numbered_of_lt (hlt : (scheduled h).length < 2 ^ 64) :
    (scheduled h).Pairwise fun a b => a.seq < b.seq := by
  induction h using List.reverseRecOn with
  | nil => exact .nil
  | append_singleton h r ih =>
    have hlt' := (length_scheduled_le h [r]).trans_lt hlt
    cases r with
    | step answer =>
      rw [scheduled_step]
      exact ih hlt'
    | schedule timeNs kind =>
      rw [scheduled_schedule, List.pairwise_append]
      refine ⟨ih hlt', List.pairwise_singleton _ _, fun a ha b hb => ?_⟩
      obtain rfl := List.mem_singleton.1 hb
      rw [UInt64.lt_iff_toNat_lt, UInt64.toNat_ofNat_of_lt' hlt']
      exact seq_lt_of_mem hlt' ha

theorem nodup_scheduled (hlt : (scheduled h).length < 2 ^ 64) : (scheduled h).Nodup :=
  (numbered_of_lt hlt).imp fun hseq heq => (heq ▸ hseq).ne rfl

/-- Events of one number are the same. -/
theorem eq_of_seq (hlt : (scheduled h).length < 2 ^ 64) (hev : ev ∈ scheduled h)
    (hev' : ev' ∈ scheduled h) (hseq : ev.seq = ev'.seq) : ev = ev' := by
  have hnodup : ((scheduled h).map Event.seq).Nodup :=
    List.pairwise_map.2 ((numbered_of_lt hlt).imp fun hlt => hlt.ne)
  exact List.inj_on_of_nodup_map hnodup hev hev' hseq

/-! ## What the record says of the simulator -/

/-- The simulator has the events that wait and shows the time. -/
structure Describes (h : History α) (sim : Simulator α) : Prop where
  nextSeq : sim.queue.nextSeq.toNat = (scheduled h).length
  content : (scheduled h).Perm (returned h ++ sim.pending)
  nowNs : sim.nowNs = clock h
  early : h.Timely → ∀ x ∈ sim.pending, sim.nowNs ≤ x.timeNs

theorem describes_new : Describes [] (.new : Simulator α) where
  nextSeq := rfl
  content := .nil
  nowNs := rfl
  early _ _ hx := absurd hx List.not_mem_nil

theorem Describes.schedule (hd : h.Describes sim) (timeNs : UInt64) (kind : α)
    (hlt : (scheduled h).length + 1 < 2 ^ 64) :
    Describes (h ++ [.schedule timeNs kind]) (sim.schedule timeNs kind) where
  nextSeq := by
    have hsat : ((sim.queue.nextSeq).satAdd 1).toNat = min (sim.queue.nextSeq.toNat + 1)
        UInt64.maxValue.toNat := UInt64.toNat_satAdd _ _
    rw [scheduled_schedule, List.length_append, List.length_singleton]
    refine hsat.trans ?_
    rw [hd.nextSeq, UInt64.toNat_maxValue]
    omega
  content := by
    have hseq : sim.queue.nextSeq = .ofNat (scheduled h).length := by
      rw [← hd.nextSeq, UInt64.ofNat_toNat]
    rw [scheduled_schedule, returned_schedule, Simulator.pending_schedule, hseq,
      ← List.append_assoc]
    exact hd.content.append_right _
  nowNs := by
    rw [clock_schedule]
    exact hd.nowNs
  early ht x hx := by
    rw [Simulator.pending_schedule] at hx
    rcases List.mem_append.1 hx with hx | hx
    · exact hd.early ht.of_append x hx
    · -- the new event
      obtain rfl := List.mem_singleton.1 hx
      exact hd.nowNs.trans_le ht.clock_le

theorem Describes.idle (hd : h.Describes sim) : Describes (h ++ [.step none]) sim where
  nextSeq := by
    rw [scheduled_step]
    exact hd.nextSeq
  content := by
    rw [scheduled_step, returned_none]
    exact hd.content
  nowNs := by
    rw [clock_none]
    exact hd.nowNs
  early ht := hd.early ht.of_append

theorem Describes.step {queue : EventQueue α} (hd : h.Describes sim)
    (hpops : sim.queue.Pops ev queue) :
    Describes (h ++ [.step (some (max sim.nowNs ev.timeNs, ev))])
      ⟨max sim.nowNs ev.timeNs, queue⟩ where
  nextSeq := by
    rw [scheduled_step, ← hd.nextSeq, ← hpops.nextSeq]
  content := by
    rw [scheduled_step, returned_some, List.append_assoc]
    exact hd.content.trans (hpops.perm.append_left _)
  nowNs := (clock_some h _ ev).symm
  early ht x hx := by
    refine max_le ?_ ?_
    · exact hd.early ht.of_append x (hpops.perm.mem_iff.2 (List.mem_cons_of_mem _ hx))
    · rcases Event.popsBefore_iff.1 (hpops.maximal x hx) with hbefore | ⟨hsame, -⟩
      · exact hbefore.le
      · exact hsame.le

theorem Describes.next {r : Record α} (hd : h.Describes sim)
    (hlt : (scheduled (h ++ [r])).length < 2 ^ 64) (hnext : Next sim r sim') :
    Describes (h ++ [r]) sim' := by
  cases hnext with
  | schedule timeNs kind =>
    rw [scheduled_schedule, List.length_append, List.length_singleton] at hlt
    exact hd.schedule timeNs kind hlt
  | idle _ => exact hd.idle
  | step hpops hnow =>
    subst hnow
    exact hd.step hpops

theorem describes_of_run (hrun : Run Next new h sim)
    (hlt : (scheduled h).length < 2 ^ 64) : h.Describes sim := by
  refine hrun.invariant (I := fun past s => (scheduled past).length < 2 ^ 64 → Describes past s)
    (fun _ => describes_new) (fun past s r s' hpast hnext hlt => ?_) hlt
  exact (hpast ((length_scheduled_le past [r]).trans_lt hlt)).next hlt hnext

/-- The events in the queue are those that wait. -/
theorem Describes.awaits_iff (hd : h.Describes sim) (hlt : (scheduled h).length < 2 ^ 64) :
    h.Awaits ev ↔ ev ∈ sim.pending := by
  have hnodup := hd.content.nodup_iff.1 (nodup_scheduled hlt)
  rw [Awaits, hd.content.mem_iff, List.mem_append]
  constructor
  · rintro ⟨hret | hpend, hnot⟩
    · exact absurd hret hnot
    · exact hpend
  · exact fun hpend => ⟨.inr hpend, fun hret => (List.disjoint_of_nodup_append hnodup) hret hpend⟩

/-- A maximum of the heap is due. -/
theorem Describes.due {queue : EventQueue α} (hd : h.Describes sim)
    (hlt : (scheduled h).length < 2 ^ 64) (hpops : sim.queue.Pops ev queue) :
    h.Due (max sim.nowNs ev.timeNs) ev where
  awaits := (hd.awaits_iff hlt).2 (hpops.perm.mem_iff.2 List.mem_cons_self)
  first x hx hne := by
    have hev : h.Awaits ev := (hd.awaits_iff hlt).2 (hpops.perm.mem_iff.2 List.mem_cons_self)
    have hmem := hpops.perm.mem_iff.1 ((hd.awaits_iff hlt).1 hx)
    have hrest : x ∈ queue.queue := (List.mem_cons.1 hmem).resolve_left hne
    refine (Event.popsBefore_iff.1 (hpops.maximal x hrest)).imp_right
      fun ⟨hsame, hle⟩ => ⟨hsame, ?_⟩
    exact lt_of_le_of_ne hle fun hseq => hne (eq_of_seq hlt hx.1 hev.1 hseq.symm)
  now_eq := by rw [hd.nowNs]
  clock_le := by
    rw [← hd.nowNs]
    exact le_max_left _ _
  onTime ht := max_eq_right (hd.early ht ev (hpops.perm.mem_iff.2 List.mem_cons_self))

theorem Describes.owes (hd : h.Describes sim) (hlt : (scheduled h).length < 2 ^ 64)
    (hnext : Next sim (.step answer) sim') : h.Owes answer := by
  cases hnext with
  | idle hempty =>
    intro ev hev
    have hmem := (hd.awaits_iff hlt).1 hev
    rw [hempty] at hmem
    exact List.not_mem_nil hmem
  | step hpops hnow =>
    subst hnow
    exact hd.due hlt hpops

/-! ## The answers -/

theorem Due.unique (hdue : h.Due now ev) (hdue' : h.Due now' ev') : now = now' ∧ ev = ev' := by
  have hev : ev = ev' := by
    by_contra hne
    rcases hdue.first ev' hdue'.awaits (Ne.symm hne) with hlt | ⟨heq, hseq⟩
    · rcases hdue'.first ev hdue.awaits hne with hlt' | ⟨heq', -⟩
      · exact lt_asymm hlt hlt'
      · exact hlt.ne heq'.symm
    · rcases hdue'.first ev hdue.awaits hne with hlt' | ⟨-, hseq'⟩
      · exact hlt'.ne heq.symm
      · exact lt_asymm hseq hseq'
  refine ⟨?_, hev⟩
  rw [hdue.now_eq, hdue'.now_eq, hev]

theorem Owes.unique {answer' : Option (UInt64 × Event α)} (howes : h.Owes answer)
    (howes' : h.Owes answer') : answer = answer' := by
  rcases answer with _ | ⟨now, ev⟩ <;> rcases answer' with _ | ⟨now', ev'⟩
  · rfl
  · exact absurd howes'.awaits (howes ev')
  · exact absurd howes.awaits (howes' ev)
  · obtain ⟨rfl, rfl⟩ := Due.unique howes howes'
    rfl

/-- **The heap does not matter.** Two runs with the same calls have the same answers. -/
theorem answers_unique {h' : History α} (hrun : Run Next new h sim)
    (hrun' : Run Next new h' sim') (hcalls : h'.map Record.call = h.map Record.call)
    (hlt : (scheduled h).length < 2 ^ 64) : h' = h := by
  induction h using List.reverseRecOn generalizing h' sim sim' with
  | nil => exact List.map_eq_nil_iff.1 hcalls
  | append_singleton past r ih =>
    obtain rfl | ⟨past', r', rfl⟩ := h'.eq_nil_or_concat
    · simp at hcalls
    · have hlt' := (length_scheduled_le past [r]).trans_lt hlt
      rw [List.concat_eq_append] at hrun' hcalls ⊢
      rw [List.map_append, List.map_append] at hcalls
      obtain ⟨hpasts, hlast⟩ := List.append_inj' hcalls rfl
      have hcall : r'.call = r.call := List.head_eq_of_cons_eq hlast
      obtain ⟨s, hpast, hnext⟩ := Run.snoc_iff.1 hrun
      obtain ⟨s', hpast', hnext'⟩ := Run.snoc_iff.1 hrun'
      obtain rfl := ih hpast hpast' hpasts hlt'
      cases r with
      | schedule timeNs kind =>
        cases r' with
        | schedule timeNs' kind' =>
          obtain ⟨rfl, rfl⟩ := Call.schedule.inj hcall
          rfl
        | step answer' => cases hcall
      | step answer =>
        cases r' with
        | schedule timeNs' kind' => cases hcall
        | step answer' =>
          have howes := (describes_of_run hpast hlt').owes hlt' hnext
          have howes' := (describes_of_run hpast' hlt').owes hlt' hnext'
          rw [howes'.unique howes]

end History

variable {h : History α} {sim sim' : Simulator α} {now : UInt64} {kind : α}

/-- The step of the model pops a maximum. -/
theorem next_of_step (hstep : sim.step = some (now, kind, sim')) :
    ∃ ev, ev.kind = kind ∧ Next sim (.step (some (now, ev))) sim' := by
  obtain ⟨ev, rest, hp, rfl, rfl, rfl⟩ := step_ok hstep
  refine ⟨ev, rfl, .step ⟨?_, ?_, rfl⟩ rfl⟩
  · exact List.popFirst_perm Event.popsBefore_total Event.popsBefore_trans hp
  · exact List.popFirst_before Event.popsBefore_total Event.popsBefore_trans hp

/-- Any sequence of calls is a run. -/
theorem exists_run (sim : Simulator α) (calls : List (Call α)) :
    ∃ (h : History α) (sim' : Simulator α),
    Run Next sim h sim' ∧ h.map Record.call = calls ∧
      h.filterMap Record.answer = sim.answers calls := by
  induction calls generalizing sim with
  | nil => exact ⟨[], sim, .nil sim, rfl, rfl⟩
  | cons call calls ih =>
    cases call with
    | schedule timeNs kind =>
      obtain ⟨h, sim', hrun, hcalls, hanswers⟩ := ih (sim.schedule timeNs kind)
      refine ⟨.schedule timeNs kind :: h, sim',
        .cons (.schedule sim timeNs kind) hrun, ?_, hanswers⟩
      rw [List.map_cons, hcalls]
      rfl
    | step =>
      cases hstep : sim.step with
      | none =>
        obtain ⟨h, sim', hrun, hcalls, hanswers⟩ := ih sim
        refine ⟨.step none :: h, sim', .cons (.idle (step_eq_none.1 hstep)) hrun, ?_, ?_⟩
        · rw [List.map_cons, hcalls]
          rfl
        · rw [answers, hstep]
          exact congrArg (none :: ·) hanswers
      | some p =>
        obtain ⟨now, kind, sim₁⟩ := p
        obtain ⟨ev, rfl, hnext⟩ := next_of_step hstep
        obtain ⟨h, sim', hrun, hcalls, hanswers⟩ := ih sim₁
        refine ⟨.step (some (now, ev)) :: h, sim', .cons hnext hrun, ?_, ?_⟩
        · rw [List.map_cons, hcalls]
          rfl
        · rw [answers, hstep]
          exact congrArg (some (now, ev.kind) :: ·) hanswers

/-- Steps in a row empty the queue one by one. -/
theorem length_pending_of_steps (hrun : Run Next sim h sim') (hsteps : ∀ r ∈ h, r.call = .step) :
    sim'.pending.length = sim.pending.length - h.length := by
  induction hrun with
  | nil s => rfl
  | @cons s s₁ s' r h hnext hrun ih =>
    have hrest := ih fun r hr => hsteps r (List.mem_cons_of_mem _ hr)
    have hcall := hsteps r List.mem_cons_self
    rw [hrest, List.length_cons]
    cases hnext with
    | schedule timeNs kind => cases hcall
    | idle hempty =>
      rw [hempty]
      simp
    | @step ev queue _ hpops =>
      have hlen : s.pending.length = queue.queue.length + 1 := hpops.perm.length_eq
      show queue.queue.length - h.length = _
      omega

/-- **The simulator is a stable, lossless, monotone event queue.** -/
theorem stable_of_run {h : History α} {sim : Simulator α}
    (hrun : Run Next new h sim) (hlt : h.scheduled.length < 2 ^ 64) :
    h.Stable ∧ sim.nowNs = h.clock ∧
      (new : Simulator α).answers (h.map Record.call) = h.filterMap Record.answer := by
  have hd := History.describes_of_run hrun hlt
  refine ⟨⟨History.numbered_of_lt hlt, ?_, ?_, ?_⟩, hd.nowNs, ?_⟩
  · have hnodup := hd.content.nodup_iff.1 (History.nodup_scheduled hlt)
    exact (List.nodup_append.1 hnodup).1
  · rintro past answer rest rfl
    have hlt' := (History.length_scheduled_le past _).trans_lt hlt
    obtain ⟨s, hpast, hrest⟩ := Run.append_iff.1 hrun
    obtain ⟨s', hnext, -⟩ := Run.cons_iff.1 hrest
    exact (History.describes_of_run hpast hlt').owes hlt' hnext
  · rintro past rest rfl hsteps hmany
    have hlt' := (History.length_scheduled_le past _).trans_lt hlt
    obtain ⟨s, hpast, hrest⟩ := Run.append_iff.1 hrun
    have hlen := (History.describes_of_run hpast hlt').content.length_eq
    rw [List.length_append] at hlen
    have hpending : sim.pending.length = 0 := by
      rw [length_pending_of_steps hrest hsteps]
      omega
    have hcontent := hd.content
    rw [List.length_eq_zero_iff.1 hpending, List.append_nil] at hcontent
    exact hcontent.symm
  · obtain ⟨h', sim', hrun', hcalls, hanswers⟩ := exists_run new (h.map Record.call)
    rw [← hanswers, History.answers_unique hrun hrun' hcalls hlt]

/-- The last of three events is scheduled behind the clock, and comes at once. -/
def overdue : History Bool :=
  [.schedule 5 true, .schedule 5 false, .step (some (5, ⟨5, 0, true⟩)), .schedule 3 true,
    .step (some (5, ⟨3, 2, true⟩)), .step (some (5, ⟨5, 1, false⟩)), .step none]

theorem run_overdue : Run Next new overdue ⟨5, ⟨[], 3⟩⟩ := by
  have hpops₀ : EventQueue.Pops ⟨[⟨5, 0, true⟩, ⟨5, 1, false⟩], 2⟩ ⟨5, 0, true⟩
      ⟨[⟨5, 1, false⟩], 2⟩ := ⟨by decide, by decide, rfl⟩
  have hpops₂ : EventQueue.Pops ⟨[⟨5, 1, false⟩, ⟨3, 2, true⟩], 3⟩ ⟨3, 2, true⟩
      ⟨[⟨5, 1, false⟩], 3⟩ := ⟨by decide, by decide, rfl⟩
  have hpops₁ : EventQueue.Pops ⟨[⟨5, 1, false⟩], 3⟩ ⟨5, 1, false⟩ ⟨[], 3⟩ :=
    ⟨by decide, by decide, rfl⟩
  refine .cons (.schedule _ 5 true) (.cons (.schedule _ 5 false) (.cons (.step hpops₀ rfl) ?_))
  refine .cons (.schedule _ 3 true) (.cons (.step hpops₂ rfl) (.cons (.step hpops₁ rfl) ?_))
  exact .cons (.idle rfl) (.nil _)

theorem stable_overdue : overdue.Stable ∧ (5 : UInt64) = overdue.clock ∧
    (new : Simulator Bool).answers (overdue.map Record.call) = overdue.filterMap Record.answer :=
  stable_of_run run_overdue (by decide)

end Simulator

end KvFlowSim
