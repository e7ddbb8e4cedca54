import Mathlib.Data.Multiset.MapFold
import Mathlib.Order.MinMax

/-!
# Pools of identical workers

A pool is the multiset of the times until which its workers are busy. `Books K m t K'` says that the
worker that is free first, from `m` on, is taken until `t`. Which worker it is, if several are free
first, does not show in the pool (`Books.unique`), and neither do times that are too early to matter
(`Books.map`).

`Serves K jobs` says that the workers serve the jobs in the order of the list. A job may be served
ahead of others that are ready later, if there are workers for all of them (`Serves.move_front`).
There run never more jobs than there are workers, and as many while a job waits
(`Serves.countP_runs_eq`). More and faster workers are never behind (`Serves.mono`). Pools that
differ in times that are over only (`SameFrom`) serve alike from then on.
-/

namespace Pool

variable {κ μ : Type*} [LinearOrder κ] [LinearOrder μ] {K K' K'' : Multiset κ} {m m' t t' x : κ}

/-- The worker of the pool `K` that is free first, from `m` on, is taken until `t`. -/
structure Books (K : Multiset κ) (m t : κ) (K' : Multiset κ) : Prop where
  mem : m ∈ K
  le : ∀ x ∈ K, m ≤ x
  eq : K' = t ::ₘ K.erase m

/-- When the first worker is free does not depend on how long it is taken. -/
theorem Books.free_eq (h : Books K m t K') (h' : Books K m' t' K'') : m = m' :=
  le_antisymm (h.le m' h'.mem) (h'.le m h.mem)

/-- Booking is deterministic. -/
theorem Books.unique (h : Books K m t K') (h' : Books K m' t K'') : K' = K'' := by
  obtain rfl := h.free_eq h'
  exact h.eq.trans h'.eq.symm

theorem Books.card (h : Books K m t K') : K'.card = K.card := by
  rw [h.eq, Multiset.card_cons, Multiset.card_erase_add_one h.mem]

/-- A monotone view of the pool. -/
theorem Books.map {f : κ → μ} (hf : Monotone f) (h : Books K m t K') :
    Books (K.map f) (f m) (f t) (K'.map f) where
  mem := Multiset.mem_map_of_mem f h.mem
  le y hy := by
    obtain ⟨x, hx, rfl⟩ := Multiset.mem_map.1 hy
    exact hf (h.le x hx)
  eq := by
    rw [h.eq, Multiset.map_cons, Multiset.map_erase_of_mem f K h.mem]

/-- Booking in a list of workers. -/
theorem books_of_perm {l l' rest : List κ} (h : l.Perm (m :: rest)) (h' : l'.Perm (t :: rest))
    (hle : ∀ x ∈ l, m ≤ x) : Books (l : Multiset κ) m t (l' : Multiset κ) where
  mem := Multiset.mem_coe.2 (h.mem_iff.2 List.mem_cons_self)
  le x hx := hle x (Multiset.mem_coe.1 hx)
  eq := by
    rw [Multiset.coe_eq_coe.2 h, Multiset.coe_eq_coe.2 h', ← Multiset.cons_coe, ← Multiset.cons_coe,
      Multiset.erase_cons_head]

/-! ## Jobs in sequence -/

/-- A job: when it is ready, when it is started and when it ends. -/
structure Booking (κ : Type*) where
  ready : κ
  start : κ
  finish : κ

/-- The workers of the pool `K` serve the jobs one after another, each taken by the worker that is
free first. -/
inductive Serves : Multiset κ → List (Booking κ) → Prop
  | nil {K : Multiset κ} : Serves K []
  | cons {K K' : Multiset κ} {m : κ} {j : Booking κ} {l : List (Booking κ)}
      (hstart : j.start = max j.ready m)
      (hle : j.start ≤ j.finish) (hbooks : Books K m j.finish K') (hrest : Serves K' l) :
      Serves K (j :: l)

variable {i j : Booking κ} {l A B : List (Booking κ)}

/-- The first job of the sequence. -/
theorem Serves.head (h : Serves K (j :: l)) :
    ∃ m K', j.start = max j.ready m ∧ Books K m j.finish K' ∧ Serves K' l := by
  cases h with
  | cons hstart hle hbooks hrest => exact ⟨_, _, hstart, hbooks, hrest⟩

/-- Two jobs for which there are workers may change places. -/
theorem Serves.swap (h : Serves K (i :: j :: l)) (hready : j.ready ≤ i.ready)
    (hfree : 2 ≤ K.countP (· ≤ j.ready)) : Serves K (j :: i :: l) := by
  cases h with
  | @cons _ _ m _ _ histart hile hi hrest =>
  cases hrest with
  | @cons _ K' m' _ _ hjstart hjle hj hrest =>
  have hcount := hfree
  rw [← Multiset.cons_erase hi.mem, Multiset.countP_cons] at hcount
  -- a worker that is left over by the first job is free when the second job is ready
  obtain ⟨z, hz, hzle⟩ : ∃ z ∈ K.erase m, z ≤ j.ready := by
    refine Multiset.countP_pos.1 ?_
    split_ifs at hcount <;> omega
  have hfinish : j.ready ≤ i.finish := by
    rw [histart] at hile
    exact hready.trans ((le_max_left _ _).trans hile)
  have hrest_le : ∀ x ∈ K.erase m, m' ≤ x := fun x hx =>
    hj.le x (hi.eq ▸ Multiset.mem_cons_of_mem hx)
  have hm'le : m' ≤ j.ready := (hrest_le z hz).trans hzle
  have hm' : m' ∈ K.erase m := by
    have hmem := hj.mem
    rw [hi.eq, Multiset.mem_cons] at hmem
    rcases hmem with rfl | hmem
    · obtain rfl : z = i.finish := le_antisymm (hzle.trans hfinish) (hrest_le z hz)
      exact hz
    · exact hmem
  have hmle : m ≤ j.ready := (hi.le m' (Multiset.mem_of_mem_erase hm')).trans hm'le
  have hjready : j.start = j.ready := hjstart.trans (max_eq_left hm'le)
  refine .cons (hjready.trans (max_eq_left hmle).symm) hjle ⟨hi.mem, hi.le, rfl⟩
    (.cons (m := m') ?_ hile ⟨?_, ?_, ?_⟩ hrest)
  · rw [histart, max_eq_left (hmle.trans hready), max_eq_left (hm'le.trans hready)]
  · exact Multiset.mem_cons_of_mem hm'
  · intro x hx
    rcases Multiset.mem_cons.1 hx with rfl | hx
    · exact hm'le.trans (hjready ▸ hjle)
    · exact hrest_le x hx
  · rw [hj.eq, hi.eq, Multiset.erase_cons_tail_of_mem hm', Multiset.erase_cons_tail_of_mem hm',
      Multiset.cons_swap]

/-- A job that is ready ahead of others may be served ahead of them, if there are workers
for all. -/
theorem Serves.move_front (h : Serves K (A ++ j :: B)) (hready : ∀ a ∈ A, j.ready ≤ a.ready)
    (hfree : A = [] ∨ A.length < K.countP (· ≤ j.ready)) : Serves K (j :: (A ++ B)) := by
  induction A generalizing K with
  | nil => exact h
  | cons a A ih =>
    obtain hnil | hfree := hfree
    · exact absurd hnil (List.cons_ne_nil _ _)
    rw [List.length_cons] at hfree
    cases h with
    | @cons _ K' m _ _ hstart hle hbooks hrest =>
    have hcount := hfree
    rw [← Multiset.cons_erase hbooks.mem, Multiset.countP_cons] at hcount
    have hfree' : A.length < K'.countP (· ≤ j.ready) := by
      rw [hbooks.eq, Multiset.countP_cons]
      split_ifs at hcount <;> omega
    have hrest := ih hrest (fun b hb => hready b (List.mem_cons_of_mem _ hb)) (.inr hfree')
    exact (Serves.cons hstart hle hbooks hrest).swap (hready a List.mem_cons_self) (by omega)

/-! ## How many jobs run at a time -/

/-- The job runs at the time `t`. -/
def Booking.Runs (t : κ) (j : Booking κ) : Prop := j.start ≤ t ∧ t < j.finish

instance (t : κ) : DecidablePred (Booking.Runs t) := fun _ => inferInstanceAs (Decidable (_ ∧ _))

/-- What a booking does to the number of workers that are free at a time. -/
theorem Books.countP_le (h : Books K m t K') (x : κ) :
    K'.countP (· ≤ x) + (if m ≤ x then 1 else 0) = K.countP (· ≤ x) + if t ≤ x then 1 else 0 := by
  have hcount := congrArg (Multiset.countP (· ≤ x)) (Multiset.cons_erase h.mem)
  rw [Multiset.countP_cons] at hcount
  rw [h.eq, Multiset.countP_cons]
  omega

/-- If the worker that is free first is not free, none is. -/
theorem Books.countP_eq_zero (h : Books K m t K') (hx : x < m) : K.countP (· ≤ x) = 0 :=
  Multiset.countP_eq_zero.2 fun y hy => not_le.2 (hx.trans_le (h.le y hy))

/-- At any time there run at most as many jobs as workers are free for them. -/
theorem Serves.countP_runs_le (h : Serves K l) (x : κ) :
    l.countP (Booking.Runs x) ≤ K.countP (· ≤ x) := by
  induction h with
  | nil => exact Nat.zero_le _
  | @cons K K' m j l hstart hle hbooks _ ih =>
    have hcount := hbooks.countP_le x
    have hm : m ≤ j.start := hstart ▸ le_max_right _ _
    rw [List.countP_cons]
    simp only [decide_eq_true_eq]
    by_cases hruns : j.Runs x
    · rw [if_pos (hm.trans hruns.1), if_neg (not_le.2 hruns.2)] at hcount
      rw [if_pos hruns]
      omega
    · rw [if_neg hruns]
      by_cases hend : j.finish ≤ x
      · rw [if_pos (hm.trans (hle.trans hend)), if_pos hend] at hcount
        omega
      · rw [if_neg hend] at hcount
        omega

/-- No worker starts before all of them are free. -/
theorem Serves.le_start (h : Serves K l) (hx : ∀ y ∈ K, x ≤ y) (hj : j ∈ l) : x ≤ j.start := by
  induction h with
  | nil => exact absurd hj List.not_mem_nil
  | @cons K K' m i l hstart hle hbooks _ ih =>
    have hm : m ≤ i.start := hstart ▸ le_max_right _ _
    have hxm := hx m hbooks.mem
    rcases List.mem_cons.1 hj with rfl | hj
    · exact hxm.trans hm
    · refine ih (fun y hy => ?_) hj
      rw [hbooks.eq, Multiset.mem_cons] at hy
      rcases hy with rfl | hy
      · exact hxm.trans (hm.trans hle)
      · exact hx y (Multiset.mem_of_mem_erase hy)

/-- A job starts when it is ready or later. -/
theorem Serves.ready_le (h : Serves K l) (hj : j ∈ l) : j.ready ≤ j.start := by
  induction h with
  | nil => exact absurd hj List.not_mem_nil
  | cons hstart _ _ _ ih =>
    rcases List.mem_cons.1 hj with rfl | hj
    · exact hstart ▸ le_max_left _ _
    · exact ih hj

/-- Jobs that become ready one after another are started one after another. -/
theorem Serves.pairwise_start (h : Serves K l)
    (hready : l.Pairwise fun i j => i.ready ≤ j.ready) :
    l.Pairwise fun i j => i.start ≤ j.start := by
  induction h with
  | nil => exact .nil
  | @cons K K' m i l hstart hle hbooks hrest ih =>
    obtain ⟨hi, hl⟩ := List.pairwise_cons.1 hready
    refine List.pairwise_cons.2 ⟨fun j hj => ?_, ih hl⟩
    have hm : m ≤ i.start := hstart ▸ le_max_right _ _
    have hfree : ∀ y ∈ K', m ≤ y := by
      intro y hy
      rw [hbooks.eq, Multiset.mem_cons] at hy
      rcases hy with rfl | hy
      · exact hm.trans hle
      · exact hbooks.le y (Multiset.mem_of_mem_erase hy)
    rw [hstart]
    exact max_le ((hi j hj).trans (hrest.ready_le hj)) (hrest.le_start hfree hj)

/-- While a job waits, every worker that was free at the time runs another one. -/
theorem Serves.countP_runs_eq (h : Serves K l)
    (hready : l.Pairwise fun i j => i.ready ≤ j.ready) (hj : j ∈ l) (hx : j.ready ≤ x)
    (hx' : x < j.start) : l.countP (Booking.Runs x) = K.countP (· ≤ x) := by
  induction h with
  | nil => exact absurd hj List.not_mem_nil
  | @cons K K' m i l hstart hle hbooks hrest ih =>
    obtain ⟨hi, hl⟩ := List.pairwise_cons.1 hready
    by_cases hm : x < m
    · -- no worker is free, so nothing can run
      have hnone := hbooks.countP_eq_zero hm
      have hrun := (Serves.cons hstart hle hbooks hrest).countP_runs_le x
      omega
    · rw [not_lt] at hm
      have hiready : i.ready ≤ x := by
        rcases List.mem_cons.1 hj with rfl | hj
        · exact hx
        · exact (hi j hj).trans hx
      have hstarted : i.start ≤ x := hstart ▸ max_le hiready hm
      have hj' : j ∈ l := by
        rcases List.mem_cons.1 hj with rfl | hj
        · exact absurd hstarted (not_le.2 hx')
        · exact hj
      have hcount := hbooks.countP_le x
      rw [if_pos hm] at hcount
      rw [List.countP_cons, ih hl hj']
      simp only [decide_eq_true_eq, Booking.Runs, hstarted, true_and, ← not_le, ite_not]
      split_ifs at hcount ⊢ <;> omega

/-! ## Pools of which one is ahead of the other -/

/-- A pool with as many free workers at any time serves jobs that are ready as early, and take no
longer, as early. -/
theorem Serves.mono {L : Multiset κ} {l' : List (Booking κ)} (h : Serves K l) (h' : Serves L l')
    (hfree : ∀ x, K.countP (· ≤ x) ≤ L.countP (· ≤ x))
    (hjobs : List.Forall₂ (fun i j => j.ready ≤ i.ready ∧
      (j.start ≤ i.start → j.finish ≤ i.finish)) l l') :
    List.Forall₂ (fun i j => j.start ≤ i.start ∧ j.finish ≤ i.finish) l l' := by
  induction hjobs generalizing K L with
  | nil => exact .nil
  | @cons i j l l' hjob _ ih =>
    cases h with
    | @cons _ K' m _ _ histart hile hi hrest =>
    cases h' with
    | @cons _ L' m' _ _ hjstart hjle hj hrest' =>
    have hm : m' ≤ m := by
      have hpos : 0 < K.countP (· ≤ m) := Multiset.countP_pos.2 ⟨m, hi.mem, le_rfl⟩
      obtain ⟨y, hy, hle⟩ := Multiset.countP_pos.1 (hpos.trans_le (hfree m))
      exact (hj.le y hy).trans hle
    have hstart : j.start ≤ i.start := by
      rw [histart, hjstart]
      exact max_le_max hjob.1 hm
    have hfinish := hjob.2 hstart
    refine .cons ⟨hstart, hfinish⟩ (ih hrest hrest' fun x => ?_)
    have hx := hfree x
    have hK := hi.countP_le x
    have hL := hj.countP_le x
    by_cases hmx : m ≤ x
    · rw [if_pos hmx] at hK
      rw [if_pos (hm.trans hmx)] at hL
      have hend : (if i.finish ≤ x then 1 else 0) ≤ if j.finish ≤ x then 1 else 0 := by
        split_ifs with hi hj
        · exact le_rfl
        · exact absurd (hfinish.trans hi) hj
        · exact Nat.zero_le _
        · exact le_rfl
      omega
    · -- no worker of the slower pool is free, before and after
      have hzero := hi.countP_eq_zero (not_le.1 hmx)
      have hlater : ¬i.finish ≤ x := fun hle => hmx <|
        (histart ▸ le_max_right i.ready m : m ≤ i.start).trans (hile.trans hle)
      rw [if_neg hmx, if_neg hlater, hzero] at hK
      omega

/-! ## Times that are over -/

/-- The pools differ in times before `t` only. -/
def SameFrom (t : κ) (K K' : Multiset κ) : Prop := K.map (max t) = K'.map (max t)

theorem SameFrom.mono {u : κ} (h : SameFrom t K K') (hle : t ≤ u) : SameFrom u K K' := by
  have hmap : ∀ L : Multiset κ, L.map (max u) = (L.map (max t)).map (max u) := fun L => by
    rw [Multiset.map_map]
    refine Multiset.map_congr rfl fun x _ => ?_
    rw [Function.comp_apply, ← max_assoc, max_eq_left hle]
  rw [SameFrom, hmap K, h, ← hmap]

theorem SameFrom.free_eq {u u' : κ} {L L' : Multiset κ} (h : SameFrom t K L) (hK : Books K m u K')
    (hL : Books L m' u' L') : max t m = max t m' := by
  have hK' := hK.map (f := max t) fun _ _ => max_le_max_left t
  rw [h] at hK'
  exact hK'.free_eq (hL.map fun _ _ => max_le_max_left t)

theorem SameFrom.books {u : κ} {L L' : Multiset κ} (h : SameFrom t K L) (hK : Books K m u K')
    (hL : Books L m' u L') : SameFrom t K' L' := by
  have hK' := hK.map (f := max t) fun _ _ => max_le_max_left t
  rw [h] at hK'
  exact hK'.unique (hL.map fun _ _ => max_le_max_left t)

/-- There is a free worker in both pools, or in neither. -/
theorem SameFrom.exists_le_iff (h : SameFrom t K K') : (∃ x ∈ K, x ≤ t) ↔ ∃ x ∈ K', x ≤ t := by
  have hfree : ∀ L : Multiset κ, (∃ x ∈ L, x ≤ t) ↔ t ∈ L.map (max t) := fun L => by
    simp only [Multiset.mem_map, max_eq_left_iff]
  rw [hfree, hfree, h]

/-- Which of the free workers is taken does not show. -/
theorem SameFrom.replace {y : κ} (h : SameFrom t (x ::ₘ K) (y ::ₘ K')) (hx : x ≤ t) (hy : y ≤ t)
    (u : κ) : SameFrom t (u ::ₘ K) (u ::ₘ K') := by
  rw [SameFrom, Multiset.map_cons, Multiset.map_cons, max_eq_left hx, max_eq_left hy,
    Multiset.cons_inj_right] at h
  rw [SameFrom, Multiset.map_cons, Multiset.map_cons, h]

/-- From when on a free worker has been free does not show. -/
theorem sameFrom_cons {y : κ} (hx : x ≤ t) (hy : y ≤ t) (K : Multiset κ) :
    SameFrom t (x ::ₘ K) (y ::ₘ K) := by
  rw [SameFrom, Multiset.map_cons, Multiset.map_cons, max_eq_left hx, max_eq_left hy]

/-- Pools of workers that differ, one by one, in times that are over. -/
theorem sameFrom_of_forall₂ {l l' : List κ} (h : List.Forall₂ (fun x y => max t x = max t y) l l') :
    SameFrom t (l : Multiset κ) (l' : Multiset κ) := by
  rw [SameFrom, Multiset.map_coe, Multiset.map_coe]
  refine congrArg _ ?_
  induction h with
  | nil => rfl
  | cons hxy _ ih => rw [List.map_cons, List.map_cons, hxy, ih]

end Pool
