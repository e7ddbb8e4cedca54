import Mathlib.Algebra.BigOperators.Group.Multiset.Basic
import Mathlib.Data.Multiset.MapFold

/-!
# The backlog of a pool

A pool of identical workers as the multiset of the times until which they are taken. Its `backlog`
is what is left to do for the workers at a time. While somebody waits all workers are taken, so each
instant of waiting takes one unit off every worker. `Paid` is the account of one who waits: his
waiting, once for every worker, and the backlog come to no more than the work that has been given
out. Starting a job, releasing a worker early and the passing of time keep it.
-/

namespace Pool

variable {K : Multiset ℕ} {now now' since given given' u : ℕ}

/-- The time that is left to the workers, from `now` on. -/
def backlog (K : Multiset ℕ) (now : ℕ) : ℕ := (K.map fun t => t - now).sum

@[simp] theorem backlog_cons (t : ℕ) (K : Multiset ℕ) (now : ℕ) :
    backlog (t ::ₘ K) now = t - now + backlog K now := by
  simp only [backlog, Multiset.map_cons, Multiset.sum_cons]

/-- Workers that have never worked owe nothing. -/
theorem backlog_replicate_zero (n now : ℕ) : backlog (Multiset.replicate n 0) now = 0 := by
  rw [backlog, Multiset.map_replicate, Nat.zero_sub, Multiset.sum_replicate, nsmul_zero]

theorem backlog_anti (K : Multiset ℕ) (h : now ≤ now') : backlog K now' ≤ backlog K now := by
  induction K using Multiset.induction_on with
  | empty => exact le_rfl
  | cons t K ih =>
    simp only [backlog_cons]
    omega

/-- While all workers are taken, time takes from all of them. -/
theorem backlog_advance (h : now ≤ now') (hbusy : ∀ t ∈ K, now' ≤ t) :
    backlog K now = backlog K now' + K.card * (now' - now) := by
  induction K using Multiset.induction_on with
  | empty => simp [backlog]
  | cons t K ih =>
    have hrest := ih fun u hu => hbusy u (Multiset.mem_cons_of_mem hu)
    have ht := hbusy t (Multiset.mem_cons_self t K)
    simp only [backlog_cons, Multiset.card_cons, Nat.add_mul, Nat.one_mul]
    omega

/-- The waiting from `since` until `now` is paid for by the work that has been given out. -/
def Paid (K : Multiset ℕ) (since now given : ℕ) : Prop :=
  K.card * (now - since) + backlog K now ≤ given

/-- Who begins to wait owes nothing. -/
theorem Paid.begin (h : backlog K now ≤ given) : Paid K now now given := by
  unfold Paid
  rw [Nat.sub_self, Nat.mul_zero, Nat.zero_add]
  exact h

theorem Paid.backlog_le (h : Paid K since now given) : backlog K now ≤ given :=
  (Nat.le_add_left _ _).trans h

theorem Paid.mono (h : Paid K since now given) (hle : given ≤ given') : Paid K since now given' :=
  h.trans hle

/-- A worker takes a job. -/
theorem Paid.start (h : Paid (u ::ₘ K) since now given) (t : ℕ) :
    Paid (t ::ₘ K) since now (given + (t - now)) := by
  unfold Paid at h ⊢
  simp only [backlog_cons, Multiset.card_cons] at h ⊢
  omega

/-- A worker is released, perhaps too early. -/
theorem Paid.release (h : Paid (u ::ₘ K) since now given) : Paid (now ::ₘ K) since now given := by
  unfold Paid at h ⊢
  simp only [backlog_cons, Multiset.card_cons] at h ⊢
  omega

/-- Time passes while all workers are taken. -/
theorem Paid.advance (h : Paid K since now given) (hsince : since ≤ now) (hle : now ≤ now')
    (hbusy : ∀ t ∈ K, now' ≤ t) : Paid K since now' given := by
  unfold Paid at h ⊢
  have hadvance := backlog_advance hle hbusy
  have hsum : K.card * (now' - since) = K.card * (now - since) + K.card * (now' - now) := by
    rw [← Nat.mul_add]
    congr 1
    omega
  omega

end Pool
