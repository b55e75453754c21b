import Mathlib.Algebra.Order.Field.Basic
import Mathlib.Algebra.BigOperators.Group.List.Basic
import Mathlib.Tactic.FieldSimp
import Mathlib.Tactic.Linarith
import Mathlib.Tactic.Ring

/-!
# Exponential smoothing

A value that moves towards each element of a list by a fixed share, over an ordered field. Its seed is the mean
of the first elements (`warm`).

* `warm_bounds`: it stays between the bounds of the elements, when the share is between 0 and 1.
* `warm_mul`: it commutes with scaling.
-/

namespace Lib

universe u

variable {F : Type u} [Field F]

/-- The value moves towards `x` by the share `k`. -/
def smoothStep (k value x : F) : F := x * k + value * (1 - k)

def smooth (k seed : F) (xs : List F) : F := xs.foldl (smoothStep k) seed

/-- The mean of the first `n` elements, then a step for each later one. -/
def warm (k : F) (n : ℕ) (xs : List F) : F := smooth k ((xs.take n).sum / n) (xs.drop n)

theorem sum_map_mul (a : F) (xs : List F) : (xs.map (a * ·)).sum = a * xs.sum := by
  induction xs with
  | nil => simp
  | cons x xs ih =>
    rw [List.map_cons, List.sum_cons, List.sum_cons, ih]
    ring

theorem smooth_mul (k a : F) (xs : List F) (seed : F) :
    smooth k (a * seed) (xs.map (a * ·)) = a * smooth k seed xs := by
  unfold smooth
  induction xs generalizing seed with
  | nil => rfl
  | cons x xs ih =>
    have hstep : smoothStep k (a * seed) (a * x) = a * smoothStep k seed x := by
      unfold smoothStep
      ring
    rw [List.map_cons, List.foldl_cons, List.foldl_cons, hstep, ih]

/-- **Smoothing commutes with scaling.** -/
theorem warm_mul (k a : F) (n : ℕ) (xs : List F) : warm k n (xs.map (a * ·)) = a * warm k n xs := by
  unfold warm
  rw [← List.map_take, ← List.map_drop, sum_map_mul, mul_div_assoc, smooth_mul]

section Order

variable [LinearOrder F] [IsStrictOrderedRing F] {k lo hi seed : F} {n : ℕ} {xs : List F}

/-- The sum of a list is between its length times the bounds of its elements. -/
theorem sum_bounds (h : ∀ x ∈ xs, lo ≤ x ∧ x ≤ hi) : xs.length * lo ≤ xs.sum ∧ xs.sum ≤ xs.length * hi := by
  induction xs with
  | nil => simp
  | cons x xs ih =>
    rw [List.forall_mem_cons] at h
    obtain ⟨hlo, hhi⟩ := ih h.2
    rw [List.sum_cons, List.length_cons, Nat.cast_succ]
    constructor
    · linarith [h.1.1]
    · linarith [h.1.2]

theorem smoothStep_bounds {value x : F} (hk : 0 ≤ k ∧ k ≤ 1) (hvalue : lo ≤ value ∧ value ≤ hi)
    (hx : lo ≤ x ∧ x ≤ hi) : lo ≤ smoothStep k value x ∧ smoothStep k value x ≤ hi := by
  have hrest : 0 ≤ 1 - k := sub_nonneg.2 hk.2
  -- The step is the mean of `x` and the value, weighted `k` and `1 - k`.
  have hlo : lo = lo * k + lo * (1 - k) := by ring
  have hhi : hi = hi * k + hi * (1 - k) := by ring
  unfold smoothStep
  constructor
  · rw [hlo]
    exact add_le_add (mul_le_mul_of_nonneg_right hx.1 hk.1) (mul_le_mul_of_nonneg_right hvalue.1 hrest)
  · rw [hhi]
    exact add_le_add (mul_le_mul_of_nonneg_right hx.2 hk.1) (mul_le_mul_of_nonneg_right hvalue.2 hrest)

theorem smooth_bounds (hk : 0 ≤ k ∧ k ≤ 1) (hseed : lo ≤ seed ∧ seed ≤ hi) (h : ∀ x ∈ xs, lo ≤ x ∧ x ≤ hi) :
    lo ≤ smooth k seed xs ∧ smooth k seed xs ≤ hi := by
  unfold smooth
  induction xs generalizing seed with
  | nil => exact hseed
  | cons x xs ih =>
    rw [List.forall_mem_cons] at h
    exact ih (smoothStep_bounds hk hseed h.1) h.2

/-- **Smoothing stays between the bounds** of the elements. -/
theorem warm_bounds (hk : 0 ≤ k ∧ k ≤ 1) (hn : 0 < n) (hlength : n ≤ xs.length) (h : ∀ x ∈ xs, lo ≤ x ∧ x ≤ hi) :
    lo ≤ warm k n xs ∧ warm k n xs ≤ hi := by
  refine smooth_bounds hk ?_ fun x hx => h x (List.mem_of_mem_drop hx)
  obtain ⟨hlo, hhi⟩ := sum_bounds fun x hx => h x (List.mem_of_mem_take hx)
  rw [List.length_take, min_eq_left hlength] at hlo hhi
  have hpos : (0 : F) < n := Nat.cast_pos.2 hn
  constructor
  · rw [le_div_iff₀ hpos]
    linarith
  · rw [div_le_iff₀ hpos]
    linarith

end Order

end Lib
