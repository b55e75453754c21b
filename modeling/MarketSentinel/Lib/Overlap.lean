import Mathlib.Algebra.BigOperators.Group.Finset.Basic
import Mathlib.Algebra.Order.Ring.Defs
import Mathlib.Tactic.Linarith

/-!
# The overlap of two intervals

How much of `[a, b]` lies in `[l, r]`. It is symmetric in the two intervals and additive in each of them, so the
overlaps with neighbouring intervals add up to the overlap with their union.

* `overlap_add`: additivity, where one interval is cut.
* `sum_overlap`: the overlaps with the pieces of a partition.
-/

namespace Lib

variable {α : Type*} [CommRing α] [LinearOrder α] {a b c l m r : α}

/-- The length of what two intervals share. -/
def overlap (a b l r : α) : α := max 0 (min b r - max a l)

theorem overlap_nonneg (a b l r : α) : 0 ≤ overlap a b l r := le_max_left _ _

theorem overlap_comm (a b l r : α) : overlap a b l r = overlap l r a b := by
  unfold overlap
  rw [min_comm, max_comm a l]

variable [IsStrictOrderedRing α]

/-- **Additivity** where the first interval is cut. -/
theorem overlap_add (hab : a ≤ b) (hbc : b ≤ c) (hlr : l ≤ r) :
    overlap a b l r + overlap b c l r = overlap a c l r := by
  unfold overlap
  simp only [max_def, min_def]
  split_ifs <;> linarith

/-- Additivity where the second interval is cut. -/
theorem overlap_add_right (hab : a ≤ b) (hlm : l ≤ m) (hmr : m ≤ r) :
    overlap a b l m + overlap a b m r = overlap a b l r := by
  rw [overlap_comm a b l m, overlap_comm a b m r, overlap_comm a b l r, overlap_add hlm hmr hab]

theorem overlap_le_left (hab : a ≤ b) : overlap a b l r ≤ b - a := by
  unfold overlap
  exact max_le (sub_nonneg.2 hab) (sub_le_sub (min_le_left _ _) (le_max_left _ _))

theorem overlap_le_right (hlr : l ≤ r) : overlap a b l r ≤ r - l := by
  rw [overlap_comm]
  exact overlap_le_left hlr

/-- A part of the second interval shares no more. -/
theorem overlap_mono {l' r' : α} (hl : l ≤ l') (hr : r' ≤ r) : overlap a b l' r' ≤ overlap a b l r := by
  unfold overlap
  exact max_le_max le_rfl (sub_le_sub (min_le_min le_rfl hr) (max_le_max le_rfl hl))

/-- Intervals apart from each other share nothing. -/
theorem overlap_of_le (h : b ≤ l) : overlap a b l r = 0 := by
  unfold overlap
  exact max_eq_left (sub_nonpos.2 ((min_le_left _ _).trans (h.trans (le_max_right _ _))))

theorem overlap_of_ge (h : r ≤ a) : overlap a b l r = 0 := by
  rw [overlap_comm]
  exact overlap_of_le h

/-- Both intervals may be shifted. -/
theorem overlap_shift (a b l r d : α) : overlap (a + d) (b + d) (l + d) (r + d) = overlap a b l r := by
  unfold overlap
  rw [min_add_add_right, max_add_add_right, add_sub_add_right_eq_sub]

/-- **The overlaps with the pieces of a partition** add up. -/
theorem sum_overlap (hab : a ≤ b) {p : ℕ → α} (hp : Monotone p) (n : ℕ) :
    ∑ i ∈ Finset.range n, overlap a b (p i) (p (i + 1)) = overlap a b (p 0) (p n) := by
  induction n with
  | zero =>
    unfold overlap
    rw [Finset.sum_range_zero, eq_comm, max_eq_left]
    linarith [min_le_right b (p 0), le_max_right a (p 0)]
  | succ n ih => rw [Finset.sum_range_succ, ih, overlap_add_right hab (hp n.zero_le) (hp n.le_succ)]

end Lib
