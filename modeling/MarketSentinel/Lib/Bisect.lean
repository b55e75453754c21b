import Mathlib.Data.List.TakeWhile
import Mathlib.Data.List.Pairwise
import Mathlib.Tactic.Linarith

/-!
# Bisection

The loop of Python's `bisect` module over a test `before`: `a[mid] < x` for `bisect_left`, and
`not x < a[mid]` for `bisect_right`.

* `bisect_eq`: on a list whose items that pass the test come first, it counts them.
* `bisectLeft_eq`, `bisectRight_eq`: the two tests, on ascending keys.
-/

namespace Lib

variable {A : Type*} (before : A → Bool) (xs : List A)

/-- `while lo < hi`. -/
def bisectLoop (lo hi : ℕ) : ℕ :=
  if lo < hi then
    let mid := (lo + hi) / 2
    match xs[mid]? with
    | none => lo
    | some x => if before x then bisectLoop (mid + 1) hi else bisectLoop lo mid
  else lo
termination_by hi - lo

def bisect : ℕ := bisectLoop before xs 0 xs.length

variable {before xs}

/-- The items that pass the test come first. -/
def Split (before : A → Bool) (xs : List A) : Prop :=
  xs.Pairwise fun a b => before b = true → before a = true

/-- The item at `i` passes the test when it is among the first ones. -/
theorem Split.iff_lt {xs : List A} (h : Split before xs) {i : ℕ} (hi : i < xs.length) :
    before xs[i] = true ↔ i < (xs.takeWhile before).length := by
  induction xs generalizing i with
  | nil => cases hi
  | cons x xs ih =>
    have hsplit := List.pairwise_cons.1 h
    by_cases hx : before x = true
    · rw [List.takeWhile_cons_of_pos hx, List.length_cons]
      cases i with
      | zero => simp [hx]
      | succ i =>
        have hi' : i < xs.length := by simpa using hi
        rw [List.getElem_cons_succ, ih hsplit.2 hi']
        omega
    · -- The first item fails, so that all do.
      rw [List.takeWhile_cons_of_neg hx, List.length_nil]
      refine iff_of_false (fun hb => hx ?_) (by omega)
      cases i with
      | zero => exact hb
      | succ i =>
        have hi' : i < xs.length := by simpa using hi
        exact hsplit.1 xs[i] (List.getElem_mem hi') hb

/-- The loop keeps the boundary between its two ends. -/
theorem bisectLoop_eq (h : Split before xs) : ∀ {lo hi : ℕ}, hi ≤ xs.length →
    lo ≤ (xs.takeWhile before).length → (xs.takeWhile before).length ≤ hi →
      bisectLoop before xs lo hi = (xs.takeWhile before).length := by
  intro lo hi
  induction lo, hi using bisectLoop.induct before xs with
  | case1 lo hi hlt mid hnone =>
    intro hhi _ _
    have hmid : mid < xs.length := by omega
    rw [List.getElem?_eq_getElem hmid] at hnone
    cases hnone
  | case2 lo hi hlt mid x hx hb ih =>
    intro hhi _ hle
    have hmid : mid < xs.length := by omega
    have hxmid : xs[mid] = x := by
      rw [List.getElem?_eq_getElem hmid] at hx
      exact Option.some.inj hx
    -- The middle passes, so the boundary is to the right of it.
    have hpass := (h.iff_lt hmid).1 (by rw [hxmid]; exact hb)
    rw [bisectLoop, if_pos hlt]
    show (match xs[mid]? with | none => lo | some x => _) = _
    rw [hx]
    simp only [hb, if_true]
    exact ih hhi hpass hle
  | case3 lo hi hlt mid x hx hb ih =>
    intro hhi hlo _
    have hmid : mid < xs.length := by omega
    have hxmid : xs[mid] = x := by
      rw [List.getElem?_eq_getElem hmid] at hx
      exact Option.some.inj hx
    -- The middle fails, so the boundary is no further right.
    have hfail : ¬ mid < (xs.takeWhile before).length := fun hlen =>
      hb (by rw [← hxmid]; exact (h.iff_lt hmid).2 hlen)
    rw [bisectLoop, if_pos hlt]
    show (match xs[mid]? with | none => lo | some x => _) = _
    rw [hx]
    simp only [hb, if_false, Bool.false_eq_true]
    exact ih (by omega) hlo (by omega)
  | case4 lo hi hge =>
    intro _ _ _
    rw [bisectLoop, if_neg hge]
    omega

/-- **Bisection counts the items that pass the test.** -/
theorem bisect_eq (h : Split before xs) : bisect before xs = (xs.takeWhile before).length :=
  bisectLoop_eq h le_rfl (Nat.zero_le _) (List.takeWhile_sublist _).length_le

/-! ## Sorted lists -/

section Sorted

variable {K : Type*} [LinearOrder K]

/-- `bisect_left`. -/
def bisectLeft (keys : List K) (key : K) : ℕ := bisect (fun k => decide (k < key)) keys

/-- `bisect_right`. -/
def bisectRight (keys : List K) (key : K) : ℕ := bisect (fun k => !decide (key < k)) keys

variable {keys : List K} (h : keys.Pairwise (· < ·)) (key : K)
include h

theorem bisectLeft_eq : bisectLeft keys key = (keys.takeWhile fun k => decide (k < key)).length :=
  bisect_eq (h.imp fun hlt hb => decide_eq_true (lt_trans hlt (of_decide_eq_true hb)))

theorem bisectRight_eq : bisectRight keys key = (keys.takeWhile fun k => decide (k ≤ key)).length := by
  have htest : (fun k => !decide (key < k)) = fun k : K => decide (k ≤ key) := by
    funext k
    rw [← decide_not, decide_eq_decide, not_lt]
  unfold bisectRight
  rw [htest]
  exact bisect_eq (h.imp fun hlt hb => decide_eq_true (hlt.le.trans (of_decide_eq_true hb)))

end Sorted

end Lib
