import Mathlib.Data.Rat.Floor
import Mathlib.Algebra.Order.Ring.Rat
import Mathlib.Data.Finset.Basic

/-!
# JSON values as Python holds them

Integers are unbounded; a float is a rational, an infinity or a NaN. An object is the list
of its members, and `field` is `dict.get`: an absent member reads as `null`.

* `intToFloat_eq_none`: the integers that `float(n)` refuses.
-/

namespace Lib

/-- A Python float: a finite binary float as the rational it denotes, or a special value. -/
inductive PyFloat
  | finite (q : ℚ)
  | posInf
  | negInf
  | nan
  deriving DecidableEq, Repr

namespace PyFloat

/-- `math.isfinite`. -/
def isFinite : PyFloat → Bool
  | finite _ => true
  | _ => false

end PyFloat

/-- The exceptions of the standard library that the source can run into. -/
inductive PyError
  | overflowError | valueError | keyError | zeroDivisionError | typeError | indexError
  deriving DecidableEq, Repr

/-- The nearest integer, ties to even. -/
def roundHalfEven (q : ℚ) : ℤ :=
  let floor := q.floor
  let rest := q - floor
  if rest < 1 / 2 then floor
  else if 1 / 2 < rest then floor + 1
  else if floor % 2 = 0 then floor else floor + 1

/-- The float nearest to an integer in the range of floats: 53 bits, ties to even. -/
def nearestFloat (n : ℤ) : ℚ :=
  let unit : ℤ := 2 ^ (n.natAbs.log2 - 52)
  roundHalfEven (n / unit) * unit

/-- Python's `/`. -/
def pyDiv (a b : ℚ) : Except PyError ℚ := if b = 0 then .error .zeroDivisionError else .ok (a / b)

inductive Json
  | null
  | bool (b : Bool)
  | int (n : ℤ)
  | float (x : PyFloat)
  | str (s : String)
  | list (xs : List Json)
  | obj (fields : List (String × Json))

namespace Json

/-- `dict.get(key)`. -/
def field (fields : List (String × Json)) (key : String) : Json := (fields.lookup key).getD .null

/-- Python's `value == n` for an integer `n`: booleans and floats compare by value. -/
def eqInt (n : ℤ) : Json → Bool
  | .int m => m = n
  | .bool b => (if b then 1 else 0) = n
  | .float (.finite q) => q = n
  | _ => false

/-- The least positive integer that rounds to no finite binary64 float: half way from the
greatest float, `2 ^ 1024 - 2 ^ 971`, to `2 ^ 1024`. -/
def floatLimit : ℤ := 2 ^ 1024 - 2 ^ 970

/-- `float(n)` of an integer; `none` is the `OverflowError`. -/
def intToFloat (n : ℤ) : Option PyFloat :=
  if floatLimit ≤ n ∨ n ≤ -floatLimit then none else some (.finite (nearestFloat n))

theorem intToFloat_eq_none {n : ℤ} : intToFloat n = none ↔ floatLimit ≤ n ∨ n ≤ -floatLimit := by
  unfold intToFloat
  split <;> simp_all

/-- An integer that converts converts to a finite float. -/
theorem intToFloat_finite {n : ℤ} {x : PyFloat} (h : intToFloat n = some x) : x.isFinite = true := by
  unfold intToFloat at h
  split at h
  · cases h
  · cases h; rfl

end Json

end Lib
