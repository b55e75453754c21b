import MarketSentinel.Lib.Json
import MarketSentinel.Lib.Returns

/-!
# JSON values as text and as floats

`str(value)` and `float(value)` in Python. What Python writes for a float, or for a string inside a
container, and the numbers that it reads from strings, are left open (`Python`).

* `returns_pyRepr`: a value has a text unless an integer in it is too long.
* `pyFloat_other`: `float` raises an `OverflowError` on the integers beyond the floats.
-/

namespace Lib

/-- `repr` of a float and of a string, and `float` of a string, of which `none` is the `ValueError`. -/
structure Python where
  floatRepr : PyFloat → String
  strRepr : String → String
  floatOf : String → Option PyFloat

/-- What `float(value)` raises. -/
inductive FloatError
  | typeError | valueError
  | other (error : PyError)
  deriving DecidableEq, Repr

namespace Json

variable (py : Python)

/-- `sys.int_info.default_max_str_digits`: an integer of more digits is not converted to text. -/
def maxStrDigits : ℕ := 4300

mutual

/-- `repr(value)`. -/
def pyRepr : Json → Except PyError String
  | .null => .ok "None"
  | .bool b => .ok (if b then "True" else "False")
  | .int n => if 10 ^ maxStrDigits ≤ n.natAbs then .error .valueError else .ok (toString n)
  | .float x => .ok (py.floatRepr x)
  | .str s => .ok (py.strRepr s)
  | .list xs => do return "[" ++ ", ".intercalate (← itemReprs xs) ++ "]"
  | .obj fields => do return "\x7b" ++ ", ".intercalate (← fieldReprs fields) ++ "\x7d"

def itemReprs : List Json → Except PyError (List String)
  | [] => .ok []
  | x :: rest => do
    let text ← pyRepr x
    return text :: (← itemReprs rest)

def fieldReprs : List (String × Json) → Except PyError (List String)
  | [] => .ok []
  | (key, value) :: rest => do
    let text ← pyRepr value
    return (py.strRepr key ++ ": " ++ text) :: (← fieldReprs rest)

end

/-- `str(value)`. -/
def pyStr : Json → Except PyError String
  | .str s => .ok s
  | value => value.pyRepr py

/-- `float(value)`. -/
def pyFloat : Json → Except FloatError PyFloat
  | .bool b => .ok (.finite (if b then 1 else 0))
  | .int n =>
    match intToFloat n with
    | none => .error (.other .overflowError)
    | some x => .ok x
  | .float x => .ok x
  | .str s =>
    match py.floatOf s with
    | none => .error .valueError
    | some x => .ok x
  | .null | .list _ | .obj _ => .error .typeError

/-- `bool(value)`. -/
def pyBool : Json → Bool
  | .null => false
  | .bool b => b
  | .int n => n ≠ 0
  | .float x => x ≠ .finite 0
  | .str s => s ≠ ""
  | .list xs => !xs.isEmpty
  | .obj fields => !fields.isEmpty

mutual

/-- An integer that is too long for a text, at any depth. -/
def LongInt : Json → Prop
  | .int n => 10 ^ maxStrDigits ≤ n.natAbs
  | .list xs => LongItems xs
  | .obj fields => LongFields fields
  | _ => False

def LongItems : List Json → Prop
  | [] => False
  | x :: rest => LongInt x ∨ LongItems rest

def LongFields : List (String × Json) → Prop
  | [] => False
  | (_, value) :: rest => LongInt value ∨ LongFields rest

end

variable {py}

mutual

/-- **A value has a text** unless an integer in it is too long. -/
theorem returns_pyRepr : ∀ value : Json, Returns (value.pyRepr py) ↔ ¬value.LongInt
  | .null => by simp [pyRepr, LongInt]
  | .bool _ => by simp [pyRepr, LongInt]
  | .int n => by
    rw [pyRepr, LongInt]
    split <;> simp_all
  | .float _ => by simp [pyRepr, LongInt]
  | .str _ => by simp [pyRepr, LongInt]
  | .list xs => by
    rw [pyRepr, LongInt, returns_bind_of fun _ _ => returns_pure _]
    exact returns_itemReprs xs
  | .obj fields => by
    rw [pyRepr, LongInt, returns_bind_of fun _ _ => returns_pure _]
    exact returns_fieldReprs fields

theorem returns_itemReprs : ∀ xs : List Json, Returns (itemReprs py xs) ↔ ¬LongItems xs
  | [] => by simp [itemReprs, LongItems]
  | x :: rest => by
    rw [itemReprs, LongItems, not_or, ← returns_pyRepr x, ← returns_itemReprs rest, returns_bind]
    simp only [returns_bind_of fun _ _ => returns_pure _]
    exact ⟨fun ⟨text, hx, hrest⟩ => ⟨⟨text, hx⟩, hrest⟩, fun ⟨⟨text, hx⟩, hrest⟩ => ⟨text, hx, hrest⟩⟩

theorem returns_fieldReprs : ∀ fields : List (String × Json),
    Returns (fieldReprs py fields) ↔ ¬LongFields fields
  | [] => by simp [fieldReprs, LongFields]
  | (key, value) :: rest => by
    rw [fieldReprs, LongFields, not_or, ← returns_pyRepr value, ← returns_fieldReprs rest, returns_bind]
    simp only [returns_bind_of fun _ _ => returns_pure _]
    exact ⟨fun ⟨text, hx, hrest⟩ => ⟨⟨text, hx⟩, hrest⟩, fun ⟨⟨text, hx⟩, hrest⟩ => ⟨text, hx, hrest⟩⟩

end

mutual

/-- **What `repr` raises** is a `ValueError`. -/
theorem raisesOnly_pyRepr : ∀ value : Json, RaisesOnly (· = .valueError) (value.pyRepr py)
  | .null => by
    rw [pyRepr]
    exact raisesOnly_ok _
  | .bool _ => by
    rw [pyRepr]
    exact raisesOnly_ok _
  | .int n => by
    rw [pyRepr]
    split
    · exact raisesOnly_error rfl
    · exact raisesOnly_ok _
  | .float _ => by
    rw [pyRepr]
    exact raisesOnly_ok _
  | .str _ => by
    rw [pyRepr]
    exact raisesOnly_ok _
  | .list xs => by
    rw [pyRepr]
    exact (raisesOnly_itemReprs xs).bind fun _ _ => raisesOnly_ok _
  | .obj fields => by
    rw [pyRepr]
    exact (raisesOnly_fieldReprs fields).bind fun _ _ => raisesOnly_ok _

theorem raisesOnly_itemReprs : ∀ xs : List Json, RaisesOnly (· = .valueError) (itemReprs py xs)
  | [] => by
    rw [itemReprs]
    exact raisesOnly_ok _
  | x :: rest => by
    rw [itemReprs]
    exact (raisesOnly_pyRepr x).bind fun _ _ => (raisesOnly_itemReprs rest).bind fun _ _ => raisesOnly_ok _

theorem raisesOnly_fieldReprs : ∀ fields : List (String × Json), RaisesOnly (· = .valueError) (fieldReprs py fields)
  | [] => by
    rw [fieldReprs]
    exact raisesOnly_ok _
  | (_, value) :: rest => by
    rw [fieldReprs]
    exact (raisesOnly_pyRepr value).bind fun _ _ => (raisesOnly_fieldReprs rest).bind fun _ _ => raisesOnly_ok _

end

/-- So is what `str` raises. -/
theorem raisesOnly_pyStr (value : Json) : RaisesOnly (· = .valueError) (value.pyStr py) := by
  unfold pyStr
  split
  · exact raisesOnly_ok _
  · exact raisesOnly_pyRepr value

/-- `str` raises on what holds an integer that is too long. -/
theorem raises_pyStr (value : Json) : (∃ err, value.pyStr py = .error err) ↔ value.LongInt := by
  have hraises : ∀ m : Except PyError String, (∃ err, m = .error err) ↔ ¬Returns m := by
    rintro (err | text) <;> simp
  unfold pyStr
  split
  · simp [LongInt]
  · rw [hraises, returns_pyRepr, not_not]

/-- **`float` raises an exception of a third kind** on the integers beyond the floats. -/
theorem pyFloat_other (value : Json) :
    (∃ err, value.pyFloat py = .error (.other err)) ↔ ∃ n, value = .int n ∧ (floatLimit ≤ n ∨ n ≤ -floatLimit) := by
  unfold pyFloat
  cases value with
  | int n =>
    simp only [int.injEq, exists_eq_left']
    rw [← intToFloat_eq_none]
    cases intToFloat n <;> simp
  | str s =>
    simp only [reduceCtorEq, false_and, exists_false, iff_false, not_exists]
    cases py.floatOf s <;> simp
  | _ => simp

end Json

end Lib
