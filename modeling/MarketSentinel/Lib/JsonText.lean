import Mathlib.Data.List.Basic
import MarketSentinel.Lib.Json
import MarketSentinel.Lib.Lines
import MarketSentinel.Lib.Utf16

/-!
# JSON texts

What `json.dumps` and `JSON.stringify` write without blanks, and what `json.loads` and `JSON.parse` read of it.
The writers differ in the characters that they escape; the texts of numbers belong to the runtime.

* `Dialect`: what a writer and a reader of the same texts agree on.
* `readUnits_write`: a string is read back, whatever is escaped.
* `readNumber_append`: so is a number, and what follows it is left.
-/

namespace Lib

namespace JsonText

/-! ## Dialects -/

/-- The characters of a number. -/
def isNumeral (c : Char) : Bool := c.isDigit || c ∈ ['-', '+', '.', 'e', 'E']

/-- The characters that begin a number. -/
def beginsNumber (c : Char) : Bool := c.isDigit || c == '-'

/-- The text of an integer. -/
def intText : ℤ → List Char
  | .ofNat n => Nat.toDigits 10 n
  | .negSucc n => '-' :: Nat.toDigits 10 (n + 1)

/-- What a writer and a reader of the same texts agree on. -/
structure Dialect where
  /-- The characters of a string that are written as they are. -/
  plain : Char → Bool
  /-- The text of a float. -/
  float : PyFloat → List Char
  /-- The number of a text. -/
  number : List Char → Option Json
  /-- Controls, quotes and backslashes are escaped. -/
  plain_spec : ∀ c, plain c = true → 0x20 ≤ c.toNat ∧ c ≠ '"' ∧ c ≠ '\\'
  /-- The text of a finite float is a number. -/
  float_spec : ∀ q, (∃ c ∈ (float (.finite q)).head?, beginsNumber c = true) ∧
    ∀ c ∈ float (.finite q), isNumeral c = true
  /-- Integers are read back. -/
  number_int : ∀ n, number (intText n) = some (.int n)
  /-- Finite floats are read back. -/
  number_float : ∀ q, number (float (.finite q)) = some (.float (.finite q))

/-! ## Strings -/

/-- The four digits of a unit. -/
def hex (u : UInt16) : List Char :=
  [(u.toNat / 4096).digitChar, (u.toNat / 256 % 16).digitChar, (u.toNat / 16 % 16).digitChar,
    (u.toNat % 16).digitChar]

/-- The value of a digit. -/
def hexValue (c : Char) : Option ℕ :=
  if c.isDigit then some (c.toNat - '0'.toNat)
  else if 'a' ≤ c ∧ c ≤ 'f' then some (c.toNat - 'a'.toNat + 10)
  else if 'A' ≤ c ∧ c ≤ 'F' then some (c.toNat - 'A'.toNat + 10)
  else none

/-- The unit of four digits. -/
def readHex (a b c d : Char) : Option UInt16 := do
  let a ← hexValue a
  let b ← hexValue b
  let c ← hexValue c
  let d ← hexValue d
  return (a * 4096 + b * 256 + c * 16 + d).toUInt16

/-- The characters with an escape of one letter. -/
def escapes : List (Char × Char) :=
  [('"', '"'), ('\\', '\\'), ('\u0008', 'b'), ('\u000c', 'f'), ('\n', 'n'), ('\r', 'r'), ('\t', 't')]

/-- The character of an escape of one letter. -/
def unescape (e : Char) : Option Char :=
  if e = '/' then some '/' else (escapes.find? fun p => p.2 = e).map Prod.fst

variable (d : Dialect)

/-- A character in a string. -/
def writeChar (c : Char) : List Char :=
  if d.plain c then [c]
  else
    match escapes.lookup c with
    | some e => ['\\', e]
    | none => (Utf16.encodeChar c).flatMap fun u => '\\' :: 'u' :: hex u

/-- A string, after its first quote. -/
def writeString (s : String) : List Char := s.toList.flatMap (writeChar d) ++ ['"']

/-- The units of a string up to its last quote, and what follows. -/
def readUnits : List Char → Option (Utf16 × List Char)
  | [] => none
  | c :: rest =>
    if c = '"' then some ([], rest)
    else if c = '\\' then
      match rest with
      | [] => none
      | e :: rest =>
        if e = 'u' then
          match rest with
          | w :: x :: y :: z :: rest => do
            let u ← readHex w x y z
            let (units, rest) ← readUnits rest
            return (u :: units, rest)
          | _ => none
        else do
          let c ← unescape e
          let (units, rest) ← readUnits rest
          return (Utf16.encodeChar c ++ units, rest)
    -- A control character stands in no string.
    else if c.toNat < 0x20 then none
    else do
      let (units, rest) ← readUnits rest
      return (Utf16.encodeChar c ++ units, rest)

/-- A string, after its first quote. -/
def readString (text : List Char) : Option (String × List Char) :=
  (readUnits text).map fun r => (String.ofList (Utf16.decode r.1), r.2)

/-! ## Values -/

mutual

/-- A value, without blanks. -/
def write : Json → List Char
  | .null => ['n', 'u', 'l', 'l']
  | .bool true => ['t', 'r', 'u', 'e']
  | .bool false => ['f', 'a', 'l', 's', 'e']
  | .int n => intText n
  | .float x => d.float x
  | .str s => '"' :: writeString d s
  | .list [] => ['[', ']']
  | .list (x :: xs) => '[' :: (write x ++ writeItems xs)
  | .obj [] => ['\x7b', '\x7d']
  | .obj ((k, v) :: fields) => '\x7b' :: '"' :: (writeString d k ++ ':' :: (write v ++ writeMembers fields))

/-- The items after the first one. -/
def writeItems : List Json → List Char
  | [] => [']']
  | x :: xs => ',' :: (write x ++ writeItems xs)

/-- The members after the first one. -/
def writeMembers : List (String × Json) → List Char
  | [] => ['\x7d']
  | (k, v) :: fields => ',' :: '"' :: (writeString d k ++ ':' :: (write v ++ writeMembers fields))

end

/-- Blanks between the tokens. -/
def isBlank (c : Char) : Bool := c ∈ [' ', '\t', '\n', '\r']

def skip (text : List Char) : List Char := text.dropWhile isBlank

/-- A member is set: the place is that of its first occurrence. -/
def setMember (fields : List (String × Json)) (member : String × Json) : List (String × Json) :=
  if member.1 ∈ fields.map Prod.fst then fields.map fun f => if f.1 = member.1 then member else f
  else fields ++ [member]

/-- A literal, after its first letter. -/
def readLiteral (letters : List Char) (value : Json) (text : List Char) : Option (Json × List Char) :=
  if letters <+: text then some (value, text.drop letters.length) else none

/-- A number. -/
def readNumber (text : List Char) : Option (Json × List Char) :=
  (d.number (text.takeWhile isNumeral)).map fun v => (v, text.dropWhile isNumeral)

mutual

/-- A value, and what follows it. -/
def readValue : ℕ → List Char → Option (Json × List Char)
  | 0, _ => none
  | fuel + 1, text =>
    match skip text with
    | [] => none
    | c :: rest =>
      if c = '"' then (readString rest).map fun r => (.str r.1, r.2)
      else if c = '[' then
        if (skip rest).head? = some ']' then some (.list [], (skip rest).tail)
        else (readItems fuel rest).map fun r => (.list r.1, r.2)
      else if c = '\x7b' then
        if (skip rest).head? = some '\x7d' then some (.obj [], (skip rest).tail)
        else (readMembers fuel rest).map fun r => (.obj (r.1.foldl setMember []), r.2)
      else if c = 'n' then readLiteral ['u', 'l', 'l'] .null rest
      else if c = 't' then readLiteral ['r', 'u', 'e'] (.bool true) rest
      else if c = 'f' then readLiteral ['a', 'l', 's', 'e'] (.bool false) rest
      else if beginsNumber c then readNumber d (c :: rest)
      else none

/-- The items up to the bracket, at least one. -/
def readItems : ℕ → List Char → Option (List Json × List Char)
  | 0, _ => none
  | fuel + 1, text =>
    match readValue fuel text with
    | none => none
    | some (x, rest) =>
      match skip rest with
      | [] => none
      | c :: rest =>
        if c = ',' then (readItems fuel rest).map fun r => (x :: r.1, r.2)
        else if c = ']' then some ([x], rest)
        else none

/-- The members up to the brace, at least one. -/
def readMembers : ℕ → List Char → Option (List (String × Json) × List Char)
  | 0, _ => none
  | fuel + 1, text =>
    match skip text with
    | [] => none
    | c :: rest =>
      if c = '"' then
        match readString rest with
        | none => none
        | some (k, rest) =>
          match skip rest with
          | [] => none
          | c :: rest =>
            if c = ':' then
              match readValue fuel rest with
              | none => none
              | some (v, rest) =>
                match skip rest with
                | [] => none
                | c :: rest =>
                  if c = ',' then (readMembers fuel rest).map fun r => ((k, v) :: r.1, r.2)
                  else if c = '\x7d' then some ([(k, v)], rest)
                  else none
            else none
      else none

end

/-- The value of a text. -/
def parse (text : List Char) : Option Json :=
  match readValue d (2 * text.length + 2) text with
  | some (v, rest) => if skip rest = [] then some v else none
  | none => none

/-! ## Strings are read back -/

variable {d}

theorem hexValue_digitChar : ∀ n < 16, hexValue n.digitChar = some n := by decide

theorem readHex_hex (u : UInt16) : readHex (u.toNat / 4096).digitChar (u.toNat / 256 % 16).digitChar
    (u.toNat / 16 % 16).digitChar (u.toNat % 16).digitChar = some u := by
  have hlt := u.toNat_lt
  have hsum : u.toNat / 4096 * 4096 + u.toNat / 256 % 16 * 256 + u.toNat / 16 % 16 * 16 + u.toNat % 16 =
      u.toNat := by
    omega
  unfold readHex
  rw [hexValue_digitChar _ (by omega), hexValue_digitChar _ (by omega), hexValue_digitChar _ (by omega),
    hexValue_digitChar _ (by omega)]
  show some (_ : ℕ).toUInt16 = some u
  rw [hsum]
  exact congrArg some (UInt16.ofNat_toNat (x := u))

/-- The escapes of some units. -/
theorem readUnits_hex (units : Utf16) (more : List Char) :
    readUnits (units.flatMap (fun u => '\\' :: 'u' :: hex u) ++ more) =
      (readUnits more).map fun r => (units ++ r.1, r.2) := by
  induction units with
  | nil => simp
  | cons u units ih =>
    have hunit : readUnits ('\\' :: 'u' :: hex u ++ (units.flatMap (fun u => '\\' :: 'u' :: hex u) ++ more)) =
        (readUnits (units.flatMap (fun u => '\\' :: 'u' :: hex u) ++ more)).map fun r => (u :: r.1, r.2) := by
      unfold hex
      simp only [List.cons_append, List.nil_append]
      conv_lhs => unfold readUnits
      simp only [show ('\\' : Char) ≠ '"' by decide, if_false, if_true, readHex_hex]
      generalize readUnits _ = r
      cases r <;> rfl
    rw [List.flatMap_cons, List.append_assoc, hunit, ih, Option.map_map]
    rfl

/-- **A character is read back**, however it is written. -/
theorem readUnits_writeChar (c : Char) (more : List Char) : readUnits (writeChar d c ++ more) =
    (readUnits more).map fun r => (Utf16.encodeChar c ++ r.1, r.2) := by
  unfold writeChar
  split
  · next hplain =>
    obtain ⟨hcontrol, hquote, hslash⟩ := d.plain_spec c hplain
    conv_lhs => unfold readUnits
    simp only [List.singleton_append, hquote, hslash, Nat.not_lt.2 hcontrol, if_false]
    cases readUnits more <;> rfl
  · split
    · next e he =>
      have hmem : (c, e) ∈ escapes := by
        obtain ⟨before, after, hsplit, -⟩ := List.lookup_eq_some_iff.1 he
        rw [hsplit]
        exact List.mem_append_right _ List.mem_cons_self
      have hread : readUnits ('\\' :: e :: more) = (unescape e).bind fun c =>
          (readUnits more).map fun r => (Utf16.encodeChar c ++ r.1, r.2) := by
        have hu : e ≠ 'u' := by
          have hall : ∀ p ∈ escapes, p.2 ≠ 'u' := by decide
          exact hall _ hmem
        conv_lhs => unfold readUnits
        simp only [show ('\\' : Char) ≠ '"' by decide, hu, if_false, if_true]
        cases unescape e <;> cases readUnits more <;> rfl
      have hback : unescape e = some c := by
        have hall : ∀ p ∈ escapes, unescape p.2 = some p.1 := by decide
        exact hall _ hmem
      rw [List.cons_append, List.singleton_append, hread, hback, Option.bind_some]
    · exact readUnits_hex _ _

theorem readUnits_write (cs rest : List Char) : readUnits (cs.flatMap (writeChar d) ++ '"' :: rest) =
    some (cs.flatMap Utf16.encodeChar, rest) := by
  induction cs with
  | nil =>
    unfold readUnits
    rfl
  | cons c cs ih =>
    rw [List.flatMap_cons, List.append_assoc, readUnits_writeChar, ih]
    rfl

/-- **A string is read back**, whatever is escaped. -/
theorem readString_write (s : String) (rest : List Char) : readString (writeString d s ++ rest) = some (s, rest) := by
  unfold readString writeString
  rw [List.append_assoc, List.singleton_append, readUnits_write]
  show some (String.ofList (Utf16.decode _), rest) = _
  rw [Utf16.decode_flatMap, String.ofList_toList]

/-! ## Numbers are read back -/

/-- What follows a number does not belong to it. -/
def Stops (rest : List Char) : Prop := ∀ c ∈ rest.head?, isNumeral c = false

theorem stops_cons {c : Char} (hc : isNumeral c = false) (rest : List Char) : Stops (c :: rest) := by
  rintro _ ⟨⟩
  exact hc

/-- The text of a number. -/
structure NumberText (text : List Char) : Prop where
  begins : ∃ c ∈ text.head?, beginsNumber c = true
  numeral : ∀ c ∈ text, isNumeral c = true

theorem isNumeral_of_isDigit {c : Char} (h : c.isDigit = true) : isNumeral c = true := by
  unfold isNumeral
  rw [h, Bool.true_or]

theorem numberText_toDigits (n : ℕ) : NumberText (Nat.toDigits 10 n) := by
  have hdigit : ∀ c ∈ Nat.toDigits 10 n, c.isDigit = true := fun c hc =>
    Nat.isDigit_of_mem_toDigits (by decide) (by decide) hc
  obtain ⟨c, cs, hcs⟩ := List.exists_cons_of_ne_nil (Nat.toDigits_ne_nil (n := n) (b := 10))
  refine ⟨⟨c, by rw [hcs]; rfl, ?_⟩, fun c hc => isNumeral_of_isDigit (hdigit c hc)⟩
  unfold beginsNumber
  rw [hdigit c (hcs ▸ List.mem_cons_self), Bool.true_or]

theorem numberText_intText (n : ℤ) : NumberText (intText n) := by
  cases n with
  | ofNat n => exact numberText_toDigits n
  | negSucc n =>
    refine ⟨⟨'-', rfl, by decide⟩, fun c hc => ?_⟩
    rcases List.mem_cons.1 hc with rfl | hc
    · decide
    · exact (numberText_toDigits (n + 1)).numeral c hc

theorem readNumber_append {text rest : List Char} {v : Json} (h : NumberText text) (hv : d.number text = some v)
    (hrest : Stops rest) : readNumber d (text ++ rest) = some (v, rest) := by
  have hstop : rest.takeWhile isNumeral = [] ∧ rest.dropWhile isNumeral = rest := by
    cases rest with
    | nil => exact ⟨rfl, rfl⟩
    | cons c rest =>
      have hc : isNumeral c = false := hrest c rfl
      rw [List.takeWhile_cons_of_neg (by simp [hc]), List.dropWhile_cons_of_neg (by simp [hc])]
      exact ⟨rfl, rfl⟩
  unfold readNumber
  rw [List.takeWhile_append_of_pos h.numeral, List.dropWhile_append_of_pos h.numeral, hstop.1, hstop.2,
    List.append_nil, hv]
  rfl

end JsonText

end Lib
