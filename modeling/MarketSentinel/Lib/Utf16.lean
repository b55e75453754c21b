import Mathlib.Data.List.Basic

/-!
# UTF-16

Strings of 16-bit code units, of which some may be lone surrogates, and the strings that literals stand for.

* `not_mem_encode`: an ASCII unit comes from its own character only.
* `decode_encodeChar`: characters are read back.
* `replaceUnit`: a unit replaced by a text, everywhere.
-/

namespace Lib

/-- A string of code units. -/
abbrev Utf16 := List UInt16

namespace Utf16

/-- The unit of a character of the basic plane. -/
def unit (c : Char) : UInt16 := c.toNat.toUInt16

/-- The units of a character. -/
def encodeChar (c : Char) : Utf16 :=
  if c.toNat < 0x10000 then [unit c]
  else [(0xd800 + (c.toNat - 0x10000) / 0x400).toUInt16, (0xdc00 + (c.toNat - 0x10000) % 0x400).toUInt16]

/-- The units of a text. -/
def encode (text : String) : Utf16 := text.toList.flatMap encodeChar

@[simp] theorem encode_append (text text' : String) : encode (text ++ text') = encode text ++ encode text' := by
  unfold encode
  rw [String.toList_append, List.flatMap_append]

theorem toNat_toUInt16 (n : ℕ) : n.toUInt16.toNat = n % 0x10000 := UInt16.toNat_ofNat'

theorem toNat_lt (c : Char) : c.toNat < 0x110000 := by
  rcases c.valid with h | h
  · exact Nat.lt_trans h (by decide)
  · exact h.2

/-- **An ASCII unit** comes from its own character only. -/
theorem not_mem_encode {c : Char} {text : String} (hc : c.toNat < 0x80) (h : c ∉ text.toList) :
    unit c ∉ encode text := by
  have hunit : (unit c).toNat = c.toNat := by
    unfold unit
    rw [toNat_toUInt16]
    omega
  unfold encode
  rw [List.mem_flatMap]
  rintro ⟨d, hd, hmem⟩
  have hbound := toNat_lt d
  unfold encodeChar at hmem
  split at hmem
  · next hplane =>
    have heq := congrArg UInt16.toNat (List.mem_singleton.1 hmem)
    rw [hunit] at heq
    unfold unit at heq
    rw [toNat_toUInt16, Nat.mod_eq_of_lt hplane] at heq
    exact h (Char.toNat_inj.1 heq ▸ hd)
  · next hplane =>
    -- Both surrogates are beyond ASCII.
    rcases List.mem_cons.1 hmem with heq | hmem
    · have hnat := congrArg UInt16.toNat heq
      rw [hunit, toNat_toUInt16] at hnat
      omega
    · have hnat := congrArg UInt16.toNat (List.mem_singleton.1 hmem)
      rw [hunit, toNat_toUInt16] at hnat
      omega

/-! ## Decoding -/

/-- The first unit of a pair. -/
def isHigh (u : UInt16) : Bool := 0xd800 ≤ u.toNat && u.toNat < 0xdc00

/-- The second unit of a pair. -/
def isLow (u : UInt16) : Bool := 0xdc00 ≤ u.toNat && u.toNat < 0xe000

/-- The character of a pair. -/
def pair (u v : UInt16) : Char := Char.ofNat (0x10000 + (u.toNat - 0xd800) * 0x400 + (v.toNat - 0xdc00))

/-- The character of a unit by itself; a lone surrogate is replaced. -/
def single (u : UInt16) : Char := if isHigh u || isLow u then '\ufffd' else Char.ofNat u.toNat

/-- The text of some units. -/
def decode : Utf16 → List Char
  | [] => []
  | [u] => [single u]
  | u :: v :: rest => if isHigh u && isLow v then pair u v :: decode rest else single u :: decode (v :: rest)

/-- A character of the basic plane is no surrogate. -/
theorem toNat_ne_surrogate (c : Char) : c.toNat < 0xd800 ∨ 0xe000 ≤ c.toNat := by
  rcases c.valid with h | h
  · exact .inl h
  · exact .inr (Nat.succ_le_of_lt h.1)

/-- **A character is read back**, whatever follows. -/
theorem decode_encodeChar (c : Char) (rest : Utf16) : decode (encodeChar c ++ rest) = c :: decode rest := by
  have hbound := toNat_lt c
  unfold encodeChar
  split
  · next hplane =>
    have hunit : (unit c).toNat = c.toNat := by
      unfold unit
      rw [toNat_toUInt16, Nat.mod_eq_of_lt hplane]
    have hscalar := toNat_ne_surrogate c
    have hhigh : isHigh (unit c) = false := by
      unfold isHigh
      rw [hunit, ← decide_eq_false_iff_not.2 (show ¬(0xd800 ≤ c.toNat ∧ c.toNat < 0xdc00) by omega),
        Bool.decide_and]
    have hlow : isLow (unit c) = false := by
      unfold isLow
      rw [hunit, ← decide_eq_false_iff_not.2 (show ¬(0xdc00 ≤ c.toNat ∧ c.toNat < 0xe000) by omega),
        Bool.decide_and]
    have hsingle : single (unit c) = c := by
      unfold single
      rw [hhigh, hlow, hunit]
      exact Char.ofNat_toNat c
    cases rest with
    | nil =>
      show [single (unit c)] = _
      rw [hsingle]
      rfl
    | cons v rest =>
      show (if isHigh (unit c) && isLow v then _ else _) = _
      rw [hhigh, hsingle]
      rfl
  · next hplane =>
    have hfirst : (0xd800 + (c.toNat - 0x10000) / 0x400).toUInt16.toNat = 0xd800 + (c.toNat - 0x10000) / 0x400 := by
      rw [toNat_toUInt16]
      omega
    have hsecond : (0xdc00 + (c.toNat - 0x10000) % 0x400).toUInt16.toNat = 0xdc00 + (c.toNat - 0x10000) % 0x400 := by
      rw [toNat_toUInt16]
      omega
    have hpair : (isHigh (0xd800 + (c.toNat - 0x10000) / 0x400).toUInt16 &&
        isLow (0xdc00 + (c.toNat - 0x10000) % 0x400).toUInt16) = true := by
      unfold isHigh isLow
      rw [hfirst, hsecond]
      simp only [Bool.and_eq_true, decide_eq_true_eq]
      omega
    have hchar : pair (0xd800 + (c.toNat - 0x10000) / 0x400).toUInt16
        (0xdc00 + (c.toNat - 0x10000) % 0x400).toUInt16 = c := by
      unfold pair
      rw [hfirst, hsecond, show 0x10000 + (0xd800 + (c.toNat - 0x10000) / 0x400 - 0xd800) * 0x400 +
        (0xdc00 + (c.toNat - 0x10000) % 0x400 - 0xdc00) = c.toNat by omega]
      exact Char.ofNat_toNat c
    show (if _ then _ else _) = _
    rw [if_pos hpair, hchar]
    rfl

/-- **Texts are read back.** -/
theorem decode_flatMap (cs : List Char) : decode (cs.flatMap encodeChar) = cs := by
  induction cs with
  | nil => rfl
  | cons c cs ih => rw [List.flatMap_cons, decode_encodeChar, ih]

/-! ## Replacing a unit -/

/-- `text.replace(/c/g, by)`. -/
def replaceUnit (c : Char) (replacement : String) (text : Utf16) : Utf16 :=
  text.flatMap fun u => if u = unit c then encode replacement else [u]

/-- Two replacements, as one. -/
theorem replaceUnit_flatMap (c : Char) (replacement : String) (text : Utf16) (f : UInt16 → Utf16) :
    replaceUnit c replacement (text.flatMap f) = text.flatMap fun u => replaceUnit c replacement (f u) :=
  List.flatMap_assoc

end Utf16

end Lib
