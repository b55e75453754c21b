import MarketSentinel.Lib.JsonRoundTrip

/-!
# The characters of a JSON text

A writer of ASCII writes printable characters only, so its texts have no line ends. Floats as fractions make a
dialect.

* `mem_write`: the characters that are written.
* `notMem_write`: no control is among them.
* `fractions`: a dialect.
-/

namespace Lib

namespace JsonText

variable {d : Dialect}

/-- Printable ASCII. -/
def Printable (c : Char) : Prop := 0x20 ≤ c.toNat ∧ c.toNat < 0x7f

instance (c : Char) : Decidable (Printable c) := inferInstanceAs (Decidable (_ ∧ _))

/-- What a text is made of: what the dialect leaves as it is, and printable ASCII. -/
def Written (d : Dialect) (c : Char) : Prop := d.plain c = true ∨ Printable c

theorem printable_of_all {text : List Char} (h : text.all (fun c => decide (Printable c)) = true) :
    ∀ c ∈ text, Printable c := fun c hc => of_decide_eq_true (List.all_eq_true.1 h c hc)

/-- Numbers are printable. -/
theorem printable_of_isNumeral {c : Char} (h : isNumeral c = true) : Printable c := by
  unfold isNumeral at h
  rcases Bool.or_eq_true_iff.1 h with h | h
  · obtain ⟨hlow, hhigh⟩ := Char.isDigit_iff_toNat.1 h
    exact ⟨Nat.le_trans (by decide) hlow, Nat.lt_of_le_of_lt hhigh (by decide)⟩
  · have hall : ∀ c ∈ ['-', '+', '.', 'e', 'E'], Printable c := printable_of_all (by decide)
    exact hall c (by simpa using h)

/-- So are digits. -/
theorem printable_digitChar : ∀ n < 16, Printable n.digitChar := by decide

/-- So is an escaped unit. -/
theorem printable_hex {u : UInt16} {c : Char} (h : c ∈ '\\' :: 'u' :: hex u) : Printable c := by
  have hlt := u.toNat_lt
  unfold hex at h
  simp only [List.mem_cons, List.not_mem_nil, or_false] at h
  rcases h with rfl | rfl | rfl | rfl | rfl | rfl
  · decide
  · decide
  all_goals exact printable_digitChar _ (by omega)

/-- A character is left as it is, or escaped. -/
theorem written_writeChar {c c' : Char} (h : c' ∈ writeChar d c) : Written d c' := by
  unfold writeChar at h
  split at h
  · next hplain =>
    rw [List.mem_singleton] at h
    exact .inl (h ▸ hplain)
  · split at h
    · next e he =>
      obtain ⟨before, after, hsplit, -⟩ := List.lookup_eq_some_iff.1 he
      have hmem : (c, e) ∈ escapes := by
        rw [hsplit]
        exact List.mem_append_right _ List.mem_cons_self
      have hall : ∀ p ∈ escapes, Printable p.2 := by decide
      simp only [List.mem_cons, List.not_mem_nil, or_false] at h
      rcases h with rfl | rfl
      · exact .inr (by decide)
      · exact .inr (hall _ hmem)
    · obtain ⟨u, -, hu⟩ := List.mem_flatMap.1 h
      exact .inr (printable_hex hu)

/-- A string, with its closing quote. -/
theorem written_writeString {s : String} {c : Char} (h : c ∈ writeString d s) : Written d c := by
  rcases List.mem_append.1 h with h | h
  · obtain ⟨c', -, hc'⟩ := List.mem_flatMap.1 h
    exact written_writeChar hc'
  · obtain rfl := List.mem_singleton.1 h
    exact .inr (by decide)

/-- The items of an array, with the commas. -/
theorem written_writeItems {xs : List Json} (h : ∀ x ∈ xs, ∀ c ∈ write d x, Written d c) :
    ∀ c ∈ writeItems d xs, Written d c := by
  induction xs with
  | nil =>
    intro c hc
    obtain rfl := List.mem_singleton.1 hc
    exact .inr (by decide)
  | cons x xs ih =>
    intro c hc
    unfold writeItems at hc
    rcases List.mem_cons.1 hc with rfl | hc
    · exact .inr (by decide)
    rcases List.mem_append.1 hc with hc | hc
    · exact h x List.mem_cons_self c hc
    · exact ih (fun y hy => h y (List.mem_cons_of_mem _ hy)) c hc

/-- The text of a member, and what follows it. -/
theorem written_member {f : String × Json} {more : List Char} (hvalue : ∀ c ∈ write d f.2, Written d c)
    (hmore : ∀ c ∈ more, Written d c) :
    ∀ c ∈ '"' :: (writeString d f.1 ++ ':' :: (write d f.2 ++ more)), Written d c := by
  intro c hc
  rcases List.mem_cons.1 hc with rfl | hc
  · exact .inr (by decide)
  rcases List.mem_append.1 hc with hc | hc
  · exact written_writeString hc
  rcases List.mem_cons.1 hc with rfl | hc
  · exact .inr (by decide)
  rcases List.mem_append.1 hc with hc | hc
  · exact hvalue c hc
  · exact hmore c hc

/-- The members of an object. -/
theorem written_writeMembers {fields : List (String × Json)} (h : ∀ f ∈ fields, ∀ c ∈ write d f.2, Written d c) :
    ∀ c ∈ writeMembers d fields, Written d c := by
  induction fields with
  | nil =>
    intro c hc
    obtain rfl := List.mem_singleton.1 hc
    exact .inr (by decide)
  | cons f fields ih =>
    intro c hc
    unfold writeMembers at hc
    rcases List.mem_cons.1 hc with rfl | hc
    · exact .inr (by decide)
    · exact written_member (h f List.mem_cons_self) (ih fun g hg => h g (List.mem_cons_of_mem _ hg)) c hc

/-- **The characters that are written.** -/
theorem mem_write {v : Json} (h : Proper v) : ∀ c ∈ write d v, Written d c := by
  have hprintable : ∀ text : List Char, (∀ c ∈ text, Printable c) → ∀ c ∈ text, Written d c :=
    fun text htext c hc => .inr (htext c hc)
  induction h with
  | null => exact hprintable _ (printable_of_all (by unfold write; decide))
  | bool b => cases b <;> exact hprintable _ (printable_of_all (by unfold write; decide))
  | int n =>
    intro c hc
    unfold write at hc
    exact .inr (printable_of_isNumeral ((numberText_intText n).numeral c hc))
  | float q =>
    intro c hc
    unfold write at hc
    exact .inr (printable_of_isNumeral ((d.float_spec q).2 c hc))
  | str s =>
    intro c hc
    unfold write at hc
    rcases List.mem_cons.1 hc with rfl | hc
    · exact .inr (by decide)
    · exact written_writeString hc
  | @list xs h ih =>
    cases xs with
    | nil => exact hprintable _ (printable_of_all (by unfold write; decide))
    | cons x xs =>
      intro c hc
      unfold write at hc
      rcases List.mem_cons.1 hc with rfl | hc
      · exact .inr (by decide)
      rcases List.mem_append.1 hc with hc | hc
      · exact ih x List.mem_cons_self c hc
      · exact written_writeItems (fun y hy => ih y (List.mem_cons_of_mem _ hy)) c hc
  | @obj fields hkeys h ih =>
    cases fields with
    | nil => exact hprintable _ (printable_of_all (by unfold write; decide))
    | cons f fields =>
      intro c hc
      unfold write at hc
      rcases List.mem_cons.1 hc with rfl | hc
      · exact .inr (by decide)
      · exact written_member (ih f List.mem_cons_self)
          (written_writeMembers fun g hg => ih g (List.mem_cons_of_mem _ hg)) c hc

/-- **A text is one line.** -/
theorem notMem_write {v : Json} (h : Proper v) {c : Char} (hc : c.toNat < 0x20) : c ∉ write d v := by
  intro hmem
  rcases mem_write h c hmem with hplain | hprintable
  · have hspec := (d.plain_spec c hplain).1
    omega
  · have hlow := hprintable.1
    omega

/-! ## A dialect

Floats are written as fractions between two points, which no number of JSON has.
-/

def readNat (text : List Char) : Option ℕ := if text = [] then none else some (Nat.ofDigitChars 10 text 0)

def readInt : List Char → Option ℤ
  | '-' :: text => (readNat text).map fun n : ℕ => -(n : ℤ)
  | text => (readNat text).map fun n : ℕ => (n : ℤ)

/-- A fraction with two dots, which no integer has. -/
def fractionText (q : ℚ) : List Char := intText q.num ++ '.' :: '.' :: Nat.toDigits 10 q.den

def readFraction (text : List Char) : Option Json :=
  match text.splitOn '.' with
  | [n] => (readInt n).map .int
  | [n, [], d] => do
    let n ← readInt n
    let d ← readNat d
    return .float (.finite (mkRat n d))
  | _ => none

/-- A natural number is read back. -/
theorem readNat_toDigits (n : ℕ) : readNat (Nat.toDigits 10 n) = some n := by
  unfold readNat
  rw [if_neg Nat.toDigits_ne_nil, Nat.ofDigitChars_ten_toDigits]

/-- So is an integer. -/
theorem readInt_intText (n : ℤ) : readInt (intText n) = some n := by
  cases n with
  | ofNat n =>
    have hdigit : ∀ c ∈ Nat.toDigits 10 n, c.isDigit = true := fun c hc =>
      Nat.isDigit_of_mem_toDigits (by decide) (by decide) hc
    have hread := readNat_toDigits n
    show readInt (Nat.toDigits 10 n) = some (n : ℤ)
    unfold readInt
    split
    · next text heq =>
      rw [heq] at hdigit
      exact absurd (hdigit '-' List.mem_cons_self) (by decide)
    · rw [hread]
      rfl
  | negSucc n =>
    have hread : readInt ('-' :: Nat.toDigits 10 (n + 1)) =
        (readNat (Nat.toDigits 10 (n + 1))).map fun m : ℕ => -(m : ℤ) := by
      unfold readInt
      rfl
    rw [readNat_toDigits] at hread
    exact hread

theorem notMem_toDigits (n : ℕ) : '.' ∉ Nat.toDigits 10 n := fun hmem =>
  absurd (Nat.isDigit_of_mem_toDigits (by decide) (by decide) hmem) (by decide)

/-- An integer has no dot. -/
theorem notMem_intText (n : ℤ) : '.' ∉ intText n := by
  cases n with
  | ofNat n => exact notMem_toDigits n
  | negSucc n =>
    intro hmem
    rcases List.mem_cons.1 hmem with heq | hmem
    · exact absurd heq (by decide)
    · exact notMem_toDigits _ hmem

/-- The text of an integer is read as one. -/
theorem readFraction_int (n : ℤ) : readFraction (intText n) = some (.int n) := by
  unfold readFraction
  rw [Lines.splitOn_of_notMem (notMem_intText n)]
  dsimp only
  rw [readInt_intText]
  rfl

/-- The text of a fraction is read back. -/
theorem readFraction_fraction (q : ℚ) : readFraction (fractionText q) = some (.float (.finite q)) := by
  have hsplit : (fractionText q).splitOn '.' = [intText q.num, [], Nat.toDigits 10 q.den] := by
    unfold fractionText
    rw [Lines.splitOn_append_cons, Lines.splitOn_of_notMem (notMem_intText _), Lines.splitOn_cons_self,
      Lines.splitOn_of_notMem (notMem_toDigits _)]
    rfl
  unfold readFraction
  rw [hsplit]
  dsimp only
  rw [readInt_intText, readNat_toDigits]
  show some (Json.float (.finite (mkRat q.num q.den))) = _
  rw [Rat.mkRat_self]

/-- It is the text of a number. -/
theorem numberText_fraction (q : ℚ) : NumberText (fractionText q) := by
  have hnum := numberText_intText q.num
  have hden := numberText_toDigits q.den
  obtain ⟨c, cs, hcs, -⟩ := hnum.begins_value
  refine ⟨?_, fun c hc => ?_⟩
  · obtain ⟨c', hc', hbegins⟩ := hnum.begins
    refine ⟨c', ?_, hbegins⟩
    unfold fractionText
    rw [hcs] at hc' ⊢
    exact hc'
  · unfold fractionText at hc
    rcases List.mem_append.1 hc with hc | hc
    · exact hnum.numeral c hc
    rcases List.mem_cons.1 hc with rfl | hc
    · decide
    rcases List.mem_cons.1 hc with rfl | hc
    · decide
    · exact hden.numeral c hc

/-- The dialect that writes some characters as they are. -/
def fractions (plain : Char → Bool) (h : ∀ c, plain c = true → 0x20 ≤ c.toNat ∧ c ≠ '"' ∧ c ≠ '\\') : Dialect where
  plain := plain
  float := fun
    | .finite q => fractionText q
    | .posInf => ['I', 'n', 'f', 'i', 'n', 'i', 't', 'y']
    | .negInf => ['-', 'I', 'n', 'f', 'i', 'n', 'i', 't', 'y']
    | .nan => ['N', 'a', 'N']
  number := readFraction
  plain_spec := h
  float_spec := fun q => ⟨(numberText_fraction q).begins, (numberText_fraction q).numeral⟩
  number_int := readFraction_int
  number_float := readFraction_fraction

end JsonText

end Lib
