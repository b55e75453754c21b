import MarketSentinel.Lib.JsonText

/-!
# JSON values are read back

A value that no object names a member of twice, and that has no infinities, comes back from its text.

* `readItems_write`, `readMembers_write`: an array and an object, when what they hold is read back.
* `readValue_write`: a value is read back, and what follows it is left.
* `parse_write`: the round trip.
-/

namespace Lib

namespace JsonText

variable {d : Dialect}

/-- Floats are finite, and no object has a member twice. -/
inductive Proper : Json → Prop
  | null : Proper .null
  | bool (b : Bool) : Proper (.bool b)
  | int (n : ℤ) : Proper (.int n)
  | float (q : ℚ) : Proper (.float (.finite q))
  | str (s : String) : Proper (.str s)
  | list {xs : List Json} (h : ∀ x ∈ xs, Proper x) : Proper (.list xs)
  | obj {fields : List (String × Json)} (hkeys : (fields.map Prod.fst).Nodup)
      (h : ∀ f ∈ fields, Proper f.2) : Proper (.obj fields)

/-- The first letter of a value. -/
def beginsValue (c : Char) : Bool := beginsNumber c || c ∈ ['"', '[', '\x7b', 'n', 't', 'f']

theorem NumberText.begins_value {text : List Char} (h : NumberText text) :
    ∃ c cs, text = c :: cs ∧ beginsValue c = true := by
  obtain ⟨c, hc, hbegins⟩ := h.begins
  obtain ⟨cs, rfl⟩ := List.head?_eq_some_iff.1 hc
  refine ⟨c, cs, rfl, ?_⟩
  unfold beginsValue
  rw [hbegins, Bool.true_or]

/-- A text is not empty, and its first letter tells that a value begins. -/
theorem write_begins {v : Json} (h : Proper v) : ∃ c cs, write d v = c :: cs ∧ beginsValue c = true := by
  cases h with
  | null => exact ⟨_, _, rfl, by decide⟩
  | bool b => cases b <;> exact ⟨_, _, rfl, by decide⟩
  | int n => exact (numberText_intText n).begins_value
  | float q => exact NumberText.begins_value ⟨(d.float_spec q).1, (d.float_spec q).2⟩
  | str s => exact ⟨_, _, rfl, by decide⟩
  | @list xs h => cases xs <;> exact ⟨_, _, rfl, by decide⟩
  | @obj fields hkeys h =>
    cases fields with
    | nil => exact ⟨_, _, rfl, by decide⟩
    | cons f fields => exact ⟨_, _, rfl, by decide⟩

theorem ne_of_beginsValue {c c' : Char} (hc : beginsValue c = true) (hc' : beginsValue c' = false) : c ≠ c' := by
  rintro rfl
  rw [hc] at hc'
  cases hc'

/-- Nothing is skipped before a letter. -/
theorem skip_cons {c : Char} (h : isBlank c = false) (rest : List Char) : skip (c :: rest) = c :: rest := by
  unfold skip
  rw [List.dropWhile_cons_of_neg (by simp [h])]

/-- No value begins with a blank. -/
theorem isBlank_of_beginsValue {c : Char} (h : beginsValue c = true) : isBlank c = false := by
  rw [Bool.eq_false_iff]
  intro hblank
  have hall : ∀ b ∈ [' ', '\t', '\n', '\r'], beginsValue b = false := by
    simp only [List.forall_mem_cons]
    exact ⟨rfl, rfl, rfl, rfl, fun _ hb => absurd hb List.not_mem_nil⟩
  have hno := hall c (by simpa [isBlank] using hblank)
  rw [h] at hno
  cases hno

/-- So nothing is skipped before a value. -/
theorem skip_write {v : Json} (h : Proper v) (rest : List Char) :
    skip (write d v ++ rest) = write d v ++ rest := by
  obtain ⟨c, cs, hcs, hc⟩ := @write_begins d v h
  rw [hcs, List.cons_append, skip_cons (isBlank_of_beginsValue hc)]

/-- A value begins with no bracket that closes. -/
theorem head_skip_write {v : Json} (h : Proper v) (rest : List Char) {c : Char} (hc : beginsValue c = false) :
    (skip (write d v ++ rest)).head? ≠ some c := by
  obtain ⟨c', cs, hcs, hc'⟩ := @write_begins d v h
  rw [skip_write h, hcs]
  intro heq
  exact ne_of_beginsValue hc' hc (Option.some.inj heq)

/-- A number is read up to what follows it. -/
theorem readValue_number {text rest : List Char} {v : Json} {fuel : ℕ} (h : NumberText text)
    (hv : d.number text = some v) (hrest : Stops rest) (hfuel : 0 < fuel) :
    readValue d fuel (text ++ rest) = some (v, rest) := by
  obtain ⟨n, rfl⟩ := Nat.exists_eq_succ_of_ne_zero hfuel.ne'
  have hnumber := readNumber_append h hv hrest
  obtain ⟨c, cs, rfl, hc⟩ := h.begins_value
  obtain ⟨c', hc', hbegins⟩ := h.begins
  obtain rfl : c = c' := Option.some.inj hc'
  have hother : ∀ c' ∈ ['"', '[', '\x7b', 'n', 't', 'f'], c ≠ c' := by
    have hall : ∀ c' ∈ ['"', '[', '\x7b', 'n', 't', 'f'], beginsNumber c' = false := by
      simp only [List.forall_mem_cons]
      exact ⟨rfl, rfl, rfl, rfl, rfl, rfl, fun _ hc => absurd hc List.not_mem_nil⟩
    rintro c' hmem rfl
    rw [hall c hmem] at hbegins
    cases hbegins
  rw [List.cons_append] at hnumber ⊢
  unfold readValue
  rw [skip_cons (isBlank_of_beginsValue hc)]
  dsimp only
  rw [if_neg (hother '"' (by decide)), if_neg (hother '[' (by decide)), if_neg (hother '\x7b' (by decide)),
    if_neg (hother 'n' (by decide)), if_neg (hother 't' (by decide)), if_neg (hother 'f' (by decide)),
    if_pos hbegins, hnumber]

/-- What the reader makes of the text of a value. -/
def ReadBack (d : Dialect) (v : Json) : Prop :=
  ∀ fuel rest, 2 * (write d v).length ≤ fuel → Stops rest → readValue d fuel (write d v ++ rest) = some (v, rest)

/-- The items of an array are read back, up to the bracket. -/
theorem readItems_write {x : Json} {xs : List Json} (hread : ∀ y ∈ x :: xs, ReadBack d y) :
    ∀ fuel rest, 2 * (write d x ++ writeItems d xs).length ≤ fuel →
      readItems d fuel (write d x ++ writeItems d xs ++ rest) = some (x :: xs, rest) := by
  induction xs generalizing x with
  | nil =>
    intro fuel rest hfuel
    rw [List.length_append] at hfuel
    have hone : (writeItems d []).length = 1 := rfl
    obtain ⟨n, rfl⟩ : ∃ n, fuel = n + 1 := ⟨fuel - 1, by omega⟩
    have hvalue := hread x List.mem_cons_self n (']' :: rest) (by omega) (stops_cons (by decide) rest)
    have htail : writeItems d [] ++ rest = ']' :: rest := rfl
    unfold readItems
    rw [List.append_assoc, htail, hvalue]
    rfl
  | cons y ys ih =>
    intro fuel rest hfuel
    have htail : writeItems d (y :: ys) = ',' :: (write d y ++ writeItems d ys) := by
      conv_lhs => unfold writeItems
    rw [htail, List.length_append, List.length_cons] at hfuel
    obtain ⟨n, rfl⟩ : ∃ n, fuel = n + 1 := ⟨fuel - 1, by omega⟩
    have hvalue := hread x List.mem_cons_self n (',' :: (write d y ++ writeItems d ys ++ rest)) (by omega)
      (stops_cons (by decide) _)
    have hrest := ih (fun z hz => hread z (List.mem_cons_of_mem _ hz)) n rest (by omega)
    unfold readItems
    rw [htail, List.append_assoc, List.cons_append, hvalue]
    dsimp only
    rw [skip_cons (by decide)]
    dsimp only
    rw [if_pos rfl, hrest]
    rfl

/-- The members of an object are read back, up to the brace. -/
theorem readMembers_write {f : String × Json} {fields : List (String × Json)}
    (hread : ∀ g ∈ f :: fields, ReadBack d g.2) :
    ∀ fuel rest, 2 * (writeString d f.1 ++ ':' :: (write d f.2 ++ writeMembers d fields)).length ≤ fuel →
      readMembers d fuel ('"' :: (writeString d f.1 ++ ':' :: (write d f.2 ++ writeMembers d fields)) ++ rest) =
        some (f :: fields, rest) := by
  induction fields generalizing f with
  | nil =>
    intro fuel rest hfuel
    have hone : (writeMembers d []).length = 1 := rfl
    rw [List.length_append, List.length_cons, List.length_append] at hfuel
    obtain ⟨n, rfl⟩ : ∃ n, fuel = n + 1 := ⟨fuel - 1, by omega⟩
    have hvalue := hread f List.mem_cons_self n ('\x7d' :: rest) (by omega) (stops_cons (by decide) rest)
    unfold readMembers
    rw [List.cons_append, skip_cons (by decide)]
    dsimp only
    rw [if_pos rfl, List.append_assoc, readString_write]
    dsimp only
    rw [List.cons_append, skip_cons (by decide)]
    dsimp only
    have htail : writeMembers d [] ++ rest = '\x7d' :: rest := rfl
    rw [if_pos rfl, List.append_assoc, htail, hvalue]
    rfl
  | cons g gs ih =>
    intro fuel rest hfuel
    have htail : writeMembers d (g :: gs) =
        ',' :: '"' :: (writeString d g.1 ++ ':' :: (write d g.2 ++ writeMembers d gs)) := by
      conv_lhs => unfold writeMembers
    rw [htail, List.length_append, List.length_cons, List.length_append, List.length_cons,
      List.length_cons] at hfuel
    obtain ⟨n, rfl⟩ : ∃ n, fuel = n + 1 := ⟨fuel - 1, by omega⟩
    have hvalue := hread f List.mem_cons_self n
      (',' :: ('"' :: (writeString d g.1 ++ ':' :: (write d g.2 ++ writeMembers d gs)) ++ rest)) (by omega)
      (stops_cons (by decide) _)
    have hrest := ih (fun h hh => hread h (List.mem_cons_of_mem _ hh)) n rest (by omega)
    unfold readMembers
    rw [List.cons_append, skip_cons (by decide)]
    dsimp only
    rw [if_pos rfl, List.append_assoc, readString_write]
    dsimp only
    rw [List.cons_append, skip_cons (by decide)]
    dsimp only
    rw [if_pos rfl, htail, List.append_assoc, List.cons_append, hvalue]
    dsimp only
    rw [skip_cons (by decide)]
    dsimp only
    rw [if_pos rfl, hrest]
    rfl

/-- Distinct members are set one after the other. -/
theorem foldl_setMember {fields done : List (String × Json)} (h : ((done ++ fields).map Prod.fst).Nodup) :
    fields.foldl setMember done = done ++ fields := by
  induction fields generalizing done with
  | nil => rw [List.foldl_nil, List.append_nil]
  | cons f fields ih =>
    have hnew : f.1 ∉ done.map Prod.fst := by
      rw [List.map_append, List.nodup_append] at h
      intro hmem
      exact h.2.2 f.1 hmem f.1 (List.mem_map_of_mem List.mem_cons_self) rfl
    have hset : setMember done f = done ++ [f] := by
      unfold setMember
      rw [if_neg hnew]
    rw [List.foldl_cons, hset, ih (by rwa [List.append_assoc]), List.append_assoc]
    rfl

/-- **A value is read back**, and what follows it is left. -/
theorem readValue_write {v : Json} (h : Proper v) : ReadBack d v := by
  induction h with
  | null =>
    intro fuel rest hfuel _
    obtain ⟨n, rfl⟩ : ∃ n, fuel = n + 1 := ⟨fuel - 1, by simp only [write, List.length] at hfuel; omega⟩
    simp [write, readValue, skip_cons, isBlank, readLiteral]
  | bool b =>
    intro fuel rest hfuel _
    cases b <;> obtain ⟨n, rfl⟩ : ∃ n, fuel = n + 1 :=
      ⟨fuel - 1, by simp only [write, List.length] at hfuel; omega⟩
    · simp [write, readValue, skip_cons, isBlank, readLiteral]
    · simp [write, readValue, skip_cons, isBlank, readLiteral]
  | int n =>
    intro fuel rest hfuel hrest
    have htext := numberText_intText n
    have hpos : 0 < (intText n).length := by
      obtain ⟨c, cs, hcs, -⟩ := htext.begins_value
      rw [hcs]
      exact Nat.succ_pos _
    have hwrite : write d (.int n) = intText n := by unfold write; rfl
    rw [hwrite] at hfuel ⊢
    exact readValue_number htext (d.number_int n) hrest (by omega)
  | float q =>
    intro fuel rest hfuel hrest
    have htext : NumberText (d.float (.finite q)) := ⟨(d.float_spec q).1, (d.float_spec q).2⟩
    have hpos : 0 < (d.float (.finite q)).length := by
      obtain ⟨c, cs, hcs, -⟩ := htext.begins_value
      rw [hcs]
      exact Nat.succ_pos _
    have hwrite : write d (.float (.finite q)) = d.float (.finite q) := by unfold write; rfl
    rw [hwrite] at hfuel ⊢
    exact readValue_number htext (d.number_float q) hrest (by omega)
  | str s =>
    intro fuel rest hfuel _
    have hwrite : write d (.str s) = '"' :: writeString d s := by unfold write; rfl
    rw [hwrite, List.length_cons] at hfuel
    obtain ⟨n, rfl⟩ : ∃ n, fuel = n + 1 := ⟨fuel - 1, by omega⟩
    unfold readValue
    rw [hwrite, List.cons_append, skip_cons (by decide)]
    dsimp only
    rw [if_pos rfl, readString_write]
    rfl
  | @list xs h ih =>
    intro fuel rest hfuel _
    cases xs with
    | nil =>
      obtain ⟨n, rfl⟩ : ∃ n, fuel = n + 1 := ⟨fuel - 1, by simp only [write, List.length] at hfuel; omega⟩
      simp [write, readValue, skip_cons, isBlank]
    | cons x xs =>
      have hwrite : write d (.list (x :: xs)) = '[' :: (write d x ++ writeItems d xs) := by
        conv_lhs => unfold write
      rw [hwrite, List.length_cons] at hfuel
      obtain ⟨n, rfl⟩ : ∃ n, fuel = n + 1 := ⟨fuel - 1, by omega⟩
      have hitems := readItems_write ih n rest (by omega)
      have hopen := @head_skip_write d x (h x List.mem_cons_self) (writeItems d xs ++ rest) ']' (by decide)
      unfold readValue
      rw [hwrite, List.cons_append, skip_cons (by decide)]
      dsimp only
      rw [if_neg (by decide), if_pos rfl, List.append_assoc, if_neg hopen, ← List.append_assoc, hitems]
      rfl
  | @obj fields hkeys h ih =>
    intro fuel rest hfuel _
    cases fields with
    | nil =>
      obtain ⟨n, rfl⟩ : ∃ n, fuel = n + 1 := ⟨fuel - 1, by simp only [write, List.length] at hfuel; omega⟩
      simp [write, readValue, skip_cons, isBlank]
    | cons f fields =>
      have hwrite : write d (.obj (f :: fields)) =
          '\x7b' :: '"' :: (writeString d f.1 ++ ':' :: (write d f.2 ++ writeMembers d fields)) := by
        conv_lhs => unfold write
      rw [hwrite, List.length_cons, List.length_cons] at hfuel
      obtain ⟨n, rfl⟩ : ∃ n, fuel = n + 1 := ⟨fuel - 1, by omega⟩
      have hmembers := readMembers_write ih n rest (by omega)
      have hset : (f :: fields).foldl setMember [] = f :: fields := by
        rw [foldl_setMember (by rwa [List.nil_append]), List.nil_append]
      unfold readValue
      rw [hwrite, List.cons_append, skip_cons (by decide)]
      dsimp only
      rw [if_neg (by decide), if_neg (by decide), if_pos rfl, List.cons_append, skip_cons (by decide),
        if_neg (by simp), ← List.cons_append, hmembers]
      show some (Json.obj ((f :: fields).foldl setMember []), rest) = _
      rw [hset]

/-- **The round trip**: what is written is read back. -/
theorem parse_write {v : Json} (h : Proper v) : parse d (write d v) = some v := by
  have hstops : Stops [] := by
    rintro _ ⟨⟩
  have hread := @readValue_write d v h (2 * (write d v).length + 2) [] (by omega) hstops
  rw [List.append_nil] at hread
  unfold parse
  rw [hread]
  rfl

end JsonText

end Lib
