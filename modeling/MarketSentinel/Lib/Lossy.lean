import Mathlib.Data.List.Forall2
import MarketSentinel.Lib.Lines
import MarketSentinel.Lib.Utf8

/-!
# UTF-8 with replacement

The decoder that never fails: a byte that cannot go on is replaced by U+FFFD, and so is what was read of a
character that is cut off. Its states are those of the Encoding standard.

* `lossy_flatMap_append`: a well-formed part is read as it is.
* `lossy_front`, `lossy_continuation`: the two parts of a character that is cut.
* `mangled_chunks`: what comes out when a text is decoded in chunks.
* `aligned_iff`: when it is the text, up to its last newline.
-/

namespace Lib

namespace Utf8

def replacement : Char := '\ufffd'

/-- The inside of a character: how many bytes are missing, what was read, and the bounds of the next byte. -/
structure Pending where
  needed : ℕ
  codePoint : ℕ
  lower : ℕ
  upper : ℕ

/-- The first byte of a character. -/
def start (b : UInt8) : List Char × Option Pending :=
  let n := b.toNat
  if n < 0x80 then ([Char.ofNat n], none)
  else if 0xc2 ≤ n ∧ n ≤ 0xdf then ([], some ⟨1, n % 0x20, 0x80, 0xbf⟩)
  else if 0xe0 ≤ n ∧ n ≤ 0xef then
    ([], some ⟨2, n % 0x10, if n = 0xe0 then 0xa0 else 0x80, if n = 0xed then 0x9f else 0xbf⟩)
  else if 0xf0 ≤ n ∧ n ≤ 0xf4 then
    ([], some ⟨3, n % 0x08, if n = 0xf0 then 0x90 else 0x80, if n = 0xf4 then 0x8f else 0xbf⟩)
  else ([replacement], none)

/-- One more byte; one out of bounds is the first of another character. -/
def Pending.next (p : Pending) (b : UInt8) : List Char × Option Pending :=
  let n := b.toNat
  if p.lower ≤ n ∧ n ≤ p.upper then
    let codePoint := p.codePoint * 0x40 + n % 0x40
    if p.needed = 1 then ([Char.ofNat codePoint], none)
    else ([], some ⟨p.needed - 1, codePoint, 0x80, 0xbf⟩)
  else (replacement :: (start b).1, (start b).2)

def lossyFrom : Option Pending → List UInt8 → List Char
  | none, [] => []
  | some _, [] => [replacement]
  | none, b :: rest => (start b).1 ++ lossyFrom (start b).2 rest
  | some p, b :: rest => (p.next b).1 ++ lossyFrom (p.next b).2 rest

/-- `buffer.toString("utf8")`. -/
def lossy (raw : List UInt8) : List Char := lossyFrom none raw

example : lossy [0xc3, 0xa9] = ['é'] ∧ lossy [0xc3] = ['\ufffd'] ∧ lossy [0xa9] = ['\ufffd'] := by decide

/-! ## One character -/

/-- From a state the bytes are read as a character, with nothing before the last one. -/
inductive Reads (c : Char) : Option Pending → List UInt8 → Prop
  | last {b : UInt8} (h : start b = ([c], none)) : Reads c none [b]
  | first {b : UInt8} {p : Pending} {bs : List UInt8} (h : start b = ([], some p)) (hrest : Reads c (some p) bs) :
    Reads c none (b :: bs)
  | final {p : Pending} {b : UInt8} (h : p.next b = ([c], none)) : Reads c (some p) [b]
  | more {p p' : Pending} {b : UInt8} {bs : List UInt8} (h : p.next b = ([], some p'))
    (hrest : Reads c (some p') bs) : Reads c (some p) (b :: bs)

variable {c : Char} {state : Option Pending} {bs front : List UInt8}

theorem Reads.append (h : Reads c state bs) (rest : List UInt8) :
    lossyFrom state (bs ++ rest) = c :: lossyFrom none rest := by
  induction h with
  | last h => simp [lossyFrom, h]
  | first h _ ih => simp [lossyFrom, h, ih]
  | final h => simp [lossyFrom, h]
  | more h _ ih => simp [lossyFrom, h, ih]

/-- A character that is cut off is one replacement. -/
theorem Reads.cut (h : Reads c state bs) (hfront : front <+: bs) (hlt : front ≠ bs)
    (hne : state = none → front ≠ []) : lossyFrom state front = [replacement] := by
  induction h generalizing front with
  -- Whatever comes before the last byte leaves the character open, so it ends as one replacement.
  | last h =>
    cases front with
    | nil => exact absurd rfl (hne rfl)
    | cons b front =>
      obtain ⟨rest, hrest⟩ := hfront
      simp only [List.cons_append, List.cons.injEq, List.append_eq_nil_iff] at hrest
      obtain ⟨rfl, rfl, -⟩ := hrest
      exact absurd rfl hlt
  | first h _ ih =>
    cases front with
    | nil => exact absurd rfl (hne rfl)
    | cons b front =>
      obtain ⟨hb, hmore⟩ := List.cons_prefix_cons.1 hfront
      subst hb
      have hrest := ih hmore (fun heq => hlt (by rw [heq])) (by simp)
      simpa [lossyFrom, h] using hrest
  | final h =>
    cases front with
    | nil => rfl
    | cons b front =>
      obtain ⟨rest, hrest⟩ := hfront
      simp only [List.cons_append, List.cons.injEq, List.append_eq_nil_iff] at hrest
      obtain ⟨rfl, rfl, -⟩ := hrest
      exact absurd rfl hlt
  | more h _ ih =>
    cases front with
    | nil => rfl
    | cons b front =>
      obtain ⟨hb, hmore⟩ := List.cons_prefix_cons.1 hfront
      subst hb
      have hrest := ih hmore (fun heq => hlt (by rw [heq])) (by simp)
      simpa [lossyFrom, h] using hrest

/-- A byte of the encoding. -/
theorem toNat_ofNat_byte {n : ℕ} (h : n < 256) : (UInt8.ofNat n).toNat = n := by
  rw [UInt8.toNat_ofNat', Nat.mod_eq_of_lt h]

theorem start_ascii {n : ℕ} (h : n < 0x80) : start (UInt8.ofNat n) = ([Char.ofNat n], none) := by
  unfold start
  rw [toNat_ofNat_byte (by omega)]
  dsimp only
  rw [if_pos h]

theorem start_two {x : ℕ} (hlow : 2 ≤ x) (hhigh : x < 32) :
    start (UInt8.ofNat (x + 0xc0)) = ([], some ⟨1, x, 0x80, 0xbf⟩) := by
  unfold start
  rw [toNat_ofNat_byte (by omega)]
  dsimp only
  have hcode : (x + 0xc0) % 0x20 = x := by omega
  rw [if_neg (by omega), if_pos (by omega), hcode]

theorem start_three {x : ℕ} (h : x < 16) : start (UInt8.ofNat (x + 0xe0)) =
    ([], some ⟨2, x, if x = 0 then 0xa0 else 0x80, if x = 13 then 0x9f else 0xbf⟩) := by
  unfold start
  rw [toNat_ofNat_byte (by omega)]
  dsimp only
  have hcode : (x + 0xe0) % 0x10 = x := by omega
  have hlower : (x + 0xe0 = 0xe0) ↔ x = 0 := by omega
  have hupper : (x + 0xe0 = 0xed) ↔ x = 13 := by omega
  rw [if_neg (by omega), if_neg (by omega), if_pos (by omega), hcode]
  simp only [hlower, hupper]

theorem start_four {x : ℕ} (h : x < 5) : start (UInt8.ofNat (x + 0xf0)) =
    ([], some ⟨3, x, if x = 0 then 0x90 else 0x80, if x = 4 then 0x8f else 0xbf⟩) := by
  unfold start
  rw [toNat_ofNat_byte (by omega)]
  dsimp only
  have hcode : (x + 0xf0) % 0x08 = x := by omega
  have hlower : (x + 0xf0 = 0xf0) ↔ x = 0 := by omega
  have hupper : (x + 0xf0 = 0xf4) ↔ x = 4 := by omega
  rw [if_neg (by omega), if_neg (by omega), if_neg (by omega), if_pos (by omega), hcode]
  simp only [hlower, hupper]

/-- A byte inside a character. -/
theorem next_more {needed codePoint lower upper x : ℕ} (hneeded : needed ≠ 1) (hx : x < 64)
    (hlower : lower ≤ x + 0x80) (hupper : x + 0x80 ≤ upper) :
    Pending.next ⟨needed, codePoint, lower, upper⟩ (UInt8.ofNat (x + 0x80)) =
      ([], some ⟨needed - 1, codePoint * 0x40 + x, 0x80, 0xbf⟩) := by
  unfold Pending.next
  rw [toNat_ofNat_byte (by omega)]
  dsimp only
  have hcode : (x + 0x80) % 0x40 = x := by omega
  rw [if_pos ⟨hlower, hupper⟩, if_neg hneeded, hcode]

/-- The last byte of a character. -/
theorem next_final {codePoint x : ℕ} (hx : x < 64) :
    Pending.next ⟨1, codePoint, 0x80, 0xbf⟩ (UInt8.ofNat (x + 0x80)) =
      ([Char.ofNat (codePoint * 0x40 + x)], none) := by
  unfold Pending.next
  rw [toNat_ofNat_byte (by omega)]
  dsimp only
  have hcode : (x + 0x80) % 0x40 = x := by omega
  rw [if_pos (by omega), if_pos rfl, hcode]

/-- **The bytes of a character are read as the character.** -/
theorem reads_utf8EncodeChar (c : Char) : Reads c none (String.utf8EncodeChar c) := by
  have hvalid : c.toNat < 0xd800 ∨ 0xdfff < c.toNat ∧ c.toNat < 0x110000 := c.valid
  have hback : Char.ofNat c.toNat = c := Char.ofNat_toNat c
  have hval : c.val.toNat = c.toNat := rfl
  generalize hn : c.toNat = n at *
  unfold String.utf8EncodeChar
  dsimp only
  rw [hval]
  split
  · refine .last ?_
    rw [start_ascii (by omega), hback]
  split
  · refine .first (start_two (by omega) (by omega)) (.final ?_)
    have hcode : n / 64 % 32 * 64 + n % 64 = n := by omega
    rw [next_final (by omega), hcode, hback]
  split
  · refine .first (start_three (by omega)) (.more (next_more (by omega) (by omega) ?_ ?_) (.final ?_))
    · split <;> omega
    · split <;> omega
    · have hcode : (n / 4096 % 16 * 64 + n / 64 % 64) * 64 + n % 64 = n := by omega
      rw [next_final (by omega), hcode, hback]
  · refine .first (start_four (by omega)) (.more (next_more (by omega) (by omega) ?_ ?_)
      (.more (next_more (by omega) (by omega) (by omega) (by omega)) (.final ?_)))
    · split <;> omega
    · split <;> omega
    · have hcode : ((n / 262144 % 8 * 64 + n / 4096 % 64) * 64 + n / 64 % 64) * 64 + n % 64 = n := by omega
      rw [next_final (by omega), hcode, hback]

/-! ## Texts and cut characters -/

/-- **A well-formed part is read as it is.** -/
theorem lossy_flatMap_append (cs : List Char) (rest : List UInt8) :
    lossy (cs.flatMap String.utf8EncodeChar ++ rest) = cs ++ lossy rest := by
  induction cs with
  | nil => rfl
  | cons c cs ih =>
    rw [List.flatMap_cons, List.append_assoc, List.cons_append, ← ih]
    exact (reads_utf8EncodeChar c).append _

theorem lossy_front (hfront : front <+: String.utf8EncodeChar c) (hlt : front ≠ String.utf8EncodeChar c)
    (hne : front ≠ []) : lossy front = [replacement] :=
  (reads_utf8EncodeChar c).cut hfront hlt fun _ => hne

/-- A byte that is not the first of a character. -/
def Continuation (b : UInt8) : Prop := 0x80 ≤ b.toNat ∧ b.toNat < 0xc0

theorem lossy_continuation (h : ∀ b ∈ bs, Continuation b) (rest : List UInt8) :
    lossy (bs ++ rest) = List.replicate bs.length replacement ++ lossy rest := by
  induction bs with
  | nil => rfl
  | cons b bs ih =>
    obtain ⟨⟨hlow, hhigh⟩, hrest⟩ := List.forall_mem_cons.1 h
    have hstart : start b = ([replacement], none) := by
      unfold start
      dsimp only
      rw [if_neg (by omega), if_neg (by omega), if_neg (by omega), if_neg (by omega)]
    rw [List.cons_append, List.length_cons, List.replicate_succ, List.cons_append, ← ih hrest]
    unfold lossy
    rw [lossyFrom, hstart]
    rfl

/-- What follows the first byte of a character. -/
theorem continuation_tail (c : Char) : ∀ b ∈ (String.utf8EncodeChar c).tail, Continuation b := by
  have hbyte : ∀ x, x < 64 → Continuation (UInt8.ofNat (x + 0x80)) := by
    intro x hx
    unfold Continuation
    rw [toNat_ofNat_byte (by omega)]
    omega
  intro b hb
  unfold String.utf8EncodeChar at hb
  dsimp only at hb
  split at hb
  · cases hb
  split at hb
  · rw [List.tail_cons, List.mem_singleton] at hb
    exact hb ▸ hbyte _ (by omega)
  split at hb
  · simp only [List.tail_cons, List.mem_cons, List.not_mem_nil, or_false] at hb
    rcases hb with rfl | rfl <;> exact hbyte _ (by omega)
  · simp only [List.tail_cons, List.mem_cons, List.not_mem_nil, or_false] at hb
    rcases hb with rfl | rfl | rfl <;> exact hbyte _ (by omega)

/-- A part of an encoding ends between two characters or in one. -/
theorem front_of_flatMap : ∀ {cs : List Char}, bs <+: cs.flatMap String.utf8EncodeChar →
    (∃ cs₁ cs₂, cs = cs₁ ++ cs₂ ∧ bs = cs₁.flatMap String.utf8EncodeChar) ∨
      ∃ cs₁ c cs₂ front back, cs = cs₁ ++ c :: cs₂ ∧ bs = cs₁.flatMap String.utf8EncodeChar ++ front ∧
        front ++ back = String.utf8EncodeChar c ∧ front ≠ [] ∧ back ≠ [] := by
  intro cs
  induction cs generalizing bs with
  | nil => exact fun h => .inl ⟨[], [], rfl, List.prefix_nil.1 h⟩
  | cons c cs ih =>
    intro h
    rw [List.flatMap_cons] at h
    obtain ⟨rest, hrest⟩ := h
    rcases List.append_eq_append_iff.1 hrest with ⟨back, hback, hflat⟩ | ⟨more, rfl, hflat⟩
    · by_cases hnil : bs = []
      · exact .inl ⟨[], c :: cs, rfl, hnil⟩
      by_cases hwhole : back = []
      · rw [hwhole, List.append_nil] at hback
        exact .inl ⟨[c], cs, rfl, by simp [hback]⟩
      · exact .inr ⟨[], c, cs, bs, back, rfl, by simp, hback.symm, hnil, hwhole⟩
    · rcases ih ⟨rest, hflat.symm⟩ with ⟨cs₁, cs₂, rfl, rfl⟩ | ⟨cs₁, d, cs₂, front, back, rfl, rfl, hd⟩
      · exact .inl ⟨c :: cs₁, cs₂, rfl, by simp⟩
      · exact .inr ⟨c :: cs₁, d, cs₂, front, back, rfl, by simp, hd⟩

/-! ## Chunks -/

/-- A text of which some characters are replaced by two replacements or more. -/
inductive Mangled : List Char → List Char → Prop
  | nil : Mangled [] []
  | kept (c : Char) {cs ds : List Char} (h : Mangled cs ds) : Mangled (c :: cs) (c :: ds)
  | broken {c : Char} (hc : 0x80 ≤ c.toNat) (n : ℕ) {cs ds : List Char} (h : Mangled cs ds) :
    Mangled (c :: cs) (List.replicate (n + 2) replacement ++ ds)

variable {cs ds : List Char}

theorem Mangled.append_left (h : Mangled cs ds) (xs : List Char) : Mangled (xs ++ cs) (xs ++ ds) := by
  induction xs with
  | nil => exact h
  | cons c xs ih => exact .kept c ih

/-- Only characters above ASCII have a second byte. -/
theorem not_ascii_of_cut {back : List UInt8} (h : front ++ back = String.utf8EncodeChar c) (hfront : front ≠ [])
    (hback : back ≠ []) : 0x80 ≤ c.toNat := by
  by_contra hlt
  have hone : String.utf8EncodeChar c = [UInt8.ofNat c.toNat] := by
    unfold String.utf8EncodeChar
    dsimp only
    rw [if_pos (show c.val.toNat ≤ 0x7f from by
      have hval : c.val.toNat = c.toNat := rfl
      omega)]
    rfl
  have hlength := congrArg List.length h
  rw [hone, List.length_append, List.length_singleton] at hlength
  have hpos := List.length_pos_of_ne_nil hfront
  have hpos' := List.length_pos_of_ne_nil hback
  omega

/-- The rest of a character that was begun. -/
theorem continuation_back {back : List UInt8} (h : front ++ back = String.utf8EncodeChar c) (hfront : front ≠ []) :
    ∀ b ∈ back, Continuation b := by
  obtain ⟨b₀, front, rfl⟩ := List.exists_cons_of_ne_nil hfront
  intro b hb
  refine continuation_tail c b ?_
  rw [← h, List.cons_append, List.tail_cons]
  exact List.mem_append_right _ hb

/-- A part that ends in a character. -/
theorem lossy_cut {back : List UInt8} (h : front ++ back = String.utf8EncodeChar c) (hfront : front ≠ [])
    (hback : back ≠ []) (cs : List Char) :
    lossy (cs.flatMap String.utf8EncodeChar ++ front) = cs ++ [replacement] := by
  rw [lossy_flatMap_append, lossy_front ⟨back, h⟩ ?_ hfront]
  intro hwhole
  rw [← hwhole] at h
  exact hback (List.append_right_eq_self.1 h)

/-- **What comes out when a text is decoded in chunks**, from the rest of a character on. -/
theorem mangled_chunks : ∀ {chunks : List (List UInt8)} {bs : List UInt8} {cs : List Char},
    (∀ b ∈ bs, Continuation b) → chunks.flatten = bs ++ cs.flatMap String.utf8EncodeChar →
      ∃ ds, chunks.flatMap lossy = List.replicate bs.length replacement ++ ds ∧ Mangled cs ds := by
  intro chunks
  induction chunks with
  | nil =>
    intro bs cs _ hflat
    obtain ⟨rfl, hcs⟩ := List.append_eq_nil_iff.1 hflat.symm
    cases cs with
    | nil => exact ⟨[], rfl, .nil⟩
    | cons c cs =>
      rw [List.flatMap_cons, List.append_eq_nil_iff] at hcs
      exact absurd hcs.1 String.utf8EncodeChar_ne_nil
  | cons x post ih =>
    intro bs cs hbs hflat
    rw [List.flatten_cons] at hflat
    rw [List.flatMap_cons]
    rcases List.append_eq_append_iff.1 hflat with ⟨rest, rfl, hpost⟩ | ⟨z, rfl, hz⟩
    · -- The chunk ends before the character does.
      rw [List.forall_mem_append] at hbs
      obtain ⟨ds, hds, hmangled⟩ := ih hbs.2 hpost
      have hx := lossy_continuation hbs.1 []
      rw [List.append_nil] at hx
      refine ⟨ds, ?_, hmangled⟩
      rw [hx, hds, List.length_append, List.replicate_add, List.append_assoc, List.append_assoc]
      rfl
    · -- The chunk ends the character, and may end in the next one that is cut.
      rw [lossy_continuation hbs, List.append_assoc]
      rcases front_of_flatMap ⟨post.flatten, hz.symm⟩ with
        ⟨cs₁, cs₂, rfl, rfl⟩ | ⟨cs₁, c, cs₂, front, back, rfl, rfl, hc, hfront, hback⟩
      · -- The chunk ends with a character, so the next one starts with no rest.
        rw [List.flatMap_append, List.append_cancel_left_eq] at hz
        obtain ⟨ds, hds, hmangled⟩ := @ih [] cs₂ (by simp) hz.symm
        have hx := lossy_flatMap_append cs₁ []
        rw [List.append_nil] at hx
        refine ⟨cs₁ ++ ds, ?_, hmangled.append_left cs₁⟩
        rw [hx, hds]
        simp [lossy, lossyFrom]
      · rw [List.flatMap_append, List.flatMap_cons, ← hc, List.append_assoc, List.append_assoc,
          List.append_cancel_left_eq, List.append_cancel_left_eq] at hz
        obtain ⟨ds, hds, hmangled⟩ := ih (continuation_back hc hfront) hz.symm
        -- The cut gives one replacement for the front and one for each byte of the back.
        obtain ⟨n, hn⟩ : ∃ n, back.length = n + 1 := ⟨back.length - 1, by
          have hpos := List.length_pos_of_ne_nil hback
          omega⟩
        refine ⟨cs₁ ++ (List.replicate (n + 2) replacement ++ ds), ?_,
          (Mangled.broken (not_ascii_of_cut hc hfront hback) n hmangled).append_left cs₁⟩
        rw [lossy_cut hc hfront hback, hds, hn, List.replicate_succ, List.append_assoc]
        rfl

/-! ## Newlines -/

section Newlines

variable {nl : Char}

theorem Mangled.mem_iff (h : Mangled cs ds) (hnl : nl.toNat < 0x80) : nl ∈ ds ↔ nl ∈ cs := by
  have hne : nl ≠ replacement := by
    rintro rfl
    exact absurd hnl (by decide)
  induction h with
  | nil => rfl
  | kept c _ ih =>
    rw [List.mem_cons, List.mem_cons]
    exact or_congr_right ih
  | @broken c hc n cs ds _ ih =>
    have hc' : nl ≠ c := by
      rintro rfl
      omega
    rw [List.mem_append, List.mem_cons, or_iff_right hc', or_iff_right]
    · exact ih
    · exact fun hmem => hne (List.eq_of_mem_replicate hmem)

/-- The byte of an ASCII character is in an encoding just when the character is in the text. -/
theorem mem_flatMap_ascii (hnl : nl.toNat < 0x80) :
    UInt8.ofNat nl.toNat ∈ cs.flatMap String.utf8EncodeChar ↔ nl ∈ cs := by
  have hbyte : (UInt8.ofNat nl.toNat).toNat = nl.toNat := toNat_ofNat_byte (by omega)
  rw [List.mem_flatMap]
  constructor
  · rintro ⟨c, hc, hb⟩
    have hsame := mem_utf8EncodeChar hb (by omega)
    rw [hbyte] at hsame
    rwa [← Char.ofNat_toNat nl, ← hsame, Char.ofNat_toNat]
  · intro hc
    refine ⟨nl, hc, ?_⟩
    unfold String.utf8EncodeChar
    have hval : nl.val.toNat = nl.toNat := rfl
    dsimp only
    rw [hval, if_pos (by omega)]
    exact List.mem_singleton_self _

/-- Every chunk that a newline follows in a later chunk is well formed by itself. -/
def Aligned (nl : UInt8) : List (List UInt8) → Prop
  | [] => True
  | x :: post => (nl ∈ post.flatten → (decode x).isSome) ∧ Aligned nl post

theorem aligned_of_notMem {b : UInt8} : ∀ {chunks : List (List UInt8)}, b ∉ chunks.flatten → Aligned b chunks := by
  intro chunks
  induction chunks with
  | nil => exact fun _ => trivial
  | cons x post ih =>
    intro h
    rw [List.flatten_cons, List.mem_append, not_or] at h
    exact ⟨fun hmem => absurd hmem h.2, ih h.2⟩

/-- A part that ends in a character is not well formed. -/
theorem decode_cut {back : List UInt8} (h : front ++ back = String.utf8EncodeChar c) (hfront : front ≠ [])
    (hback : back ≠ []) (cs : List Char) : decode (cs.flatMap String.utf8EncodeChar ++ front) = none := by
  cases hdecode : decode (cs.flatMap String.utf8EncodeChar ++ front) with
  | none => rfl
  | some text =>
    exfalso
    have hencode : text.toList.flatMap String.utf8EncodeChar = cs.flatMap String.utf8EncodeChar ++ front :=
      encode_of_decode hdecode
    have htext := lossy_flatMap_append text.toList []
    rw [List.append_nil, hencode, lossy_cut h hfront hback] at htext
    have hlossy : lossy [] = [] := rfl
    rw [hlossy, List.append_nil] at htext
    rw [← htext, List.flatMap_append, List.append_cancel_left_eq, List.flatMap_singleton] at hencode
    -- The cut character would be the replacement, and whole.
    rw [← hencode] at h
    have hsame : String.utf8EncodeChar replacement ++ back = String.utf8EncodeChar c ++ [] := by
      rw [h, List.append_nil]
    obtain rfl := head_of_encode hsame
    exact hback (List.append_right_eq_self.1 h)

open Lines in
/-- Up to the last newline a mangled text is not shorter. -/
theorem Mangled.length_body (h : Mangled cs ds) (hnl : nl.toNat < 0x80) :
    (body nl cs).length ≤ (body nl ds).length := by
  induction h with
  | nil => exact le_rfl
  | @kept c cs ds h ih =>
    by_cases hmem : nl ∈ cs
    · have hcs := body_append_of_mem hmem [c]
      have hds := body_append_of_mem ((h.mem_iff hnl).2 hmem) [c]
      rw [List.singleton_append] at hcs hds
      rw [hcs, hds, List.length_append, List.length_append]
      omega
    · have hcs := body_append_of_notMem hmem [c]
      have hds := body_append_of_notMem (fun hd => hmem ((h.mem_iff hnl).1 hd)) [c]
      rw [List.singleton_append] at hcs hds
      rw [hcs, hds]
  | @broken c hc n cs ds h ih =>
    by_cases hmem : nl ∈ cs
    · have hcs := body_append_of_mem hmem [c]
      rw [List.singleton_append] at hcs
      rw [hcs, body_append_of_mem ((h.mem_iff hnl).2 hmem), List.length_append, List.length_append,
        List.length_replicate, List.length_singleton]
      omega
    · -- Without a newline there is nothing up to it.
      have hne : nl ∉ c :: cs := by
        rw [List.mem_cons, not_or]
        refine ⟨?_, hmem⟩
        rintro rfl
        omega
      rw [body_of_notMem hne]
      exact Nat.zero_le _

open Lines in
/-- After a part that is well formed the texts differ where their rests do. -/
theorem body_append_eq_iff (h : Mangled cs ds) (hnl : nl.toNat < 0x80) (xs : List Char) :
    body nl (xs ++ ds) = body nl (xs ++ cs) ↔ body nl ds = body nl cs := by
  by_cases hmem : nl ∈ cs
  · rw [body_append_of_mem hmem, body_append_of_mem ((h.mem_iff hnl).2 hmem), List.append_cancel_left_eq]
  · have hmem' : nl ∉ ds := fun hd => hmem ((h.mem_iff hnl).1 hd)
    rw [body_append_of_notMem hmem, body_append_of_notMem hmem', body_of_notMem hmem, body_of_notMem hmem']
    simp

open Lines in
/-- After a character that is mangled the texts differ, up to the last newline if there is one. -/
theorem body_broken_iff (h : Mangled cs ds) (hnl : nl.toNat < 0x80) (hc : 0x80 ≤ c.toNat) (n : ℕ)
    (xs : List Char) :
    body nl (xs ++ (List.replicate (n + 2) replacement ++ ds)) = body nl (xs ++ c :: cs) ↔ nl ∉ cs := by
  have hbroken := Mangled.broken hc n h
  rw [body_append_eq_iff hbroken hnl]
  have hne : nl ≠ c := by
    rintro rfl
    omega
  by_cases hmem : nl ∈ cs
  · refine iff_of_false (fun heq => ?_) (not_not_intro hmem)
    have hlength := congrArg List.length heq
    have hrest := h.length_body hnl
    have hcs := body_append_of_mem hmem [c]
    rw [List.singleton_append] at hcs
    rw [hcs, body_append_of_mem ((h.mem_iff hnl).2 hmem)] at hlength
    simp only [List.length_append, List.length_singleton, List.length_replicate] at hlength
    omega
  · have hwhole : nl ∉ c :: cs := by
      rw [List.mem_cons, not_or]
      exact ⟨hne, hmem⟩
    have hcut := fun hd => hwhole ((hbroken.mem_iff hnl).1 hd)
    rw [body_of_notMem hwhole, body_of_notMem hcut]
    exact iff_of_true rfl hmem

theorem isSome_decode_flatMap (cs : List Char) : (decode (cs.flatMap String.utf8EncodeChar)).isSome := by
  have htext := decode_encode (String.ofList cs)
  unfold encode at htext
  rw [String.toList_ofList] at htext
  rw [htext]
  rfl

/-- The encoding of a text as a chunk. -/
theorem lossy_flatMap (cs : List Char) : lossy (cs.flatMap String.utf8EncodeChar) = cs := by
  have h := lossy_flatMap_append cs []
  have hlossy : lossy [] = [] := rfl
  rwa [List.append_nil, hlossy, List.append_nil] at h

open Lines in
/-- **When chunks are decoded to the text, up to its last newline.** -/
theorem aligned_iff (hnl : nl.toNat < 0x80) : ∀ {chunks : List (List UInt8)} {cs : List Char},
    chunks.flatten = cs.flatMap String.utf8EncodeChar →
      (Aligned (UInt8.ofNat nl.toNat) chunks ↔ body nl (chunks.flatMap lossy) = body nl cs) := by
  intro chunks
  induction chunks with
  | nil =>
    intro cs hflat
    cases cs with
    | nil => exact iff_of_true trivial rfl
    | cons c cs =>
      rw [List.flatMap_cons, List.flatten_nil, eq_comm, List.append_eq_nil_iff] at hflat
      exact absurd hflat.1 String.utf8EncodeChar_ne_nil
  | cons x post ih =>
    intro cs hflat
    rw [List.flatten_cons] at hflat
    unfold Aligned
    rw [List.flatMap_cons]
    rcases front_of_flatMap ⟨post.flatten, hflat⟩ with
      ⟨cs₁, cs₂, rfl, rfl⟩ | ⟨cs₁, c, cs₂, front, back, rfl, rfl, hc, hfront, hback⟩
    · -- The chunk is well formed.
      rw [List.flatMap_append, List.append_cancel_left_eq] at hflat
      obtain ⟨ds, hds, hmangled⟩ := @mangled_chunks post [] cs₂ (by simp) hflat
      have hpost : post.flatMap lossy = ds := hds
      rw [and_iff_right fun _ => isSome_decode_flatMap cs₁, ih hflat, hpost, lossy_flatMap,
        body_append_eq_iff hmangled hnl]
    · -- The chunk ends in a character, which is mangled.
      rw [List.flatMap_append, List.flatMap_cons, ← hc, List.append_assoc, List.append_assoc,
        List.append_cancel_left_eq, List.append_cancel_left_eq] at hflat
      have hbytes := continuation_back hc hfront
      obtain ⟨ds, hds, hmangled⟩ := mangled_chunks hbytes hflat
      -- A byte of the newline is no rest of a character, so a later newline is one of the text.
      have hnewline : UInt8.ofNat nl.toNat ∈ post.flatten ↔ nl ∈ cs₂ := by
        rw [hflat, List.mem_append, or_iff_right, mem_flatMap_ascii hnl]
        intro hmem
        have hlow := (hbytes _ hmem).1
        rw [toNat_ofNat_byte (by omega)] at hlow
        omega
      obtain ⟨n, hn⟩ : ∃ n, back.length = n + 1 := ⟨back.length - 1, by
        have hpos := List.length_pos_of_ne_nil hback
        omega⟩
      have htext : cs₁ ++ [replacement] ++ (List.replicate back.length replacement ++ ds) =
          cs₁ ++ (List.replicate (n + 2) replacement ++ ds) := by
        rw [hn, List.append_assoc, ← List.append_assoc [replacement]]
        rfl
      rw [decode_cut hc hfront hback, lossy_cut hc hfront hback, hnewline, hds, htext,
        body_broken_iff hmangled hnl (not_ascii_of_cut hc hfront hback)]
      constructor
      · rintro ⟨hnone, -⟩ hmem
        exact absurd (hnone hmem) (by simp)
      · exact fun hmem => ⟨fun h => absurd h hmem, aligned_of_notMem fun h => hmem (hnewline.1 h)⟩

/-- Nothing is mangled, or the text is longer and holds a replacement. -/
theorem Mangled.eq_or (h : Mangled cs ds) : ds = cs ∨ cs.length < ds.length ∧ replacement ∈ ds := by
  induction h with
  | nil => exact .inl rfl
  | kept c h ih =>
    rcases ih with rfl | ⟨hlength, hmem⟩
    · exact .inl rfl
    · exact .inr ⟨by simpa using hlength, List.mem_cons_of_mem c hmem⟩
  | @broken c hc n cs ds h ih =>
    have hle : cs.length ≤ ds.length := by
      rcases ih with rfl | ⟨hlength, -⟩
      · exact le_rfl
      · exact hlength.le
    refine .inr ⟨?_, by simp⟩
    rw [List.length_append, List.length_replicate, List.length_cons]
    omega

theorem Mangled.eq_nil_iff (h : Mangled cs ds) : ds = [] ↔ cs = [] := by
  cases h <;> simp

/-- An ASCII character at the end was there before. -/
theorem Mangled.getLast? (h : Mangled cs ds) (hnl : nl.toNat < 0x80) (hlast : ds.getLast? = some nl) :
    cs.getLast? = some nl := by
  have hne : nl ≠ replacement := by
    rintro rfl
    exact absurd hnl (by decide)
  induction h with
  | nil => exact hlast
  | @kept c cs ds h ih =>
    by_cases hnil : ds = []
    · have hcs := h.eq_nil_iff.1 hnil
      subst hnil hcs
      exact hlast
    · rw [List.getLast?_cons_of_ne_nil hnil] at hlast
      rw [List.getLast?_cons_of_ne_nil fun hcs => hnil (h.eq_nil_iff.2 hcs)]
      exact ih hlast
  | @broken c hc n cs ds h ih =>
    by_cases hnil : ds = []
    · subst hnil
      rw [List.append_nil, List.getLast?_replicate, if_neg (by omega)] at hlast
      exact absurd (Option.some.inj hlast).symm hne
    · rw [List.getLast?_append_of_ne_nil _ hnil] at hlast
      rw [List.getLast?_cons_of_ne_nil fun hcs => hnil (h.eq_nil_iff.2 hcs)]
      exact ih hlast

/-- A first line that is longer. -/
theorem mangled_modifyHead {xs ys : List Char} {ls ms : List (List Char)} (hne : ls ≠ [])
    (h : List.Forall₂ Mangled ls ms) (hstep : ∀ {l m}, Mangled l m → Mangled (xs ++ l) (ys ++ m)) :
    List.Forall₂ Mangled (ls.modifyHead (xs ++ ·)) (ms.modifyHead (ys ++ ·)) := by
  cases h with
  | nil => exact absurd rfl hne
  | cons hone hrest => exact .cons (hstep hone) hrest

/-- **A text is mangled line by line.** -/
theorem Mangled.splitOn (h : Mangled cs ds) (hnl : nl.toNat < 0x80) :
    List.Forall₂ Mangled (cs.splitOn nl) (ds.splitOn nl) := by
  have hne : nl ≠ replacement := by
    rintro rfl
    exact absurd hnl (by decide)
  induction h with
  | nil => exact .cons .nil .nil
  | @kept c cs ds h ih =>
    by_cases hc : c = nl
    · subst hc
      rw [Lines.splitOn_cons_self, Lines.splitOn_cons_self]
      exact .cons .nil ih
    · have hone : nl ∉ [c] := by simpa using Ne.symm hc
      have hcs := Lines.splitOn_append_of_notMem hone cs
      have hds := Lines.splitOn_append_of_notMem hone ds
      rw [List.singleton_append] at hcs hds
      rw [hcs, hds]
      exact mangled_modifyHead (List.splitOnP_ne_nil _ cs) ih fun hlm => hlm.append_left [c]
  | @broken c hc n cs ds h ih =>
    have hone : nl ∉ [c] := by
      rw [List.mem_singleton]
      rintro rfl
      omega
    have hcs := Lines.splitOn_append_of_notMem hone cs
    rw [List.singleton_append] at hcs
    rw [hcs, Lines.splitOn_append_of_notMem fun hmem => hne (List.eq_of_mem_replicate hmem)]
    exact mangled_modifyHead (List.splitOnP_ne_nil _ cs) ih fun hlm => .broken hc n hlm

end Newlines

end Utf8

end Lib
