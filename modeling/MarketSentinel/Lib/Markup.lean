import MarketSentinel.Lib.Utf16

/-!
# The tags of a text

A tokenizer of HTML, as far as tags and their attributes go. It reads a text unit by unit from the data state and
tells of every tag that it completes; a tag that switches the tokenizer (`script`, `style`) is told like the others.

* `scan_append`: a text is read in parts.
* `scan_text`: a text without `<` is only text.
* `SameTags`: two texts that have the same tags and leave none open; `SameTags.append` and `SameTags.flatten` put
  them together.
-/

namespace Lib.Markup

open Utf16

/-- A tag, with its attributes in order. -/
structure Tag where
  closing : Bool
  name : Utf16
  attributes : List (Utf16 × Utf16) := []
  selfClosing : Bool := false
  deriving DecidableEq, Repr

def Tag.addAttribute (tag : Tag) (name value : Utf16) : Tag :=
  { tag with attributes := tag.attributes ++ [(name, value)] }

inductive State
  | data
  | tagOpen
  | endTagOpen
  | tagName (tag : Tag)
  | beforeAttribute (tag : Tag)
  | attributeName (tag : Tag) (name : Utf16)
  | afterName (tag : Tag) (name : Utf16)
  | beforeValue (tag : Tag) (name : Utf16)
  /-- A value in quotes, which end at this unit. -/
  | quoted (tag : Tag) (name value : Utf16) (quote : UInt16)
  | unquoted (tag : Tag) (name value : Utf16)
  | afterValue (tag : Tag)
  | selfClosing (tag : Tag)
  | bogusComment
  /-- After `<!`, with the dashes that follow. -/
  | declaration (dashes : ℕ)
  /-- In a comment, after some dashes. -/
  | comment (dashes : ℕ)
  deriving DecidableEq, Repr

def isLetter (u : UInt16) : Bool := (65 ≤ u && u ≤ 90) || (97 ≤ u && u ≤ 122)

def lower (u : UInt16) : UInt16 := if 65 ≤ u && u ≤ 90 then u + 32 else u

def isSpace (u : UInt16) : Bool := u = unit ' ' || u = unit '\t' || u = unit '\n' || u = unit '\x0c' || u = unit '\r'

/-- The unit that starts an attribute. -/
def attributeOrEnd (tag : Tag) (u : UInt16) : State × Option Tag :=
  if isSpace u then (.beforeAttribute tag, none)
  else if u = unit '/' then (.selfClosing tag, none)
  else if u = unit '>' then (.data, some tag)
  else (.attributeName tag [lower u], none)

/-- One unit: the next state, and the tag that it completes. -/
def step (s : State) (u : UInt16) : State × Option Tag :=
  match s with
  | .data => (if u = unit '<' then .tagOpen else .data, none)
  | .tagOpen =>
    if u = unit '!' then (.declaration 0, none)
    else if u = unit '/' then (.endTagOpen, none)
    else if isLetter u then (.tagName { closing := false, name := [lower u] }, none)
    else if u = unit '?' then (.bogusComment, none)
    else (if u = unit '<' then .tagOpen else .data, none)
  | .endTagOpen =>
    if isLetter u then (.tagName { closing := true, name := [lower u] }, none)
    else (if u = unit '>' then .data else .bogusComment, none)
  | .tagName tag =>
    if isSpace u || u = unit '/' || u = unit '>' then attributeOrEnd tag u
    else (.tagName { tag with name := tag.name ++ [lower u] }, none)
  | .beforeAttribute tag => attributeOrEnd tag u
  | .attributeName tag name =>
    if u = unit '=' then (.beforeValue tag name, none)
    else if isSpace u then (.afterName tag name, none)
    else if u = unit '/' || u = unit '>' then attributeOrEnd (tag.addAttribute name []) u
    else (.attributeName tag (name ++ [lower u]), none)
  | .afterName tag name =>
    if u = unit '=' then (.beforeValue tag name, none)
    else if isSpace u then (.afterName tag name, none)
    else attributeOrEnd (tag.addAttribute name []) u
  | .beforeValue tag name =>
    if isSpace u then (.beforeValue tag name, none)
    else if u = unit '"' || u = unit '\'' then (.quoted tag name [] u, none)
    else if u = unit '>' then (.data, some (tag.addAttribute name []))
    else (.unquoted tag name [u], none)
  | .quoted tag name value quote =>
    if u = quote then (.afterValue (tag.addAttribute name value), none)
    else (.quoted tag name (value ++ [u]) quote, none)
  | .unquoted tag name value =>
    if isSpace u || u = unit '>' then attributeOrEnd (tag.addAttribute name value) u
    else (.unquoted tag name (value ++ [u]), none)
  | .afterValue tag => attributeOrEnd tag u
  | .selfClosing tag =>
    if u = unit '>' then (.data, some { tag with selfClosing := true }) else attributeOrEnd tag u
  | .bogusComment => (if u = unit '>' then .data else .bogusComment, none)
  -- After `<!`: two dashes begin a comment, anything else ends at the next `>`.
  | .declaration dashes =>
    if u = unit '-' then (if dashes = 0 then .declaration 1 else .comment 2, none)
    else (if u = unit '>' then .data else .bogusComment, none)
  | .comment dashes =>
    if u = unit '-' then (.comment (dashes + 1), none)
    else if u = unit '>' && 2 ≤ dashes then (.data, none)
    else (.comment 0, none)

/-- A text is read from a state: the state after it, and its tags. -/
def scan : State → Utf16 → State × List Tag
  | s, [] => (s, [])
  | s, u :: text =>
    let next := step s u
    let rest := scan next.1 text
    (rest.1, next.2.toList ++ rest.2)

/-- The tags of a text, with their attributes. -/
def tags (text : Utf16) : List Tag := (scan .data text).2

example : tags (encode "<p class=\"a b\">x &lt; y</p>") =
    [{ closing := false, name := encode "p", attributes := [(encode "class", encode "a b")] },
      { closing := true, name := encode "p" }] := by decide +kernel

theorem scan_cons (s : State) (u : UInt16) (text : Utf16) :
    scan s (u :: text) =
      ((scan (step s u).1 text).1, (step s u).2.toList ++ (scan (step s u).1 text).2) := rfl

theorem scan_append (s : State) (text text' : Utf16) :
    scan s (text ++ text') = ((scan (scan s text).1 text').1, (scan s text).2 ++ (scan (scan s text).1 text').2) := by
  induction text generalizing s with
  | nil => rfl
  | cons u text ih =>
    rw [List.cons_append, scan_cons, scan_cons, ih]
    dsimp only
    rw [List.append_assoc]

/-- **A text without `<`** is only text. -/
theorem scan_text {text : Utf16} (h : unit '<' ∉ text) : scan .data text = (.data, []) := by
  induction text with
  | nil => rfl
  | cons u text ih =>
    have hstep : step .data u = (.data, none) := by
      unfold step
      dsimp only
      rw [if_neg (List.ne_of_not_mem_cons h).symm]
    rw [scan_cons, hstep, ih (List.not_mem_of_not_mem_cons h)]
    rfl

/-! ## Texts with the same tags -/

/-- Two texts have the same tags and leave none open. -/
def SameTags (a b : Utf16) : Prop := ∃ found, scan .data a = (.data, found) ∧ scan .data b = (.data, found)

namespace SameTags

variable {a b a' b' : Utf16}

theorem tags_eq (h : SameTags a b) : tags a = tags b := by
  obtain ⟨found, ha, hb⟩ := h
  unfold tags
  rw [ha, hb]

theorem of_text (ha : unit '<' ∉ a) (hb : unit '<' ∉ b) : SameTags a b := ⟨[], scan_text ha, scan_text hb⟩

theorem of_closed (h : (scan .data a).1 = .data) : SameTags a a := by
  have hscan : scan .data a = (.data, (scan .data a).2) := Prod.ext h rfl
  exact ⟨_, hscan, hscan⟩

/-- **The tags of two texts**, one after the other. -/
theorem append (h : SameTags a b) (h' : SameTags a' b') : SameTags (a ++ a') (b ++ b') := by
  obtain ⟨found, ha, hb⟩ := h
  obtain ⟨found', ha', hb'⟩ := h'
  refine ⟨found ++ found', ?_, ?_⟩
  · rw [scan_append, ha, ha']
  · rw [scan_append, hb, hb']

/-- A part, and then markup that does not vary. -/
theorem part (h : SameTags a b) (h' : SameTags a' b') {after : Utf16} (hafter : (scan .data after).1 = .data) :
    SameTags (a ++ a' ++ after) (b ++ b' ++ after) :=
  (h.append h').append (.of_closed hafter)

theorem flatten {as bs : List Utf16} (h : List.Forall₂ SameTags as bs) : SameTags as.flatten bs.flatten := by
  induction h with
  | nil => exact of_closed rfl
  | cons hfirst _ ih => exact hfirst.append ih

end SameTags

end Lib.Markup
