import MarketSentinel.Lib.Pattern
import MarketSentinel.Lib.Utf16

/-!
# Labels in the interface

`sanitizePlainUiLabel` of `host/display.ts`. The rewrites go over a label once each; together they are one pass,
`view`, which knows whether it is inside icon markup and whether it has just shown a space.

* `sanitize_eq`: the rewrites are that pass.
* `view_split`: a unit that is shown comes from a unit of the label outside of icon markup.
* `sanitize_sound_iff`: a label is sanitised unless removing icon markup brings a `$` to a `(`.
-/

namespace MarketSentinel.Extension

open Lib Utf16

/-! ## display -/

/-- `[\r\n\t]`. -/
def isBreak (u : UInt16) : Bool := u = unit '\r' || u = unit '\n' || u = unit '\t'

/-- `\s`, and what `trim` removes. -/
def isWhite (u : UInt16) : Bool :=
  (9 ≤ u && u ≤ 13) || u = 32 || u = 0xa0 || u = 0x1680 || (0x2000 ≤ u && u ≤ 0x200a) || u = 0x2028 || u = 0x2029 ||
    u = 0x202f || u = 0x205f || u = 0x3000 || u = 0xfeff

/-- `$(` starts here. -/
def opensIcon (u : UInt16) (rest : Utf16) : Bool := u = unit '$' && rest.head? = some (unit '(')

/-- `text.replace(/\$\([^)]*\)?/g, "")`, inside a match or not; a match ends with a parenthesis or the text. -/
def removeIcons : Bool → Utf16 → Utf16
  | _, [] => []
  | true, u :: rest => removeIcons (u ≠ unit ')') rest
  | false, u :: rest => if opensIcon u rest then removeIcons true rest else u :: removeIcons false rest

/-- `/\|/g` becomes a slash. -/
def withoutPipe (u : UInt16) : UInt16 := if u = unit '|' then unit '/' else u

def sanitizePlainUiLabel (raw : Utf16) (maxLength : ℕ) : Utf16 :=
  let text := replaceRuns isBreak (unit ' ') false raw
  let text := removeIcons false text
  let text := text.map withoutPipe
  let text := trim isWhite (replaceRuns isWhite (unit ' ') false text)
  if maxLength < text.length then (text.take maxLength).rdropWhile isWhite else text

example : sanitizePlainUiLabel (encode "$(error) a | b\tc") 40 = encode "a / b c" := by decide +kernel

/-! ## One pass -/

/-- What is shown of a label, inside icon markup or not, after a space or not. -/
def view : Bool → Bool → Utf16 → Utf16
  | _, _, [] => []
  | true, afterSpace, u :: rest => view (u ≠ unit ')') afterSpace rest
  | false, afterSpace, u :: rest =>
    if opensIcon u rest then view true afterSpace rest
    else if isWhite u then if afterSpace then view false true rest else unit ' ' :: view false true rest
    else withoutPipe u :: view false false rest

theorem isWhite_of_isBreak {u : UInt16} (h : isBreak u = true) : isWhite u = true := by
  unfold isBreak at h
  rw [Bool.or_eq_true, Bool.or_eq_true, decide_eq_true_eq, decide_eq_true_eq, decide_eq_true_eq] at h
  rcases h with (rfl | rfl) | rfl <;> decide

theorem isWhite_withoutPipe (u : UInt16) : isWhite (withoutPipe u) = isWhite u := by
  unfold withoutPipe
  split
  · next h =>
    rw [h]
    decide
  · rfl

theorem not_opensIcon_of_isWhite {u : UInt16} (h : isWhite u = true) (rest : Utf16) : opensIcon u rest = false := by
  have hne : u ≠ unit '$' := by
    rintro rfl
    exact absurd h (by decide)
  unfold opensIcon
  rw [decide_eq_false hne, Bool.false_and]

/-! What a view does at a unit outside of icon markup. -/

theorem view_opening {u : UInt16} {rest : Utf16} (h : opensIcon u rest = true) (afterSpace : Bool) :
    view false afterSpace (u :: rest) = view true afterSpace rest := by
  conv_lhs => unfold view
  rw [if_pos h]

theorem view_white {u : UInt16} (h : isWhite u = true) (afterSpace : Bool) (rest : Utf16) :
    view false afterSpace (u :: rest) =
      if afterSpace then view false true rest else unit ' ' :: view false true rest := by
  conv_lhs => unfold view
  rw [not_opensIcon_of_isWhite h, h]
  rfl

theorem view_shown {u : UInt16} {rest : Utf16} (hopens : opensIcon u rest = false) (hwhite : isWhite u = false)
    (afterSpace : Bool) : view false afterSpace (u :: rest) = withoutPipe u :: view false false rest := by
  conv_lhs => unfold view
  rw [hopens, hwhite]
  rfl

/-- The rewrites after the first. -/
theorem replaceRuns_removeIcons (inside afterSpace : Bool) (text : Utf16) :
    replaceRuns isWhite (unit ' ') afterSpace ((removeIcons inside text).map withoutPipe) =
      view inside afterSpace text := by
  induction text generalizing inside afterSpace with
  | nil => cases inside <;> rfl
  | cons u text ih =>
    cases inside with
    | true => exact ih _ _
    | false =>
      unfold removeIcons view
      cases hopens : opensIcon u text with
      | true => exact ih _ _
      | false =>
        simp only [Bool.false_eq_true, if_false, List.map_cons, replaceRuns, isWhite_withoutPipe, ih]

theorem opensIcon_replaceRuns (u : UInt16) (raw : Utf16) :
    opensIcon u (replaceRuns isBreak (unit ' ') false raw) = opensIcon u raw := by
  cases raw with
  | nil => rfl
  | cons v raw =>
    unfold opensIcon replaceRuns
    cases hv : isBreak v with
    | true =>
      have hne : v ≠ unit '(' := by
        rintro rfl
        exact absurd hv (by decide)
      have hspace : ¬unit ' ' = unit '(' := by decide
      simp [hne, hspace]
    | false => rfl

/-- **The first rewrite** makes no difference to the last one. -/
theorem view_replaceRuns {inside afterSpace inRun : Bool} (h : inRun = true → inside = true ∨ afterSpace = true)
    (raw : Utf16) : view inside afterSpace (replaceRuns isBreak (unit ' ') inRun raw) = view inside afterSpace raw := by
  induction raw generalizing inside afterSpace inRun with
  | nil => rfl
  | cons u raw ih =>
    have hwhite : isWhite (unit ' ') = true := by decide
    cases hu : isBreak u with
    | true =>
      have hclose : u ≠ unit ')' := by
        rintro rfl
        exact absurd hu (by decide)
      unfold replaceRuns
      rw [if_pos hu]
      cases inside with
      | true =>
        -- Neither the break nor its space closes the markup.
        have hskip : view true afterSpace (u :: raw) = view true afterSpace raw := by
          conv_lhs => unfold view
          rw [decide_eq_true hclose]
        rw [hskip]
        cases inRun with
        | true => exact ih fun _ => .inl rfl
        | false => exact ih fun _ => .inl rfl
      | false =>
        rw [view_white (isWhite_of_isBreak hu)]
        cases inRun with
        | true =>
          obtain rfl : afterSpace = true := (h rfl).resolve_left Bool.false_ne_true
          exact ih fun _ => .inr rfl
        | false =>
          rw [if_neg Bool.false_ne_true, view_white hwhite, ih fun _ => .inr rfl]
    | false =>
      have hkept : replaceRuns isBreak (unit ' ') inRun (u :: raw) =
          u :: replaceRuns isBreak (unit ' ') false raw := by
        conv_lhs => unfold replaceRuns
        rw [hu]
        rfl
      have ihf : ∀ inside afterSpace,
          view inside afterSpace (replaceRuns isBreak (unit ' ') false raw) = view inside afterSpace raw :=
        fun _ _ => ih fun hrun => absurd hrun Bool.false_ne_true
      rw [hkept]
      cases inside with
      | true => exact ihf _ _
      | false =>
        unfold view
        simp only [opensIcon_replaceRuns, ihf]

/-- **The rewrites are one pass**, which is trimmed at its end and cut. -/
theorem sanitize_eq (raw : Utf16) (maxLength : ℕ) :
    sanitizePlainUiLabel raw maxLength =
      let text := (view false true raw).rdropWhile isWhite
      if maxLength < text.length then (text.take maxLength).rdropWhile isWhite else text := by
  have htrim : trim isWhite (replaceRuns isWhite (unit ' ') false
      ((removeIcons false (replaceRuns isBreak (unit ' ') false raw)).map withoutPipe)) =
        (view false true raw).rdropWhile isWhite := by
    unfold trim
    rw [dropWhile_replaceRuns (by decide), replaceRuns_removeIcons,
      view_replaceRuns fun h => (Bool.false_ne_true h).elim]
  unfold sanitizePlainUiLabel
  dsimp only
  rw [htrim]

/-! ## What is shown -/

/-- Icon markup is open after this text. -/
def inIcon : Bool → Utf16 → Bool
  | inside, [] => inside
  | true, u :: rest => inIcon (u ≠ unit ')') rest
  | false, u :: rest => inIcon (opensIcon u rest) rest

/-- The number of units of a text that are shown: those outside of icon markup, with a run of white space as one
unit and none at the start. -/
def shown : Bool → Bool → Utf16 → ℕ
  | _, _, [] => 0
  | true, afterSpace, u :: rest => shown (u ≠ unit ')') afterSpace rest
  | false, afterSpace, u :: rest =>
    if opensIcon u rest then shown true afterSpace rest
    else if isWhite u then if afterSpace then shown false true rest else shown false true rest + 1
    else shown false false rest + 1

theorem length_view (inside afterSpace : Bool) (text : Utf16) :
    (view inside afterSpace text).length = shown inside afterSpace text := by
  induction text generalizing inside afterSpace with
  | nil => cases inside <;> rfl
  | cons u text ih =>
    cases inside with
    | true => exact ih _ _
    | false =>
      unfold view shown
      split
      · exact ih _ _
      · split
        · split
          · exact ih _ _
          · exact congrArg Nat.succ (ih _ _)
        · exact congrArg Nat.succ (ih _ _)

theorem opensIcon_append {u v : UInt16} (hv : v ≠ unit '(') (p rest : Utf16) :
    opensIcon u (p ++ v :: rest) = opensIcon u p := by
  cases p with
  | nil => simp [opensIcon, hv]
  | cons w p => rfl

/-- **A text up to a unit outside of icon markup** is viewed on its own. -/
theorem view_append {u : UInt16} {rest : Utf16} (hu : u ≠ unit '(') (hopens : opensIcon u rest = false)
    (hwhite : isWhite u = false) {p : Utf16} {inside : Bool} (hp : inIcon inside p = false) (afterSpace : Bool) :
    view inside afterSpace (p ++ u :: rest) =
      view inside afterSpace p ++ withoutPipe u :: view false false rest := by
  induction p generalizing inside afterSpace with
  | nil =>
    obtain rfl : inside = false := hp
    exact view_shown hopens hwhite afterSpace
  | cons v p ih =>
    cases inside with
    | true => exact ih hp _
    | false =>
      change inIcon (opensIcon v p) p = false at hp
      -- Whether `v` opens an icon depends on its next unit only, and `u` is no bracket.
      have hsame : opensIcon v (p ++ u :: rest) = opensIcon v p := opensIcon_append hu p rest
      rw [List.cons_append]
      cases hv : opensIcon v p with
      | true =>
        rw [hv] at hp hsame
        rw [view_opening hsame, view_opening hv, ih hp]
      | false =>
        rw [hv] at hp hsame
        cases hwhite' : isWhite v with
        | true =>
          rw [view_white hwhite', view_white hwhite', ih hp]
          cases afterSpace <;> rfl
        | false => rw [view_shown hsame hwhite', view_shown hv hwhite', ih hp, List.cons_append]

/-- **A unit that is shown** comes from a unit outside of icon markup. -/
theorem view_split {d : UInt16} (hd : isWhite d = false) {text : Utf16} {inside afterSpace : Bool} {pre post : Utf16}
    (h : view inside afterSpace text = pre ++ d :: post) :
    ∃ p u rest, text = p ++ u :: rest ∧ inIcon inside p = false ∧ view inside afterSpace p = pre ∧
      opensIcon u rest = false ∧ withoutPipe u = d ∧ view false false rest = post := by
  induction text generalizing inside afterSpace pre with
  | nil =>
    have hnil : view inside afterSpace [] = [] := by cases inside <;> rfl
    rw [hnil] at h
    simp at h
  | cons u text ih =>
    cases inside with
    | true =>
      obtain ⟨p, v, rest, rfl, hp, hview, hv⟩ := ih h
      exact ⟨u :: p, v, rest, rfl, hp, hview, hv⟩
    | false =>
      cases hopens : opensIcon u text with
      | true =>
        rw [view_opening hopens] at h
        obtain ⟨p, v, rest, rfl, hp, hview, hv⟩ := ih h
        -- Something of the markup is in the part before the unit, as it closes there.
        have hp' : opensIcon u p = true := by
          cases p with
          | nil => cases hp
          | cons w p => exact hopens
        refine ⟨u :: p, v, rest, rfl, ?_, ?_, hv⟩
        · unfold inIcon
          rwa [hp']
        · rwa [view_opening hp']
      | false =>
        -- As the unit opens no markup in front of the whole rest, it opens none in front of a part.
        have hstart : ∀ p v rest, text = p ++ v :: rest → opensIcon u p = false := by
          rintro p v rest rfl
          cases p with
          | nil => simp [opensIcon]
          | cons w p => exact hopens
        have hinside : ∀ p v rest, text = p ++ v :: rest → inIcon false p = false → inIcon false (u :: p) = false := by
          intro p v rest htext hp
          unfold inIcon
          rwa [hstart p v rest htext]
        cases hwhite : isWhite u with
        | true =>
          rw [view_white hwhite] at h
          cases afterSpace with
          | true =>
            obtain ⟨p, v, rest, htext, hp, hview, hv⟩ := ih h
            exact ⟨u :: p, v, rest, by rw [htext]; rfl, hinside p v rest htext hp, by rwa [view_white hwhite], hv⟩
          | false =>
            cases pre with
            | nil =>
              -- The unit is no space.
              obtain ⟨rfl, -⟩ := List.cons.inj h
              exact absurd hd (by decide)
            | cons w pre =>
              obtain ⟨rfl, hrest⟩ := List.cons.inj h
              obtain ⟨p, v, rest, htext, hp, hview, hv⟩ := ih hrest
              refine ⟨u :: p, v, rest, by rw [htext]; rfl, hinside p v rest htext hp, ?_, hv⟩
              rw [view_white hwhite, hview]
              rfl
        | false =>
          rw [view_shown hopens hwhite] at h
          cases pre with
          | nil =>
            obtain ⟨rfl, hrest⟩ := List.cons.inj h
            exact ⟨[], u, text, rfl, rfl, rfl, hopens, rfl, hrest⟩
          | cons w pre =>
            obtain ⟨rfl, hrest⟩ := List.cons.inj h
            obtain ⟨p, v, rest, htext, hp, hview, hv⟩ := ih hrest
            refine ⟨u :: p, v, rest, by rw [htext]; rfl, hinside p v rest htext hp, ?_, hv⟩
            rw [view_shown (hstart p v rest htext) hwhite, hview]

/-! ## Icon markup -/

/-- `$(`. -/
def iconOpener : Utf16 := [unit '$', unit '(']

/-- Icon markup that is closed. -/
def IsIcon (icon : Utf16) : Prop := ∃ name, unit ')' ∉ name ∧ icon = iconOpener ++ name ++ [unit ')']

theorem view_closing {name : Utf16} (h : unit ')' ∉ name) (afterSpace : Bool) (rest : Utf16) :
    view true afterSpace (name ++ unit ')' :: rest) = view false afterSpace rest := by
  induction name with
  | nil => rfl
  | cons u name ih =>
    have hu : decide (u ≠ unit ')') = true := decide_eq_true (List.ne_of_not_mem_cons h).symm
    change view (decide (u ≠ unit ')')) afterSpace (name ++ unit ')' :: rest) = _
    rw [hu]
    exact ih (List.not_mem_of_not_mem_cons h)

/-- **Icon markup is not shown.** -/
theorem view_icons {icons : List Utf16} (h : ∀ icon ∈ icons, IsIcon icon) (afterSpace : Bool) (rest : Utf16) :
    view false afterSpace (icons.flatten ++ rest) = view false afterSpace rest := by
  induction icons with
  | nil => rfl
  | cons icon icons ih =>
    obtain ⟨⟨name, hname, rfl⟩, hicons⟩ := List.forall_mem_cons.1 h
    have hinside : unit ')' ∉ unit '(' :: name := by
      rw [List.mem_cons]
      exact fun hmem => hmem.elim (by decide) hname
    rw [List.flatten_cons, List.append_assoc, List.append_assoc, List.append_assoc, List.singleton_append]
    change view false afterSpace (unit '$' :: (unit '(' :: (name ++ unit ')' :: (icons.flatten ++ rest)))) = _
    rw [view_opening rfl]
    exact (view_closing hinside _ _).trans (ih hicons)

/-- **A text of which nothing is shown** is icon markup. -/
theorem hidden_icons {text : Utf16} {inside : Bool} (h : view inside false text = [])
    (hend : inIcon inside text = false) :
    if inside then ∃ (name : Utf16) (icons : List Utf16), unit ')' ∉ name ∧ (∀ icon ∈ icons, IsIcon icon) ∧
      text = name ++ unit ')' :: icons.flatten
    else ∃ icons : List Utf16, (∀ icon ∈ icons, IsIcon icon) ∧ text = icons.flatten := by
  induction text generalizing inside with
  | nil =>
    obtain rfl : inside = false := hend
    exact ⟨[], fun _ hmem => absurd hmem List.not_mem_nil, rfl⟩
  | cons u text ih =>
    cases inside with
    | true =>
      by_cases hu : u = unit ')'
      · subst hu
        obtain ⟨icons, hicons, rfl⟩ := @ih false h hend
        exact ⟨[], icons, List.not_mem_nil, hicons, rfl⟩
      · change view (decide (u ≠ unit ')')) false text = [] at h
        change inIcon (decide (u ≠ unit ')')) text = false at hend
        rw [decide_eq_true hu] at h hend
        obtain ⟨name, icons, hname, hicons, rfl⟩ := ih h hend
        refine ⟨u :: name, icons, ?_, hicons, rfl⟩
        rw [List.mem_cons]
        exact fun hmem => hmem.elim (fun heq => hu heq.symm) hname
    | false =>
      cases hopens : opensIcon u text with
      | true =>
        rw [view_opening hopens] at h
        change inIcon (opensIcon u text) text = false at hend
        rw [hopens] at hend
        obtain ⟨name, icons, hname, hicons, rfl⟩ := ih h hend
        unfold opensIcon at hopens
        rw [Bool.and_eq_true, decide_eq_true_eq, decide_eq_true_eq] at hopens
        obtain ⟨rfl, hhead⟩ := hopens
        -- The unit after the `$` is the parenthesis, which is no part of the name.
        cases name with
        | nil => exact absurd (Option.some.inj hhead) (by decide)
        | cons v name =>
          obtain rfl : v = unit '(' := Option.some.inj hhead
          refine ⟨(iconOpener ++ name ++ [unit ')']) :: icons, ?_, ?_⟩
          · exact List.forall_mem_cons.2 ⟨⟨name, List.not_mem_of_not_mem_cons hname, rfl⟩, hicons⟩
          · simp [iconOpener]
      | false =>
        cases hwhite : isWhite u with
        | true =>
          rw [view_white hwhite] at h
          cases h
        | false =>
          rw [view_shown hopens hwhite] at h
          cases h

/-- **Removing icon markup brings a `$` to a `(`** among the first units that are shown: between them there is only
markup. -/
def Reopens (raw : Utf16) (maxLength : ℕ) : Prop :=
  ∃ (before : Utf16) (icons : List Utf16) (after : Utf16),
    raw = before ++ unit '$' :: (icons.flatten ++ unit '(' :: after) ∧ icons ≠ [] ∧
    (∀ icon ∈ icons, IsIcon icon) ∧ inIcon false before = false ∧ shown false true before + 2 ≤ maxLength

theorem eq_of_withoutPipe {u d : UInt16} (h : withoutPipe u = d) (hd : d ≠ unit '/') : u = d := by
  unfold withoutPipe at h
  split at h
  · exact absurd h.symm hd
  · exact h

theorem reopens_iff {raw : Utf16} {maxLength : ℕ} :
    Reopens raw maxLength ↔
      ∃ pre, pre ++ iconOpener <+: view false true raw ∧ pre.length + 2 ≤ maxLength := by
  constructor
  · rintro ⟨before, icons, after, rfl, hne, hicons, hbefore, hlength⟩
    refine ⟨view false true before, ?_, by rwa [length_view]⟩
    -- The `$` opens nothing, as the unit after it is another `$`.
    have hopens : opensIcon (unit '$') (icons.flatten ++ unit '(' :: after) = false := by
      cases icons with
      | nil => exact absurd rfl hne
      | cons icon icons =>
        obtain ⟨⟨name, -, rfl⟩, -⟩ := List.forall_mem_cons.1 hicons
        rfl
    have hparen : view false false (unit '(' :: after) = unit '(' :: view false false after :=
      view_shown rfl (by decide) false
    rw [view_append (by decide) hopens (by decide) hbefore, view_icons hicons, hparen]
    exact ⟨view false false after, by simp [iconOpener, withoutPipe]; decide⟩
  · rintro ⟨pre, ⟨post, hpost⟩, hlength⟩
    have hview : view false true raw = pre ++ unit '$' :: (unit '(' :: post) := by
      rw [← hpost]
      simp [iconOpener]
    obtain ⟨before, u, rest, rfl, hbefore, rfl, hopens, hu, hrest⟩ := view_split (by decide) hview
    obtain rfl := eq_of_withoutPipe hu (by decide)
    have hnext : view false false rest = [] ++ unit '(' :: post := hrest
    obtain ⟨hidden, v, after, rfl, hend, hnone, -, hv, -⟩ := view_split (by decide) hnext
    obtain rfl := eq_of_withoutPipe hv (by decide)
    obtain ⟨icons, hicons, rfl⟩ := hidden_icons hnone hend
    refine ⟨before, icons, after, rfl, ?_, hicons, hbefore, by rwa [length_view] at hlength⟩
    rintro rfl
    have hopens' : opensIcon (unit '$') ([].flatten ++ unit '(' :: after) = true := rfl
    rw [hopens'] at hopens
    cases hopens

/-! ## Plain labels -/

/-- No pipe, and single spaces only; none after a space. -/
def Plain : Bool → Utf16 → Prop
  | _, [] => True
  | afterSpace, u :: rest =>
    if isWhite u then u = unit ' ' ∧ afterSpace = false ∧ Plain true rest else u ≠ unit '|' ∧ Plain false rest

theorem plain_view (inside afterSpace : Bool) (text : Utf16) : Plain afterSpace (view inside afterSpace text) := by
  induction text generalizing inside afterSpace with
  | nil => cases inside <;> exact trivial
  | cons u text ih =>
    cases inside with
    | true => exact ih _ _
    | false =>
      -- What is shown outside of icon markup is a space for white units, and otherwise the unit without its pipe.
      cases hopens : opensIcon u text with
      | true =>
        rw [view_opening hopens]
        exact ih _ _
      | false =>
        cases hwhite : isWhite u with
        | true =>
          rw [view_white hwhite]
          cases afterSpace with
          | true => exact ih _ _
          | false => exact (if_pos (by decide)).mpr ⟨rfl, rfl, ih _ _⟩
        | false =>
          rw [view_shown hopens hwhite]
          have hpipe : withoutPipe u ≠ unit '|' := by
            unfold withoutPipe
            split
            · decide
            · assumption
          unfold Plain
          rw [isWhite_withoutPipe, hwhite]
          exact ⟨hpipe, ih _ _⟩

theorem Plain.start {afterSpace : Bool} {label text : Utf16} (h : Plain afterSpace text) (hstart : label <+: text) :
    Plain afterSpace label := by
  induction label generalizing afterSpace text with
  | nil => exact trivial
  | cons u label ih =>
    obtain ⟨rest, rfl⟩ := hstart
    unfold Plain at h ⊢
    rw [List.cons_append] at h
    dsimp only at h
    split
    · next hwhite =>
      rw [if_pos hwhite] at h
      exact ⟨h.1, h.2.1, ih h.2.2 (List.prefix_append _ _)⟩
    · next hwhite =>
      rw [if_neg hwhite] at h
      exact ⟨h.1, ih h.2 (List.prefix_append _ _)⟩

/-- The units of a plain label. -/
theorem Plain.units {afterSpace : Bool} {label : Utf16} (h : Plain afterSpace label) :
    ∀ u ∈ label, u ≠ unit '|' ∧ (isWhite u = true → u = unit ' ') := by
  induction label generalizing afterSpace with
  | nil => exact fun u hmem => absurd hmem List.not_mem_nil
  | cons v label ih =>
    unfold Plain at h
    rw [List.forall_mem_cons]
    split at h
    · next hwhite =>
      obtain ⟨rfl, -, hrest⟩ := h
      exact ⟨⟨by decide, fun _ => rfl⟩, ih hrest⟩
    · next hwhite => exact ⟨⟨h.1, fun htrue => absurd htrue hwhite⟩, ih h.2⟩

/-- **A plain label without `$(`** is shown as it is. -/
theorem Plain.view_eq {afterSpace : Bool} {label : Utf16} (h : Plain afterSpace label)
    (hicon : ¬iconOpener <:+: label) :
    view false afterSpace label = label := by
  induction label generalizing afterSpace with
  | nil => rfl
  | cons u label ih =>
    have hopens : opensIcon u label = false := by
      by_contra htrue
      rw [Bool.not_eq_false] at htrue
      unfold opensIcon at htrue
      rw [Bool.and_eq_true, decide_eq_true_eq, decide_eq_true_eq] at htrue
      obtain ⟨rfl, hhead⟩ := htrue
      obtain ⟨rest, rfl⟩ := List.head?_eq_some_iff.1 hhead
      exact hicon ⟨[], rest, rfl⟩
    have hrest : ¬iconOpener <:+: label := fun hpart => hicon (hpart.trans (List.suffix_cons u label).isInfix)
    unfold Plain at h
    split at h
    · next hwhite =>
      obtain ⟨rfl, rfl, hplain⟩ := h
      rw [view_white hwhite, if_neg Bool.false_ne_true, ih hplain hrest]
    · next hwhite =>
      have hself : withoutPipe u = u := if_neg h.1
      rw [view_shown hopens (Bool.not_eq_true _ ▸ hwhite), hself, ih h.2 hrest]

/-! ## Soundness -/

/-- What the interface relies on: no `$(`, no pipe, no white space but spaces, and no more than a length. -/
structure PlainLabel (maxLength : ℕ) (label : Utf16) : Prop where
  noIcon : ¬iconOpener <:+: label
  noPipe : unit '|' ∉ label
  noBreak : ∀ u ∈ label, isWhite u = true → u = unit ' '
  short : label.length ≤ maxLength

/-- **What a label is cut to**: the start of what is shown, without white space at its end. -/
theorem sanitize_cut (raw : Utf16) (maxLength : ℕ) :
    sanitizePlainUiLabel raw maxLength <+: view false true raw ∧
      (sanitizePlainUiLabel raw maxLength).rdropWhile isWhite = sanitizePlainUiLabel raw maxLength ∧
      (sanitizePlainUiLabel raw maxLength).length ≤ maxLength := by
  rw [sanitize_eq]
  dsimp only
  split
  · have hstart : ((view false true raw).rdropWhile isWhite).take maxLength <+: view false true raw :=
      (List.take_prefix _ _).trans (List.rdropWhile_prefix _ _)
    refine ⟨(List.rdropWhile_prefix _ _).trans hstart, List.rdropWhile_idempotent _ _, ?_⟩
    exact (List.rdropWhile_prefix _ _).length_le.trans (List.length_take_le _ _)
  · next hshort => exact ⟨List.rdropWhile_prefix _ _, List.rdropWhile_idempotent _ _, not_lt.1 hshort⟩

/-- **`$(` in a label** is one among the first units that are shown. -/
theorem opener_sanitize_iff {raw : Utf16} {maxLength : ℕ} :
    iconOpener <:+: sanitizePlainUiLabel raw maxLength ↔ Reopens raw maxLength := by
  rw [reopens_iff]
  have hparen : isWhite (unit '(') = false := by decide
  have hsplit : ∀ pre, pre ++ iconOpener = (pre ++ [unit '$']) ++ [unit '('] := fun pre => by simp [iconOpener]
  have hlength : ∀ pre : Utf16, (pre ++ iconOpener).length = pre.length + 2 := fun pre => by simp [iconOpener]
  refine exists_congr fun pre => ?_
  change pre ++ iconOpener <+: _ ↔ _
  rw [sanitize_eq]
  dsimp only
  split
  · rw [hsplit, prefix_rdropWhile hparen, List.prefix_take_iff, prefix_rdropWhile hparen, ← hsplit, hlength]
  · next hshort =>
    rw [hsplit, prefix_rdropWhile hparen, ← hsplit, iff_self_and]
    intro hstart
    rw [hsplit, ← prefix_rdropWhile hparen, ← hsplit] at hstart
    have hle := hstart.length_le
    rw [hlength] at hle
    exact hle.trans (not_lt.1 hshort)

/-- **A label is sanitised**, and sanitising it again changes nothing, unless removing icon markup brings a `$` to a
`(` among the units that are kept. -/
theorem sanitize_sound_iff (raw : Utf16) (maxLength : ℕ) :
    (PlainLabel maxLength (sanitizePlainUiLabel raw maxLength) ∧
      sanitizePlainUiLabel (sanitizePlainUiLabel raw maxLength) maxLength = sanitizePlainUiLabel raw maxLength) ↔
        ¬Reopens raw maxLength := by
  rw [← opener_sanitize_iff]
  constructor
  · exact fun h => h.1.noIcon
  · intro hicon
    obtain ⟨hstart, hend, hshort⟩ := sanitize_cut raw maxLength
    have hplain := (plain_view false true raw).start hstart
    refine ⟨⟨hicon, fun hmem => (hplain.units _ hmem).1 rfl, fun u hmem => (hplain.units u hmem).2, hshort⟩, ?_⟩
    rw [sanitize_eq]
    dsimp only
    rw [hplain.view_eq hicon, hend, if_neg (not_lt.2 hshort)]

/-- **One pass is not enough** for nested markup. -/
theorem sanitize_leaves_icon :
    sanitizePlainUiLabel (encode "$$(a)(b)") 16 = encode "$(b)" ∧
      ¬PlainLabel 16 (sanitizePlainUiLabel (encode "$$(a)(b)") 16) := by
  have hlabel : sanitizePlainUiLabel (encode "$$(a)(b)") 16 = encode "$(b)" := by decide +kernel
  refine ⟨hlabel, fun h => h.noIcon ?_⟩
  rw [hlabel]
  decide

end MarketSentinel.Extension
