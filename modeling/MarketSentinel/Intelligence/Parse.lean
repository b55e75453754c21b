import MarketSentinel.Intelligence.Coordinator
import MarketSentinel.Lib.Pattern
import MarketSentinel.Lib.Returns
import MarketSentinel.Telemetry.Host

/-!
# The output of the model

`intelligence/parse.py`. The text comes from a model, so every field is read as any JSON value; `json.loads` itself
is left open and returns a value or raises its decode error. Regular expressions are searched as patterns.

* `advice_strip`: text without trading advice has none after `strip` either.
* `parse_closed_iff`: the parser fails closed unless the confidence is an integer that `float` refuses.
-/

namespace MarketSentinel

open Lib

/-! ## The source -/

/-- `_REQUIRED`. -/
def requiredOutput : List String := ["worth_highlight", "reason", "confidence", "summary"]

/-- `[A-Za-z]` under `IGNORECASE`: the ASCII letters and the four others that fold to one. -/
def isLetter (c : Char) : Bool := c.isAlpha || decide (c ∈ ['İ', 'ı', 'ſ', '\u212a'])

/-- The lower case letter that a character is matched as under `IGNORECASE`. -/
def foldCase (c : Char) : Char :=
  if c = 'İ' ∨ c = 'ı' then 'i' else if c = 'ſ' then 's' else if c = '\u212a' then 'k' else c.toLower

/-- A word of lower case letters under `IGNORECASE`. -/
def word (letters : String) : Pattern Char :=
  .literal (letters.toList.map fun letter c => decide (foldCase c = letter))

/-- A text as it is. -/
def exactly (text : String) : Pattern Char := .literal (text.toList.map fun c c' => decide (c' = c))

/-- `(?<![A-Za-z])…(?![A-Za-z])`. -/
def bounded (r : Pattern Char) : Pattern Char := .seq (.notBehind isLetter) (.seq r (.notAhead isLetter))

/-- Two parts with `\s+` between them. -/
def spaced (a b : Pattern Char) : Pattern Char := .seq a (.seq (.many isSpace) b)

/-- `_EN_ADVICE`. -/
def enAdvice : Pattern Char :=
  .oneOf (bounded (.oneOf (word "buy") [word "sell", word "bought", word "sold", word "hold"]))
    [bounded (.oneOf (word "entry") [word "exit"]),
      bounded (spaced (word "stop") (.seq (word "loss") (.oneOf (word "es") [.empty]))),
      bounded (spaced (word "take") (word "profit")),
      bounded (spaced (word "target") (word "price")),
      bounded (spaced (word "position") (.seq (word "siz") (.oneOf (word "e") [word "ing"]))),
      bounded (spaced (word "go") (word "long")),
      bounded (spaced (word "go") (word "short")),
      bounded (spaced (word "long") (word "position")),
      bounded (spaced (word "short") (word "position"))]

/-- `_ZH_ADVICE`. -/
def zhAdvice : Pattern Char :=
  .oneOf (exactly "买入")
    (["卖出", "持有", "增持", "减持", "加仓", "减仓", "建仓", "仓位", "做多", "做空", "看多", "看空", "抄底", "追涨",
      "逢低", "止损", "止盈", "目标价", "布局"].map exactly)

/-- `contains_trading_advice`. -/
def containsTradingAdvice (text : String) : Bool := enAdvice.search text.toList || zhAdvice.search text.toList

/-- What `parse_model_output` raises: an `IntelligenceMalformedError`, or an exception that escapes. -/
inductive ParseError
  | malformed (message : String)
  | other (error : PyError)
  deriving DecidableEq, Repr

/-- The class of the exception for `_reason_for`. -/
def ParseError.callError : ParseError → CallError
  | malformed _ => .malformed
  | other _ => .other

/-- `isinstance(value, str)` and `value.strip()`, or the error. -/
def requiredText (data : Message) (key : String) : Except ParseError String :=
  match nonBlankText (Json.field data key) with
  | some value => .ok value
  | none => .error (.malformed (key ++ " must be a non-empty string"))

/-- `0.0 <= x <= 1.0`. -/
def inUnitInterval : PyFloat → Except ParseError ℚ
  | .finite q => if 0 ≤ q ∧ q ≤ 1 then .ok q else .error (.malformed "confidence out of range")
  | _ => .error (.malformed "confidence out of range")

/-- The checks of the confidence. -/
def confidenceOf : Json → Except ParseError ℚ
  | .int n =>
    match Json.intToFloat n with
    | none => .error (.other .overflowError)
    | some x => inUnitInterval x
  | .float x => inUnitInterval x
  | _ => .error (.malformed "confidence must be a number")

/-- The fields of an object, checked in the order of the source. -/
def completionOf (data : Message) : Except ParseError ModelCompletion :=
  if requiredOutput.any fun key => (data.lookup key).isNone then .error (.malformed "model output missing fields")
  else
    match Json.field data "worth_highlight" with
    | .bool worth => do
      let reason ← requiredText data "reason"
      let summary ← requiredText data "summary"
      let confidence ← confidenceOf (Json.field data "confidence")
      if containsTradingAdvice reason || containsTradingAdvice summary then
        throw (.malformed "trading advice is not allowed")
      return { worthHighlight := worth, reason := strip reason, confidence := confidence, summary := strip summary }
    | _ => .error (.malformed "worth_highlight must be bool")

/-- `parse_model_output`. -/
def parseModelOutput (loads : String → Option Json) (text : String) : Except ParseError ModelCompletion :=
  match loads text with
  | none => .error (.malformed "model output is not JSON")
  | some (.obj data) => completionOf data
  | some _ => .error (.malformed "model output is not an object")

/-! ## Trading advice -/

theorem not_isLetter_of_isSpace {c : Char} (h : isSpace c = true) : isLetter c = false := by
  rw [← Bool.not_eq_true]
  intro hletter
  unfold isLetter at hletter
  rw [Bool.or_eq_true, decide_eq_true_eq] at hletter
  rcases hletter with halpha | hother
  · -- The ASCII letters lie between the spaces.
    have hrange : (65 ≤ c.toNat ∧ c.toNat ≤ 90) ∨ (97 ≤ c.toNat ∧ c.toNat ≤ 122) := by
      unfold Char.isAlpha Char.isUpper Char.isLower at halpha
      simp only [Bool.or_eq_true, Bool.and_eq_true, decide_eq_true_eq, ge_iff_le, UInt32.le_iff_toNat_le] at halpha
      exact halpha
    unfold isSpace at h
    simp only [decide_eq_true_eq] at h
    omega
  · simp only [List.mem_cons, List.not_mem_nil, or_false] at hother
    rcases hother with rfl | rfl | rfl | rfl <;> exact absurd h (by decide)

theorem ignores_word (letters : String) : (word letters).Ignores (isSpace · = true) := Pattern.ignores_literal _

theorem ignores_exactly (text : String) : (exactly text).Ignores (isSpace · = true) := Pattern.ignores_literal _

/-- Spaces are no letters, so they end a word as the end of the text does. -/
theorem ignores_bounded {r : Pattern Char} (hr : r.Ignores (isSpace · = true)) :
    (bounded r).Ignores (isSpace · = true) :=
  ⟨fun _ => not_isLetter_of_isSpace, hr, fun _ => not_isLetter_of_isSpace⟩

theorem ignores_spaced {a b : Pattern Char} (ha : a.Ignores (isSpace · = true)) (hb : b.Ignores (isSpace · = true)) :
    (spaced a b).Ignores (isSpace · = true) := ⟨ha, trivial, hb⟩

theorem ignores_words (letters : String) (more : List String) :
    (Pattern.oneOf (word letters) (more.map word)).Ignores (isSpace · = true) := by
  refine Pattern.ignores_oneOf (ignores_word _) fun r hr => ?_
  obtain ⟨letters, -, rfl⟩ := List.mem_map.1 hr
  exact ignores_word letters

theorem ignores_enAdvice : enAdvice.Ignores (isSpace · = true) := by
  have hwords := fun letters more => ignores_bounded (ignores_words letters more)
  have hpair : ∀ first last, (bounded (spaced (word first) (word last))).Ignores (isSpace · = true) :=
    fun first last => ignores_bounded (ignores_spaced (ignores_word first) (ignores_word last))
  have hlosses : (bounded (spaced (word "stop") (.seq (word "loss") (.oneOf (word "es") [.empty])))).Ignores
      (isSpace · = true) :=
    ignores_bounded (ignores_spaced (ignores_word _) ⟨ignores_word _, ignores_word _, trivial⟩)
  have hsizes : (bounded (spaced (word "position") (.seq (word "siz") (.oneOf (word "e") [word "ing"])))).Ignores
      (isSpace · = true) :=
    ignores_bounded (ignores_spaced (ignores_word _) ⟨ignores_word _, ignores_words "e" ["ing"]⟩)
  refine Pattern.ignores_oneOf (hwords "buy" ["sell", "bought", "sold", "hold"]) ?_
  simp only [List.forall_mem_cons]
  exact ⟨hwords "entry" ["exit"], hlosses, hpair _ _, hpair _ _, hsizes, hpair _ _, hpair _ _, hpair _ _, hpair _ _,
    fun _ h => absurd h List.not_mem_nil⟩

theorem ignores_zhAdvice : zhAdvice.Ignores (isSpace · = true) := by
  refine Pattern.ignores_oneOf (ignores_exactly _) fun r hr => ?_
  obtain ⟨text, -, rfl⟩ := List.mem_map.1 hr
  exact ignores_exactly text

theorem strip_toList (s : String) : (strip s).toList = trim isSpace s.toList := by
  unfold strip
  rw [String.toList_ofList]
  rfl

/-- **Text without trading advice has none after `strip` either.** -/
theorem advice_strip {s : String} (h : containsTradingAdvice s = false) :
    containsTradingAdvice (strip s) = false := by
  obtain ⟨l, l', heq, hl, hl'⟩ := trim_eq isSpace s.toList
  unfold containsTradingAdvice at h ⊢
  rw [Bool.or_eq_false_iff] at h ⊢
  rw [strip_toList]
  constructor
  · rw [← Bool.not_eq_true]
    intro hfound
    have hwhole := Pattern.search_frame hl hl' ignores_enAdvice hfound
    rw [← heq, h.1] at hwhole
    cases hwhole
  · rw [← Bool.not_eq_true]
    intro hfound
    have hwhole := Pattern.search_frame hl hl' ignores_zhAdvice hfound
    rw [← heq, h.2] at hwhole
    cases hwhole

theorem strip_strip (s : String) : strip (strip s) = strip s := by
  rw [String.ext_iff, strip_toList, strip_toList, trim_trim]

/-- A text that is not blank is not empty after `strip`. -/
theorem strip_ne_empty {s : String} (h : isBlank s = false) : strip s ≠ "" := by
  intro hempty
  obtain ⟨l, l', heq, hl, hl'⟩ := trim_eq isSpace s.toList
  rw [← strip_toList, hempty, String.toList_empty, List.append_nil] at heq
  have hblank : isBlank s = true := by
    unfold isBlank
    rw [heq, List.all_append, List.all_eq_true.2 hl, List.all_eq_true.2 hl']
    rfl
  rw [h] at hblank
  cases hblank

/-! ## The parser -/

/-- Text that `strip` leaves as it is, without trading advice. -/
structure CleanText (text : String) : Prop where
  nonempty : text ≠ ""
  trimmed : strip text = text
  observation : containsTradingAdvice text = false

theorem cleanText_strip {s : String} (h : isBlank s = false) (hadvice : containsTradingAdvice s = false) :
    CleanText (strip s) := ⟨strip_ne_empty h, strip_strip s, advice_strip hadvice⟩

/-- A clean completion, or an `IntelligenceMalformedError`, that the coordinator takes for nothing else. -/
structure FailsClosed (r : Except ParseError ModelCompletion) : Prop where
  reason : ∀ completion, r = .ok completion → CleanText completion.reason
  summary : ∀ completion, r = .ok completion → CleanText completion.summary
  confidence : ∀ completion, r = .ok completion → 0 ≤ completion.confidence ∧ completion.confidence ≤ 1
  malformed : ∀ error, r = .error error → ∃ message, error = .malformed message
  classified : ∀ error, r = .error error → reasonFor error.callError = .malformed

theorem failsClosed_malformed (message : String) : FailsClosed (.error (.malformed message)) := by
  refine ⟨fun _ h => (by cases h), fun _ h => (by cases h), fun _ h => (by cases h), fun error h => ?_,
    fun error h => ?_⟩
  · cases h
    exact ⟨message, rfl⟩
  · cases h
    rfl

theorem not_failsClosed_other (error : PyError) : ¬ FailsClosed (.error (.other error)) := by
  intro h
  obtain ⟨message, hmessage⟩ := h.malformed _ rfl
  cases hmessage

theorem nonBlankText_not_blank {value : Json} {s : String} (h : nonBlankText value = some s) : isBlank s = false := by
  unfold nonBlankText at h
  simpa using (Option.filter_eq_some_iff.1 h).2

/-- **Confidences.** One in range is read, and only an integer beyond the floats escapes. -/
theorem confidenceOf_cases (value : Json) :
    (∃ q, confidenceOf value = .ok q ∧ 0 ≤ q ∧ q ≤ 1) ∨ (∃ message, confidenceOf value = .error (.malformed message)) ∨
      (confidenceOf value = .error (.other .overflowError) ∧ Oversized value) := by
  have hinterval : ∀ x, (∃ q, inUnitInterval x = .ok q ∧ 0 ≤ q ∧ q ≤ 1) ∨
      ∃ message, inUnitInterval x = .error (.malformed message) := by
    intro x
    cases x with
    | finite q =>
      unfold inUnitInterval
      by_cases hq : 0 ≤ q ∧ q ≤ 1
      · exact .inl ⟨q, if_pos hq, hq⟩
      · exact .inr ⟨_, if_neg hq⟩
    | posInf => exact .inr ⟨_, rfl⟩
    | negInf => exact .inr ⟨_, rfl⟩
    | nan => exact .inr ⟨_, rfl⟩
  unfold confidenceOf
  cases value with
  | int n =>
    dsimp only
    cases hn : Json.intToFloat n with
    | none => exact .inr (.inr ⟨rfl, Json.intToFloat_eq_none.1 hn⟩)
    | some x => exact (hinterval x).imp_right .inl
  | float x => exact (hinterval x).imp_right .inl
  | null => exact .inr (.inl ⟨_, rfl⟩)
  | bool b => exact .inr (.inl ⟨_, rfl⟩)
  | str s => exact .inr (.inl ⟨_, rfl⟩)
  | list xs => exact .inr (.inl ⟨_, rfl⟩)
  | obj fields => exact .inr (.inl ⟨_, rfl⟩)

/-- An integer beyond the floats is refused. -/
theorem confidenceOf_oversized {value : Json} (h : Oversized value) :
    confidenceOf value = .error (.other .overflowError) := by
  cases value with
  | int n =>
    unfold confidenceOf
    dsimp only
    rw [Json.intToFloat_eq_none.2 h]
  | null => cases h
  | bool b => cases h
  | float x => cases h
  | str s => cases h
  | list xs => cases h
  | obj fields => cases h

/-- An object that passes the checks before its confidence, which is an integer beyond the floats. -/
structure OversizedConfidence (data : Message) : Prop where
  complete : ∀ key ∈ requiredOutput, (data.lookup key).isSome
  worth : ∃ worth, Json.field data "worth_highlight" = .bool worth
  reason : (nonBlankText (Json.field data "reason")).isSome
  summary : (nonBlankText (Json.field data "summary")).isSome
  confidence : Oversized (Json.field data "confidence")

theorem completionOf_closed_iff (data : Message) : FailsClosed (completionOf data) ↔ ¬ OversizedConfidence data := by
  unfold completionOf
  split
  · next hmissing =>
    obtain ⟨key, hkey, hnone⟩ := List.any_eq_true.1 hmissing
    refine iff_of_true (failsClosed_malformed _) fun h => ?_
    have hsome := h.complete key hkey
    rw [Option.isNone_iff_eq_none.1 hnone] at hsome
    cases hsome
  · next hcomplete =>
    have hcomplete : ∀ key ∈ requiredOutput, (data.lookup key).isSome := by
      intro key hkey
      by_contra hnone
      have hmissing := Option.isNone_iff_eq_none.2 (Option.not_isSome_iff_eq_none.1 hnone)
      exact hcomplete (List.any_eq_true.2 ⟨key, hkey, hmissing⟩)
    split
    · next worth hworth =>
      unfold requiredText
      cases hreason : nonBlankText (Json.field data "reason") with
      | none => exact iff_of_true (failsClosed_malformed _) fun h => by simpa [hreason] using h.reason
      | some reason =>
        cases hsummary : nonBlankText (Json.field data "summary") with
        | none => exact iff_of_true (failsClosed_malformed _) fun h => by simpa [hsummary] using h.summary
        | some summary =>
          rw [ok_bind, ok_bind]
          -- Only `float` of an oversized integer raises past the parser.
          rcases confidenceOf_cases (Json.field data "confidence") with ⟨q, hq, hrange⟩ | ⟨message, hq⟩ | ⟨hq, hover⟩
          · have hfits : ¬ OversizedConfidence data := by
              intro h
              rw [confidenceOf_oversized h.confidence] at hq
              cases hq
            rw [hq, ok_bind]
            refine iff_of_true ?_ hfits
            split
            · exact failsClosed_malformed _
            · next hadvice =>
              rw [Bool.not_eq_true, Bool.or_eq_false_iff] at hadvice
              refine ⟨fun completion h => ?_, fun completion h => ?_, fun completion h => ?_, fun _ h => (by cases h),
                fun _ h => (by cases h)⟩
              · cases h
                exact cleanText_strip (nonBlankText_not_blank hreason) hadvice.1
              · cases h
                exact cleanText_strip (nonBlankText_not_blank hsummary) hadvice.2
              · cases h
                exact hrange
          · have hfits : ¬ OversizedConfidence data := by
              intro h
              rw [confidenceOf_oversized h.confidence] at hq
              cases hq
            rw [hq]
            exact iff_of_true (failsClosed_malformed _) hfits
          · rw [hq]
            refine iff_of_false (not_failsClosed_other _) (not_not.2 ⟨hcomplete, ⟨worth, hworth⟩, ?_, ?_, hover⟩)
            · rw [hreason]
              rfl
            · rw [hsummary]
              rfl
    · next hworth =>
      refine iff_of_true (failsClosed_malformed _) fun h => ?_
      obtain ⟨worth, hbool⟩ := h.worth
      exact hworth worth hbool

/-- **The parser fails closed** unless the confidence is an integer that `float` refuses. -/
theorem parse_closed_iff (loads : String → Option Json) (text : String) : FailsClosed (parseModelOutput loads text) ↔
    ¬ ∃ data, loads text = some (.obj data) ∧ OversizedConfidence data := by
  unfold parseModelOutput
  cases hloads : loads text with
  | none =>
    refine iff_of_true (failsClosed_malformed _) ?_
    rintro ⟨data, hdata, -⟩
    cases hdata
  | some value =>
    cases value with
    | obj data =>
      dsimp only
      rw [completionOf_closed_iff, not_iff_not]
      constructor
      · exact fun h => ⟨data, rfl, h⟩
      · rintro ⟨data', hdata, h⟩
        cases hdata
        exact h
    | null => exact iff_of_true (failsClosed_malformed _) (by rintro ⟨data, hdata, -⟩; cases hdata)
    | bool b => exact iff_of_true (failsClosed_malformed _) (by rintro ⟨data, hdata, -⟩; cases hdata)
    | int n => exact iff_of_true (failsClosed_malformed _) (by rintro ⟨data, hdata, -⟩; cases hdata)
    | float x => exact iff_of_true (failsClosed_malformed _) (by rintro ⟨data, hdata, -⟩; cases hdata)
    | str s => exact iff_of_true (failsClosed_malformed _) (by rintro ⟨data, hdata, -⟩; cases hdata)
    | list xs => exact iff_of_true (failsClosed_malformed _) (by rintro ⟨data, hdata, -⟩; cases hdata)

/-- An output whose confidence has 400 digits. -/
def longOutput : String :=
  "\x7b\"worth_highlight\": true, \"reason\": \"r\", \"summary\": \"s\", \"confidence\": 1" ++
    String.ofList (List.replicate 399 '0') ++ "\x7d"

/-- Its fields. -/
def longOutputFields : Message :=
  [("worth_highlight", .bool true), ("reason", .str "r"), ("summary", .str "s"), ("confidence", .int (10 ^ 399))]

/-- `json.loads` on this text. -/
def longLoads (text : String) : Option Json := if text = longOutput then some (.obj longOutputFields) else none

/-- **A confidence of 400 digits escapes** as an `OverflowError`, a transport failure to the coordinator. -/
theorem overflow_escapes : ∃ loads : String → Option Json, loads longOutput = some (.obj longOutputFields) ∧
    parseModelOutput loads longOutput = .error (.other .overflowError) ∧
      reasonFor (ParseError.other .overflowError).callError = .transport ∧
        ¬ FailsClosed (parseModelOutput loads longOutput) := by
  have hcompletion : completionOf longOutputFields = .error (.other .overflowError) := by decide +kernel
  have hloads : longLoads longOutput = some (.obj longOutputFields) := if_pos rfl
  have hparse : parseModelOutput longLoads longOutput = .error (.other .overflowError) := by
    unfold parseModelOutput
    rw [hloads]
    exact hcompletion
  refine ⟨longLoads, hloads, hparse, rfl, ?_⟩
  rw [hparse]
  exact not_failsClosed_other _

end MarketSentinel
