import MarketSentinel.Capabilities.Api
import MarketSentinel.Lib.Pattern

/-!
# One pattern, two ways to match it

`is_valid_symbol` guards the capability reads and is documented as the rule of `normalize_snapshot`. Both read
`_SYMBOL_RE`; the first with `match` and the second with `fullmatch`. The `$` of the pattern also stands before a
newline that ends the text, so `match` takes one more kind of text.

* `isSymbol_eq_fullmatch`, `isValidSymbol_eq_match`: the two checks are the two entries to the pattern.
* `returns_normalizeSnapshot`: a row with valid other fields is accepted when its symbol is one.
* `symbol_rules_agree_iff`: the two rules agree on a text unless it is a symbol and a newline.
-/

namespace MarketSentinel

open Lib

/-! ## The pattern -/

def exchangeSuffix (suffix : String) : Pattern Char := Pattern.literal (suffix.toList.map fun c => (· == c))

/-- `_SYMBOL_RE` between its anchors. -/
def symbolRe : Pattern Char :=
  .seq (.many Char.isAlphanum) (.oneOf (exchangeSuffix ".SH") [exchangeSuffix ".SZ", exchangeSuffix ".HK"])

/-- `$` before the rest of a text. -/
def atDollar (rest : List Char) : Bool := rest == [] || rest == ['\n']

/-- `_SYMBOL_RE.match(symbol)`: a match that starts the text. -/
def symbolMatch (symbol : String) : Bool :=
  (symbolRe.matched [] symbol.toList).any fun m => atDollar (symbol.toList.drop m.length)

/-- `_SYMBOL_RE.fullmatch(symbol)`: a match that is the text. -/
def symbolFullmatch (symbol : String) : Bool := (symbolRe.matched [] symbol.toList).any (· == symbol.toList)

example : symbolMatch "600519.SH\n" = true ∧ symbolFullmatch "600519.SH\n" = false := by decide

theorem matches_exchangeSuffix {suffix : String} {pre mid post : List Char} :
    (exchangeSuffix suffix).Matches pre mid post ↔ mid = suffix.toList := by
  unfold exchangeSuffix Pattern.literal
  generalize suffix.toList = letters
  induction letters generalizing pre mid with
  | nil => exact Iff.rfl
  | cons letter letters ih =>
    simp only [List.map_cons, List.foldr_cons, Pattern.Matches, ih]
    constructor
    · rintro ⟨m, n, rfl, ⟨c, hc, rfl⟩, rfl⟩
      rw [beq_iff_eq.1 hc]
      rfl
    · rintro rfl
      exact ⟨[letter], letters, rfl, ⟨letter, beq_self_eq_true letter, rfl⟩, rfl⟩

/-- **The pattern matches symbols**, wherever they stand. -/
theorem matches_symbolRe {pre mid post : List Char} :
    symbolRe.Matches pre mid post ↔ isSymbol (String.ofList mid) = true := by
  unfold symbolRe isSymbol Pattern.oneOf
  simp only [Pattern.Matches, List.foldl_cons, List.foldl_nil, matches_exchangeSuffix, Bool.and_eq_true,
    decide_eq_true_eq, String.toList_ofList, or_assoc]
  have hdot : ∀ suffix ∈ [".SH".toList, ".SZ".toList, ".HK".toList], suffix.takeWhile Char.isAlphanum = [] := by
    decide
  constructor
  · rintro ⟨code, suffix, rfl, ⟨hne, hcode⟩, hsuffix⟩
    have hmem : suffix ∈ [".SH".toList, ".SZ".toList, ".HK".toList] := by simpa using hsuffix
    -- The dot of the suffix ends the code, so the match can be split in one way only.
    have htake : (code ++ suffix).takeWhile Char.isAlphanum = code := by
      rw [List.takeWhile_append_of_pos hcode, hdot suffix hmem, List.append_nil]
    have hdrop : (code ++ suffix).dropWhile Char.isAlphanum = suffix := by
      have hsplit := List.takeWhile_append_dropWhile (p := Char.isAlphanum) (l := code ++ suffix)
      rw [htake] at hsplit
      exact List.append_cancel_left hsplit
    rw [htake, hdrop]
    exact ⟨hne, hmem⟩
  · rintro ⟨hne, hmem⟩
    refine ⟨_, _, List.takeWhile_append_dropWhile.symm, ⟨hne, fun c hc => List.mem_takeWhile_imp hc⟩, ?_⟩
    simpa using hmem

theorem isSymbol_eq_fullmatch (symbol : String) : isSymbol symbol = symbolFullmatch symbol := by
  unfold symbolFullmatch
  rw [Bool.eq_iff_iff, List.any_eq_true]
  simp only [Pattern.mem_matched, matches_symbolRe, beq_iff_eq]
  constructor
  · intro h
    exact ⟨symbol.toList, ⟨[], (List.append_nil _).symm, by rwa [String.ofList_toList]⟩, rfl⟩
  · rintro ⟨m, ⟨post, -, h⟩, rfl⟩
    rwa [String.ofList_toList] at h

/-- A text is accepted by `is_valid_symbol` when it is a symbol, or one and a newline. -/
theorem isValidSymbol_iff {symbol : String} :
    isValidSymbol symbol = true ↔
      isSymbol symbol = true ∨ ∃ text, isSymbol text = true ∧ symbol = text ++ "\n" := by
  unfold isValidSymbol
  rw [Bool.or_eq_true, Bool.and_eq_true, decide_eq_true_eq]
  refine or_congr_right ⟨?_, ?_⟩
  · rintro ⟨hlast, htext⟩
    refine ⟨_, htext, ?_⟩
    apply String.toList_injective
    rw [String.toList_append, String.toList_ofList]
    exact (List.dropLast_append_getLast? _ hlast).symm
  · rintro ⟨text, htext, rfl⟩
    have hlist : (text ++ "\n").toList = text.toList ++ ['\n'] := String.toList_append
    rw [hlist, List.dropLast_concat, String.ofList_toList]
    exact ⟨List.getLast?_concat, htext⟩

theorem isValidSymbol_eq_match (symbol : String) : isValidSymbol symbol = symbolMatch symbol := by
  unfold symbolMatch
  rw [Bool.eq_iff_iff, List.any_eq_true, isValidSymbol_iff]
  simp only [Pattern.mem_matched, matches_symbolRe, atDollar, Bool.or_eq_true, beq_iff_eq]
  constructor
  · rintro (h | ⟨text, htext, rfl⟩)
    · exact ⟨symbol.toList, ⟨[], (List.append_nil _).symm, by rwa [String.ofList_toList]⟩, .inl (by simp)⟩
    · refine ⟨text.toList, ⟨['\n'], String.toList_append, by rwa [String.ofList_toList]⟩, .inr ?_⟩
      rw [String.toList_append, List.drop_left]
      rfl
  · rintro ⟨m, ⟨post, hlist, h⟩, hpost⟩
    rw [hlist, List.drop_left] at hpost
    -- The `$` stands at the end of the text, or before its last newline.
    obtain rfl | rfl := hpost
    · rw [List.append_nil] at hlist
      rw [← hlist, String.ofList_toList] at h
      exact .inl h
    · refine .inr ⟨_, h, ?_⟩
      apply String.toList_injective
      rw [hlist, String.toList_append, String.toList_ofList]
      rfl

/-! ## The rows -/

namespace RawValues

variable {V : Type} (py : RawValues V)

/-- The fields of a row other than its symbol are valid. -/
def OthersValid (raw : RawQuote V) : Prop :=
  (∀ field ∈ numericFields, py.Passes raw field.1 field.2) ∧
    ∀ value, raw.lookup "turnover" = some value → py.isNone value = false →
      py.Passes raw "turnover" fun x => decide (0 ≤ x)

variable {py} {raw : RawQuote V}

/-- A number that is valid is read. -/
theorem Passes.reads {field : String} {bound : ℚ → Bool} (h : py.Passes raw field bound) :
    ∃ value x, getField raw field = .ok value ∧ ∀ label, py.requireNumber bound value label = .ok x := by
  obtain ⟨value, hvalue, x, hfloat, hbound⟩ := h
  refine ⟨value, x, ?_, fun label => requireNumber_eq_ok.2 ⟨hfloat, hbound⟩⟩
  unfold getField
  rw [hvalue]

theorem OthersValid.returns_turnover (h : py.OthersValid raw) : Returns (py.optionalTurnover raw) := by
  unfold optionalTurnover
  cases hvalue : raw.lookup "turnover" with
  | none => exact returns_ok _
  | some value =>
    dsimp only
    cases hnone : py.isNone value with
    | true => exact returns_ok _
    | false =>
      obtain ⟨value', hvalue', x, hx⟩ := h.2 value hvalue hnone
      obtain rfl := Option.some.inj (hvalue.symm.trans hvalue')
      have hnumber : py.requireNonNegative value "turnover" = .ok x := requireNumber_eq_ok.2 hx
      rw [hnumber]
      exact returns_ok (some x)

/-- A row with a symbol and valid other fields has all its fields. -/
theorem OthersValid.complete {value : V} (hsymbol : raw.lookup "symbol" = some value) (h : py.OthersValid raw) :
    (requiredFields.filter fun field => (raw.lookup field).isNone) = [] := by
  have hfields : ∀ field ∈ requiredFields, field = "symbol" ∨ field ∈ numericFields.map (·.1) := by decide
  rw [List.filter_eq_nil_iff]
  intro field hmem
  obtain rfl | hnumeric := hfields field hmem
  · rw [hsymbol]
    exact Bool.false_ne_true
  · obtain ⟨entry, hentry, rfl⟩ := List.mem_map.1 hnumeric
    obtain ⟨value', hvalue', -⟩ := h.1 entry hentry
    rw [hvalue']
    exact Bool.false_ne_true

/-- **A row with valid other fields** is accepted when its symbol is one. -/
theorem returns_normalizeSnapshot {value : V} {symbol : String} (hsymbol : raw.lookup "symbol" = some value)
    (htext : py.str value = .ok symbol) (hothers : py.OthersValid raw) (wallTime : ℚ) :
    Returns (py.normalizeSnapshot raw wallTime) ↔ isSymbol symbol = true := by
  have hpasses : ∀ {field bound}, (field, bound) ∈ numericFields → py.Passes raw field bound :=
    fun hmem => hothers.1 _ hmem
  obtain ⟨rawPrice, price, hprice, hprice'⟩ := (hpasses (List.mem_of_getElem? (i := 0) rfl)).reads
  obtain ⟨rawOpen, openPrice, hopen, hopen'⟩ := (hpasses (List.mem_of_getElem? (i := 1) rfl)).reads
  obtain ⟨rawHigh, high, hhigh, hhigh'⟩ := (hpasses (List.mem_of_getElem? (i := 2) rfl)).reads
  obtain ⟨rawLow, low, hlow, hlow'⟩ := (hpasses (List.mem_of_getElem? (i := 3) rfl)).reads
  obtain ⟨rawClose, prevClose, hclose, hclose'⟩ := (hpasses (List.mem_of_getElem? (i := 4) rfl)).reads
  obtain ⟨rawVolume, volume, hvolume, hvolume'⟩ := (hpasses (List.mem_of_getElem? (i := 5) rfl)).reads
  obtain ⟨rawTime, time, htime, htime'⟩ := (hpasses (List.mem_of_getElem? (i := 6) rfl)).reads
  obtain ⟨turnover, hturnover⟩ := hothers.returns_turnover
  have hget : getField raw "symbol" = .ok value := by
    unfold getField
    rw [hsymbol]
  unfold normalizeSnapshot requirePositiveNumber requireFiniteNumber requireTimestamp requireNonNegative
    requireSymbol
  simp only [hothers.complete hsymbol, hget, htext, hprice, hprice', hopen, hopen', hhigh, hhigh', hlow, hlow',
    hclose, hclose', hvolume, hvolume', htime, htime', hturnover, ok_bind]
  cases isSymbol symbol with
  | true => exact iff_of_true (returns_ok _) rfl
  | false => exact iff_of_false (not_returns_error _) Bool.false_ne_true

end RawValues

/-! ## The two rules -/

/-- A symbol does not end in a newline. -/
theorem not_isSymbol_newline (text : String) : isSymbol (text ++ "\n") = false := by
  have hends : ∀ suffix ∈ [".SH".toList, ".SZ".toList, ".HK".toList],
      suffix.getLast? ≠ none ∧ suffix.getLast? ≠ some '\n' := by decide
  rw [Bool.eq_false_iff]
  intro h
  unfold isSymbol at h
  rw [Bool.and_eq_true, decide_eq_true_eq, decide_eq_true_eq] at h
  obtain ⟨hsome, hne⟩ := hends _ h.2
  have hlast : (text ++ "\n").toList.getLast? = some '\n' := by
    rw [String.toList_append]
    exact List.getLast?_concat
  rw [← List.takeWhile_append_dropWhile (p := Char.isAlphanum) (l := (text ++ "\n").toList),
    List.getLast?_append] at hlast
  cases hlast' : ((text ++ "\n").toList.dropWhile Char.isAlphanum).getLast? with
  | none => exact hsome hlast'
  | some c =>
    rw [hlast', Option.some_or] at hlast
    exact hne (hlast'.trans hlast)

/-- **The two rules** agree on a text unless it is a symbol and a newline. -/
theorem symbol_rules_agree_iff {V : Type} (py : RawValues V) {raw : RawQuote V} {value : V} {symbol : String}
    (hsymbol : raw.lookup "symbol" = some value) (htext : py.str value = .ok symbol) (hothers : py.OthersValid raw)
    (wallTime : ℚ) :
    (isValidSymbol symbol = true ↔ Returns (py.normalizeSnapshot raw wallTime)) ↔
      ¬∃ text, isSymbol text = true ∧ symbol = text ++ "\n" := by
  rw [RawValues.returns_normalizeSnapshot hsymbol htext hothers, isValidSymbol_iff]
  constructor
  · rintro h ⟨text, hmatch, rfl⟩
    have hwhole := h.1 (.inr ⟨text, hmatch, rfl⟩)
    rw [not_isSymbol_newline] at hwhole
    cases hwhole
  · intro h
    exact or_iff_left h

/-- A row of one price. -/
def flatRow (symbol : String) : RawQuote Json :=
  [("symbol", .str symbol), ("price", .int 100), ("open", .int 100), ("high", .int 100), ("low", .int 100),
    ("prev_close", .int 100), ("volume", .int 0), ("market_timestamp", .int 36000)]

theorem flatRow_othersValid (symbol : String) : (jsonValues noTexts).OthersValid (flatRow symbol) := by
  have hfloat : ∀ n ∈ [0, 100, 36000], (jsonValues noTexts).float (.int n) = .ok (.finite n) := by decide +kernel
  constructor
  · simp only [numericFields, List.forall_mem_cons, List.not_mem_nil, false_imp_iff, implies_true, and_true]
    refine ⟨⟨_, rfl, _, hfloat 100 (by decide), ?_⟩, ⟨_, rfl, _, hfloat 100 (by decide), ?_⟩,
      ⟨_, rfl, _, hfloat 100 (by decide), ?_⟩, ⟨_, rfl, _, hfloat 100 (by decide), ?_⟩,
      ⟨_, rfl, _, hfloat 100 (by decide), ?_⟩, ⟨_, rfl, _, hfloat 0 (by decide), ?_⟩,
      ⟨_, rfl, _, hfloat 36000 (by decide), ?_⟩⟩ <;> decide +kernel
  · intro value hvalue
    cases hvalue

theorem symbol_rules_agree_plain :
    isValidSymbol "600519.SH" = true ↔
      Returns ((jsonValues noTexts).normalizeSnapshot (flatRow "600519.SH") 0) := by
  refine (symbol_rules_agree_iff (jsonValues noTexts) rfl rfl (flatRow_othersValid "600519.SH") 0).2 ?_
  rintro ⟨text, -, htext⟩
  have hnone := not_isSymbol_newline text
  rw [← htext] at hnone
  exact absurd hnone (by decide)

/-- **A symbol and a newline** is a valid symbol, and its row is refused. -/
theorem newline_valid_refused :
    (jsonValues noTexts).OthersValid (flatRow "600519.SH\n") ∧ isValidSymbol "600519.SH\n" = true ∧
      (jsonValues noTexts).normalizeSnapshot (flatRow "600519.SH\n") 0 =
        .error (.snapshotValidation "invalid symbol: 600519.SH\n") :=
  ⟨flatRow_othersValid _, by decide, by decide +kernel⟩

end MarketSentinel
