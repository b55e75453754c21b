import MarketSentinel.Domain.Model
import MarketSentinel.Lib.Convert

/-!
# Raw quotes

`market_data/normalizer.py`: a raw mapping becomes a quote, or an exception. `normalize_many` drops the rows
that raise a `SnapshotValidationError`, and no others.

* `normalizeSnapshot_bounds`: what is known of a quote that was accepted.
* `escapes_normalizeSnapshot`: when a row raises something else.
* `normalizeMany_isolates`, `normalizeMany_json_isolates`: when `normalize_many` isolates its bad rows.
-/

namespace MarketSentinel

open Lib

/-! ## Raw values -/

/-- What is read from a raw value: `str(value)`, `float(value)` and `value is None`. -/
structure RawValues (V : Type) where
  str : V → Except PyError String
  float : V → Except FloatError PyFloat
  isNone : V → Bool

/-- A mapping from field names. -/
abbrev RawQuote (V : Type) := List (String × V)

inductive NormalizeError
  /-- `SnapshotValidationError`, with its message. -/
  | snapshotValidation (message : String)
  /-- Any other exception. -/
  | other (error : PyError)
  deriving DecidableEq, Repr

/-- `_REQUIRED_FIELDS`. -/
def requiredFields : List String :=
  ["symbol", "price", "open", "high", "low", "prev_close", "volume", "market_timestamp"]

/-- The numbers of a row in the order in which they are converted, with what is checked of them. -/
def numericFields : List (String × (ℚ → Bool)) :=
  [("price", fun x => decide (0 < x)), ("open", fun _ => true), ("high", fun _ => true),
    ("low", fun _ => true), ("prev_close", fun _ => true), ("volume", fun x => decide (0 ≤ x)),
    ("market_timestamp", fun x => decide (0 ≤ x))]

/-- `_SYMBOL_RE.fullmatch`. -/
def isSymbol (symbol : String) : Bool :=
  decide (symbol.toList.takeWhile Char.isAlphanum ≠ []) &&
    decide (symbol.toList.dropWhile Char.isAlphanum ∈ [".SH".toList, ".SZ".toList, ".HK".toList])

example : isSymbol "600519.SH" = true ∧ isSymbol "TENCENT" = false ∧ isSymbol "600519.SH\n" = false := by
  decide

/-- `raw[field]`. -/
def getField {V : Type} (raw : RawQuote V) (field : String) : Except NormalizeError V :=
  match raw.lookup field with
  | none => .error (.other .keyError)
  | some value => .ok value

/-- A computation of the normalizer raises something that `normalize_many` does not catch. -/
def Escapes {A : Type} (m : Except NormalizeError A) : Prop := ∃ err, m = .error (.other err)

@[simp] theorem not_escapes_ok {A : Type} (a : A) : ¬Escapes (.ok a) := by
  rintro ⟨err, h⟩
  cases h

@[simp] theorem escapes_error {A : Type} {error : NormalizeError} :
    Escapes (.error error : Except NormalizeError A) ↔ ∃ err, error = .other err := by
  simp [Escapes]

namespace RawValues

variable {V : Type} (py : RawValues V)

/-- A finite number that meets a bound. -/
def requireNumber (bound : ℚ → Bool) (value : V) (field : String) : Except NormalizeError ℚ :=
  match py.float value with
  | .error (.other err) => .error (.other err)
  | .ok (.finite number) =>
    if bound number then .ok number else .error (.snapshotValidation ("invalid " ++ field))
  | _ => .error (.snapshotValidation ("invalid " ++ field))

/-- `_require_finite_number`. -/
def requireFiniteNumber : V → String → Except NormalizeError ℚ := py.requireNumber fun _ => true

/-- `_require_positive_number`. -/
def requirePositiveNumber : V → String → Except NormalizeError ℚ := py.requireNumber fun x => decide (0 < x)

/-- A finite number, and `if number < 0: raise`. -/
def requireNonNegative : V → String → Except NormalizeError ℚ := py.requireNumber fun x => decide (0 ≤ x)

/-- `_require_timestamp`. -/
def requireTimestamp (value : V) : Except NormalizeError ℚ := py.requireNonNegative value "timestamp"

/-- The symbol, by its text. -/
def requireSymbol (value : V) : Except NormalizeError String :=
  match py.str value with
  | .error err => .error (.other err)
  | .ok symbol =>
    if isSymbol symbol then .ok symbol else .error (.snapshotValidation ("invalid symbol: " ++ symbol))

/-- The turnover, which may be missing. -/
def optionalTurnover (raw : RawQuote V) : Except NormalizeError (Option ℚ) :=
  match raw.lookup "turnover" with
  | none => .ok none
  | some value =>
    if py.isNone value then .ok none else (py.requireNonNegative value "turnover").map some

/-- `normalize_snapshot`, at a time of the wall clock. -/
def normalizeSnapshot (raw : RawQuote V) (wallTime : ℚ) : Except NormalizeError MarketSnapshot :=
  match requiredFields.filter fun field => (raw.lookup field).isNone with
  | field :: _ => .error (.snapshotValidation ("missing field: " ++ field))
  | [] => do
    let symbol ← py.requireSymbol (← getField raw "symbol")
    let price ← py.requirePositiveNumber (← getField raw "price") "price"
    let openPrice ← py.requireFiniteNumber (← getField raw "open") "open"
    let high ← py.requireFiniteNumber (← getField raw "high") "high"
    let low ← py.requireFiniteNumber (← getField raw "low") "low"
    let prevClose ← py.requireFiniteNumber (← getField raw "prev_close") "prev_close"
    let volume ← py.requireNonNegative (← getField raw "volume") "volume"
    let marketTimestamp ← py.requireTimestamp (← getField raw "market_timestamp")
    let turnover ← py.optionalTurnover raw
    return {
      symbol := symbol
      price := price
      openPrice := openPrice
      high := high
      low := low
      prevClose := prevClose
      volume := volume
      turnover := turnover
      marketTimestamp := marketTimestamp
      receivedTimestamp := wallTime }

/-- One row of `normalize_many`, with the wall time at which it is reached. -/
def normalizeNext (snapshots : List MarketSnapshot) (row : RawQuote V × ℚ) :
    Except NormalizeError (List MarketSnapshot) :=
  match py.normalizeSnapshot row.1 row.2 with
  | .ok snapshot => .ok (snapshots ++ [snapshot])
  | .error (.snapshotValidation _) => .ok snapshots
  | .error (.other err) => .error (.other err)

/-- `normalize_many`. -/
def normalizeMany (rows : List (RawQuote V × ℚ)) : Except NormalizeError (List MarketSnapshot) :=
  rows.foldlM py.normalizeNext []

/-! ## What is accepted -/

variable {py} {value : V} {raw : RawQuote V} {bound : ℚ → Bool} {label : String}

theorem requireNumber_eq_ok {x : ℚ} :
    py.requireNumber bound value label = .ok x ↔ py.float value = .ok (.finite x) ∧ bound x = true := by
  unfold requireNumber
  split
  · rename_i hfloat
    simp [hfloat]
  · rename_i number hfloat
    rw [hfloat]
    split
    · rename_i hbound
      simp only [Except.ok.injEq, PyFloat.finite.injEq]
      constructor
      · rintro rfl
        exact ⟨rfl, hbound⟩
      · exact fun h => h.1
    · rename_i hbound
      simp only [Except.ok.injEq, PyFloat.finite.injEq]
      constructor
      · intro h
        cases h
      · rintro ⟨rfl, h⟩
        exact absurd h hbound
  · rename_i hne hfinite
    constructor
    · intro h
      cases h
    · exact fun h => absurd h.1 (hfinite x)

/-- A number is refused with an exception that is not caught when `float` raises one. -/
theorem escapes_requireNumber :
    Escapes (py.requireNumber bound value label) ↔ ∃ err, py.float value = .error (.other err) := by
  unfold requireNumber Escapes
  split
  · rename_i err hfloat
    simp [hfloat]
  · rename_i number hfloat
    rw [hfloat]
    split <;> simp
  · rename_i hother hfinite
    simp only [Except.error.injEq, reduceCtorEq, exists_false, false_iff, not_exists]
    exact fun err => hother err

/-- **What is known of a quote that was accepted.** -/
theorem normalizeSnapshot_bounds {wallTime : ℚ} {q : MarketSnapshot}
    (h : py.normalizeSnapshot raw wallTime = .ok q) :
    isSymbol q.symbol = true ∧ 0 < q.price ∧ 0 ≤ q.volume ∧ (∀ turnover ∈ q.turnover, 0 ≤ turnover) ∧
      0 ≤ q.marketTimestamp := by
  unfold normalizeSnapshot at h
  split at h
  · cases h
  -- The fields are read in the order of the source.
  obtain ⟨rawSymbol, -, h⟩ := bind_eq_ok.1 h
  obtain ⟨symbol, hsymbol, h⟩ := bind_eq_ok.1 h
  obtain ⟨rawPrice, -, h⟩ := bind_eq_ok.1 h
  obtain ⟨price, hprice, h⟩ := bind_eq_ok.1 h
  obtain ⟨rawOpen, -, h⟩ := bind_eq_ok.1 h
  obtain ⟨openPrice, -, h⟩ := bind_eq_ok.1 h
  obtain ⟨rawHigh, -, h⟩ := bind_eq_ok.1 h
  obtain ⟨high, -, h⟩ := bind_eq_ok.1 h
  obtain ⟨rawLow, -, h⟩ := bind_eq_ok.1 h
  obtain ⟨low, -, h⟩ := bind_eq_ok.1 h
  obtain ⟨rawClose, -, h⟩ := bind_eq_ok.1 h
  obtain ⟨prevClose, -, h⟩ := bind_eq_ok.1 h
  obtain ⟨rawVolume, -, h⟩ := bind_eq_ok.1 h
  obtain ⟨volume, hvolume, h⟩ := bind_eq_ok.1 h
  obtain ⟨rawTime, -, h⟩ := bind_eq_ok.1 h
  obtain ⟨time, htime, h⟩ := bind_eq_ok.1 h
  obtain ⟨turnover, hturnover, h⟩ := bind_eq_ok.1 h
  cases h
  refine ⟨?_, of_decide_eq_true (requireNumber_eq_ok.1 hprice).2,
    of_decide_eq_true (requireNumber_eq_ok.1 hvolume).2, ?_, of_decide_eq_true (requireNumber_eq_ok.1 htime).2⟩
  · unfold requireSymbol at hsymbol
    split at hsymbol
    · cases hsymbol
    · split at hsymbol
      · rename_i hmatch
        cases hsymbol
        exact hmatch
      · cases hsymbol
  · intro amount hamount
    unfold optionalTurnover at hturnover
    split at hturnover
    · cases hturnover
      cases hamount
    split at hturnover
    · cases hturnover
      cases hamount
    rename_i value _ _
    cases hnumber : py.requireNonNegative value "turnover" with
    | error err =>
      rw [hnumber] at hturnover
      cases hturnover
    | ok number =>
      rw [hnumber] at hturnover
      cases hturnover
      cases hamount
      exact of_decide_eq_true (requireNumber_eq_ok.1 hnumber).2

/-! ## Rows that raise something else -/

variable (py) in
/-- `float` of a field raises an exception that is not caught. -/
def Unreadable (raw : RawQuote V) (field : String) : Prop :=
  ∃ value, raw.lookup field = some value ∧ ∃ err, py.float value = .error (.other err)

variable (py) in
/-- A field is a finite number that meets its bound. -/
def Passes (raw : RawQuote V) (field : String) (bound : ℚ → Bool) : Prop :=
  ∃ value, raw.lookup field = some value ∧ ∃ x, py.float value = .ok (.finite x) ∧ bound x = true

variable (py) in
/-- The fields pass up to one that is unreadable; the turnover comes last. -/
def Reaches (raw : RawQuote V) : List (String × (ℚ → Bool)) → Prop
  | [] => ∃ value, raw.lookup "turnover" = some value ∧ py.isNone value = false ∧
      ∃ err, py.float value = .error (.other err)
  | (field, bound) :: rest => py.Unreadable raw field ∨ py.Passes raw field bound ∧ Reaches raw rest

variable (py) in
/-- A row has all its fields, and its symbol has no text, or is a symbol and an unreadable number is
reached. -/
def Breaks (raw : RawQuote V) : Prop :=
  (∀ field ∈ requiredFields, (raw.lookup field).isSome) ∧
    ∃ value, raw.lookup "symbol" = some value ∧
      ((∃ err, py.str value = .error err) ∨
        (∃ symbol, py.str value = .ok symbol ∧ isSymbol symbol = true) ∧ py.Reaches raw numericFields)

variable {A : Type} {field : String}

/-- **A number is read**, before the rest of the row. -/
theorem escapes_numberAt {k : ℚ → Except NormalizeError A} {E : Prop}
    (hfield : (raw.lookup field).isSome) (hk : ∀ x, Escapes (k x) ↔ E) :
    Escapes (getField raw field >>= fun value => py.requireNumber bound value label >>= k) ↔
      py.Unreadable raw field ∨ py.Passes raw field bound ∧ E := by
  obtain ⟨value, hvalue⟩ := Option.isSome_iff_exists.1 hfield
  unfold getField Unreadable Passes
  simp only [hvalue, ok_bind, Option.some.injEq, exists_eq_left']
  rw [← @escapes_requireNumber _ _ _ bound label]
  cases hnumber : py.requireNumber bound value label with
  | error err =>
    have hfail : ¬∃ x, py.float value = .ok (.finite x) ∧ bound x = true := by
      rintro ⟨x, hx⟩
      cases hnumber.symm.trans (requireNumber_eq_ok.2 hx)
    rw [or_iff_left fun h => hfail h.1, escapes_error]
    exact escapes_error
  | ok x =>
    have hpass := requireNumber_eq_ok.1 hnumber
    rw [ok_bind, hk, or_iff_right (not_escapes_ok x), and_iff_right ⟨x, hpass⟩]

theorem escapes_optionalTurnover {k : Option ℚ → Except NormalizeError A} (hk : ∀ x, ¬Escapes (k x)) :
    Escapes (py.optionalTurnover raw >>= k) ↔ py.Reaches raw [] := by
  unfold optionalTurnover Reaches
  cases hvalue : raw.lookup "turnover" with
  | none => simpa [ok_bind] using hk none
  | some value =>
    simp only [Option.some.injEq, exists_eq_left']
    cases hnone : py.isNone value with
    | true => simpa [ok_bind] using hk none
    | false =>
      simp only [Bool.false_eq_true, if_false, true_and]
      rw [← @escapes_requireNumber _ _ _ (fun x => decide (0 ≤ x)) "turnover"]
      unfold requireNonNegative
      cases py.requireNumber (fun x => decide (0 ≤ x)) value "turnover" with
      | error err =>
        rw [escapes_error]
        exact escapes_error
      | ok x => exact iff_of_false (hk _) (not_escapes_ok x)

/-- **When a row raises something else** than a `SnapshotValidationError`. -/
theorem escapes_normalizeSnapshot (raw : RawQuote V) (wallTime : ℚ) :
    Escapes (py.normalizeSnapshot raw wallTime) ↔ py.Breaks raw := by
  unfold normalizeSnapshot Breaks
  cases hmissing : requiredFields.filter fun field => (raw.lookup field).isNone with
  | cons field rest =>
    have hfield : field ∈ requiredFields.filter fun field => (raw.lookup field).isNone := by
      rw [hmissing]
      exact List.mem_cons_self
    obtain ⟨hmem, hnone⟩ := List.mem_filter.1 hfield
    refine iff_of_false (by simp) ?_
    rintro ⟨hall, -⟩
    have hsome := hall field hmem
    rw [Option.isNone_iff_eq_none.1 hnone] at hsome
    cases hsome
  | nil =>
    have hall : ∀ field ∈ requiredFields, (raw.lookup field).isSome := by
      intro field hmem
      have hpresent := List.filter_eq_nil_iff.1 hmissing field hmem
      simpa [Option.isSome_iff_ne_none] using hpresent
    rw [and_iff_right hall]
    obtain ⟨value, hvalue⟩ := Option.isSome_iff_exists.1 (hall "symbol" (by decide))
    have hget : getField raw "symbol" = .ok value := by
      unfold getField
      rw [hvalue]
    simp only [hget, ok_bind, hvalue, Option.some.injEq, exists_eq_left']
    unfold requireSymbol
    cases hstr : py.str value with
    | error err => simp [bind, Except.bind]
    | ok symbol =>
      dsimp only
      by_cases hmatch : isSymbol symbol = true
      · have htext : (∃ text, (.ok symbol : Except PyError String) = .ok text ∧ isSymbol text = true) :=
          ⟨symbol, rfl, hmatch⟩
        -- The numbers are read in order, and each one raises before the next is looked at.
        rw [if_pos hmatch, ok_bind, or_iff_right (by simp), and_iff_right htext]
        refine escapes_numberAt (hall _ (by decide)) fun price => ?_
        refine escapes_numberAt (hall _ (by decide)) fun openPrice => ?_
        refine escapes_numberAt (hall _ (by decide)) fun high => ?_
        refine escapes_numberAt (hall _ (by decide)) fun low => ?_
        refine escapes_numberAt (hall _ (by decide)) fun prevClose => ?_
        refine escapes_numberAt (hall _ (by decide)) fun volume => ?_
        refine escapes_numberAt (hall _ (by decide)) fun marketTimestamp => ?_
        exact escapes_optionalTurnover fun turnover => not_escapes_ok _
      · rw [if_neg hmatch]
        simp [hmatch, bind, Except.bind]

/-! ## Batches -/

variable (py) in
/-- The quote of a row that is accepted. -/
def accepted (row : RawQuote V × ℚ) : Option MarketSnapshot := (py.normalizeSnapshot row.1 row.2).toOption

/-- **One row of a batch.** -/
theorem normalizeNext_eq (snapshots : List MarketSnapshot) {row : RawQuote V × ℚ} (h : ¬py.Breaks row.1) :
    py.normalizeNext snapshots row = .ok (snapshots ++ (py.accepted row).toList) := by
  rw [← escapes_normalizeSnapshot row.1 row.2] at h
  unfold normalizeNext accepted
  cases hrow : py.normalizeSnapshot row.1 row.2 with
  | error error =>
    cases error with
    | other err => exact absurd ⟨err, hrow⟩ h
    | snapshotValidation message => simp [Except.toOption]
  | ok snapshot => rfl

theorem normalizeNext_escapes (snapshots : List MarketSnapshot) {row : RawQuote V × ℚ} (h : py.Breaks row.1) :
    Escapes (py.normalizeNext snapshots row) := by
  obtain ⟨err, herr⟩ := (escapes_normalizeSnapshot row.1 row.2).2 h
  unfold normalizeNext
  rw [herr]
  exact ⟨err, rfl⟩

/-- **A batch without such a row** is isolated. -/
theorem foldlM_normalizeNext {rows : List (RawQuote V × ℚ)} (h : ∀ row ∈ rows, ¬py.Breaks row.1)
    (snapshots : List MarketSnapshot) :
    rows.foldlM py.normalizeNext snapshots = .ok (snapshots ++ rows.filterMap py.accepted) := by
  induction rows generalizing snapshots with
  | nil => simp [pure, Except.pure]
  | cons row rows ih =>
    obtain ⟨hrow, hrows⟩ := List.forall_mem_cons.1 h
    rw [List.foldlM_cons, normalizeNext_eq snapshots hrow, ok_bind, ih hrows, List.append_assoc]
    cases hquote : py.accepted row <;> simp [hquote]

/-- **A row that raises something else ends the batch.** -/
theorem foldlM_escapes {rows : List (RawQuote V × ℚ)} (h : ∃ row ∈ rows, py.Breaks row.1)
    (snapshots : List MarketSnapshot) : Escapes (rows.foldlM py.normalizeNext snapshots) := by
  induction rows generalizing snapshots with
  | nil => simp at h
  | cons row rows ih =>
    rw [List.foldlM_cons]
    by_cases hrow : py.Breaks row.1
    · obtain ⟨err, herr⟩ := normalizeNext_escapes snapshots hrow
      rw [herr]
      exact ⟨err, rfl⟩
    · rw [normalizeNext_eq snapshots hrow, ok_bind]
      exact ih (((List.exists_mem_cons_iff ..).1 h).resolve_left hrow) _

/-- **When a batch is isolated**: it raises nothing, and returns the quotes of the rows that are accepted, in
order, just when no row raises something else. -/
theorem normalizeMany_isolates (rows : List (RawQuote V × ℚ)) :
    py.normalizeMany rows = .ok (rows.filterMap py.accepted) ↔ ∀ row ∈ rows, ¬py.Breaks row.1 := by
  unfold normalizeMany
  constructor
  · intro h row hrow hbreaks
    obtain ⟨err, herr⟩ := foldlM_escapes ⟨row, hrow, hbreaks⟩ []
    cases h.symm.trans herr
  · intro h
    rw [foldlM_normalizeNext h []]
    rfl

end RawValues

/-! ## JSON rows -/

section Rows

variable (py : Python)

/-- JSON values as raw values. -/
def jsonValues : RawValues Json where
  str := Json.pyStr py
  float := Json.pyFloat py
  isNone value :=
    match value with
    | .null => true
    | _ => false

/-- A field is an integer beyond the floats. -/
def Beyond (raw : RawQuote Json) (field : String) : Prop :=
  ∃ n, raw.lookup field = some (.int n) ∧ (Json.floatLimit ≤ n ∨ n ≤ -Json.floatLimit)

/-- The numbers of a row pass up to one beyond the floats; the turnover comes last. -/
def ReachesBeyond (raw : RawQuote Json) : List (String × (ℚ → Bool)) → Prop
  | [] => Beyond raw "turnover"
  | (field, bound) :: rest => Beyond raw field ∨ (jsonValues py).Passes raw field bound ∧ ReachesBeyond raw rest

/-- A row has all its fields, and its symbol holds an integer that is too long for a text, or is a symbol and
a number beyond the floats is reached. -/
def OversizedRow (raw : RawQuote Json) : Prop :=
  (∀ field ∈ requiredFields, (raw.lookup field).isSome) ∧
    ∃ value, raw.lookup "symbol" = some value ∧
      (value.LongInt ∨
        (∃ symbol, value.pyStr py = .ok symbol ∧ isSymbol symbol = true) ∧ ReachesBeyond py raw numericFields)

variable {py} {raw : RawQuote Json}

theorem unreadable_json {field : String} : (jsonValues py).Unreadable raw field ↔ Beyond raw field := by
  unfold RawValues.Unreadable Beyond
  constructor
  · rintro ⟨value, hvalue, herr⟩
    obtain ⟨n, rfl, hbeyond⟩ := (Json.pyFloat_other value).1 herr
    exact ⟨n, hvalue, hbeyond⟩
  · rintro ⟨n, hvalue, hbeyond⟩
    exact ⟨.int n, hvalue, (@Json.pyFloat_other py (.int n)).2 ⟨n, rfl, hbeyond⟩⟩

theorem reaches_json : ∀ {fields : List (String × (ℚ → Bool))},
    (jsonValues py).Reaches raw fields ↔ ReachesBeyond py raw fields := by
  intro fields
  induction fields with
  | nil =>
    unfold RawValues.Reaches ReachesBeyond
    rw [← @unreadable_json py]
    unfold RawValues.Unreadable
    -- `null` is not converted, and would not raise such an exception.
    refine exists_congr fun value => and_congr_right fun _ => and_iff_right_of_imp ?_
    rintro ⟨err, herr⟩
    cases value with
    | null => cases herr
    | _ => rfl
  | cons f fields ih =>
    unfold RawValues.Reaches ReachesBeyond
    rw [unreadable_json, ih]

theorem breaks_json : (jsonValues py).Breaks raw ↔ OversizedRow py raw := by
  unfold RawValues.Breaks OversizedRow
  rw [reaches_json]
  refine and_congr_right fun _ => exists_congr fun value => and_congr_right fun _ => ?_
  rw [← @Json.raises_pyStr py]
  rfl

/-- **When `normalize_many` isolates the bad rows of a batch of JSON objects.** -/
theorem normalizeMany_json_isolates (py : Python) (rows : List (RawQuote Json × ℚ)) :
    (jsonValues py).normalizeMany rows = .ok (rows.filterMap (jsonValues py).accepted) ↔
      ∀ row ∈ rows, ¬OversizedRow py row.1 := by
  rw [RawValues.normalizeMany_isolates]
  simp only [breaks_json]

/-- A row with a price. -/
def pricedRow (price : Json) : RawQuote Json :=
  [("symbol", .str "600519.SH"), ("price", price), ("open", .int 100), ("high", .int 100), ("low", .int 100),
    ("prev_close", .int 100), ("volume", .int 0), ("market_timestamp", .int 36000)]

/-- No text is read or written. -/
def noTexts : Python := ⟨fun _ => "", fun _ => "", fun _ => none⟩

/-- **One row with a huge integer discards the batch.** -/
theorem normalizeMany_discards :
    (jsonValues noTexts).normalizeMany [(pricedRow (.int 100), 0), (pricedRow (.int (10 ^ 400)), 0)] =
        .error (.other .overflowError) ∧
      [(pricedRow (.int 100), 0), (pricedRow (.int (10 ^ 400)), (0 : ℚ))].filterMap
        (jsonValues noTexts).accepted ≠ [] := by
  decide +kernel

end Rows

end MarketSentinel
