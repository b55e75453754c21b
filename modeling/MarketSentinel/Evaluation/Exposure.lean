import Mathlib.Data.List.Pairwise
import Mathlib.Data.List.ReduceOption
import MarketSentinel.Evaluation.Report

/-!
# When market time raises

The stamps of the rows flow into dates, into a sort and into the cash-session overlap. Once every numeric
stamp has a session, one thing is left that raises: the days of an exposure that reach the last day of the
calendar.

* `returns_dateOf`: the stamps that have a session.
* `returns_runExposure`: rows that all have a session raise exactly when they overrun.
* `returns_marketMetrics`, `returns_perMarketDate`: the same for all runs, and for all runs on each date.
-/

namespace MarketSentinel

open Lib

namespace Evaluation

/-! ## Conversions -/

theorem returns_floatOf {value : Json} (h : isNumber value = true) :
    Returns (floatOf value) ↔ ¬ Oversized value := by
  cases value with
  | int n =>
    have hnone : (Json.intToFloat n).isNone = true ↔ Oversized (.int n) := by
      rw [Option.isNone_iff_eq_none]
      exact Json.intToFloat_eq_none
    rw [floatOf]
    split
    · rename_i hover
      simp [hnone.1 hover]
    · rename_i hfine
      simp [mt hnone.2 hfine]
  | float x => simp [floatOf, Oversized]
  | bool b => simp [floatOf, Oversized]
  | null => cases h
  | str s => cases h
  | list xs => cases h
  | obj fields => cases h

/-- `datetime` has a date at UTC and at UTC+8 for the timestamp. -/
def OnCalendar (ts : ℚ) : Prop :=
  minDay ≤ microseconds ts / dayMicroseconds ∧
    (microseconds ts + 8 * 3600 * 1000000) / dayMicroseconds ≤ maxDay

/-- A stamp that is a number has a session. -/
def Dated : Json → Prop
  | .int n => ¬ Oversized (.int n) ∧ OnCalendar (nearestFloat n)
  | .float (.finite q) => OnCalendar q
  | .float _ => False
  | _ => True

theorem returns_sessionId (ts : ℚ) : Returns (sessionId ts) ↔ OnCalendar ts := by
  unfold OnCalendar
  constructor
  · rintro ⟨day, h⟩
    obtain ⟨rfl, hfirst, hlast⟩ := sessionId_eq_ok_iff.1 h
    exact ⟨hfirst, hlast⟩
  · rintro ⟨hfirst, hlast⟩
    exact ⟨_, sessionId_eq_ok_iff.2 ⟨rfl, hfirst, hlast⟩⟩

theorem stampOf_ok {row : Record} (h : isNumber (Json.field row "market_timestamp") = false) :
    stampOf row = .ok none := by
  unfold stampOf
  rw [if_neg (by simp [h])]

theorem stampOf_float {row : Record} {x : PyFloat}
    (h : isNumber (Json.field row "market_timestamp") = true)
    (hx : floatOf (Json.field row "market_timestamp") = .ok x) : stampOf row = .ok (some x) := by
  unfold stampOf
  rw [if_pos h, hx]
  rfl

theorem returns_stampOf (row : Record) :
    Returns (stampOf row) ↔ ¬ Oversized (Json.field row "market_timestamp") := by
  cases hnum : isNumber (Json.field row "market_timestamp") with
  | true =>
    rw [← returns_floatOf hnum]
    unfold stampOf
    rw [if_pos hnum]
    exact returns_bind_of fun _ _ => returns_pure _
  | false =>
    rw [stampOf_ok hnum]
    refine iff_of_true (returns_ok _) ?_
    intro hover
    cases hstamp : Json.field row "market_timestamp" <;> simp_all [isNumber, Oversized]

/-- **The stamps that have a session.** -/
theorem returns_dateOf (row : Record) :
    Returns (dateOf row) ↔ Dated (Json.field row "market_timestamp") := by
  have hfloat : ∀ x, isNumber (Json.field row "market_timestamp") = true →
      floatOf (Json.field row "market_timestamp") = .ok x →
        (Returns (dateOf row) ↔ Returns (sessionOf x)) := by
    intro x hnum hx
    unfold dateOf
    rw [stampOf_float hnum hx, ok_bind]
    exact returns_bind_of fun _ _ => returns_pure _
  have hnone : isNumber (Json.field row "market_timestamp") = false → Returns (dateOf row) := by
    intro h
    unfold dateOf
    rw [stampOf_ok h]
    exact ⟨none, rfl⟩
  -- Only a number has a session: an integer through its nearest float, and a truth value as 0 or 1.
  generalize hstamp : Json.field row "market_timestamp" = stamp at hfloat hnone ⊢
  cases stamp with
  | int n =>
    by_cases hover : Oversized (.int n)
    · have hraise : ¬ Returns (dateOf row) := by
        rintro ⟨date, hdate⟩
        obtain ⟨s, hs, -⟩ := bind_eq_ok.1 hdate
        exact (returns_stampOf row).1 ⟨s, hs⟩ (hstamp ▸ hover)
      simp [hraise, Dated, hover]
    · have hx : floatOf (.int n) = .ok (.finite (nearestFloat n)) := by
        have hsome : ¬ (Json.intToFloat n).isNone = true := by
          rw [Option.isNone_iff_eq_none, Json.intToFloat_eq_none]
          exact hover
        rw [floatOf, if_neg hsome]
      rw [hfloat _ rfl hx, sessionOf, returns_sessionId]
      simp [Dated, hover]
  | float x =>
    rw [hfloat x rfl rfl]
    cases x with
    | finite q => exact returns_sessionId q
    | posInf => simp [sessionOf, Dated]
    | negInf => simp [sessionOf, Dated]
    | nan => simp [sessionOf, Dated]
  | bool b =>
    rw [hfloat _ rfl rfl]
    refine iff_of_true ((returns_sessionId _).2 ?_) trivial
    cases b <;> exact ⟨by decide +kernel, by decide +kernel⟩
  | null => exact iff_of_true (hnone rfl) trivial
  | str s => exact iff_of_true (hnone rfl) trivial
  | list xs => exact iff_of_true (hnone rfl) trivial
  | obj fields => exact iff_of_true (hnone rfl) trivial

/-! ## One exposure -/

instance : Std.Total FloatLe where
  total x y := by
    unfold FloatLe
    cases x <;> cases y <;> simp [floatLe]
    exact le_total _ _

instance : Std.Refl FloatLe where
  refl x := (Std.Total.total x x).elim id id

instance : IsTrans PyFloat FloatLe where
  trans x y z hxy hyz := by
    unfold FloatLe at *
    cases x <;> cases y <;> cases z <;> simp_all [floatLe]
    exact hxy.trans hyz

/-- A row is stamped with a float. -/
def Stamped (row : Record) (x : PyFloat) : Prop := stampOf row = .ok (some x)

/-- The row falls on the last day of the calendar. -/
def onLastDay (row : Record) : Bool :=
  match dateOf row with
  | .ok (some day) => day = maxDay
  | _ => false

/-- The exposure of the rows counts up to the last day of the calendar: their market scope is supported,
they have two different stamps, and one of them is on that day. -/
def Overruns (rows : List Record) : Prop :=
  marketScope rows ≠ .unsupported ∧
    (∃ row ∈ rows, ∃ row' ∈ rows, ∃ x y, Stamped row x ∧ Stamped row' y ∧ x ≠ y) ∧
      ∃ row ∈ rows, onLastDay row = true

theorem not_overruns_nil : ¬ Overruns [] := by
  rintro ⟨-, -, row, hrow, -⟩
  cases hrow

/-- The date of a stamped row is the session of its stamp. -/
theorem dateOf_stamped {row : Record} {x : PyFloat} (h : Stamped row x) {date : Option ℤ} :
    dateOf row = .ok date ↔ ∃ day, sessionOf x = .ok day ∧ date = some day := by
  unfold dateOf
  rw [h, ok_bind, bind_eq_ok]
  refine exists_congr fun day => and_congr_right fun _ => ?_
  constructor
  · intro hdate
    cases hdate
    rfl
  · rintro rfl
    rfl

theorem onLastDay_iff_date {row : Record} : onLastDay row = true ↔ dateOf row = .ok (some maxDay) := by
  unfold onLastDay
  split
  · rename_i day hday
    rw [hday, decide_eq_true_iff]
    constructor
    · rintro rfl
      rfl
    · intro h
      cases h
      rfl
  · rename_i hno
    exact iff_of_false Bool.false_ne_true (hno maxDay)

theorem onLastDay_iff {row : Record} :
    onLastDay row = true ↔ ∃ x, Stamped row x ∧ sessionOf x = .ok maxDay := by
  rw [onLastDay_iff_date]
  constructor
  · intro h
    obtain ⟨s, hs, hrest⟩ := bind_eq_ok.1 h
    cases s with
    | none => cases hrest
    | some x =>
      obtain ⟨day, hday, heq⟩ := (dateOf_stamped hs).1 h
      cases heq
      exact ⟨x, hs, hday⟩
  · rintro ⟨x, hx, hday⟩
    exact (dateOf_stamped hx).2 ⟨maxDay, hday, rfl⟩

section Exposure

variable {rows : List Record} (hdated : ∀ row ∈ rows, Returns (dateOf row))
include hdated

/-- A stamp with a session is finite. -/
theorem stamped_finite {row : Record} {x : PyFloat} (hrow : row ∈ rows) (h : Stamped row x) :
    ∃ q day, x = .finite q ∧ sessionId q = .ok day := by
  obtain ⟨date, hdate⟩ := hdated row hrow
  obtain ⟨day, hday, -⟩ := (dateOf_stamped h).1 hdate
  cases x with
  | finite q => exact ⟨q, day, rfl, hday⟩
  | posInf => cases hday
  | negInf => cases hday
  | nan => cases hday

/-- The stamps of rows that all have a session. -/
theorem stampsOf_dated :
    ∃ xs, stampsOf rows = .ok xs ∧ ∀ x, x ∈ xs ↔ ∃ row ∈ rows, Stamped row x := by
  have hstamps : Returns (rows.mapM stampOf) := by
    rw [returns_mapM]
    intro row hrow
    obtain ⟨date, hdate⟩ := hdated row hrow
    obtain ⟨s, hs, -⟩ := bind_eq_ok.1 hdate
    exact ⟨s, hs⟩
  obtain ⟨ss, hss⟩ := hstamps
  refine ⟨ss.reduceOption, ?_, ?_⟩
  · unfold stampsOf
    rw [hss]
    rfl
  · intro x
    rw [List.reduceOption_mem_iff]
    exact mem_of_mapM hss (some x)

/-- **Rows that all have a session raise exactly when they overrun.** -/
theorem returns_runExposure : Returns (runExposure rows) ↔ ¬ Overruns rows := by
  obtain ⟨xs, hxs, hmem⟩ := stampsOf_dated hdated
  unfold runExposure
  rw [hxs, ok_bind]
  by_cases hscope : marketScope rows = .unsupported
  · rw [if_pos hscope]
    exact iff_of_true (returns_pure _) fun h => h.1 hscope
  rw [if_neg hscope]
  have hsorted : (sortedFloats xs.dedup).Pairwise FloatLe := List.pairwise_insertionSort FloatLe _
  have hnodup : (sortedFloats xs.dedup).Nodup :=
    (List.perm_insertionSort FloatLe _).nodup_iff.2 (List.nodup_dedup _)
  have hunique : ∀ x, x ∈ sortedFloats xs.dedup ↔ ∃ row ∈ rows, Stamped row x := by
    intro x
    unfold sortedFloats
    rw [List.mem_insertionSort, List.mem_dedup, hmem]
  -- With fewer than two stamps there is no exposure, and nothing to overrun.
  match hlist : sortedFloats xs.dedup with
  | [] =>
    refine iff_of_true (returns_pure _) ?_
    rintro ⟨-, ⟨row, hrow, -, -, x, -, hx, -, -⟩, -⟩
    have hx' := (hunique x).2 ⟨row, hrow, hx⟩
    rw [hlist] at hx'
    cases hx'
  | [x] =>
    refine iff_of_true (returns_pure _) ?_
    rintro ⟨-, ⟨row, hrow, row', hrow', y, z, hy, hz, hne⟩, -⟩
    have hy' := (hunique y).2 ⟨row, hrow, hy⟩
    have hz' := (hunique z).2 ⟨row', hrow', hz⟩
    rw [hlist, List.mem_singleton] at hy' hz'
    exact hne (hy'.trans hz'.symm)
  | first :: second :: rest =>
    rw [hlist] at hsorted hnodup hunique
    have hne : second :: rest ≠ [] := List.cons_ne_nil _ _
    have hlast : (second :: rest).getLast hne ∈ first :: second :: rest :=
      List.mem_cons_of_mem _ (List.getLast_mem hne)
    obtain ⟨row, hrow, hfirstStamp⟩ := (hunique first).1 List.mem_cons_self
    obtain ⟨row', hrow', hlastStamp⟩ := (hunique _).1 hlast
    obtain ⟨p, day, hp, hday⟩ := stamped_finite hdated hrow hfirstStamp
    obtain ⟨q, day', hq, hday'⟩ := stamped_finite hdated hrow' hlastStamp
    have hle : FloatLe first ((second :: rest).getLast hne) :=
      (List.pairwise_cons.1 hsorted).1 _ (List.getLast_mem hne)
    have hdiff : first ≠ (second :: rest).getLast hne := by
      intro heq
      exact (List.nodup_cons.1 hnodup).1 (heq ▸ List.getLast_mem hne)
    have hlt : p < q := by
      rw [hp, hq] at hle hdiff
      exact lt_of_le_of_ne (by simpa [FloatLe, floatLe] using hle) (by simpa using hdiff)
    -- The overlap walks to the day after the last stamp, which the calendar may not have.
    have hreturns : Returns (cashSessionOverlapS first ((second :: rest).getLast hne)) ↔ day' ≠ maxDay := by
      rw [hp, hq]
      exact returns_cashSessionOverlapS hlt hday hday'
    dsimp only
    rw [returns_bind_of fun observed _ => by split <;> exact returns_pure _, hreturns, not_iff_not]
    constructor
    · rintro rfl
      refine ⟨hscope, ⟨row, hrow, row', hrow', first, _, hfirstStamp, hlastStamp, hdiff⟩, row', hrow', ?_⟩
      exact onLastDay_iff.2 ⟨_, hlastStamp, by rw [hq]; exact hday'⟩
    · -- The stamp on the last day is no later than the last stamp.
      rintro ⟨-, -, r, hr, hon⟩
      obtain ⟨x, hx, hxday⟩ := onLastDay_iff.1 hon
      obtain ⟨t, -, rfl, -⟩ := stamped_finite hdated hr hx
      have hle' : FloatLe (.finite t) ((second :: rest).getLast hne) := by
        rcases List.mem_cons.1 ((hunique _).2 ⟨r, hr, hx⟩) with heq | hmem'
        · rw [heq]
          exact hle
        · exact (List.pairwise_cons.1 hsorted).2.rel_getLast hmem'
      rw [hq] at hle'
      have hmono := sessionId_mono (by simpa [FloatLe, floatLe] using hle') hxday hday'
      have hmax := (sessionId_eq_ok hday').2
      omega

end Exposure

/-! ## All runs, and all dates -/

/-- The rows of a run. -/
def rowsOf (runId : String) (records : List Record) : List Record :=
  records.filter fun row => row.text "run_id" = some runId

theorem mem_rowsOf {runId : String} {records : List Record} {row : Record} (h : row ∈ rowsOf runId records) :
    row ∈ records := (List.mem_filter.1 h).1

/-- **The metrics of all runs raise** when the rows of a run overrun. -/
theorem returns_marketMetrics {records : List Record} (hdated : ∀ row ∈ records, Returns (dateOf row)) :
    Returns (marketMetrics records) ↔ ∀ runId, ¬ Overruns (rowsOf runId records) := by
  have hrun : ∀ runId, Returns (runExposure ((groupByRun records).getD runId [])) ↔
      ¬ Overruns (rowsOf runId records) := by
    intro runId
    have hrows : (groupByRun records).getD runId [] = rowsOf runId records := by
      unfold groupByRun rowsOf
      exact getD_groupBy _ records runId
    rw [hrows]
    exact returns_runExposure fun row hrow => hdated row (mem_rowsOf hrow)
  unfold marketMetrics
  rw [returns_bind_of fun _ _ => returns_pure _, returns_mapM]
  unfold sortedTexts
  constructor
  · intro h runId
    by_cases hkey : runId ∈ (groupByRun records).keys
    · have hreturns := h runId ((List.mem_insertionSort _).2 hkey)
      rw [returns_bind_of fun _ _ => returns_pure _] at hreturns
      exact (hrun runId).1 hreturns
    · -- A run without rows has no exposure.
      have hnil : rowsOf runId records = [] := by
        unfold rowsOf
        rw [List.filter_eq_nil_iff]
        intro row hrow hid
        exact hkey (mem_keys_groupBy.2 ⟨row, hrow, by simpa using hid⟩)
      rw [hnil]
      exact not_overruns_nil
  · intro h runId _
    rw [returns_bind_of fun _ _ => returns_pure _]
    exact (hrun runId).2 (h runId)

/-- **The metrics of all dates raise** when the rows of a run on the last day overrun. -/
theorem returns_perMarketDate {records : List Record} (hdated : ∀ row ∈ records, Returns (dateOf row)) :
    Returns (perMarketDate records) ↔
      ∀ runId, ¬ Overruns ((rowsOf runId records).filter onLastDay) := by
  let date (row : Record) : Option ℤ := (dateOf row).toOption.join
  have hdate : ∀ row ∈ records, dateOf row = .ok (date row) := by
    intro row hrow
    obtain ⟨d, hd⟩ := hdated row hrow
    show dateOf row = .ok (dateOf row).toOption.join
    rw [hd]
    rfl
  have hgroup : groupByM dateOf records = .ok (groupBy date records) := groupByM_eq hdate
  have hsubset : ∀ day, ∀ row ∈ (groupBy date records).getD day [], row ∈ records ∧ dateOf row = .ok (some day) := by
    intro day row hrow
    rw [getD_groupBy, List.mem_filter, decide_eq_true_eq] at hrow
    exact ⟨hrow.1, hrow.2 ▸ hdate row hrow.1⟩
  have hmetrics : ∀ day, Returns (marketMetrics ((groupBy date records).getD day [])) ↔
      ∀ runId, ¬ Overruns (rowsOf runId ((groupBy date records).getD day [])) :=
    fun day => returns_marketMetrics fun row hrow => hdated row (hsubset day row hrow).1
  have hlastDay : ∀ runId, rowsOf runId ((groupBy date records).getD maxDay []) =
      (rowsOf runId records).filter onLastDay := by
    intro runId
    rw [getD_groupBy]
    unfold rowsOf
    rw [List.filter_comm]
    apply List.filter_congr
    intro row hrow
    rw [Bool.eq_iff_iff, decide_eq_true_eq, onLastDay_iff_date,
      hdate row (@mem_rowsOf runId _ _ hrow), Except.ok.injEq]
  -- Rows that overrun hold a row on the last day, so their date is that day.
  have honly : ∀ day runId, Overruns (rowsOf runId ((groupBy date records).getD day [])) → day = maxDay := by
    rintro day runId ⟨-, -, row, hrow, hon⟩
    have hday := (hsubset day row (mem_rowsOf hrow)).2
    rw [onLastDay_iff_date.1 hon] at hday
    cases hday
    rfl
  unfold perMarketDate
  rw [hgroup, ok_bind, returns_mapM]
  constructor
  · intro h runId hover
    obtain ⟨-, -, row, hrow, hon⟩ := id hover
    have hmem := mem_rowsOf (List.mem_filter.1 hrow).1
    have hkey : maxDay ∈ (groupBy date records).keys := by
      refine mem_keys_groupBy.2 ⟨row, hmem, ?_⟩
      have heq := hdate row hmem
      rw [onLastDay_iff_date.1 hon] at heq
      exact (Except.ok.inj heq).symm
    have hreturns := h maxDay ((List.mem_insertionSort _).2 hkey)
    rw [returns_bind_of fun _ _ => returns_pure _, hmetrics] at hreturns
    exact hreturns runId (hlastDay runId ▸ hover)
  · intro h day _
    rw [returns_bind_of fun _ _ => returns_pure _, hmetrics]
    intro runId hover
    have hday := honly day runId hover
    subst hday
    exact h runId (hlastDay runId ▸ hover)

end Evaluation

end MarketSentinel
