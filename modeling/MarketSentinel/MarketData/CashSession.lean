import MarketSentinel.Lib.Returns
import MarketSentinel.MarketData.Session

/-!
# Cash sessions

The part of `market_data/session.py` that the evaluation uses: the session of any float, the symbols
of the A-share calendar, and the cash-session seconds between two market timestamps. Times of a day are
seconds, and a `datetime` is its microseconds at UTC+8.

* `sessionId_mono`: a later timestamp has no earlier session.
* `returns_cashSessionOverlapS`: the loop over the days runs off the calendar exactly when its last day
  is the last day there is.
-/

namespace MarketSentinel

open Lib

/-- `session_id`, of any float. -/
def sessionOf : PyFloat → Except PyError ℤ
  | .finite q => sessionId q
  | .nan => .error .valueError
  | .posInf | .negInf => .error .overflowError

/-- A number in at least `width` digits. -/
def padded (width : ℕ) (n : ℤ) : String :=
  let digits := Nat.toDigits 10 n.toNat
  String.ofList (List.replicate (width - digits.length) '0' ++ digits)

/-- `date.isoformat`. The years are counted from March, in eras of 400. -/
def isoformat (day : ℤ) : String :=
  let shifted := day + 719468
  let era := shifted / 146097
  let dayOfEra := shifted % 146097
  let yearOfEra := (dayOfEra - dayOfEra / 1460 + dayOfEra / 36524 - dayOfEra / 146096) / 365
  let dayOfYear := dayOfEra - (365 * yearOfEra + yearOfEra / 4 - yearOfEra / 100)
  let march := (5 * dayOfYear + 2) / 153
  let month := if march < 10 then march + 3 else march - 9
  let year := era * 400 + yearOfEra + if month ≤ 2 then 1 else 0
  padded 4 year ++ "-" ++ padded 2 month ++ "-" ++ padded 2 (dayOfYear - (153 * march + 2) / 5 + 1)

example : isoformat minDay = "0001-01-01" ∧ isoformat maxDay = "9999-12-31" := by decide

/-- `is_a_share_symbol`. -/
def isAShareSymbol (symbol : String) : Bool :=
  ".SH".toList.isSuffixOf symbol.toList || ".SZ".toList.isSuffixOf symbol.toList

/-- `datetime.fromtimestamp(ts, tz=_SESSION_TZ)`; it raises where `session_id` does. -/
def fromTimestamp (ts : ℚ) : Except PyError ℤ := do
  let _ ← sessionId ts
  return microseconds ts + 8 * 3600 * 1000000

/-- `_CASH_WINDOWS`. -/
def cashWindows : List (ℤ × ℤ) :=
  [(9 * 3600 + 30 * 60, 11 * 3600 + 30 * 60), (13 * 3600, 15 * 3600)]

/-- `day.weekday()`; the epoch was a Thursday. -/
def weekday (day : ℤ) : ℤ := (day + 3) % 7

/-- `datetime.combine(day, t, tzinfo=_SESSION_TZ)`. -/
def combine (day t : ℤ) : ℤ := day * dayMicroseconds + t * 1000000

/-- The seconds of one window of a day that lie between two times. -/
def windowOverlap (start stop day : ℤ) (window : ℤ × ℤ) : ℚ :=
  let left := max start (combine day window.1)
  let right := min stop (combine day window.2)
  if left < right then (right - left : ℤ) / 1000000 else 0

/-- One day of the loop: its windows are added, then `day += timedelta(days=1)`. -/
def overlapDay (start stop : ℤ) (total : ℚ) (day : ℤ) : Except PyError ℚ :=
  let total := if weekday day < 5 then total + (cashWindows.map (windowOverlap start stop day)).sum else total
  if day = maxDay then .error .overflowError else .ok total

/-- The days of the loop `while day <= last`. -/
def daysUpTo (day last : ℤ) : List ℤ := (List.range (last + 1 - day).toNat).map fun i : ℕ => day + i

/-- `cash_session_overlap_s`, of two finite timestamps in order. -/
def overlapBetween (startTs endTs : ℚ) : Except PyError ℚ := do
  if startTs = endTs then return 0
  let start ← fromTimestamp startTs
  let stop ← fromTimestamp endTs
  (daysUpTo (start / dayMicroseconds) (stop / dayMicroseconds)).foldlM (overlapDay start stop) 0

/-- `cash_session_overlap_s`. -/
def cashSessionOverlapS : PyFloat → PyFloat → Except PyError ℚ
  | .finite startTs, .finite endTs =>
    if endTs < startTs then overlapBetween endTs startTs else overlapBetween startTs endTs
  | _, _ => return 0

/-! ## Sessions in order -/

theorem roundHalfEven_le (q : ℚ) : roundHalfEven q ≤ q.floor + 1 := by
  unfold roundHalfEven
  dsimp only
  split_ifs <;> omega

theorem le_roundHalfEven (q : ℚ) : q.floor ≤ roundHalfEven q := by
  unfold roundHalfEven
  dsimp only
  split_ifs <;> omega

theorem roundHalfEven_mono {p q : ℚ} (h : p ≤ q) : roundHalfEven p ≤ roundHalfEven q := by
  have hfloor : p.floor ≤ q.floor := Rat.le_floor_iff.2 ((Rat.floor_le p).trans h)
  rcases hfloor.lt_or_eq with hlt | heq
  · have hp := roundHalfEven_le p
    have hq := le_roundHalfEven q
    omega
  · -- Within one unit, the fraction decides.
    have hrest : p - p.floor ≤ q - q.floor := by rw [heq]; linarith
    unfold roundHalfEven
    dsimp only
    rw [heq] at hrest ⊢
    split_ifs <;> first | omega | (exfalso; linarith)

theorem microseconds_mono {p q : ℚ} (h : p ≤ q) : microseconds p ≤ microseconds q := by
  unfold microseconds
  exact roundHalfEven_mono (by linarith)

/-- **A timestamp has a session** when its date at UTC is not too early and that at UTC+8 is not too late. -/
theorem sessionId_eq_ok_iff {ts : ℚ} {day : ℤ} :
    sessionId ts = .ok day ↔ day = (microseconds ts + 8 * 3600 * 1000000) / dayMicroseconds ∧
      minDay ≤ microseconds ts / dayMicroseconds ∧ day ≤ maxDay := by
  have hlater : microseconds ts / dayMicroseconds ≤ (microseconds ts + 8 * 3600 * 1000000) / dayMicroseconds :=
    Int.ediv_le_ediv (by decide) (by omega)
  unfold sessionId
  dsimp only
  split
  · rename_i hrange
    refine iff_of_false nofun ?_
    rintro ⟨rfl, hfirst, hlast⟩
    omega
  split
  · rename_i hrange
    refine iff_of_false nofun ?_
    rintro ⟨rfl, -, hlast⟩
    omega
  · rename_i hrange hlast
    refine ⟨fun h => ?_, fun h => congrArg Except.ok h.1.symm⟩
    cases h
    exact ⟨rfl, by omega, by omega⟩

/-- What a timestamp with a session tells. -/
theorem sessionId_eq_ok {ts : ℚ} {day : ℤ} (h : sessionId ts = .ok day) :
    day = (microseconds ts + 8 * 3600 * 1000000) / dayMicroseconds ∧ day ≤ maxDay :=
  ⟨(sessionId_eq_ok_iff.1 h).1, (sessionId_eq_ok_iff.1 h).2.2⟩

/-- **A later timestamp has no earlier session.** -/
theorem sessionId_mono {p q : ℚ} {day day' : ℤ} (h : p ≤ q) (hp : sessionId p = .ok day)
    (hq : sessionId q = .ok day') : day ≤ day' := by
  rw [(sessionId_eq_ok hp).1, (sessionId_eq_ok hq).1]
  have hmicro := microseconds_mono h
  exact Int.ediv_le_ediv (by decide) (by omega)

/-! ## When the overlap raises -/

theorem returns_overlapDay (start stop : ℤ) (total : ℚ) (day : ℤ) :
    Returns (overlapDay start stop total day) ↔ day ≠ maxDay := by
  unfold overlapDay
  by_cases h : day = maxDay <;> simp [h]

theorem mem_daysUpTo {first last day : ℤ} : day ∈ daysUpTo first last ↔ first ≤ day ∧ day ≤ last := by
  unfold daysUpTo
  simp only [List.mem_map, List.mem_range]
  constructor
  · rintro ⟨i, hi, rfl⟩
    omega
  · rintro ⟨hfirst, hlast⟩
    exact ⟨(day - first).toNat, by omega, by omega⟩

/-- **The days run off the calendar** exactly when the last of them is the last day there is. -/
theorem returns_cashSessionOverlapS {p q : ℚ} {day day' : ℤ} (h : p < q) (hp : sessionId p = .ok day)
    (hq : sessionId q = .ok day') :
    Returns (cashSessionOverlapS (.finite p) (.finite q)) ↔ day' ≠ maxDay := by
  obtain ⟨hday, -⟩ := sessionId_eq_ok hp
  obtain ⟨hday', hmax⟩ := sessionId_eq_ok hq
  have hle := sessionId_mono h.le hp hq
  unfold cashSessionOverlapS overlapBetween fromTimestamp
  dsimp only
  rw [if_neg h.not_gt, if_neg h.ne, hp, hq]
  simp only [ok_bind, pure_bind]
  rw [← hday, ← hday', returns_foldlM (returns_overlapDay _ _)]
  constructor
  · intro hall
    exact hall day' (mem_daysUpTo.2 ⟨hle, le_refl _⟩)
  · intro hne d hd
    have hlast := (mem_daysUpTo.1 hd).2
    omega

end MarketSentinel
