import MarketSentinel.Domain.Model
import MarketSentinel.Lib.Json

/-!
# Market sessions

`market_data/session.py`, as far as the features use it. A session is a calendar date at UTC+8, here
the number of its day from the epoch; a timestamp whose date is out of the range of `datetime`
raises.
-/

namespace MarketSentinel

open Lib

/-- The microseconds of `datetime.fromtimestamp`. -/
def microseconds (ts : ℚ) : ℤ := roundHalfEven (ts * 1000000)

def dayMicroseconds : ℤ := 86400 * 1000000

/-- The days of `datetime.min` and `datetime.max`, from the epoch. -/
def minDay : ℤ := -719162
def maxDay : ℤ := 2932896

/-- `session_id`. The time is taken at UTC first, then moved by eight hours. A year out of range is a
`ValueError` (beyond the years that the platform can express another exception), an overflow of the move an
`OverflowError`. -/
def sessionId (marketTimestamp : ℚ) : Except PyError ℤ :=
  let utc := microseconds marketTimestamp
  let day := (utc + 8 * 3600 * 1000000) / dayMicroseconds
  if utc / dayMicroseconds < minDay ∨ maxDay < utc / dayMicroseconds then .error .valueError
  else if maxDay < day then .error .overflowError
  else .ok day

/-- `is_same_session`. -/
def isSameSession (left right : ℚ) : Except PyError Bool := do
  let l ← sessionId left
  let r ← sessionId right
  return l = r

/-- `session_extreme_high` and `session_extreme_low`. -/
def sessionExtremeHigh (snapshot : MarketSnapshot) : ℚ := max snapshot.price snapshot.high
def sessionExtremeLow (snapshot : MarketSnapshot) : ℚ := min snapshot.price snapshot.low

end MarketSentinel
