import Mathlib.Data.List.Sort
import MarketSentinel.Lib.Dict
import MarketSentinel.MarketData.Session

/-!
# Sampled minute bars

`features/bars.py`: the completed minutes of the current session, from the quotes that were seen.
-/

namespace MarketSentinel

open Lib

structure MarketBar where
  symbol : String
  startTimestamp : ℚ
  endTimestamp : ℚ
  openPrice : ℚ
  high : ℚ
  low : ℚ
  close : ℚ
  volume : Option ℚ
  turnover : Option ℚ
  deriving DecidableEq, Repr

/-- `math.floor(ts / bar_seconds) * bar_seconds`, where the quotient is in the range of a float (as for the default
`bar_seconds`; `math.floor` raises on an infinity or a NaN). -/
def barStart (barSeconds ts : ℚ) : ℚ := ⌊ts / barSeconds⌋ * barSeconds

/-- The quotes of the session of `latestTs`, by the bar they belong to; the bar that is still forming
is left out. -/
def bucketStep (latestTs barSeconds : ℚ) (buckets : Dict ℚ (List MarketSnapshot))
    (snapshot : MarketSnapshot) : Except PyError (Dict ℚ (List MarketSnapshot)) := do
  if !(← isSameSession snapshot.marketTimestamp latestTs) then return buckets
  let start := barStart barSeconds snapshot.marketTimestamp
  if barStart barSeconds latestTs ≤ start then return buckets
  return buckets.set start (buckets.getD start [] ++ [snapshot])

/-- `_interval_delta`. -/
def intervalDelta (current previous : Option ℚ) (contiguous : Bool) : Option ℚ :=
  match contiguous, current, previous with
  | true, some c, some p => some (max 0 (c - p))
  | _, _, _ => none

/-- What the loop over the bars carries. -/
structure BarState where
  bars : List MarketBar := []
  prevEnd : Option ℚ := none
  lastVolume : Option ℚ := none
  lastTurnover : Option ℚ := none

/-- One bucket becomes a bar; a bucket is never empty. -/
def barStep (barSeconds : ℚ) (s : BarState) (bucket : ℚ × List MarketSnapshot) : BarState :=
  let start := bucket.1
  match bucket.2.insertionSort fun a b => a.marketTimestamp ≤ b.marketTimestamp with
  | [] => s
  | first :: rest =>
    let last := (first :: rest).getLast (List.cons_ne_nil _ _)
    -- Volumes are cumulative: only a bar that follows another one directly has its own.
    let contiguous := decide (s.prevEnd = some start)
    { bars :=
        s.bars ++
          [{ symbol := last.symbol
             startTimestamp := start
             endTimestamp := start + barSeconds
             openPrice := first.price
             high := rest.foldl (fun m x => max m x.price) first.price
             low := rest.foldl (fun m x => min m x.price) first.price
             close := last.price
             volume := intervalDelta (some last.volume) s.lastVolume contiguous
             turnover := intervalDelta last.turnover s.lastTurnover contiguous }]
      prevEnd := some (start + barSeconds)
      lastVolume := some last.volume
      lastTurnover := last.turnover }

/-- `completed_minute_bars`. -/
def completedMinuteBars (snapshots : List MarketSnapshot) (latestTs barSeconds : ℚ) :
    Except PyError (List MarketBar) :=
  if snapshots = [] ∨ barSeconds ≤ 0 then .ok []
  else do
    let buckets ← snapshots.foldlM (bucketStep latestTs barSeconds) Dict.empty
    return ((buckets.entries.insertionSort fun a b => a.1 ≤ b.1).foldl (barStep barSeconds) {}).bars

end MarketSentinel
