import MarketSentinel.Features.Bars
import MarketSentinel.MarketData.Buffers

/-!
# Features

`features/rolling.py`, `features/indicators.py` and `features/engine.py`: the features of a symbol's
latest quote from the quotes in its buffer. An exception of the source is an error of the result.

* `compute_stamp`: the features carry the symbol and the time of the latest quote.
* `compute_empty`: there are no features just when there is no quote.
-/

namespace MarketSentinel

open Lib

structure FeaturePolicy where
  maxAnchorLagS : ℚ := 30
  volumeRatioLookback : ℤ := 20
  barSeconds : ℚ := 60
  deriving DecidableEq, Repr

/-! ## Rolling windows -/

/-- `snapshot_as_of`: the quote at or before a time, if it is of the session of `latest` and not too
far before. -/
def snapshotAsOf (buffer : RingBuffer) (timestamp : ℚ) (latest : MarketSnapshot)
    (maxAnchorLagS : ℚ) : Except PyError (Option MarketSnapshot) :=
  match buffer.atOrBefore timestamp with
  | none => .ok none
  | some found => do
    if !(← isSameSession found.marketTimestamp latest.marketTimestamp) then return none
    if maxAnchorLagS < timestamp - found.marketTimestamp then return none
    return some found

/-- `resolve_anchor`. -/
def resolveAnchor (buffer : RingBuffer) (latest : MarketSnapshot) (windowS maxAnchorLagS : ℚ) :
    Except PyError (Option MarketSnapshot) := do
  let tRef := latest.marketTimestamp - windowS
  if !(← isSameSession tRef latest.marketTimestamp) then return none
  snapshotAsOf buffer tRef latest maxAnchorLagS

/-- `price_change`, a fraction: `0.006` is 0.6%. -/
def priceChange (buffer : RingBuffer) (latest : MarketSnapshot) (windowS : ℚ)
    (policy : FeaturePolicy) : Except PyError (Option ℚ) := do
  match ← resolveAnchor buffer latest windowS policy.maxAnchorLagS with
  | none => return none
  | some anchor =>
    if anchor.price = 0 then return none
    return some ((latest.price - anchor.price) / anchor.price)

/-- `volume_delta`. -/
def volumeDelta (buffer : RingBuffer) (latest : MarketSnapshot) (windowS : ℚ)
    (policy : FeaturePolicy) : Except PyError (Option ℚ) := do
  match ← resolveAnchor buffer latest windowS policy.maxAnchorLagS with
  | none => return none
  | some anchor => return some (max 0 (latest.volume - anchor.volume))

/-- `_historical_volume_deltas`, from the sample `step` on; `n` samples are left. -/
def historicalVolumeDeltas (buffer : RingBuffer) (latest : MarketSnapshot) (windowS : ℚ)
    (policy : FeaturePolicy) : (n step : ℕ) → Except PyError (Option (List ℚ))
  | 0, _ => .ok (some [])
  | n + 1, step => do
    let asOfTs := latest.marketTimestamp - step * 60
    match ← snapshotAsOf buffer asOfTs latest policy.maxAnchorLagS with
    -- One sample that is missing leaves no ratio.
    | none => return none
    | some asOf =>
      match ← volumeDelta buffer asOf windowS policy with
      | none => return none
      | some delta =>
        match ← historicalVolumeDeltas buffer latest windowS policy n (step + 1) with
        | none => return none
        | some samples => return some (delta :: samples)

/-- `volume_ratio`. -/
def volumeRatio (buffer : RingBuffer) (latest : MarketSnapshot) (windowS : ℚ)
    (policy : FeaturePolicy) : Except PyError (Option ℚ) := do
  match ← volumeDelta buffer latest windowS policy with
  | none => return none
  | some current =>
    match ← historicalVolumeDeltas buffer latest windowS policy policy.volumeRatioLookback.toNat 1 with
    | none => return none
    | some samples =>
      let baseline ← pyDiv samples.sum samples.length
      if baseline ≤ 0 then return none
      return some (current / baseline)

/-! ## Indicators -/

/-- `ema`. -/
def ema (closes : List ℚ) (period : ℤ) : Option ℚ :=
  if period ≤ 0 ∨ closes.length < period then none
  else
    let n := period.toNat
    let seed := (closes.take n).sum / period
    let k : ℚ := 2 / (period + 1)
    some ((closes.drop n).foldl (fun value close => close * k + value * (1 - k)) seed)

/-- One gain or loss into Wilder's average. -/
def wilderStep (period : ℤ) (avg x : ℚ) : ℚ := (avg * (period - 1) + x) / period

/-- The Wilder average of a list: the mean of the first `period`, then one step for each later one. -/
def wilderAverage (period : ℤ) (xs : List ℚ) : ℚ :=
  (xs.drop period.toNat).foldl (wilderStep period) ((xs.take period.toNat).sum / period)

/-- `rsi_wilder`. The gains and the losses are as many, so that the loop over both is two loops. -/
def rsiWilder (closes : List ℚ) (period : ℤ) : Option ℚ :=
  if period ≤ 0 ∨ closes.length < period + 1 then none
  else
    let changes := List.zipWith (fun a b => b - a) closes closes.tail
    let avgGain := wilderAverage period (changes.map (max · 0))
    let avgLoss := wilderAverage period (changes.map fun change => max (-change) 0)
    if avgGain = 0 ∧ avgLoss = 0 then some 50
    else if avgLoss = 0 then some 100
    else if avgGain = 0 then some 0
    else some (100 - 100 / (1 + avgGain / avgLoss))

/-- `session_vwap`: the average price, and whether the price is above it. -/
def sessionVwap (snapshot : MarketSnapshot) : Option ℚ × Option Bool :=
  match snapshot.turnover with
  | none => (none, none)
  | some turnover =>
    if snapshot.volume ≤ 0 then (none, none)
    else (some (turnover / snapshot.volume), some (turnover / snapshot.volume < snapshot.price))

/-! ## The engine -/

/-- One quote in `_session_refs`. -/
def refStep (latest : MarketSnapshot) (refs : Option ℚ × Option ℚ) (snapshot : MarketSnapshot) :
    Except PyError (Option ℚ × Option ℚ) := do
  if latest.marketTimestamp ≤ snapshot.marketTimestamp then return refs
  if !(← isSameSession snapshot.marketTimestamp latest.marketTimestamp) then return refs
  let high := sessionExtremeHigh snapshot
  let low := sessionExtremeLow snapshot
  return (some ((refs.1.map (max · high)).getD high), some ((refs.2.map (min · low)).getD low))

/-- `_session_refs`: the extremes of the session before the latest quote. -/
def sessionRefs (buffer : RingBuffer) (latest : MarketSnapshot) :
    Except PyError (Option ℚ × Option ℚ) :=
  (buffer.since 0).foldlM (refStep latest) (none, none)

structure FeatureEngine where
  policy : FeaturePolicy := {}
  deriving DecidableEq, Repr

namespace FeatureEngine

/-- `compute` with a latest quote. -/
def computeLatest (e : FeatureEngine) (buffer : RingBuffer) (latest : MarketSnapshot) :
    Except PyError MarketFeatures := do
  -- The references leave the latest quote out; the day's range takes it in.
  let (highRef, lowRef) ← sessionRefs buffer latest
  let highNow := (highRef.map (max · (sessionExtremeHigh latest))).getD (sessionExtremeHigh latest)
  let lowNow := (lowRef.map (min · (sessionExtremeLow latest))).getD (sessionExtremeLow latest)
  let dayRange :=
    if lowNow < highNow then some ((latest.price - lowNow) / (highNow - lowNow)) else none
  let dayChange :=
    if latest.prevClose = 0 then none
    else some ((latest.price - latest.prevClose) / latest.prevClose)
  let sessionSnaps ← (buffer.since 0).filterM fun snapshot =>
    isSameSession snapshot.marketTimestamp latest.marketTimestamp
  let bars ← completedMinuteBars sessionSnaps latest.marketTimestamp e.policy.barSeconds
  let closes := bars.map (·.close)
  let change1m ← priceChange buffer latest 60 e.policy
  let change5m ← priceChange buffer latest 300 e.policy
  let change15m ← priceChange buffer latest 900 e.policy
  let volume1m ← volumeDelta buffer latest 60 e.policy
  let volume5m ← volumeDelta buffer latest 300 e.policy
  let volumeRatio1m ← volumeRatio buffer latest 60 e.policy
  let volumeRatio5m ← volumeRatio buffer latest 300 e.policy
  return {
    symbol := latest.symbol
    marketTimestamp := latest.marketTimestamp
    receivedTimestamp := latest.receivedTimestamp
    change1m := change1m
    change5m := change5m
    change15m := change15m
    changeDay := dayChange
    dayRangePosition := dayRange
    volume1m := volume1m
    volume5m := volume5m
    volumeRatio1m := volumeRatio1m
    volumeRatio5m := volumeRatio5m
    vwap := (sessionVwap latest).1
    aboveVwap := (sessionVwap latest).2
    ema5 := ema closes 5
    ema20 := ema closes 20
    rsi14 := rsiWilder closes 14
    sessionHighRef := highRef
    sessionLowRef := lowRef
    sessionHighObs := sessionExtremeHigh latest
    sessionLowObs := sessionExtremeLow latest }

/-- `compute`. -/
def compute (e : FeatureEngine) (buffer : RingBuffer) : Except PyError (Option MarketFeatures) :=
  match buffer.latest with
  | none => .ok none
  | some latest => some <$> e.computeLatest buffer latest

variable {e : FeatureEngine} {buffer : RingBuffer}

theorem computeLatest_stamp {latest : MarketSnapshot} {features : MarketFeatures}
    (h : e.computeLatest buffer latest = .ok features) :
    features.symbol = latest.symbol ∧ features.marketTimestamp = latest.marketTimestamp := by
  unfold computeLatest at h
  -- Every step before the record either raises or passes on.
  simp only [bind, Except.bind, pure, Except.pure] at h
  repeat' split at h
  all_goals first
    | cases h; done
    | (cases h; exact ⟨rfl, rfl⟩)

/-- **The features carry the symbol and the time of the latest quote.** -/
theorem compute_stamp {features : MarketFeatures} (h : e.compute buffer = .ok (some features)) :
    ∃ latest, buffer.latest = some latest ∧ features.symbol = latest.symbol ∧
      features.marketTimestamp = latest.marketTimestamp := by
  unfold compute at h
  split at h
  · cases h
  · next latest hlatest =>
    cases hc : e.computeLatest buffer latest with
    | error err => rw [hc] at h; cases h
    | ok f =>
      rw [hc] at h
      cases h
      exact ⟨latest, hlatest, computeLatest_stamp hc⟩

theorem compute_empty : e.compute buffer = .ok none ↔ buffer.latest = none := by
  unfold compute
  split
  · next h => simp [h]
  · next latest hlatest =>
    rw [hlatest]
    cases e.computeLatest buffer latest <;> simp [Functor.map, Except.map]

end FeatureEngine

end MarketSentinel
