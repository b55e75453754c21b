import Mathlib.Data.Rat.Defs
import Mathlib.Algebra.Order.Ring.Rat

/-!
# The domain records

The enumerations and frozen records of `market_sentinel.domain`. A Python `float`
that holds a timestamp, a price or a ratio is an exact rational, and a `float | None`
an optional one; ids, symbols and families are strings, as in the source.
-/

namespace MarketSentinel

inductive SchedulerLevel
  | cold | warm | hot
  deriving DecidableEq, Repr

inductive FeedStatus
  | live | delayed | stale | disconnected
  deriving DecidableEq, Repr

inductive EventType
  | rapidMove | volumeSpike | priceVolumeExpansion | dayHighBreakout | dayLowBreakdown | vwapCross
  deriving DecidableEq, Repr

inductive EventDirection
  | up | down | none
  deriving DecidableEq, Repr

inductive SignalPriority
  | info | notice | important | critical
  deriving DecidableEq, Repr

inductive GeneratedBy
  | rule
  deriving DecidableEq, Repr

def SchedulerLevel.value : SchedulerLevel → String
  | .cold => "COLD"
  | .warm => "WARM"
  | .hot => "HOT"

def FeedStatus.value : FeedStatus → String
  | .live => "LIVE"
  | .delayed => "DELAYED"
  | .stale => "STALE"
  | .disconnected => "DISCONNECTED"

def EventType.value : EventType → String
  | .rapidMove => "rapid_move"
  | .volumeSpike => "volume_spike"
  | .priceVolumeExpansion => "price_volume_expansion"
  | .dayHighBreakout => "day_high_breakout"
  | .dayLowBreakdown => "day_low_breakdown"
  | .vwapCross => "vwap_cross"

def EventDirection.value : EventDirection → String
  | .up => "up"
  | .down => "down"
  | .none => "none"

def SignalPriority.value : SignalPriority → String
  | .info => "info"
  | .notice => "notice"
  | .important => "important"
  | .critical => "critical"

/-- The table `_PRIORITY_RANK`, which the source repeats in five modules. -/
def priorityRank : SignalPriority → ℕ
  | .info => 1
  | .notice => 2
  | .important => 3
  | .critical => 4

/-- One value of `MarketEvent.metrics`: `float | bool | None`. -/
inductive Metric
  | float (x : ℚ)
  | bool (b : Bool)
  | none
  deriving DecidableEq, Repr

def Metric.ofOption : Option ℚ → Metric
  | some x => .float x
  | Option.none => .none

/-- An objective market fact. -/
structure MarketEvent where
  id : String
  symbol : String
  type : EventType
  direction : EventDirection
  severity : ℤ
  marketTimestamp : ℚ
  receivedTimestamp : ℚ
  detectedTimestamp : ℚ
  metrics : List (String × Metric)
  dedupeKey : String
  ttlS : ℚ
  ruleName : String
  deriving DecidableEq, Repr

/-- The features of one symbol at one market timestamp. Changes are fractions: `0.006` is 0.6%. -/
structure MarketFeatures where
  symbol : String
  marketTimestamp : ℚ
  receivedTimestamp : ℚ
  change1m : Option ℚ
  change5m : Option ℚ
  change15m : Option ℚ
  changeDay : Option ℚ
  dayRangePosition : Option ℚ
  volume1m : Option ℚ
  volume5m : Option ℚ
  volumeRatio1m : Option ℚ
  volumeRatio5m : Option ℚ
  vwap : Option ℚ
  aboveVwap : Option Bool
  ema5 : Option ℚ
  ema20 : Option ℚ
  rsi14 : Option ℚ
  sessionHighRef : Option ℚ
  sessionLowRef : Option ℚ
  sessionHighObs : ℚ
  sessionLowObs : ℚ
  deriving DecidableEq, Repr

/-- A normalized quote. `volume` and `turnover` are cumulative over the session. -/
structure MarketSnapshot where
  symbol : String
  price : ℚ
  openPrice : ℚ
  high : ℚ
  low : ℚ
  prevClose : ℚ
  volume : ℚ
  turnover : Option ℚ
  marketTimestamp : ℚ
  receivedTimestamp : ℚ
  deriving DecidableEq, Repr

structure WatchItem where
  symbol : String
  enabled : Bool := true
  deriving DecidableEq, Repr

/-- One directional episode as the rules composed it. -/
structure Signal where
  id : String
  eventIds : List String
  symbol : String
  family : String
  direction : EventDirection
  priority : SignalPriority
  title : String
  summary : String
  generatedBy : GeneratedBy
  marketTimestamp : ℚ
  receivedTimestamp : ℚ
  detectedTimestamp : ℚ
  signalCreatedTimestamp : ℚ
  expiresAt : Option ℚ := none
  deriving DecidableEq, Repr

structure SignalTrace where
  signalId : String
  eventIds : List String
  ruleNames : List String
  features : MarketFeatures
  family : String
  direction : EventDirection
  priority : SignalPriority
  priorityReason : String
  detectedTimestamp : ℚ
  signalCreatedTimestamp : ℚ
  deriving DecidableEq, Repr

/-- One feature snapshot through detect, dedupe, compose and cooldown. -/
structure SignalPipelineResult where
  acceptedEvents : List MarketEvent
  signalUpdates : List Signal
  traces : List SignalTrace
  alertCandidates : List Signal
  deriving DecidableEq, Repr

/-- The result of a call that processed nothing, `SignalPipelineResult((), (), (), ())`. -/
def SignalPipelineResult.empty : SignalPipelineResult := ⟨[], [], [], []⟩

structure MarketState where
  symbol : String
  latest : Option MarketSnapshot
  level : SchedulerLevel
  feedStatus : FeedStatus
  feedLatency : Option ℚ
  lastUpdateAge : Option ℚ
  features : Option MarketFeatures := none
  activeSignals : List Signal := []
  deriving DecidableEq, Repr

end MarketSentinel
