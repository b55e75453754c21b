import MarketSentinel.Ipc.Codec
import MarketSentinel.Runtime.Engine

/-!
# The wire form of the state and the alerts

`intelligence/view.py`, `ipc/dto.py` and `ipc/mapping.py`.
-/

namespace MarketSentinel

open Lib TelemetryEvent

/-! ## dto -/

/-- The annotation of a signal. -/
structure WireIntelligence where
  status : String
  summary : Option String := none
  reason : Option String := none
  confidence : Option ℚ := none
  fallbackReason : Option String := none
  worthHighlight : Option Bool := none
  deriving DecidableEq, Repr

/-- A signal. -/
structure WireSignal where
  id : String
  family : String
  direction : String
  priority : String
  title : String
  summary : String
  intelligence : Option WireIntelligence := none
  deriving DecidableEq, Repr

/-- The state of a symbol. -/
structure WireSymbolState where
  symbol : String
  price : Option ℚ
  schedulerLevel : String
  feedStatus : String
  change1m : Option ℚ
  change5m : Option ℚ
  change15m : Option ℚ
  volumeRatio1m : Option ℚ
  volumeRatio5m : Option ℚ
  ema5 : Option ℚ
  ema20 : Option ℚ
  rsi14 : Option ℚ
  vwap : Option ℚ
  activeSignals : List WireSignal
  changeDay : Option ℚ := none
  aboveVwap : Option Bool := none
  sessionHighObs : Option ℚ := none
  sessionLowObs : Option ℚ := none
  sessionHighRef : Option ℚ := none
  sessionLowRef : Option ℚ := none
  marketTimestamp : Option ℚ := none
  deriving DecidableEq, Repr

/-- The state of all symbols. -/
structure WireMarketState where
  watchlistCount : ℕ
  feedStatus : String
  symbols : List WireSymbolState
  intelligenceEnabled : Bool := false
  replayComplete : Bool := false
  lastMarketTimestamp : Option ℚ := none
  deriving DecidableEq, Repr

/-- A candidate, with its signal. -/
structure WireAlertCandidate where
  id : String
  symbol : String
  family : String
  direction : String
  priority : String
  title : String
  summary : String
  deriving DecidableEq, Repr

/-- A member that is left out when there is no value. -/
def member {A : Type} (key : String) (encode : A → Json) : Option A → Message
  | none => []
  | some x => [(key, encode x)]

def number (q : ℚ) : Json := .float (.finite q)

/-- A member that is left out when it is false. -/
def flag (key : String) (b : Bool) : Message := if b then [(key, .bool true)] else []

namespace WireIntelligence

def toWire (i : WireIntelligence) : Json :=
  .obj ([("status", .str i.status)] ++ member "summary" .str i.summary ++ member "reason" .str i.reason ++
    member "confidence" number i.confidence ++ member "fallback_reason" .str i.fallbackReason ++
    member "worth_highlight" .bool i.worthHighlight)

end WireIntelligence

namespace WireSignal

def toWire (s : WireSignal) : Json :=
  .obj ([("id", .str s.id), ("family", .str s.family), ("direction", .str s.direction),
    ("priority", .str s.priority), ("title", .str s.title), ("summary", .str s.summary)] ++
    member "intelligence" WireIntelligence.toWire s.intelligence)

end WireSignal

namespace WireSymbolState

def toWire (s : WireSymbolState) : Json :=
  .obj ([("symbol", .str s.symbol), ("price", numberField s.price),
    ("scheduler_level", .str s.schedulerLevel), ("feed_status", .str s.feedStatus),
    ("change_1m", numberField s.change1m), ("change_5m", numberField s.change5m),
    ("change_15m", numberField s.change15m), ("volume_ratio_1m", numberField s.volumeRatio1m),
    ("volume_ratio_5m", numberField s.volumeRatio5m), ("ema5", numberField s.ema5),
    ("ema20", numberField s.ema20), ("rsi14", numberField s.rsi14), ("vwap", numberField s.vwap),
    ("active_signals", .list (s.activeSignals.map WireSignal.toWire))] ++
    member "change_day" number s.changeDay ++ member "above_vwap" .bool s.aboveVwap ++
    member "session_high_obs" number s.sessionHighObs ++
    member "session_low_obs" number s.sessionLowObs ++
    member "session_high_ref" number s.sessionHighRef ++
    member "session_low_ref" number s.sessionLowRef ++
    member "market_timestamp" number s.marketTimestamp)

end WireSymbolState

namespace WireMarketState

def toWire (s : WireMarketState) : Json :=
  .obj ([("watchlist_count", .int s.watchlistCount), ("feed_status", .str s.feedStatus),
    ("symbols", .list (s.symbols.map WireSymbolState.toWire))] ++
    flag "intelligence_enabled" s.intelligenceEnabled ++ flag "replay_complete" s.replayComplete ++
    member "last_market_timestamp" number s.lastMarketTimestamp)

end WireMarketState

namespace WireAlertCandidate

def toWire (c : WireAlertCandidate) : Json :=
  .obj [("id", .str c.id), ("symbol", .str c.symbol), ("family", .str c.family),
    ("direction", .str c.direction), ("priority", .str c.priority), ("title", .str c.title),
    ("summary", .str c.summary)]

end WireAlertCandidate

/-! ## mapping -/

/-- `intelligence_view`. -/
def intelligenceView (result : Option IntelligenceResult) (signalId : String) : IntelligenceResult :=
  result.getD
    { signalId := signalId
      status := .notRequested
      requested := false
      annotation := none
      fallbackReason := .none
      modelCalls := 0 }

/-- `map_intelligence`. -/
def mapIntelligence (result : Option IntelligenceResult) (signalId : String) :
    Option WireIntelligence :=
  let view := intelligenceView result signalId
  if view.status = .notRequested then none
  else
    some
      { status := view.status.value
        summary := view.annotation.map (·.summary)
        reason := view.annotation.map (·.reason)
        confidence := view.annotation.map (·.confidence)
        fallbackReason := if view.fallbackReason = .none then none else some view.fallbackReason.value
        worthHighlight := view.annotation.map (·.worthHighlight) }

/-- `map_signal`. -/
def mapSignal (signal : Signal) (intelligence : Option IntelligenceResult) : WireSignal where
  id := signal.id
  family := signal.family
  direction := signal.direction.value
  priority := signal.priority.value
  title := signal.title
  summary := signal.summary
  intelligence := mapIntelligence intelligence signal.id

/-- `map_alert_candidate`. -/
def mapAlertCandidate (signal : Signal) : WireAlertCandidate where
  id := signal.id
  symbol := signal.symbol
  family := signal.family
  direction := signal.direction.value
  priority := signal.priority.value
  title := signal.title
  summary := signal.summary

/-- `map_symbol_state`. -/
def mapSymbolState (symbol : String) (state : Option MarketState)
    (intelligenceOf : String → Option IntelligenceResult) : WireSymbolState :=
  let features := state.bind (·.features)
  let latest := state.bind (·.latest)
  { symbol := symbol
    price := latest.map (·.price)
    -- A symbol without a state is cold and disconnected.
    schedulerLevel := ((state.map MarketState.level).getD .cold).value
    feedStatus := ((state.map MarketState.feedStatus).getD .disconnected).value
    change1m := features.bind (·.change1m)
    change5m := features.bind (·.change5m)
    change15m := features.bind (·.change15m)
    volumeRatio1m := features.bind (·.volumeRatio1m)
    volumeRatio5m := features.bind (·.volumeRatio5m)
    ema5 := features.bind (·.ema5)
    ema20 := features.bind (·.ema20)
    rsi14 := features.bind (·.rsi14)
    vwap := features.bind (·.vwap)
    activeSignals :=
      ((state.map (·.activeSignals)).getD []).map fun item => mapSignal item (intelligenceOf item.id)
    changeDay := features.bind (·.changeDay)
    aboveVwap := features.bind (·.aboveVwap)
    sessionHighObs := features.map (·.sessionHighObs)
    sessionLowObs := features.map (·.sessionLowObs)
    sessionHighRef := features.bind (·.sessionHighRef)
    sessionLowRef := features.bind (·.sessionLowRef)
    marketTimestamp := latest.map (·.marketTimestamp) }

/-- `max(timestamps) if timestamps else None`. -/
def maxTimestamp : List ℚ → Option ℚ
  | [] => none
  | t :: ts => some (ts.foldl max t)

/-- `engine.intelligence.registry.get`, when there is a coordinator. -/
def MarketEngine.annotationOf (e : MarketEngine) (signalId : String) : Option IntelligenceResult :=
  e.intelligence.bind fun c => c.registry.get? signalId

/-- `map_engine_state` at a monotonic time. The aggregate status is remembered by the health tracker;
of an empty list it is `DISCONNECTED`. `exhausted` is whether the provider's source is. -/
def mapEngineState (e : MarketEngine) (now : ℚ) (exhausted : Bool) : WireMarketState × MarketEngine :=
  let items := e.watchlist.list
  let symbols := items.map fun item =>
    mapSymbolState item.symbol (e.states.get item.symbol) e.annotationOf
  let (feed, health) := e.health.aggregateStatus now e.watchlist.enabledSymbols
  ({ watchlistCount := items.length
     feedStatus := feed.value
     symbols := symbols
     intelligenceEnabled := e.intelligence.isSome
     replayComplete := exhausted
     lastMarketTimestamp := maxTimestamp (symbols.filterMap (·.marketTimestamp)) },
    { e with health := health })

/-- `map_tick_alerts`: the candidates, and the market time of the last one. -/
def mapTickAlerts (tick : EngineTickResult) : List WireAlertCandidate × Option ℚ :=
  let alerts := tick.symbolResults.flatMap (·.alertCandidates)
  (alerts.map mapAlertCandidate, alerts.getLast?.map (·.marketTimestamp))

end MarketSentinel
