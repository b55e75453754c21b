import MarketSentinel.Ipc.Mapping
import MarketSentinel.MarketData.Normalizer

/-!
# The capability reads

`capabilities/api.py` and `capabilities/views.py`. An argument is what Python may be given for it. Each place at
which a read looks at a clock has a reading of its own for each symbol.
-/

namespace MarketSentinel

open Lib

/-! ## Views -/

structure SymbolFeedHealth where
  symbol : String
  status : String
  feedLatencyS : Option ℚ
  lastUpdateAgeS : Option ℚ
  deriving DecidableEq, Repr

structure FeedHealthReport where
  aggregateStatus : String
  symbols : List SymbolFeedHealth
  deriving DecidableEq, Repr

structure EventView where
  id : String
  symbol : String
  eventType : String
  direction : String
  severity : ℤ
  marketTimestamp : ℚ
  detectedTimestamp : ℚ
  ruleName : String
  deriving DecidableEq, Repr

theorem no_events_bounded : ([] : List EventView).length ≤ 200 := Nat.zero_le _

/-- The events, oldest first. -/
structure RecentEventsBuffer where
  maxlen : ℕ := 200
  events : List EventView := []
  bounded : events.length ≤ maxlen := by exact no_events_bounded

namespace RecentEventsBuffer

def view (event : MarketEvent) : EventView where
  id := event.id
  symbol := event.symbol
  eventType := event.type.value
  direction := event.direction.value
  severity := event.severity
  marketTimestamp := event.marketTimestamp
  detectedTimestamp := event.detectedTimestamp
  ruleName := event.ruleName

/-- `deque.append`: the oldest events make room. -/
def append (b : RecentEventsBuffer) (event : EventView) : RecentEventsBuffer where
  maxlen := b.maxlen
  events := (b.events ++ [event]).drop (b.events.length + 1 - b.maxlen)
  bounded := by
    have h := b.bounded
    simp only [List.length_drop, List.length_append, List.length_singleton]
    omega

/-- `observe_tick`. -/
def observeTick (b : RecentEventsBuffer) (tick : EngineTickResult) : RecentEventsBuffer :=
  (tick.symbolResults.flatMap (·.acceptedEvents)).foldl (fun b event => b.append (view event)) b

/-- `recent`, of a positive limit. -/
def recent (b : RecentEventsBuffer) (symbol : Option String) (limit : ℕ) : List EventView :=
  let rows := b.events.filter fun item => decide (∀ s ∈ symbol, item.symbol = s)
  rows.drop (rows.length - limit)

end RecentEventsBuffer

/-! ## Errors -/

inductive CapabilityErrorCode
  | notFound | invalidArgument | notRunning
  deriving DecidableEq, Repr

/-- A `CapabilityError`, or what Python raises for an argument of another type. -/
inductive ReadError
  | capability (code : CapabilityErrorCode) (message : String)
  | other (error : PyError)
  deriving DecidableEq, Repr

/-- `is_valid_symbol`: `match` takes a newline after the symbol. -/
def isValidSymbol (symbol : String) : Bool :=
  isSymbol symbol ||
    (decide (symbol.toList.getLast? = some '\n') && isSymbol (String.ofList symbol.toList.dropLast))

/-! ## Reads -/

/-- What a read finds outside the engine. -/
structure ReadEnv where
  /-- What `started` returns, if there is one. -/
  gate : Option Bool := none
  /-- `provider_source_exhausted`. -/
  exhausted : Bool := false
  /-- The monotonic time at which the status of a symbol is computed. -/
  status : String → ℚ
  /-- The monotonic time at which its age is. -/
  age : String → ℚ

namespace FeedHealthTracker

/-- The worst status so far, and one more. -/
def worseStatus (now : String → ℚ) (r : FeedStatus × FeedHealthTracker) (symbol : String) :
    FeedStatus × FeedHealthTracker :=
  let next := r.2.status (now symbol) symbol
  (if worst r.1 < worst next.1 then next.1 else r.1, next.2)

/-- `aggregate_status`, with a clock for each `status`. -/
def aggregateStatusAt (h : FeedHealthTracker) (now : String → ℚ) : List String → FeedStatus × FeedHealthTracker
  | [] => (.disconnected, h)
  | symbol :: symbols => symbols.foldl (worseStatus now) (h.status (now symbol) symbol)

end FeedHealthTracker

/-- `map_engine_state`, with a clock for each `status`. -/
def mapEngineStateAt (e : MarketEngine) (now : String → ℚ) (exhausted : Bool) : WireMarketState × MarketEngine :=
  let items := e.watchlist.list
  let symbols := items.map fun item => mapSymbolState item.symbol (e.states.get item.symbol) e.annotationOf
  let aggregate := e.health.aggregateStatusAt now e.watchlist.enabledSymbols
  ({ watchlistCount := items.length
     feedStatus := aggregate.1.value
     symbols := symbols
     intelligenceEnabled := e.intelligence.isSome
     replayComplete := exhausted
     lastMarketTimestamp := maxTimestamp (symbols.filterMap (·.marketTimestamp)) },
    { e with health := aggregate.2 })

/-- On a clock that stands still it is `map_engine_state` of the daemon. -/
theorem mapEngineStateAt_const (e : MarketEngine) (now : ℚ) (exhausted : Bool) :
    mapEngineStateAt e (fun _ => now) exhausted = mapEngineState e now exhausted := by
  have haggregate : ∀ symbols, e.health.aggregateStatusAt (fun _ => now) symbols =
      e.health.aggregateStatus now symbols := by
    intro symbols
    cases symbols <;> rfl
  unfold mapEngineStateAt mapEngineState
  rw [haggregate]

structure MarketCapabilities where
  engine : MarketEngine
  events : RecentEventsBuffer := {}

/-- One of the six reads, with its arguments. -/
inductive CapabilityRead
  | marketState
  | symbolState (symbol : Json)
  | activeSignals
  | signal (signalId : Json)
  | feedHealth
  | recentEvents (symbol limit : Json)

/-- What a read returns. -/
inductive CapabilityAnswer
  | marketState (state : WireMarketState)
  | symbolState (state : WireSymbolState)
  | activeSignals (groups : List (String × List WireSignal))
  | signal (signal : WireSignal)
  | feedHealth (report : FeedHealthReport)
  | recentEvents (events : List EventView)
  deriving DecidableEq

namespace MarketCapabilities

variable (c : MarketCapabilities)

/-- `_require_started`. -/
def requireStarted (env : ReadEnv) : Except ReadError Unit :=
  if env.gate = some false then .error (.capability .notRunning "core is not running") else .ok ()

/-- `_ensure_known_symbol`, with the symbol. -/
def ensureKnownSymbol : Json → Except ReadError String
  | .str symbol =>
    if !isValidSymbol symbol then
      .error (.capability .invalidArgument "invalid symbol format; expected e.g. 600519.SH")
    else if symbol ∈ c.engine.watchlist.list.map (·.symbol) then .ok symbol
    else .error (.capability .notFound ("symbol is not on the watchlist: " ++ symbol))
  | _ => .error (.capability .invalidArgument "invalid symbol format; expected e.g. 600519.SH")

/-- `get_market_state`, which leaves another engine. -/
def getMarketState (env : ReadEnv) : Except ReadError WireMarketState × MarketCapabilities :=
  match requireStarted env with
  | .error error => (.error error, c)
  | .ok () =>
    let mapped := mapEngineStateAt c.engine env.status env.exhausted
    (.ok mapped.1, { c with engine := mapped.2 })

def getSymbolState (env : ReadEnv) (symbol : Json) : Except ReadError WireSymbolState := do
  requireStarted env
  let symbol ← c.ensureKnownSymbol symbol
  return mapSymbolState symbol (c.engine.states.get symbol) c.engine.annotationOf

def getActiveSignals (env : ReadEnv) : Except ReadError (List (String × List WireSignal)) := do
  requireStarted env
  return c.engine.watchlist.list.filterMap fun item =>
    match c.engine.states.get item.symbol with
    | none => none
    | some state =>
      if state.activeSignals = [] then none
      else some (item.symbol, state.activeSignals.map fun s => mapSignal s (c.engine.annotationOf s.id))

/-- The first active signal of an id, over the watchlist. -/
def findSignal (signalId : String) : Option Signal :=
  c.engine.watchlist.list.findSome? fun item =>
    (c.engine.states.get item.symbol).bind fun state => state.activeSignals.find? fun s => decide (s.id = signalId)

def getSignal (env : ReadEnv) : Json → Except ReadError WireSignal
  | .str signalId => do
    requireStarted env
    if isBlank signalId then .error (.capability .invalidArgument "signal_id must be a non-empty string")
    else
      match c.findSignal signalId with
      | some signal => return mapSignal signal (c.engine.annotationOf signalId)
      | none => .error (.capability .notFound ("signal not found: " ++ signalId))
  | _ => do
    requireStarted env
    .error (.capability .invalidArgument "signal_id must be a non-empty string")

/-- The first of the worst statuses. -/
def worstStatus : List FeedStatus → FeedStatus
  | [] => .disconnected
  | status :: statuses => statuses.foldl (fun r status => if worst r < worst status then status else r) status

def getFeedHealth (env : ReadEnv) : Except ReadError FeedHealthReport := do
  requireStarted env
  let symbols := c.engine.watchlist.list.map (·.symbol)
  let status := fun symbol => c.engine.health.peekStatus (env.status symbol) symbol
  return {
    aggregateStatus := (worstStatus (symbols.map status)).value
    symbols := symbols.map fun symbol =>
      { symbol := symbol
        status := (status symbol).value
        feedLatencyS := c.engine.health.feedLatency symbol
        lastUpdateAgeS := c.engine.health.lastUpdateAge (env.age symbol) symbol } }

/-- `MAX_RECENT_EVENTS`. -/
def maxRecentEvents : ℤ := 200

/-- The limit of `get_recent_events`. -/
def checkLimit : Json → Except ReadError ℕ
  | .int limit =>
    if 1 ≤ limit ∧ limit ≤ maxRecentEvents then .ok limit.toNat
    else .error (.capability .invalidArgument ("limit must be an integer in [1, " ++ toString maxRecentEvents ++ "]"))
  | _ => .error (.capability .invalidArgument ("limit must be an integer in [1, " ++ toString maxRecentEvents ++ "]"))

/-- The symbol of `get_recent_events`. -/
def checkFilter : Json → Except ReadError (Option String)
  | .null => .ok none
  | .str symbol =>
    if isValidSymbol symbol then .ok (some symbol)
    else .error (.capability .invalidArgument "invalid symbol format; expected e.g. 600519.SH")
  | _ => .error (.other .typeError)

def getRecentEvents (env : ReadEnv) (symbol limit : Json) : Except ReadError (List EventView) := do
  requireStarted env
  let limit ← checkLimit limit
  return c.events.recent (← checkFilter symbol) limit

/-- One read, and what it leaves. -/
def perform (env : ReadEnv) : CapabilityRead → Except ReadError CapabilityAnswer × MarketCapabilities
  | .marketState => ((c.getMarketState env).1.map .marketState, (c.getMarketState env).2)
  | .symbolState symbol => ((c.getSymbolState env symbol).map .symbolState, c)
  | .activeSignals => ((c.getActiveSignals env).map .activeSignals, c)
  | .signal signalId => ((c.getSignal env signalId).map .signal, c)
  | .feedHealth => ((c.getFeedHealth env).map .feedHealth, c)
  | .recentEvents symbol limit => ((c.getRecentEvents env symbol limit).map .recentEvents, c)

/-- What a sequence of reads leaves. -/
def performAll (c : MarketCapabilities) (reads : List (CapabilityRead × ReadEnv)) : MarketCapabilities :=
  reads.foldl (fun c read => (c.perform read.2 read.1).2) c

end MarketCapabilities

end MarketSentinel
