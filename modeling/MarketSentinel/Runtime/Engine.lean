import MarketSentinel.Features.Engine
import MarketSentinel.Health.FeedHealth
import MarketSentinel.Intelligence.Coordinator
import MarketSentinel.MarketData.State
import MarketSentinel.Scheduler.Scheduler
import MarketSentinel.Signals.Pipeline
import MarketSentinel.Watchlist.Watchlist

/-!
# The market engine

`runtime/engine.py`. A tick awaits once, at `fetch_quotes`, so that it is two steps: `beginTick`
runs up to that await, and `endTick` from there to the end. `TickPlan` is what the coroutine
remembers in between.

Each place at which a tick reads the monotonic clock has a reading of its own (`EngineRead`).
-/

namespace MarketSentinel

open Lib

/-- The places of a tick at which the monotonic clock is read, for one symbol. -/
inductive EngineRead
  | peekBefore | observe | peekAfter | keepAlive | markFetched | setLevel | status | updateAge
  | projectStatus | projectAge | feedStatus
  deriving DecidableEq, Repr

structure EngineDiagnostics where
  outOfOrderCount : ℕ := 0
  duplicateTimestampCount : ℕ := 0
  recoveryCount : ℕ := 0
  lastFetchError : Option String := none
  deriving DecidableEq, Repr

/-- The pipeline holds the telemetry runtime of the engine. -/
structure MarketEngine where
  watchlist : Watchlist := {}
  scheduler : AdaptiveScheduler := {}
  buffers : SymbolBuffers := {}
  states : MarketStateStore := {}
  health : FeedHealthTracker := {}
  featureEngine : FeatureEngine := {}
  pipeline : SignalPipeline := {}
  warming : WarmingConfig := {}
  intelligence : Option IntelligenceCoordinator := none
  fetchedSymbols : List String := []
  diagnostics : EngineDiagnostics := {}

/-- How `fetch_quotes` ends: an exception, of which the name of its type is kept, or quotes. -/
inductive FetchOutcome
  | raised (typeName : String)
  | quotes (snapshots : List MarketSnapshot)
  deriving DecidableEq, Repr

/-- What a `process` call that raises may leave of a pipeline that it would turn into `full`: no
signal is active that is active in neither. -/
def SignalPipeline.Partial (p full : SignalPipeline) : Type :=
  { left : SignalPipeline // ∀ symbol, ∀ signal ∈ left.composer.activeSignals symbol,
      ∃ signal' ∈ p.composer.activeSignals symbol ++ full.composer.activeSignals symbol,
        signal'.id = signal.id }

/-- `process`, which may raise for a reason outside the model. -/
def SignalPipeline.attempt (p : SignalPipeline) (env : PipelineEnv)
    (raise : (p full : SignalPipeline) → Option (p.Partial full)) (previous : Option MarketFeatures)
    (current : MarketFeatures) : Option ProcessResult × SignalPipeline :=
  let r := p.process env previous current
  match raise p r.2 with
  | none => r
  | some left => (none, left.1)

/-- What the rest of a tick reads from the clocks and `uuid4`, and the exceptions in it. -/
structure TickEnv where
  mono : EngineRead → String → ℚ
  pipeline : String → PipelineEnv
  /-- `compute` raises for a symbol, for a reason outside the model. -/
  featuresRaise : String → Bool := fun _ => false
  /-- `process` raises for a symbol, for a reason outside the model, and what it leaves. -/
  pipelineRaise : String → (p full : SignalPipeline) → Option (p.Partial full) := fun _ _ _ => none
  /-- The wall time of `observe_tick`. -/
  now : ℚ
  /-- The time that the router took for a signal. -/
  routerS : String → ℚ

/-- The locals of a tick that awaits its quotes. -/
structure TickPlan where
  enabled : List String
  due : List String
  deriving DecidableEq, Repr

namespace MarketEngine

/-! ## Fetching -/

/-- `health.observe(symbol, error=...)`. -/
def observeError (e : MarketEngine) (env : TickEnv) (symbol : String) : MarketEngine :=
  { e with health := e.health.observe (env.mono .observe symbol) symbol none }

def markFetched (e : MarketEngine) (env : TickEnv) (symbol : String) : MarketEngine :=
  { e with scheduler := e.scheduler.markFetched (env.mono .markFetched symbol) symbol }

/-- A due symbol of a provider whose source is exhausted. -/
def keepAlive (e : MarketEngine) (env : TickEnv) (symbol : String) : MarketEngine :=
  { e with health := e.health.keepAlive (env.mono .keepAlive symbol) symbol }

def countOutOfOrder (e : MarketEngine) : MarketEngine :=
  { e with diagnostics := { e.diagnostics with outOfOrderCount := e.diagnostics.outOfOrderCount + 1 } }

/-- Count a quote with the time of the latest one. -/
def countDuplicate (e : MarketEngine) (latest : Option MarketSnapshot) (snapshot : MarketSnapshot) :
    MarketEngine :=
  if ∃ last ∈ latest, snapshot.marketTimestamp = last.marketTimestamp then
    { e with
      diagnostics :=
        { e.diagnostics with
          duplicateTimestampCount := e.diagnostics.duplicateTimestampCount + 1 } }
  else e

/-- Count a feed that is back. -/
def countRecovery (e : MarketEngine) (before after : FeedStatus) : MarketEngine :=
  if (before = .stale ∨ before = .disconnected) ∧ (after = .live ∨ after = .delayed) then
    { e with diagnostics := { e.diagnostics with recoveryCount := e.diagnostics.recoveryCount + 1 } }
  else e

/-- The writes of a quote that is kept. -/
def keepQuote (e : MarketEngine) (env : TickEnv) (symbol : String) (snapshot : MarketSnapshot) :
    MarketEngine :=
  { e with
    buffers := e.buffers.append snapshot
    states := e.states.updateLatest snapshot
    health := e.health.observe (env.mono .observe symbol) symbol (some snapshot)
    fetchedSymbols := e.fetchedSymbols ++ [symbol] }

/-- `_ingest_snapshot`: a quote that is older than the latest one is suppressed. -/
def ingestSnapshot (e : MarketEngine) (env : TickEnv) (symbol : String) (snapshot : MarketSnapshot) :
    MarketEngine :=
  let previousStatus := e.health.peekStatus (env.mono .peekBefore symbol) symbol
  let latest := e.buffers.latest symbol
  if ∃ last ∈ latest, snapshot.marketTimestamp < last.marketTimestamp then
    e.countOutOfOrder.observeError env symbol
  else
    let e := (e.countDuplicate latest snapshot).keepQuote env symbol snapshot
    e.countRecovery previousStatus (e.health.peekStatus (env.mono .peekAfter symbol) symbol)

/-- The quote of a symbol; the last one wins, as in the source's dictionary. -/
def quoteOf (snapshots : List MarketSnapshot) (symbol : String) : Option MarketSnapshot :=
  snapshots.reverse.find? fun item => decide (item.symbol = symbol)

/-- One due symbol after the fetch. -/
def bookSymbol (env : TickEnv) (snapshots : List MarketSnapshot) (e : MarketEngine)
    (symbol : String) : MarketEngine :=
  (match quoteOf snapshots symbol with
    | none => e.observeError env symbol
    | some snapshot => e.ingestSnapshot env symbol snapshot).markFetched env symbol

def setFetchError (e : MarketEngine) (error : Option String) : MarketEngine :=
  { e with diagnostics := { e.diagnostics with lastFetchError := error } }

/-- `_fetch_due` after its await. -/
def bookFetch (e : MarketEngine) (env : TickEnv) (due : List String) : FetchOutcome → MarketEngine
  | .raised typeName =>
    due.foldl (fun e symbol => (e.observeError env symbol).markFetched env symbol)
      (e.setFetchError (some typeName))
  | .quotes snapshots => due.foldl (bookSymbol env snapshots) (e.setFetchError none)

/-- `_fetch_due` on an exhausted source, which does not await. -/
def bookExhausted (e : MarketEngine) (env : TickEnv) (due : List String) : MarketEngine :=
  due.foldl (fun e symbol => (e.keepAlive env symbol).markFetched env symbol) e

/-! ## Processing -/

/-- What is projected into the state of a symbol. -/
def reading (e : MarketEngine) (symbol : String) (level : SchedulerLevel) (status age : ℚ) :
    RuntimeReading where
  level := level
  feedStatus := e.health.peekStatus status symbol
  feedLatency := e.health.feedLatency symbol
  lastUpdateAge := e.health.lastUpdateAge age symbol

/-- `health.status`, for its side effect. -/
def touchStatus (e : MarketEngine) (now : ℚ) (symbol : String) : MarketEngine :=
  { e with health := (e.health.status now symbol).2 }

def applyRuntime (e : MarketEngine) (symbol : String) (r : RuntimeReading)
    (produced : Option (Option MarketFeatures × List Signal) := none) : MarketEngine :=
  { e with states := e.states.applyRuntime symbol r produced }

/-- `_project_health`. -/
def projectHealth (env : TickEnv) (e : MarketEngine) (symbol : String) : MarketEngine :=
  let r := e.reading symbol (e.scheduler.getLevel symbol) (env.mono .projectStatus symbol)
    (env.mono .projectAge symbol)
  (e.touchStatus (env.mono .projectStatus symbol) symbol).applyRuntime symbol r

def setPipeline (e : MarketEngine) (p : SignalPipeline) : MarketEngine := { e with pipeline := p }

def setScheduler (e : MarketEngine) (s : AdaptiveScheduler) : MarketEngine := { e with scheduler := s }

/-- `_tick_result`. -/
def tickResult (e : MarketEngine) (symbol : String) (levelBefore : SchedulerLevel)
    (features : Option MarketFeatures) (pipeline : SignalPipelineResult) : SymbolTickResult where
  symbol := symbol
  features := features
  acceptedEvents := pipeline.acceptedEvents
  signalUpdates := pipeline.signalUpdates
  traces := pipeline.traces
  alertCandidates := pipeline.alertCandidates
  levelBefore := levelBefore
  levelAfter := e.scheduler.getLevel symbol

/-- The row of a symbol of which only the health is projected. -/
def processNothing (e : MarketEngine) (env : TickEnv) (symbol : String) (levelBefore : SchedulerLevel)
    (withFeatures : Bool) : SymbolTickResult × MarketEngine :=
  let e := projectHealth env e symbol
  let features := if withFeatures then (e.states.get symbol).bind (·.features) else none
  (e.tickResult symbol levelBefore features .empty, e)

/-- The warming and state stages of `_process_symbol`. -/
def processResult (e : MarketEngine) (env : TickEnv) (symbol : String) (levelBefore : SchedulerLevel)
    (features : Option MarketFeatures) (r : SignalPipelineResult) : SymbolTickResult × MarketEngine :=
  let request := e.warming.request symbol features r.acceptedEvents
  let e := e.setScheduler (e.scheduler.setLevel (env.mono .setLevel symbol) symbol request.level).2
  let reading := e.reading symbol (e.scheduler.getLevel symbol) (env.mono .status symbol)
    (env.mono .updateAge symbol)
  let e := (e.touchStatus (env.mono .status symbol) symbol).applyRuntime symbol reading
    (some (features, r.signalUpdates))
  (e.tickResult symbol levelBefore features r, e)

/-- The features stage. -/
def runFeatures (e : MarketEngine) (env : TickEnv) (symbol : String) (buffer : RingBuffer) :
    Except PyError (Option MarketFeatures) :=
  if env.featuresRaise symbol then .error .valueError else e.featureEngine.compute buffer

/-- The pipeline stage; the result is `none` when it raises. -/
def runPipeline (e : MarketEngine) (env : TickEnv) (symbol : String) (features : MarketFeatures) :
    Option SignalPipeline.ProcessResult × SignalPipeline :=
  e.pipeline.attempt (env.pipeline symbol) (env.pipelineRaise symbol)
    ((e.states.get symbol).bind (·.features)) features

/-- The features and pipeline stages of `_process_symbol`. An exception of either projects the health
of the symbol only. -/
def processBuffer (e : MarketEngine) (env : TickEnv) (symbol : String) (levelBefore : SchedulerLevel)
    (buffer : RingBuffer) : SymbolTickResult × MarketEngine :=
  match e.runFeatures env symbol buffer with
  | .error _ => e.processNothing env symbol levelBefore true
  | .ok none => e.processResult env symbol levelBefore none .empty
  | .ok (some features) =>
    match e.runPipeline env symbol features with
    | (none, p) => (e.setPipeline p).processNothing env symbol levelBefore true
    | (some r, p) => (e.setPipeline p).processResult env symbol levelBefore (some features) r.result

/-- `_process_symbol`. -/
def processSymbol (e : MarketEngine) (env : TickEnv) (symbol : String) :
    SymbolTickResult × MarketEngine :=
  let levelBefore := e.scheduler.getLevel symbol
  if symbol ∉ e.fetchedSymbols then e.processNothing env symbol levelBefore true
  else
    match e.buffers.buffer symbol with
    | none => e.processNothing env symbol levelBefore false
    | some buffer => e.processBuffer env symbol levelBefore buffer

/-! ## A tick -/

/-- One turn of the loop over the due symbols. -/
def processNext (env : TickEnv) (r : List SymbolTickResult × MarketEngine) (symbol : String) :
    List SymbolTickResult × MarketEngine :=
  let (row, e) := r.2.processSymbol env symbol
  (r.1 ++ [row], e)

/-- The loop over the enabled symbols that were not due. -/
def projectOthers (e : MarketEngine) (env : TickEnv) (plan : TickPlan) : MarketEngine :=
  (plan.enabled.filter fun symbol => decide (symbol ∉ plan.due)).foldl (projectHealth env) e

/-- The ids of the signals in the states of the listed symbols. -/
def activeIds (e : MarketEngine) : List String :=
  e.watchlist.list.flatMap fun item => (e.states.signalsOf item.symbol).map (·.id)

def observeEnv (e : MarketEngine) (env : TickEnv) : ObserveEnv where
  now := env.now
  feedStatusFor symbol := e.health.peekStatus (env.mono .feedStatus symbol) symbol
  routerS := env.routerS

def setIntelligence (e : MarketEngine) (c : IntelligenceCoordinator) : MarketEngine :=
  { e with intelligence := some c }

/-- The coordinator observes the tick; it asks for the feed status of each row. -/
def observeTick (e : MarketEngine) (env : TickEnv) (tick : EngineTickResult) : MarketEngine :=
  match e.intelligence with
  | none => e
  | some c =>
    tick.symbolResults.foldl (fun e row => e.touchStatus (env.mono .feedStatus row.symbol) row.symbol)
      (e.setIntelligence (c.observeTick (e.observeEnv env) tick (some e.activeIds)))

/-- A tick from its quotes on. -/
def finishTick (e : MarketEngine) (env : TickEnv) (plan : TickPlan) : EngineTickResult × MarketEngine :=
  let (rows, e) := plan.due.foldl (processNext env) ([], e)
  let tick : EngineTickResult := ⟨rows⟩
  (tick, (e.projectOthers env plan).observeTick env tick)

/-- `tick` up to `fetch_quotes`; `due` is the monotonic time at which the due symbols are asked for. -/
def beginTick (e : MarketEngine) (due : ℚ) : TickPlan × MarketEngine :=
  let enabled := e.watchlist.enabledSymbols
  (⟨enabled, e.scheduler.dueSymbols due enabled⟩, { e with fetchedSymbols := [] })

/-- The rest of a tick, from the end of its await. -/
def endTick (e : MarketEngine) (env : TickEnv) (plan : TickPlan) (outcome : FetchOutcome) :
    EngineTickResult × MarketEngine :=
  (e.bookFetch env plan.due outcome).finishTick env plan

/-- The rest of a tick that fetches nothing: no symbol is due, or the source is exhausted. -/
def endIdleTick (e : MarketEngine) (env : TickEnv) (plan : TickPlan) :
    EngineTickResult × MarketEngine :=
  (e.bookExhausted env plan.due).finishTick env plan

/-! ## Ingesting -/

/-- Write the diagnostics alone. -/
def setDiagnostics (e : MarketEngine) (d : EngineDiagnostics) : MarketEngine := { e with diagnostics := d }

/-- **A quote is suppressed, or kept with some change of the diagnostics.** -/
theorem ingestSnapshot_cases (e : MarketEngine) (env : TickEnv) (symbol : String) (snapshot : MarketSnapshot) :
    ((∃ last ∈ e.buffers.latest symbol, snapshot.marketTimestamp < last.marketTimestamp) ∧
      ∃ d, e.ingestSnapshot env symbol snapshot = (e.setDiagnostics d).observeError env symbol) ∨
    ((∀ last ∈ e.buffers.latest symbol, last.marketTimestamp ≤ snapshot.marketTimestamp) ∧
      ∃ d, e.ingestSnapshot env symbol snapshot = (e.keepQuote env symbol snapshot).setDiagnostics d) := by
  unfold ingestSnapshot
  dsimp only
  split
  · next hold => exact .inl ⟨hold, _, rfl⟩
  · next hlate =>
    refine .inr ⟨fun last hlast => not_lt.1 fun hlt => hlate ⟨last, hlast, hlt⟩, ?_⟩
    unfold countRecovery countDuplicate
    split <;> split <;> exact ⟨_, rfl⟩

end MarketEngine

end MarketSentinel
