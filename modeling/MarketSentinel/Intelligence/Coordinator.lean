import Mathlib.Data.List.Dedup
import MarketSentinel.Intelligence.Router
import MarketSentinel.Lib.Dict
import MarketSentinel.Runtime.Results
import MarketSentinel.Telemetry.Contract

/-!
# The intelligence coordinator

`intelligence/coordinator.py` between `start` and `shutdown`, one definition for each method. A
worker task is either at `queue.get()` (`waiting` counts those) or awaits the model call of one
work item (`busy`); all it does between two awaits is one step. `CoordinatorStep` has a step for
each `observe_tick`, each item taken from the queue, and each model call that ends.

The identity of a work item, and of its call, is its `serial`. `CoordinatorHistory` records what
happened; only the serial counter is read by a method, where the source allocates an object.
-/

namespace MarketSentinel

open Lib

/-! ## Work and its outcome -/

structure IntelligenceWork where
  signalId : String
  payload : IntelligenceInput
  generation : ℕ
  marketTimestamp : ℚ
  symbol : String
  family : String
  direction : String
  priority : String
  /-- The identity of the object. -/
  serial : ℕ
  deriving DecidableEq, Repr

/-- A worker at `await wait_for(call)`. -/
structure ModelCall where
  work : IntelligenceWork
  /-- `call.cancel()` was requested. -/
  cancelled : Bool := false
  deriving DecidableEq, Repr

structure ModelCompletion where
  worthHighlight : Bool
  reason : String
  confidence : ℚ
  summary : String
  tokenIn : Option ℤ := none
  tokenOut : Option ℤ := none
  deriving DecidableEq, Repr

/-- The classes of exception that `_reason_for` tells apart. -/
inductive CallError
  | timeout | malformed | rateLimit | intelligence | other
  deriving DecidableEq, Repr

/-- `_reason_for`. -/
def reasonFor : CallError → FallbackReason
  | .timeout => .timeout
  | .malformed => .malformed
  | .rateLimit => .rateLimited
  | .intelligence => .unavailable
  | .other => .transport

/-- How the awaited call ends: a completion, an `Exception`, a timeout among them, or a
`CancelledError`. -/
inductive CallOutcome
  | returned (completion : ModelCompletion) (parseS : ℚ)
  | raised (error : CallError)
  | cancelled
  deriving DecidableEq, Repr

/-- The counters of `IntelligenceDiagnostics`. -/
structure IntelligenceDiagnostics where
  routerDecisions : ℕ := 0
  requestsSubmitted : ℕ := 0
  requestsSuppressed : ℕ := 0
  modelCalls : ℕ := 0
  fallbackCount : ℕ := 0
  timeoutCount : ℕ := 0
  parseFailureCount : ℕ := 0
  rateLimitCount : ℕ := 0
  droppedBackpressure : ℕ := 0
  staleDiscard : ℕ := 0
  queueDepth : ℕ := 0
  deriving DecidableEq, Repr

/-- Ghost: what happened so far. -/
structure CoordinatorHistory where
  nextSerial : ℕ := 0
  /-- The items whose signal was retired after they were queued. -/
  retired : List ℕ := []
  /-- The signal ids that were queued, in order. -/
  submitted : List String := []
  /-- The signal ids that `provider.complete` was called for, in order. -/
  called : List String := []
  deriving DecidableEq, Repr

structure IntelligenceCoordinator where
  queueSize : ℤ := 8
  concurrency : ℕ := 1
  budget : EpisodeCallBudget := {}
  policy : RouterPolicy := {}
  telemetry : Option TelemetryRuntime := none
  registry : Dict String IntelligenceResult := Dict.empty
  diagnostics : IntelligenceDiagnostics := {}
  /-- `None` before `start`. -/
  queue : Option (List IntelligenceWork) := none
  waiting : ℕ := 0
  busy : List ModelCall := []
  calls : Dict String ℕ := Dict.empty
  lastPriority : Dict String SignalPriority := Dict.empty
  generation : Dict String ℕ := Dict.empty
  pending : Dict String ℕ := Dict.empty
  activeIds : List String := []
  inFlightTasks : Dict String ℕ := Dict.empty
  inFlight : ℕ := 0
  history : CoordinatorHistory := {}

/-- What an `observe_tick` call reads besides the tick. -/
structure ObserveEnv where
  /-- The wall time, for `expires_at`. -/
  now : ℚ
  feedStatusFor : String → FeedStatus
  /-- The time the router took for a signal. -/
  routerS : String → ℚ

namespace IntelligenceCoordinator

/-- `start`. -/
def start (c : IntelligenceCoordinator) : IntelligenceCoordinator :=
  match c.queue with
  | some _ => c
  | none => { c with queue := some [], waiting := max 1 c.concurrency }

/-! ## Telemetry -/

/-- The subject of a record: a signal, or the work made of it. -/
def episodeFields (name : TelemetryName) (symbol signalId family direction priority : String)
    (marketTimestamp : ℚ) (extra : TelemetryEvent → TelemetryEvent) (telemetryId runId : String)
    (created : ℚ) : TelemetryEvent :=
  extra
    { telemetryId := telemetryId
      name := name
      createdTimestamp := created
      runId := runId
      symbol := some symbol
      signalId := some signalId
      family := some family
      direction := some direction
      priority := some priority
      marketTimestamp := some marketTimestamp }

/-- `_emit`. -/
def emit (c : IntelligenceCoordinator) (name : TelemetryName) (signal : Signal)
    (extra : TelemetryEvent → TelemetryEvent := id) : IntelligenceCoordinator :=
  { c with
    telemetry := c.telemetry.map fun t =>
      t.emit (episodeFields name signal.symbol signal.id signal.family signal.direction.value
        signal.priority.value signal.marketTimestamp extra) }

/-- `_emit_latency`. -/
def emitLatency (c : IntelligenceCoordinator) (signal : Signal) (latencyS : ℚ)
    (stage : LatencyStage) : IntelligenceCoordinator :=
  c.emit .intelligenceLatency signal fun e =>
    { e with latencyS := some (max 0 latencyS), latencyStage := some stage }

/-- `_emit_work`. -/
def emitWork (c : IntelligenceCoordinator) (work : IntelligenceWork) (name : TelemetryName)
    (extra : TelemetryEvent → TelemetryEvent := id) : IntelligenceCoordinator :=
  { c with
    telemetry := c.telemetry.map fun t =>
      t.emit (episodeFields name work.symbol work.signalId work.family work.direction work.priority
        work.marketTimestamp extra) }

/-! ## Retirement -/

/-- `_cancel_in_flight`: a call that is still awaited is asked to cancel. -/
def cancelInFlight (c : IntelligenceCoordinator) (signalId : String) : IntelligenceCoordinator :=
  match c.inFlightTasks.get? signalId with
  | none => c
  | some task =>
    { c with
      busy := c.busy.map fun call =>
        if call.work.serial = task then { call with cancelled := true } else call }

/-- `_maybe_forget`. -/
def maybeForget (c : IntelligenceCoordinator) (signalId : String) : IntelligenceCoordinator :=
  if signalId ∈ c.activeIds then c
  else if 0 < c.pending.getD signalId 0 then c
  else
    { c with
      calls := c.calls.pop signalId
      lastPriority := c.lastPriority.pop signalId
      generation := c.generation.pop signalId
      pending := c.pending.pop signalId }

/-- The generation of an id moves on, and its row is dropped. -/
def advance (c : IntelligenceCoordinator) (signalId : String) : IntelligenceCoordinator :=
  { c with
    generation := c.generation.set signalId (c.generation.getD signalId 0 + 1)
    registry := c.registry.pop signalId }

/-- `_invalidate`. -/
def invalidate (c : IntelligenceCoordinator) (signalId : String) : IntelligenceCoordinator :=
  ((c.advance signalId).cancelInFlight signalId).maybeForget signalId

/-- The work in the queue and in the hands of the workers. -/
def outstanding (c : IntelligenceCoordinator) : List IntelligenceWork :=
  c.queue.getD [] ++ c.busy.map (·.work)

/-- The ids with a row in a table or in the registry. -/
def tracked (c : IntelligenceCoordinator) : List String :=
  (c.calls.keys ++ c.generation.keys ++ c.lastPriority.keys ++ c.pending.keys ++
    c.registry.keys).dedup

/-- The outstanding items whose signal is not in the active set. -/
def retiring (c : IntelligenceCoordinator) (activeIds : List String) : List ℕ :=
  (c.outstanding.filter fun work : IntelligenceWork => decide (work.signalId ∉ activeIds)).map
    (·.serial)

/-- The active set is replaced, and the registry pruned to it. -/
def prune (c : IntelligenceCoordinator) (activeIds : List String) : IntelligenceCoordinator :=
  { c with
    activeIds := activeIds
    registry := c.registry.filter fun id _ => decide (id ∈ activeIds)
    history := { c.history with retired := c.history.retired ++ c.retiring activeIds } }

/-- `_retire_inactive`. -/
def retireInactive (c : IntelligenceCoordinator) (activeIds : List String) :
    IntelligenceCoordinator :=
  let c := c.prune activeIds
  (c.tracked.filter fun id => decide (id ∉ activeIds)).foldl invalidate c

/-- `_work_is_live`. -/
def workIsLive (c : IntelligenceCoordinator) (work : IntelligenceWork) : Bool :=
  decide (work.signalId ∈ c.activeIds) &&
    decide (c.generation.get? work.signalId = some work.generation)

/-- `registry.put`. -/
def put (c : IntelligenceCoordinator) (result : IntelligenceResult) : IntelligenceCoordinator :=
  { c with registry := c.registry.set result.signalId result }

/-- `_store`. -/
def store (c : IntelligenceCoordinator) (work : IntelligenceWork) (result : IntelligenceResult) :
    IntelligenceCoordinator :=
  if c.workIsLive work then c.put result else c

/-- One item less is pending. -/
def discharge (c : IntelligenceCoordinator) (signalId : String) : IntelligenceCoordinator :=
  let remaining := (c.pending.getD signalId 0 : ℤ) - 1
  { c with
    pending :=
      if remaining ≤ 0 then c.pending.pop signalId else c.pending.set signalId remaining.toNat }

/-- `_release_pending`. -/
def releasePending (c : IntelligenceCoordinator) (signalId : String) : IntelligenceCoordinator :=
  (c.discharge signalId).maybeForget signalId

/-! ## Observation -/

/-- `queue.put_nowait` raises `QueueFull`; a size of zero or less is no bound. -/
def queueFull (c : IntelligenceCoordinator) (queue : List IntelligenceWork) : Bool :=
  decide (0 < c.queueSize) && decide (c.queueSize ≤ queue.length)

/-- The work item of a payload. -/
def workFor (c : IntelligenceCoordinator) (payload : IntelligenceInput) (signal : Signal) :
    IntelligenceWork where
  signalId := payload.signalId
  payload := payload
  generation := c.generation.getD payload.signalId 0 + 1
  marketTimestamp := signal.marketTimestamp
  symbol := signal.symbol
  family := signal.family
  direction := signal.direction.value
  priority := signal.priority.value
  serial := c.history.nextSerial

/-- A row without annotation. -/
def plainResult (signalId : String) (status : IntelligenceStatus) (modelCalls : ℕ) :
    IntelligenceResult where
  signalId := signalId
  status := status
  requested := true
  annotation := none
  fallbackReason := .none
  modelCalls := modelCalls

/-- An item is in the queue, and the tables count it. -/
def submit (c : IntelligenceCoordinator) (queue : List IntelligenceWork) (work : IntelligenceWork) :
    IntelligenceCoordinator :=
  let id := work.signalId
  let calls := c.calls.set id (c.calls.getD id 0 + 1)
  { c with
    queue := some (queue ++ [work])
    generation := c.generation.set id work.generation
    calls := calls
    lastPriority := c.lastPriority.set id work.payload.priority
    pending := c.pending.set id (c.pending.getD id 0 + 1)
    diagnostics := { c.diagnostics with requestsSubmitted := c.diagnostics.requestsSubmitted + 1 }
    registry := c.registry.set id (plainResult id .queued (calls.getD id 0))
    history :=
      { c.history with
        nextSerial := c.history.nextSerial + 1
        submitted := c.history.submitted ++ [id] } }

def dropWork (c : IntelligenceCoordinator) : IntelligenceCoordinator :=
  { c with
    diagnostics := { c.diagnostics with droppedBackpressure := c.diagnostics.droppedBackpressure + 1 } }

/-- `_enqueue`, for the payload of a signal. -/
def enqueue (c : IntelligenceCoordinator) (payload : IntelligenceInput) (signal : Signal) :
    Bool × IntelligenceCoordinator :=
  match c.queue with
  | none => (false, c)
  | some queue =>
    if c.queueFull queue then (false, c.dropWork)
    else (true, c.submit queue (c.workFor payload signal))

/-- `_ROUTER_SKIP`. -/
def routerSkip : FallbackReason → Option DecisionReason
  | .expiredEpisode => some .expiredEpisode
  | .suppressedEdge => some .suppressedEdge
  | .staleFeed => some .staleFeed
  | .insufficientFeatures => some .insufficientFeatures
  | .notCandidate => some .notCandidate
  | .episodeBudget => some .episodeBudget
  | _ => none

/-- The payload of a signal of a row. -/
def payloadFor (c : IntelligenceCoordinator) (feed : FeedStatus) (row : SymbolTickResult)
    (signal : Signal) (trace : SignalTrace) : IntelligenceInput :=
  compressIntelligenceInput signal trace feed
    (decide (signal.id ∈ row.alertCandidates.map (·.id))) (c.calls.getD signal.id 0)
    (c.lastPriority.get? signal.id) (decide (signal.id ∉ c.activeIds))

/-- The trace of a signal in a row; the last one wins, as in the source's dictionary. -/
def traceIn (row : SymbolTickResult) (signal : Signal) : Option SignalTrace :=
  row.traces.reverse.find? fun t => decide (t.signalId = signal.id)

def countDecision (c : IntelligenceCoordinator) : IntelligenceCoordinator :=
  { c with
    diagnostics := { c.diagnostics with routerDecisions := c.diagnostics.routerDecisions + 1 } }

def countSuppressed (c : IntelligenceCoordinator) : IntelligenceCoordinator :=
  { c with
    diagnostics :=
      { c.diagnostics with requestsSuppressed := c.diagnostics.requestsSuppressed + 1 } }

/-- One signal of a row in the loop of `observe_tick`. -/
def observeSignal (env : ObserveEnv) (row : SymbolTickResult) (c : IntelligenceCoordinator)
    (signal : Signal) : IntelligenceCoordinator :=
  match traceIn row signal with
  | none => c
  | some trace =>
    let payload := c.payloadFor (env.feedStatusFor row.symbol) row signal trace
    let decision := needIntelligence payload c.policy c.budget
    let c := c.countDecision
    if !decision.requested then
      let c := c.countSuppressed
      -- Some reasons are only counted, the others are reported as well.
      match routerSkip decision.reason with
      | none => c
      | some skip =>
        (c.emit .intelligenceSkipped signal fun e => { e with decisionReason := some skip }).emitLatency
          signal (env.routerS signal.id) .router
    else
      let (queued, c) := c.enqueue payload signal
      if queued then
        (c.emit .intelligenceRouted signal).emitLatency signal (env.routerS signal.id) .router
      else c

/-- The signals of a tick whose `expires_at` has passed. -/
def expiredIds (now : ℚ) (tick : EngineTickResult) : List String :=
  tick.symbolResults.flatMap fun row =>
    (row.signalUpdates.filter fun s => decide (∃ t ∈ s.expiresAt, t ≤ now)).map (·.id)

/-- The active ids of a tick: those given, or the ids of its signals, without the expired ones. -/
def currentActive (now : ℚ) (tick : EngineTickResult) (activeIds : Option (List String)) :
    List String :=
  (activeIds.getD (tick.symbolResults.flatMap fun row => row.signalUpdates.map (·.id))).filter
    fun id => decide (id ∉ expiredIds now tick)

/-- One row of a tick. -/
def observeRow (env : ObserveEnv) (c : IntelligenceCoordinator) (row : SymbolTickResult) :
    IntelligenceCoordinator :=
  row.signalUpdates.foldl (observeSignal env row) c

/-- The depth of the queue, for the diagnostics. -/
def measureDepth (c : IntelligenceCoordinator) : IntelligenceCoordinator :=
  match c.queue with
  | none => c
  | some queue => { c with diagnostics := { c.diagnostics with queueDepth := queue.length } }

/-- `observe_tick`. -/
def observeTick (c : IntelligenceCoordinator) (env : ObserveEnv) (tick : EngineTickResult)
    (activeIds : Option (List String)) : IntelligenceCoordinator :=
  (tick.symbolResults.foldl (observeRow env)
    (c.retireInactive (currentActive env.now tick activeIds))).measureDepth

/-! ## The workers -/

def discard (c : IntelligenceCoordinator) : IntelligenceCoordinator :=
  { c with diagnostics := { c.diagnostics with staleDiscard := c.diagnostics.staleDiscard + 1 } }

/-- The end of `_run`: the item is released, and its worker goes back to the queue. -/
def release (c : IntelligenceCoordinator) (work : IntelligenceWork) : IntelligenceCoordinator :=
  let c := c.releasePending work.signalId
  { c with waiting := c.waiting + 1 }

def dequeue (c : IntelligenceCoordinator) (queue : List IntelligenceWork) (waiting : ℕ) :
    IntelligenceCoordinator :=
  { c with queue := some queue, waiting := waiting }

/-- `provider.complete` is called for an item. -/
def call (c : IntelligenceCoordinator) (work : IntelligenceWork) : IntelligenceCoordinator :=
  { c with
    busy := c.busy ++ [ModelCall.mk work false]
    inFlightTasks := c.inFlightTasks.set work.signalId work.serial
    inFlight := c.inFlight + 1
    diagnostics := { c.diagnostics with modelCalls := c.diagnostics.modelCalls + 1 }
    history := { c.history with called := c.history.called ++ [work.signalId] } }

/-- A worker takes the head of the queue and runs `_execute` up to its await. Nothing can retire the
item between the two liveness checks of the source. -/
def take (c : IntelligenceCoordinator) : Option IntelligenceCoordinator :=
  match c.queue, c.waiting with
  | some (work :: queue), waiting + 1 =>
    let c := c.dequeue queue waiting
    if c.workIsLive work then
      some ((c.call work).store work
        (plainResult work.signalId .running (c.calls.getD work.signalId 0)))
    else some (c.discard.release work)
  | _, _ => none

/-- The row of a completed call. -/
def enrichedResult (c : IntelligenceCoordinator) (work : IntelligenceWork)
    (completion : ModelCompletion) (wall elapsed : ℚ) : IntelligenceResult :=
  { plainResult work.signalId .enriched (c.calls.getD work.signalId 0) with
    annotation :=
      some
        { signalId := work.signalId
          worthHighlight := completion.worthHighlight
          reason := completion.reason
          confidence := completion.confidence
          summary := completion.summary
          createdTimestamp := wall }
    modelLatencyS := some elapsed }

/-- The row of a failed call. -/
def fallbackResult (c : IntelligenceCoordinator) (work : IntelligenceWork) (error : CallError)
    (elapsed : ℚ) : IntelligenceResult :=
  { plainResult work.signalId .fallback (c.calls.getD work.signalId 0) with
    fallbackReason := reasonFor error
    modelLatencyS := some elapsed }

/-- The records of a completed call. -/
def emitSucceeded (c : IntelligenceCoordinator) (work : IntelligenceWork)
    (completion : ModelCompletion) (elapsed parseS : ℚ) : IntelligenceCoordinator :=
  let c := c.emitWork work .intelligenceSucceeded fun e =>
    { e with intelligenceStatus := some IntelligenceStatus.enriched.value }
  let c := c.emitWork work .intelligenceLatency fun e =>
    { e with latencyS := some (max 0 elapsed), latencyStage := some .model }
  let c := c.emitWork work .intelligenceLatency fun e =>
    { e with latencyS := some (max 0 parseS), latencyStage := some .parse }
  if completion.tokenIn.isSome || completion.tokenOut.isSome then
    c.emitWork work .intelligenceTokenUsage fun e =>
      { e with tokenIn := completion.tokenIn, tokenOut := completion.tokenOut }
  else c

/-- The records of a failed call. -/
def emitFallback (c : IntelligenceCoordinator) (work : IntelligenceWork) (error : CallError)
    (elapsed : ℚ) : IntelligenceCoordinator :=
  let c := c.emitWork work .intelligenceFallback fun e =>
    { e with
      intelligenceStatus := some IntelligenceStatus.fallback.value
      fallbackReason := some (reasonFor error).value }
  c.emitWork work .intelligenceLatency fun e =>
    { e with latencyS := some (max 0 elapsed), latencyStage := some .model }

/-- The counters of a failed call. -/
def countFallback (c : IntelligenceCoordinator) (error : CallError) : IntelligenceCoordinator :=
  let d := { c.diagnostics with fallbackCount := c.diagnostics.fallbackCount + 1 }
  { c with
    diagnostics :=
      match error with
      | .timeout => { d with timeoutCount := d.timeoutCount + 1 }
      | .malformed => { d with parseFailureCount := d.parseFailureCount + 1 }
      | .rateLimit => { d with rateLimitCount := d.rateLimitCount + 1 }
      | _ => d }

/-- `_execute` after its await, up to the `finally`. A call that was cancelled is no shutdown. -/
def conclude (c : IntelligenceCoordinator) (work : IntelligenceWork) (outcome : CallOutcome)
    (wall elapsed : ℚ) : IntelligenceCoordinator :=
  match outcome with
  | .cancelled => c.discard
  | .returned completion parseS =>
    if c.workIsLive work then
      (c.store work (c.enrichedResult work completion wall elapsed)).emitSucceeded work completion
        elapsed parseS
    else c.discard
  | .raised error =>
    -- A failure counts even when the item is no longer live.
    let c := c.countFallback error
    if c.workIsLive work then
      (c.store work (c.fallbackResult work error elapsed)).emitFallback work error elapsed
    else c.discard

/-- The `finally` of `_execute`, for the `i`-th busy worker. -/
def hangUp (c : IntelligenceCoordinator) (i : ℕ) (work : IntelligenceWork) :
    IntelligenceCoordinator :=
  { c with
    busy := c.busy.eraseIdx i
    inFlightTasks := c.inFlightTasks.pop work.signalId
    inFlight := c.inFlight - 1 }

/-- The model call of the `i`-th busy worker ends: the rest of `_execute`, its `finally`, and the
end of `_run`. -/
def settle (c : IntelligenceCoordinator) (i : ℕ) (outcome : CallOutcome) (wall elapsed : ℚ) :
    Option IntelligenceCoordinator :=
  match c.busy[i]? with
  | none => none
  | some call =>
    some (((c.conclude call.work outcome wall elapsed).hangUp i call.work).release call.work)

end IntelligenceCoordinator

/-- The steps of a coordinator between `start` and `shutdown`. -/
inductive CoordinatorStep
  | observe (env : ObserveEnv) (tick : EngineTickResult) (activeIds : Option (List String))
  | take
  | settle (i : ℕ) (outcome : CallOutcome) (wall elapsed : ℚ)

namespace IntelligenceCoordinator

def step (c : IntelligenceCoordinator) : CoordinatorStep → Option IntelligenceCoordinator
  | .observe env tick activeIds => some (c.observeTick env tick activeIds)
  | .take => c.take
  | .settle i outcome wall elapsed => c.settle i outcome wall elapsed

end IntelligenceCoordinator

end MarketSentinel
