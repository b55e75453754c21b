import MarketSentinel.Ipc.Daemon
import MarketSentinel.Runtime.Session

/-!
# The two tasks of the daemon

`run`, `_stdin_loop`, `_tick_loop` and `_emit_tick` of `ipc/daemon.py`. The reader awaits a line and
then the lock; the ticker awaits the lock, the quotes of a tick under the lock, and its sleep.
What stands between two awaits is one step. The workers of the coordinator step at any time.
-/

namespace MarketSentinel

open Lib Machine TelemetryEvent

/-- A state that nobody asked for. -/
def stateMessage (state : WireMarketState) : Message :=
  encodeMessage "state" none [("state", state.toWire)]

/-- `map_tick_alerts`, as it is sent. -/
def alertMessage (candidates : List WireAlertCandidate) (marketTimestamp : Option ℚ) : Message :=
  encodeMessage "alert" none [("candidates", .list (candidates.map WireAlertCandidate.toWire)),
    ("market_timestamp", numberField marketTimestamp)]

/-- `_emit_tick`. -/
def Daemon.emitTick (d : Daemon) (now : ℚ) (exhausted : Bool) (tick : EngineTickResult) : Daemon :=
  let (state, engine) := mapEngineState d.engine now exhausted
  let d := (d.setEngine engine).send (stateMessage state)
  let (candidates, marketTimestamp) := mapTickAlerts tick
  if candidates = [] then d else d.send (alertMessage candidates marketTimestamp)

/-- Where `_stdin_loop` stands. -/
inductive ReaderAt
  | reading
  /-- A line is there, and the lock is awaited; the end of input is the empty line. -/
  | holding (line : String)
  | returned

/-- Where `_tick_loop` stands. -/
inductive TickerAt
  | waiting
  /-- `fetch_quotes` is awaited. Ghost: the watchlist when the tick began. -/
  | fetching (plan : TickPlan) (watchlist : Watchlist)
  | sleeping
  | returned

def TickerAt.isWaiting : TickerAt → Bool
  | .waiting => true
  | _ => false

/-- Ghost: what a tick asked for, processed and pushed, and the watchlist when it began. -/
structure TickRecord where
  watchlist : Watchlist
  requested : List String
  processed : List String
  pushed : WireMarketState

/-- The daemon with its two tasks. -/
structure DaemonTasks where
  daemon : Daemon
  reader : ReaderAt := .reading
  ticker : TickerAt := .waiting
  locked : Bool := false
  ticks : List TickRecord := []

/-- A step of one of the tasks, or of the sidecar. -/
inductive TaskStep
  /-- `readline` returns. -/
  | line (text : String)
  /-- The reader gets the lock. -/
  | dispatch (env : DispatchEnv)
  /-- `readline` raises, or the reader is cancelled. -/
  | abort
  /-- The ticker gets the lock, and awaits the quotes of a tick. -/
  | begin (due : ℚ)
  /-- The rest of that tick. -/
  | finish (env : TickEnv) (outcome : FetchOutcome) (now : ℚ) (exhausted : Bool)
  /-- The ticker gets the lock, and does a tick that fetches nothing. -/
  | idle (due : ℚ) (env : TickEnv) (now : ℚ) (exhausted : Bool)
  /-- The ticker gets the lock, and there is nothing to run. -/
  | skip
  /-- The sleep of the ticker ends. -/
  | wake
  | worker (w : WorkerStep)

namespace DaemonTasks

/-- Before `run`. -/
def start (engine : MarketEngine) : DaemonTasks where
  daemon := { engine := engine }

def phase (s : DaemonTasks) : DaemonPhase := s.daemon.phase

def written (s : DaemonTasks) : List Message := s.daemon.written

def engine (s : DaemonTasks) : MarketEngine := s.daemon.engine

/-- The reader has returned or raised: the `finally` of `run`. The ticker is cancelled where it
awaits, which releases the lock. -/
def leave (s : DaemonTasks) (d : Daemon) : DaemonTasks :=
  { s with
    daemon := { d with phase := .shuttingDown, shutdown := true }
    reader := .returned
    ticker := .returned
    locked := false }

/-- The reader goes on to the next line. -/
def nextLine (s : DaemonTasks) (d : Daemon) : DaemonTasks :=
  { s with daemon := d, reader := .reading }

/-- The body of `_stdin_loop` under the lock. -/
def handleLine (s : DaemonTasks) (env : DispatchEnv) (line : String) : DaemonTasks :=
  if line = "" then s.leave (s.daemon.shutdownSync none)
  else
    match s.daemon.dispatchLine env line with
    | .error _ => s.leave s.daemon
    | .ok d => if d.phase = .shuttingDown ∨ d.shutdown = true then s.leave d else s.nextLine d

/-- The end of a tick of a plan: `_emit_tick`, the release of the lock, and the sleep. -/
def push (s : DaemonTasks) (watchlist : Watchlist) (plan : TickPlan) (now : ℚ) (exhausted : Bool)
    (r : EngineTickResult × MarketEngine) : DaemonTasks :=
  { s with
    daemon := (s.daemon.setEngine r.2).emitTick now exhausted r.1
    ticker := .sleeping
    locked := false
    ticks := s.ticks ++ [
      { watchlist := watchlist
        requested := plan.due
        processed := r.1.symbolResults.map (·.symbol)
        pushed := (mapEngineState r.2 now exhausted).1 }] }

/-- The ticker holds the lock, at the await of a tick. -/
def fetch (s : DaemonTasks) (r : TickPlan × MarketEngine) : DaemonTasks :=
  { s with
    daemon := s.daemon.setEngine r.2
    ticker := .fetching r.1 s.engine.watchlist
    locked := true }

def setTicker (s : DaemonTasks) (t : TickerAt) : DaemonTasks := { s with ticker := t }

def setEngine (s : DaemonTasks) (e : MarketEngine) : DaemonTasks :=
  { s with daemon := s.daemon.setEngine e }

/-- The ticker can take the lock. -/
def Free (s : DaemonTasks) : Prop := s.locked = false ∧ s.ticker.isWaiting = true

instance (s : DaemonTasks) : Decidable s.Free := inferInstanceAs (Decidable (_ ∧ _))

/-- A step, where the two tasks stand so that it can be taken. -/
def step (s : DaemonTasks) : TaskStep → Option DaemonTasks
  | .line text =>
    match s.reader with
    | .reading => some { s with reader := .holding text }
    | _ => none
  -- A line that was read waits for the lock, which a tick holds while it fetches.
  | .dispatch env =>
    match s.reader with
    | .holding text => if s.locked then none else some (s.handleLine env text)
    | _ => none
  | .abort =>
    match s.reader with
    | .returned => none
    | _ => some (s.leave s.daemon)
  | .begin due =>
    let r := s.engine.beginTick due
    if s.Free ∧ s.phase = .running ∧ r.1.due ≠ [] then some (s.fetch r) else none
  | .finish env outcome now exhausted =>
    match s.ticker with
    | .fetching plan watchlist =>
      some (s.push watchlist plan now exhausted (s.engine.endTick env plan outcome))
    | _ => none
  | .idle due env now exhausted =>
    let r := s.engine.beginTick due
    if s.Free ∧ s.phase = .running then
      some (s.push s.engine.watchlist r.1 now exhausted (r.2.endIdleTick env r.1))
    else none
  | .skip =>
    if s.Free ∧ s.phase ≠ .running then
      some (s.setTicker (if s.phase = .shuttingDown then .returned else .sleeping))
    else none
  | .wake =>
    match s.ticker with
    | .sleeping => some (s.setTicker (if s.daemon.shutdown then .returned else .waiting))
    | _ => none
  | .worker w => (s.engine.work w).map s.setEngine

end DaemonTasks

end MarketSentinel
