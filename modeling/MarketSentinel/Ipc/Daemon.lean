import MarketSentinel.Ipc.Mapping
import MarketSentinel.Telemetry.Host

/-!
# The daemon's commands

`ipc/daemon.py`: `_dispatch_line` and the handlers. What is written to stdout is a list of messages;
an exception of a handler is an error of the result. The two tasks of the daemon are in
`Ipc/Tasks.lean`.
-/

namespace MarketSentinel

open Lib

/-- `__version__`. -/
def coreVersion : String := "0.7.0"

structure Daemon where
  engine : MarketEngine
  phase : DaemonPhase := .awaitingHello
  shutdown : Bool := false
  /-- The feedback that was stored. -/
  feedback : List UserFeedbackFact := []
  written : List Message := []

/-- What a command reads besides the line. -/
structure DispatchEnv where
  py : PyText
  /-- The monotonic time of `aggregate_status`. -/
  now : ℚ
  /-- `provider_source_exhausted`. -/
  exhausted : Bool
  /-- `record_feedback` returns. -/
  stored : Bool

/-- The record of a host interaction. -/
def hostFields (fact : HostInteractionFact) (telemetryId runId : String) (created : ℚ) :
    TelemetryEvent where
  telemetryId := telemetryId
  name := fact.name
  createdTimestamp := fact.createdTimestamp.getD created
  runId := runId
  signalId := fact.signalId
  hostAction := some fact.hostAction

/-- One item of `set_watchlist`: the message of the error, or the item. -/
def parseItem : Json → String ⊕ WatchItem
  | .obj raw =>
    match Json.field raw "symbol" with
    | .str symbol =>
      if symbol = "" then .inl "each item needs a non-empty symbol"
      else
        match (raw.lookup "enabled").getD (.bool true) with
        | .bool enabled => .inr { symbol := symbol, enabled := enabled }
        | _ => .inl "enabled must be a boolean"
    | _ => .inl "each item needs a non-empty symbol"
  | _ => .inl "each item needs a non-empty symbol"

/-- The items of `set_watchlist`, up to the first error. -/
def parseItems : List Json → String ⊕ List WatchItem
  | [] => .inr []
  | raw :: rest =>
    match parseItem raw with
    | .inl message => .inl message
    | .inr item =>
      match parseItems rest with
      | .inl message => .inl message
      | .inr items => .inr (item :: items)

def WatchlistError.code : WatchlistError → ErrorCode
  | .full _ => .watchlistFull
  | .duplicate _ => .duplicateSymbol

namespace Daemon

def send (d : Daemon) (m : Message) : Daemon := { d with written := d.written ++ [m] }

def setPhase (d : Daemon) (phase : DaemonPhase) : Daemon := { d with phase := phase }

def setEngine (d : Daemon) (e : MarketEngine) : Daemon := { d with engine := e }

/-- An error that answers a request. -/
def refuse (d : Daemon) (id : String) (code : ErrorCode) (message : String) : Daemon :=
  d.send (encodeError code message (some id))

def ack (d : Daemon) (id : String) (fields : Message := []) : Daemon :=
  d.send (encodeMessage "ack" (some id) fields)

/-- `_require_ready`, and the rest of a handler. -/
def ifReady {A : Type} (d : Daemon) (id : String) (ret : Daemon → A) (rest : A) : A :=
  if d.phase = .awaitingHello then ret (d.refuse id .notReady "hello is required first") else rest

/-! ## Handlers -/

/-- `_hello`. -/
def hello (d : Daemon) (id : String) : Daemon :=
  (if d.phase = .awaitingHello then d.setPhase .ready else d).send
    (encodeMessage "ready" (some id) [("core_version", .str coreVersion)])

/-- `_start`. -/
def start (d : Daemon) (id : String) : Daemon :=
  d.ifReady id (fun d => d) <|
    if d.phase = .paused then d.refuse id .paused "daemon is paused; send resume"
    else (d.setPhase .running).ack id

/-- `_pause`. -/
def pause (d : Daemon) (id : String) : Daemon :=
  d.ifReady id (fun d => d) <|
    if d.phase = .ready then d.refuse id .notStarted "start is required before pause"
    else (d.setPhase .paused).ack id

/-- `_resume`. -/
def resume (d : Daemon) (id : String) : Daemon :=
  d.ifReady id (fun d => d) <|
    if d.phase = .ready then d.refuse id .notStarted "start is required before resume"
    else (d.setPhase .running).ack id

/-- `watchlist.replace` and the answer. -/
def replaceItems (d : Daemon) (id : String) (items : List WatchItem) : Daemon :=
  match d.engine.watchlist.replace items with
  | .error e => d.refuse id e.code e.message
  | .ok watchlist =>
    (d.setEngine { d.engine with watchlist := watchlist }).ack id
      [("watchlist_count", .int watchlist.list.length)]

/-- `_set_watchlist`. -/
def setWatchlist (d : Daemon) (id : String) (command : Message) : Daemon :=
  d.ifReady id (fun d => d) <|
    match Json.field command "items" with
    | .list raw =>
      match parseItems raw with
      | .inl message => d.refuse id .invalidPayload message
      | .inr items => d.replaceItems id items
    | _ => d.refuse id .invalidPayload "items must be a list"

/-- `_get_state`. -/
def getState (d : Daemon) (env : DispatchEnv) (id : String) : Daemon :=
  d.ifReady id (fun d => d) <|
    let (state, engine) := mapEngineState d.engine env.now env.exhausted
    (d.setEngine engine).send (encodeMessage "state" (some id) [("state", state.toWire)])

/-- `telemetry.emit` of a host interaction. -/
def emitHost (d : Daemon) (fact : HostInteractionFact) : Daemon :=
  d.setEngine (d.engine.setPipeline (d.engine.pipeline.emit (hostFields fact)))

/-- `_host_interaction`. -/
def hostInteraction (d : Daemon) (env : DispatchEnv) (id : String) (command : Message) :
    Except PyError Daemon :=
  d.ifReady id .ok do
    match ← parseHostInteraction env.py command with
    | .inl message => return d.refuse id .invalidPayload message
    | .inr fact => return (d.emitHost fact).ack id

/-- `_user_feedback`. -/
def userFeedback (d : Daemon) (env : DispatchEnv) (id : String) (command : Message) :
    Except PyError Daemon :=
  d.ifReady id .ok do
    match ← parseUserFeedback env.py command with
    | .inl message => return d.refuse id .invalidPayload message
    | .inr fact =>
      if env.stored then return { d with feedback := d.feedback ++ [fact] }.ack id
      else return d.refuse id .invalidPayload "feedback storage failed"

/-- `_shutdown_sync`. -/
def shutdownSync (d : Daemon) (id : Option String) : Daemon :=
  { d with phase := .shuttingDown, shutdown := true }.send (encodeMessage "shutdown_ack" id [])

/-- The handler of a command of a known type. -/
def handle (d : Daemon) (env : DispatchEnv) (command : Message) (type id : String) :
    Except PyError Daemon :=
  if type = "shutdown" then .ok (d.shutdownSync (some id))
  else if d.phase = .shuttingDown then .ok (d.refuse id .shuttingDown "daemon is shutting down")
  else if type = "hello" then .ok (d.hello id)
  else if type = "start" then .ok (d.start id)
  else if type = "pause" then .ok (d.pause id)
  else if type = "resume" then .ok (d.resume id)
  else if type = "set_watchlist" then .ok (d.setWatchlist id command)
  else if type = "get_state" then .ok (d.getState env id)
  else if type = "host_interaction" then d.hostInteraction env id command
  else d.userFeedback env id command

/-- `_dispatch_line`. -/
def dispatchLine (d : Daemon) (env : DispatchEnv) (line : String) : Except PyError Daemon :=
  match decodeLine env.py line with
  | .blank => .ok d
  | .error message => .ok (d.send message)
  | .command fields type =>
    let requestId := textOf (Json.field fields "request_id")
    -- An unknown type is answered even without an id.
    if type ∉ hostCommands then
      .ok (d.send (encodeError .unknownType ("unknown type: " ++ type) requestId))
    else
      match requestId with
      | none => .ok (d.send (encodeError .missingRequestId "request_id is required" none))
      | some id =>
        if id = "" then .ok (d.send (encodeError .missingRequestId "request_id is required" none))
        else d.handle env fields type id

end Daemon

end MarketSentinel
