import Mathlib
import MarketSentinel.Lib.Dict
import MarketSentinel.Extension.Guards

/-!
# The IPC client

`ipc/jsonl.ts` and `ipc/client.ts` of the editor extension. A promise is its place in the order of
the requests, and every call of its `resolve` or `reject` is logged; a timer is the number of
`setTimeout` calls before it, and fires only while it is armed. `JSON.parse` is a parameter. The
handlers are named by numbers, and what they are called with is logged.
-/

namespace MarketSentinel.Extension

open Lib

/-! ## jsonl -/

/-- The characters that `trim` removes. -/
def isJsSpace (c : Char) : Bool :=
  c ∈ [' ', '\t', '\n', '\u000b', '\u000c', '\r', '\u00a0', '\u1680', '\u2028', '\u2029', '\u202f',
    '\u205f', '\u3000', '\ufeff'] || ('\u2000' ≤ c && c ≤ '\u200a')

/-- `line.endsWith("\r") ? line.slice(0, -1) : line`. -/
def withoutReturn (line : List Char) : List Char :=
  if line.getLast? = some '\r' then line.dropLast else line

/-- `JsonlDecoder.push`: the lines that are complete, and the new buffer. -/
def JsonlDecoder.push (buffer : List Char) (chunk : String) : List String × List Char :=
  let parts := (buffer ++ chunk.toList).splitOn '\n'
  let lines := (parts.dropLast.map withoutReturn).filter fun line => !line.all isJsSpace
  (lines.map String.ofList, parts.getLast?.getD [])

/-! ## client -/

/-- `HostCommandType`. -/
inductive HostCommandType
  | hello | start | pause | resume | setWatchlist | getState | hostInteraction | userFeedback | shutdown
  deriving DecidableEq, Repr

def HostCommandType.value : HostCommandType → String
  | .hello => "hello"
  | .start => "start"
  | .pause => "pause"
  | .resume => "resume"
  | .setWatchlist => "set_watchlist"
  | .getState => "get_state"
  | .hostInteraction => "host_interaction"
  | .userFeedback => "user_feedback"
  | .shutdown => "shutdown"

/-- `EXPECTED_RESPONSE`. -/
def expectedResponse : HostCommandType → CoreMessageType
  | .hello => .ready
  | .getState => .state
  | .shutdown => .shutdownAck
  | .start | .pause | .resume | .setWatchlist | .hostInteraction | .userFeedback => .ack

/-- `HostCommandBody`: the type and the other members. -/
structure HostCommandBody where
  type : HostCommandType
  fields : Message := []

/-- The classes of `errors.ts`. -/
inductive ClientError
  | protocol (code message : String) (requestId : Option String)
  | timeout (requestId : String) (timeoutMs : ℕ)
  | disconnected (message : String)
  deriving DecidableEq

/-- A call of `resolve` or `reject`. -/
inductive Settlement
  | resolved (message : CoreMessage)
  | rejected (error : ClientError)
  deriving DecidableEq

structure PendingRequest where
  expectedType : CoreMessageType
  promise : ℕ
  timer : ℕ
  deriving DecidableEq

/-- What the callback of a timer closes over. -/
structure RequestTimer where
  requestId : String
  promise : ℕ
  timeoutMs : ℕ
  deriving DecidableEq

/-- Ghost: a call of `request`; without an id it was rejected at once. -/
structure RequestRecord where
  type : HostCommandType
  requestId : Option String
  deriving DecidableEq

/-- What a handler is called with. -/
inductive Delivery
  | state (message : CoreMessage)
  | alert (message : CoreMessage)
  | error (error : ClientError)
  deriving DecidableEq

/-- The three sets of handlers. -/
inductive HandlerKind
  | state | alert | error
  deriving DecidableEq

structure IpcClient where
  helloTimeoutMs : ℕ := 10000
  defaultTimeoutMs : ℕ := 5000
  buffer : List Char := []
  pending : Dict String PendingRequest := .empty
  handlers : HandlerKind → List ℕ := fun _ => []
  seq : ℕ := 0
  closed : Bool := false
  /-- The armed timers. -/
  timers : Dict ℕ RequestTimer := .empty
  timersSet : ℕ := 0
  written : List Message := []
  requests : List RequestRecord := []
  settlements : List (ℕ × Settlement) := []
  delivered : List (ℕ × Delivery) := []
  /-- Ghost: the messages that were dispatched. -/
  received : List CoreMessage := []

/-- `r${n}`. -/
def defaultId (n : ℕ) : String := "r" ++ n.repr

namespace IpcClient

/-- `resolve` or `reject` is called. -/
def settle (c : IpcClient) (promise : ℕ) (s : Settlement) : IpcClient :=
  { c with settlements := c.settlements ++ [(promise, s)] }

def clearTimeout (c : IpcClient) (timer : ℕ) : IpcClient := { c with timers := c.timers.pop timer }

/-- The handlers of a kind are called. -/
def deliver (c : IpcClient) (kind : HandlerKind) (d : Delivery) : IpcClient :=
  { c with delivered := c.delivered ++ (c.handlers kind).map fun h => (h, d) }

def emitProtocolError (c : IpcClient) (error : ClientError) : IpcClient :=
  c.deliver .error (.error error)

def timeoutMs (c : IpcClient) (type : HostCommandType) : ℕ :=
  if type = .hello then c.helloTimeoutMs else c.defaultTimeoutMs

def request (c : IpcClient) (body : HostCommandBody) : IpcClient :=
  let promise := c.requests.length
  -- A closed client rejects at once and writes nothing.
  if c.closed then
    settle { c with requests := c.requests ++ [⟨body.type, none⟩] } promise
      (.rejected (.disconnected "ipc disconnected"))
  else
    let id := defaultId (c.seq + 1)
    { c with
      seq := c.seq + 1
      timersSet := c.timersSet + 1
      requests := c.requests ++ [⟨body.type, some id⟩]
      timers := c.timers.set c.timersSet ⟨id, promise, c.timeoutMs body.type⟩
      pending := c.pending.set id ⟨expectedResponse body.type, promise, c.timersSet⟩
      written := c.written ++
        [[("protocol_version", .int protocolVersion), ("request_id", .str id), ("type", .str body.type.value)] ++
          body.fields] }

def clearPending (c : IpcClient) (requestId : String) : IpcClient :=
  match c.pending.get? requestId with
  | none => c
  | some pending => { c.clearTimeout pending.timer with pending := c.pending.pop requestId }

def rejectPending (c : IpcClient) (requestId : String) (error : ClientError) : IpcClient :=
  match c.pending.get? requestId with
  | none => c
  | some pending => (c.clearPending requestId).settle pending.promise (.rejected error)

/-- The loop of `rejectAll`. -/
def rejectItem (error : ClientError) (c : IpcClient) (item : PendingRequest) : IpcClient :=
  (c.clearTimeout item.timer).settle item.promise (.rejected error)

def rejectAll (c : IpcClient) (error : ClientError) : IpcClient :=
  c.pending.values.foldl (rejectItem error) { c with pending := .empty }

/-- The part of `dispatchMessage` after the messages that nobody asked for. -/
def dispatchResponse (c : IpcClient) (message : CoreMessage) : IpcClient :=
  match message.requestId.bind fun id => (c.pending.get? id).map fun pending => (id, pending) with
  | some (requestId, pending) =>
    match message with
    -- An error answers any request; another message must have the type that was asked for.
    | .error _ code text => c.rejectPending requestId (.protocol code text (some requestId))
    | _ =>
      if message.type ≠ pending.expectedType then
        c.rejectPending requestId
          (.protocol "unexpected_type"
            ("expected " ++ pending.expectedType.value ++ ", got " ++ message.type.value)
            (some requestId))
      else (c.clearPending requestId).settle pending.promise (.resolved message)
  | none =>
    match message with
    | .error requestId code text => c.emitProtocolError (.protocol code text requestId)
    | _ =>
      c.emitProtocolError
        (.protocol "unknown_request_id"
          ("no pending request for " ++ message.requestId.getD "missing id") message.requestId)

def dispatchMessage (c : IpcClient) (message : CoreMessage) : IpcClient :=
  let c := { c with received := c.received ++ [message] }
  match message with
  | .alert .. => c.deliver .alert (.alert message)
  | .state none _ => c.deliver .state (.state message)
  | _ => c.dispatchResponse message

/-- `dispatchLine`, with what `JSON.parse` makes of the line; `none` is the `SyntaxError`. -/
def dispatchLine (c : IpcClient) (raw : Option Json) : IpcClient :=
  match raw with
  | none => c.emitProtocolError (.protocol "invalid_json" "line is not valid JSON" none)
  | some raw =>
    match parseCoreMessage raw with
    | .ok message => c.dispatchMessage message
    | .error failure =>
      let requestId := failure.requestId.or (peekRequestId (some raw))
      let error := .protocol "malformed_response" failure.error requestId
      match requestId with
      | none => c.emitProtocolError error
      | some id =>
        if (c.pending.get? id).isSome then c.rejectPending id error else c.emitProtocolError error

def feed (c : IpcClient) (parse : String → Option Json) (chunk : String) : IpcClient :=
  let (lines, buffer) := JsonlDecoder.push c.buffer chunk
  lines.foldl (fun c line => c.dispatchLine (parse line)) { c with buffer := buffer }

def notifyClosed (c : IpcClient) (reason : String) : IpcClient :=
  { c.rejectAll (.disconnected reason) with closed := true }

def dispose (c : IpcClient) : IpcClient :=
  { c.rejectAll (.disconnected "client disposed") with closed := true, handlers := fun _ => [] }

/-- The callback of a timer. -/
def onTimeout (c : IpcClient) (timer : ℕ) : IpcClient :=
  match c.timers.get? timer with
  | none => c
  | some t =>
    settle { c with timers := c.timers.pop timer, pending := c.pending.pop t.requestId } t.promise
      (.rejected (.timeout t.requestId t.timeoutMs))

/-- `onState`, `onAlert` and `onProtocolError`. -/
def listen (c : IpcClient) (kind : HandlerKind) (handler : ℕ) : IpcClient :=
  { c with handlers := fun k => if k = kind then c.handlers k ∪ [handler] else c.handlers k }

/-- `dispose` of what these returned. -/
def unlisten (c : IpcClient) (kind : HandlerKind) (handler : ℕ) : IpcClient :=
  { c with handlers := fun k => if k = kind then (c.handlers k).erase handler else c.handlers k }

end IpcClient

inductive ClientEvent
  | request (body : HostCommandBody)
  | feed (chunk : String)
  | timeout (timer : ℕ)
  | notifyClosed (reason : String)
  | dispose
  | listen (kind : HandlerKind) (handler : ℕ)
  | unlisten (kind : HandlerKind) (handler : ℕ)

namespace ClientEvent

/-- The client is closed by it. -/
def Closes : ClientEvent → Prop
  | notifyClosed _ | dispose => True
  | _ => False

end ClientEvent

namespace IpcClient

def step (parse : String → Option Json) (c : IpcClient) : ClientEvent → IpcClient
  | .request body => c.request body
  | .feed chunk => c.feed parse chunk
  | .timeout timer => c.onTimeout timer
  | .notifyClosed reason => c.notifyClosed reason
  | .dispose => c.dispose
  | .listen kind handler => c.listen kind handler
  | .unlisten kind handler => c.unlisten kind handler

/-- A client after some events. -/
def after (parse : String → Option Json) (helloTimeoutMs defaultTimeoutMs : ℕ)
    (events : List ClientEvent) : IpcClient :=
  events.foldl (step parse) { helloTimeoutMs := helloTimeoutMs, defaultTimeoutMs := defaultTimeoutMs }

/-- How often a promise was settled. -/
def settled (c : IpcClient) (promise : ℕ) : ℕ := (c.settlements.map Prod.fst).count promise

end IpcClient

end MarketSentinel.Extension
