import MarketSentinel.Lib.Returns
import MarketSentinel.Ipc.Mapping

/-!
# The guards of the extension

`protocol/types.ts` and `protocol/guards.ts` of the editor extension. A parsed JSON value is a
`Lib.Json`, on which `typeof value === "number"` holds of integers and floats alike; a member that
is not there reads as `undefined`, here `none`. The interfaces `WireIntelligence`, `WireSignal` and
`WireSymbolState` have the members of the dataclasses of the same names, and are these.

* `parseCoreMessage_requestId`, `parseCoreMessage_error`: whom a message answers, and whom a failure.
-/

namespace MarketSentinel.Extension

open Lib

/-! ## types -/

/-- `CoreMessageType`. -/
inductive CoreMessageType
  | ready | ack | error | state | alert | shutdownAck
  deriving DecidableEq, Repr

def CoreMessageType.value : CoreMessageType → String
  | .ready => "ready"
  | .ack => "ack"
  | .error => "error"
  | .state => "state"
  | .alert => "alert"
  | .shutdownAck => "shutdown_ack"

/-- The interface `WireMarketState`. -/
structure MarketStateView where
  watchlistCount : ℚ
  feedStatus : String
  symbols : List WireSymbolState
  intelligenceEnabled : Bool
  replayComplete : Bool
  lastMarketTimestamp : Option ℚ
  deriving DecidableEq

/-- The interface `WireAlertCandidate`: what `parseSignal` returns, with a symbol. -/
structure AlertCandidateView where
  signal : WireSignal
  symbol : String
  deriving DecidableEq

/-- `CoreMessage`. -/
inductive CoreMessage
  | ready (requestId coreVersion : String)
  | ack (requestId : String) (watchlistCount : Option ℚ)
  | error (requestId : Option String) (code message : String)
  | state (requestId : Option String) (state : MarketStateView)
  | alert (requestId : Option String) (candidates : List AlertCandidateView)
      (marketTimestamp : Option ℚ)
  | shutdownAck (requestId : Option String)
  deriving DecidableEq

namespace CoreMessage

/-- `message.type`. -/
def type : CoreMessage → CoreMessageType
  | ready .. => .ready
  | ack .. => .ack
  | error .. => .error
  | state .. => .state
  | alert .. => .alert
  | shutdownAck .. => .shutdownAck

/-- `"request_id" in message ? message.request_id : undefined`. -/
def requestId : CoreMessage → Option String
  | ready id _ => some id
  | ack id _ => some id
  | error id _ _ => id
  | state id _ => id
  | alert id _ _ => id
  | shutdownAck id => id

end CoreMessage

/-! ## guards -/

def schedulerLevels : List String := ["COLD", "WARM", "HOT"]

def feedStatuses : List String := ["LIVE", "DELAYED", "STALE", "DISCONNECTED"]

def directions : List String := ["up", "down", "none"]

def priorities : List String := ["info", "notice", "important", "critical"]

def intelStatuses : List String := ["not_requested", "queued", "running", "enriched", "fallback"]

/-- `CORE_TYPES`. -/
def coreTypes : List CoreMessageType := [.ready, .ack, .error, .state, .alert, .shutdownAck]

/-- `GuardFailure`. -/
structure GuardFailure where
  error : String
  requestId : Option String
  deriving DecidableEq

/-- `record.key`. -/
def prop (record : Message) (key : String) : Option Json := record.lookup key

/-- `isRecord`, with the record. -/
def isRecord : Option Json → Option Message
  | some (.obj record) => some record
  | _ => none

def isString : Option Json → Option String
  | some (.str s) => some s
  | _ => none

/-- `Array.isArray`, with the items. -/
def isArray : Option Json → Option (List Json)
  | some (.list items) => some items
  | _ => none

/-- `isFiniteNumber`: an integer that rounds to infinity is not finite. The value is exact. -/
def isFiniteNumber : Option Json → Option ℚ
  | some (.int n) => (Json.intToFloat n).map fun _ => n
  | some (.float (.finite q)) => some q
  | _ => none

/-- `typeof value === "boolean"`. -/
def isBoolean : Option Json → Option Bool
  | some (.bool b) => some b
  | _ => none

/-- `includes`. -/
def includes (allowed : List String) (value : Option Json) : Option String :=
  (isString value).filter (· ∈ allowed)

/-- `isNumberOrNull`. -/
def isNumberOrNull : Option Json → Option (Option ℚ)
  | some .null => some none
  | value => (isFiniteNumber value).map some

/-- `peekRequestId`. -/
def peekRequestId (value : Option Json) : Option String :=
  (isRecord value).bind fun record => (isString (prop record "request_id")).filter (· ≠ "")

/-- A guard: the value it found, or the text of the error. -/
def required {A : Type} (error : String) : Option A → Except String A
  | some x => .ok x
  | none => .error error

/-- A member that may be `undefined`. -/
def optional {A : Type} (guard : Option Json → Except String A) : Option Json → Except String (Option A)
  | none => .ok none
  | some value => (guard (some value)).map some

def readNumberOrNull (record : Message) (key : String) : Except String (Option ℚ) :=
  required (key ++ " must be number or null") (isNumberOrNull (prop record key))

def readOptionalNumberOrNull (record : Message) (key : String) : Except String (Option ℚ) :=
  match prop record key with
  | none => .ok none
  | some _ => readNumberOrNull record key

def readOptionalBool (record : Message) (key : String) : Except String Bool :=
  match prop record key with
  | none => .ok false
  | some value => required (key ++ " must be a boolean") (isBoolean (some value))

def readOptionalBoolOrNull (record : Message) (key : String) : Except String (Option Bool) :=
  match prop record key with
  | none => .ok none
  | some .null => .ok none
  | some value => (required (key ++ " must be boolean or null") (isBoolean (some value))).map some

def parseIntelligence (value : Option Json) (label : String) : Except String WireIntelligence := do
  let record ← required (label ++ " must be an object") (isRecord value)
  let status ← required (label ++ ".status is invalid") (includes intelStatuses (prop record "status"))
  let text := fun key => optional (fun v => required (label ++ "." ++ key ++ " must be a string") (isString v))
    (prop record key)
  let summary ← text "summary"
  let reason ← text "reason"
  let fallbackReason ← text "fallback_reason"
  let confidence ← optional
    (fun v => required (label ++ ".confidence must be a number") (isFiniteNumber v))
    (prop record "confidence")
  let worthHighlight ← optional
    (fun v => required (label ++ ".worth_highlight must be a boolean") (isBoolean v))
    (prop record "worth_highlight")
  return { status, summary, reason, confidence, fallbackReason, worthHighlight }

def parseSignal (value : Option Json) (label : String) : Except String WireSignal := do
  let record ← required (label ++ " must be an object") (isRecord value)
  let text := fun key => required (label ++ " needs string id, family, title, summary")
    (isString (prop record key))
  let id ← text "id"
  let family ← text "family"
  let title ← text "title"
  let summary ← text "summary"
  let direction ← required (label ++ ".direction is invalid") (includes directions (prop record "direction"))
  let priority ← required (label ++ ".priority is invalid") (includes priorities (prop record "priority"))
  let intelligence ← optional (fun v => parseIntelligence v (label ++ ".intelligence"))
    (prop record "intelligence")
  return { id, family, direction, priority, title, summary, intelligence }

/-- The loop over `items.entries()`: each item is parsed under its own label. -/
def parseItems {A : Type} (label : String) (parse : Option Json → String → Except String A)
    (items : List Json) : Except String (List A) :=
  items.zipIdx.mapM fun (item, index) => parse (some item) (label ++ "[" ++ toString index ++ "]")

def parseSymbolState (value : Option Json) : Except String WireSymbolState := do
  let record ← required "symbol state must be an object" (isRecord value)
  let symbol ← required "symbol is required" (isString (prop record "symbol"))
  let schedulerLevel ← required "scheduler_level is invalid"
    (includes schedulerLevels (prop record "scheduler_level"))
  let feedStatus ← required "feed_status is invalid" (includes feedStatuses (prop record "feed_status"))
  let price ← readNumberOrNull record "price"
  let change1m ← readNumberOrNull record "change_1m"
  let change5m ← readNumberOrNull record "change_5m"
  let change15m ← readNumberOrNull record "change_15m"
  let volumeRatio1m ← readNumberOrNull record "volume_ratio_1m"
  let volumeRatio5m ← readNumberOrNull record "volume_ratio_5m"
  let ema5 ← readNumberOrNull record "ema5"
  let ema20 ← readNumberOrNull record "ema20"
  let rsi14 ← readNumberOrNull record "rsi14"
  let vwap ← readNumberOrNull record "vwap"
  -- Members that may be absent.
  let changeDay ← readOptionalNumberOrNull record "change_day"
  let sessionHighObs ← readOptionalNumberOrNull record "session_high_obs"
  let sessionLowObs ← readOptionalNumberOrNull record "session_low_obs"
  let sessionHighRef ← readOptionalNumberOrNull record "session_high_ref"
  let sessionLowRef ← readOptionalNumberOrNull record "session_low_ref"
  let marketTimestamp ← readOptionalNumberOrNull record "market_timestamp"
  let aboveVwap ← readOptionalBoolOrNull record "above_vwap"
  let items ← required "active_signals must be an array" (isArray (prop record "active_signals"))
  let activeSignals ← parseItems "active_signals" parseSignal items
  return {
    symbol, price, schedulerLevel, feedStatus, change1m, change5m, change15m, volumeRatio1m,
    volumeRatio5m, ema5, ema20, rsi14, vwap, activeSignals, changeDay, aboveVwap, sessionHighObs,
    sessionLowObs, sessionHighRef, sessionLowRef, marketTimestamp }

def parseMarketState (value : Option Json) : Except String MarketStateView := do
  let record ← required "state payload must be an object" (isRecord value)
  let watchlistCount ← required "watchlist_count must be a number"
    (isFiniteNumber (prop record "watchlist_count"))
  let feedStatus ← required "state.feed_status is invalid"
    (includes feedStatuses (prop record "feed_status"))
  let items ← required "symbols must be an array" (isArray (prop record "symbols"))
  let symbols ← items.mapM fun item => parseSymbolState (some item)
  let intelligenceEnabled ← readOptionalBool record "intelligence_enabled"
  let replayComplete ← readOptionalBool record "replay_complete"
  let lastMarketTimestamp ← readOptionalNumberOrNull record "last_market_timestamp"
  return {
    watchlistCount, feedStatus, symbols, intelligenceEnabled, replayComplete, lastMarketTimestamp }

def parseCandidate (value : Option Json) (label : String) : Except String AlertCandidateView := do
  let signal ← parseSignal value label
  let symbol ← required (label ++ ".symbol is required")
    ((isRecord value).bind fun record => isString (prop record "symbol"))
  return { signal, symbol }

/-- `CORE_TYPES.includes(value.type)`. -/
def coreType (value : Option Json) : Option CoreMessageType :=
  (isString value).bind fun s => coreTypes.find? fun t => t.value = s

/-- The cases of `parseCoreMessage`, on a record of a known type. -/
def parseBody (record : Message) (requestId : Option String) :
    CoreMessageType → Except String CoreMessage
  | .ready => do
    let id ← required "ready requires request_id" requestId
    let coreVersion ← required "ready requires core_version" (isString (prop record "core_version"))
    return .ready id coreVersion
  | .ack => do
    let id ← required "ack requires request_id" requestId
    let watchlistCount ← optional
      (fun v => required "ack.watchlist_count must be a number" (isFiniteNumber v))
      (prop record "watchlist_count")
    return .ack id watchlistCount
  | .error => do
    let code ← required "error requires code and message" (isString (prop record "code"))
    let message ← required "error requires code and message" (isString (prop record "message"))
    return .error requestId code message
  | .state => do
    let state ← parseMarketState (prop record "state")
    return .state requestId state
  | .alert => do
    let items ← required "alert.candidates must be an array" (isArray (prop record "candidates"))
    let candidates ← parseItems "candidates" parseCandidate items
    let marketTimestamp ← required "alert.market_timestamp must be number or null"
      (isNumberOrNull (prop record "market_timestamp"))
    return .alert requestId candidates marketTimestamp
  | .shutdownAck => return .shutdownAck requestId

/-- `parseCoreMessage`, up to what `fail` adds to an error. -/
def parseMessage (value : Json) : Except String CoreMessage := do
  let record ← required "message must be an object" (isRecord (some value))
  if isFiniteNumber (prop record "protocol_version") = some (protocolVersion : ℚ) then
    let type ← required "unknown type" (coreType (prop record "type"))
    parseBody record (peekRequestId (some value)) type
  else throw "unsupported protocol_version"

def parseCoreMessage (value : Json) : Except GuardFailure CoreMessage :=
  match parseMessage value with
  | .ok message => .ok message
  | .error error => .error { error, requestId := peekRequestId (some value) }

/-! ## What the guards say -/

@[simp] theorem coreType_value (t : CoreMessageType) : coreType (some (.str t.value)) = some t := by
  cases t <;> decide

/-! ## The id of a message -/

theorem parseBody_requestId {record : Message} {id : Option String} {type : CoreMessageType}
    {m : CoreMessage} (h : parseBody record id type = .ok m) : m.requestId = id := by
  cases type <;> simp only [parseBody, bind_eq_ok, required] at h
  case ready =>
    obtain ⟨r, hr, v, -, h⟩ := h
    cases id with
    | none => cases hr
    | some id => cases hr; cases h; rfl
  case ack =>
    obtain ⟨r, hr, v, -, h⟩ := h
    cases id with
    | none => cases hr
    | some id => cases hr; cases h; rfl
  case error => obtain ⟨_, -, _, -, h⟩ := h; cases h; rfl
  case state => obtain ⟨_, -, h⟩ := h; cases h; rfl
  case alert => obtain ⟨_, -, _, -, _, -, h⟩ := h; cases h; rfl
  case shutdownAck => cases h; rfl

/-- What a parsed message answers is what its text names. -/
theorem parseCoreMessage_requestId {raw : Json} {m : CoreMessage} (h : parseCoreMessage raw = .ok m) :
    m.requestId = peekRequestId (some raw) := by
  have hparse : parseMessage raw = .ok m := by
    unfold parseCoreMessage at h
    split at h
    · rename_i hm
      cases h
      exact hm
    · cases h
  simp only [parseMessage, bind_eq_ok] at hparse
  obtain ⟨record, -, hbody⟩ := hparse
  split at hbody
  · obtain ⟨type, -, hbody⟩ := bind_eq_ok.1 hbody
    exact parseBody_requestId hbody
  · cases hbody

theorem parseCoreMessage_error {raw : Json} {f : GuardFailure} (h : parseCoreMessage raw = .error f) :
    f.requestId = peekRequestId (some raw) := by
  unfold parseCoreMessage at h
  split at h
  · cases h
  · cases h
    rfl

theorem peekRequestId_ne_empty (value : Option Json) : peekRequestId value ≠ some "" := by
  unfold peekRequestId
  intro h
  obtain ⟨record, -, hid⟩ := Option.bind_eq_some_iff.1 h
  have hne := (Option.filter_eq_some_iff.1 hid).2
  exact absurd hne (by decide)

end MarketSentinel.Extension
