import Mathlib.Data.List.DropRight
import MarketSentinel.Telemetry.Contract

/-!
# The protocol codec

`ipc/protocol.py` and `ipc/codec.py`. A message is the list of its members. Python's `json.loads` and
`repr` are parameters (`PyText`).
-/

namespace MarketSentinel

open Lib

def protocolVersion : ℤ := 1

def hostCommands : List String :=
  ["hello", "start", "pause", "resume", "set_watchlist", "get_state", "host_interaction",
    "user_feedback", "shutdown"]

inductive DaemonPhase
  | awaitingHello | ready | running | paused | shuttingDown
  deriving DecidableEq, Repr

inductive ErrorCode
  | invalidJson | protocolMismatch | unknownType | missingRequestId | invalidPayload | notReady
  | notStarted | paused | shuttingDown | watchlistFull | duplicateSymbol
  deriving DecidableEq, Repr

def ErrorCode.value : ErrorCode → String
  | .invalidJson => "invalid_json"
  | .protocolMismatch => "protocol_mismatch"
  | .unknownType => "unknown_type"
  | .missingRequestId => "missing_request_id"
  | .invalidPayload => "invalid_payload"
  | .notReady => "not_ready"
  | .notStarted => "not_started"
  | .paused => "paused"
  | .shuttingDown => "shutting_down"
  | .watchlistFull => "watchlist_full"
  | .duplicateSymbol => "duplicate_symbol"

/-- What is used of Python's `json` and `repr`. -/
structure PyText where
  /-- `json.loads`; `none` is the `JSONDecodeError`. -/
  loads : String → Option Json
  repr : Json → String

/-- A protocol message: a JSON object. -/
abbrev Message := List (String × Json)

/-- `encode_message`. -/
def encodeMessage (messageType : String) (requestId : Option String) (fields : Message) : Message :=
  [("protocol_version", .int protocolVersion), ("type", .str messageType)] ++
    requestId.toList.map (fun r => ("request_id", .str r)) ++ fields

/-- `encode_error`. -/
def encodeError (code : ErrorCode) (message : String) (requestId : Option String) : Message :=
  encodeMessage "error" requestId [("code", .str code.value), ("message", .str message)]

/-- `value if isinstance(value, str) else None`. -/
def textOf : Json → Option String
  | .str s => some s
  | _ => none

/-- `line.strip()`. -/
def strip (line : String) : String :=
  String.ofList ((line.toList.dropWhile isSpace).rdropWhile isSpace)

/-- The three things that `decode_line` returns. -/
inductive Decoded
  | blank
  | error (message : Message)
  /-- A command, and its type. -/
  | command (fields : Message) (type : String)

/-- `decode_line`. -/
def decodeLine (py : PyText) (line : String) : Decoded :=
  if isBlank line then .blank
  else
    match py.loads (strip line) with
    | none => .error (encodeError .invalidJson "line is not valid JSON" none)
    | some (.obj raw) =>
      let version := Json.field raw "protocol_version"
      let requestId := textOf (Json.field raw "request_id")
      if !version.eqInt protocolVersion then
        .error (encodeError .protocolMismatch
          ("unsupported protocol_version: " ++ py.repr version) requestId)
      else
        match Json.field raw "type" with
        | .str messageType =>
          if messageType = "" then
            .error (encodeError .invalidPayload "type must be a non-empty string" requestId)
          else .command raw messageType
        | _ => .error (encodeError .invalidPayload "type must be a non-empty string" requestId)
    | some _ => .error (encodeError .invalidJson "JSON line must be an object" none)

/-- The errors of `decode_line` are built by `encode_error`. -/
theorem decodeLine_error {py : PyText} {line : String} {m : Message}
    (h : decodeLine py line = .error m) : ∃ code message id, m = encodeError code message id := by
  simp only [decodeLine] at h
  repeat' split at h
  all_goals first
    | exact ⟨_, _, _, (Decoded.error.inj h).symm⟩
    | cases h

/-! ## Reading a message -/

/-- The type of a message. -/
def messageType (m : Message) : Json := Json.field m "type"

variable {t : String} {r : Option String} {fields : Message}

@[simp] theorem messageType_encode : messageType (encodeMessage t r fields) = .str t := by
  simp [messageType, encodeMessage, Json.field, List.lookup_cons]

@[simp] theorem requestId_encode {id : String} :
    Json.field (encodeMessage t (some id) fields) "request_id" = .str id := by
  simp [encodeMessage, Json.field, List.lookup_cons]

end MarketSentinel
