import MarketSentinel.Lib.Lines
import MarketSentinel.Lib.Utf8
import MarketSentinel.Telemetry.Host

/-!
# Telemetry files

`telemetry/jsonl.py` and `evaluation/reader.py`, over the files of one directory: file 0 is the path of
the sink, file `i` its backup `path.i`. The handle of a sink always appends to file 0, and every write is
flushed. The module `json` is a parameter; `json.loads` returns or raises a `JSONDecodeError`.
-/

namespace MarketSentinel

open Lib Utf8

abbrev Bytes := List UInt8

abbrev Payload := List (String × Json)

/-- `json.loads`, `none` where it raises, and `json.dumps` as the sink calls it. -/
structure JsonModule where
  loads : String → Option Json
  dumps : Payload → String

abbrev Directory := ℕ → Option Bytes

/-- `b"\n"`. -/
def newline : UInt8 := 10

/-- `raw.endswith(b"\n")`. -/
def endsWithNewline (raw : Bytes) : Bool := raw.getLast? = some newline

/-! ## Writing -/

/-- `TELEMETRY_ALLOWLIST`. -/
def telemetryAllowlist : List String :=
  ["telemetry_id", "name", "kind", "created_timestamp", "run_id", "market_timestamp", "symbol", "event_id",
    "signal_id", "event_type", "family", "direction", "priority", "host_action", "intelligence_status",
    "decision_reason", "fallback_reason", "suppression_reason", "latency_s", "latency_stage", "token_in",
    "token_out"]

/-- `project_allowlist`; `none` is the `ValueError` of a denied key. -/
def projectAllowlist (payload : Payload) (allowed : List String) : Option Payload :=
  if payload.any fun f => decide (f.1 ∈ telemetryDenylist) then none
  else some (payload.filter fun f => decide (f.1 ∈ allowed))

def defaultMaxBytes : ℕ := 1048576

def defaultBackupCount : ℕ := 5

/-- The settings of a sink that its constructor accepts. -/
structure JsonlTelemetrySink where
  maxBytes : ℕ := defaultMaxBytes
  backupCount : ℕ := defaultBackupCount
  allowlist : List String := telemetryAllowlist
  max_pos : 1 ≤ maxBytes := by decide
  backup_pos : 1 ≤ backupCount := by decide

/-- `_truncate_trailing_partial`, on the file at the path if there is one. -/
def truncateTrailingPartial (json : JsonModule) : Option Bytes → Option Bytes
  | none => none
  | some raw =>
    if raw = [] then some raw
    else if endsWithNewline raw then some raw
    else
      match (decode (Lines.tail newline raw)).bind json.loads with
      | none => some (Lines.body newline raw)
      | some _ => some (raw ++ [newline])

/-- What a rotation does to the files, one operation at a time. -/
inductive FileOp
  /-- `if file.exists(): file.unlink()`. -/
  | unlink (i : ℕ)
  /-- `if source.exists(): source.replace(target)`. -/
  | replace (source target : ℕ)
  /-- `path.open("a")`. -/
  | openAppend

def FileOp.apply (d : Directory) : FileOp → Directory
  | unlink i => Function.update d i none
  | replace source target =>
    match d source with
    | none => d
    | some raw => Function.update (Function.update d source none) target (some raw)
  | openAppend => Function.update d 0 (some ((d 0).getD []))

namespace JsonlTelemetrySink

variable (json : JsonModule) (sink : JsonlTelemetrySink) (d : Directory)

/-- The operations of `_rotate`, in order. -/
def rotateOps : List FileOp :=
  .unlink sink.backupCount ::
    (((List.range' 1 (sink.backupCount - 1)).reverse.map fun i => .replace i (i + 1)) ++
      [.replace 0 1, .openAppend])

/-- `_rotate`. -/
def rotate : Directory := sink.rotateOps.foldl FileOp.apply d

/-- `__init__` on a path. -/
def create : Directory :=
  FileOp.openAppend.apply (Function.update d 0 (truncateTrailingPartial json (d 0)))

/-- `handle.write(line + "\n")`. -/
def append (payload : Payload) : Directory :=
  Function.update d 0 (some ((d 0).getD [] ++ encode (json.dumps payload ++ "\n")))

/-- `write`, with the files after it; `none` is the `ValueError`. -/
def write (record : Payload) : Option Directory :=
  (projectAllowlist record sink.allowlist).map fun payload =>
    let d := append json d payload
    if sink.maxBytes ≤ ((d 0).getD []).length then sink.rotate d else d

end JsonlTelemetrySink

/-! ## Reading -/

structure JsonlReadResult where
  records : List Payload
  skippedTrailingPartial : Bool
  malformedCompleteLines : ℕ

def JsonlReadResult.healthy (r : JsonlReadResult) : Bool := r.malformedCompleteLines = 0

/-- `line.strip() == b""`. -/
def isBlankLine (line : Bytes) : Bool := line.all fun b => (9 ≤ b.toNat ∧ b.toNat ≤ 13) ∨ b.toNat = 32

/-- `_newline_terminated_lines`. -/
def newlineTerminatedLines (blob : Bytes) : List Bytes :=
  if blob = [] then []
  else
    let parts := blob.splitOn newline
    if endsWithNewline blob then parts.dropLast else parts

/-- One line of the loop of `read_jsonl`: the records and the number of malformed lines. -/
def readLine (json : JsonModule) (r : List Payload × ℕ) (line : Bytes) : List Payload × ℕ :=
  if isBlankLine line then r
  else
    match (decode line).bind json.loads with
    | some (.obj payload) => (r.1 ++ [payload], r.2)
    | _ => (r.1, r.2 + 1)

def readLines (json : JsonModule) (lines : List Bytes) : List Payload × ℕ := lines.foldl (readLine json) ([], 0)

/-- `read_jsonl`, of the file at a path if there is one. -/
def readJsonl (json : JsonModule) : Option Bytes → JsonlReadResult
  | none => ⟨[], false, 0⟩
  | some raw =>
    let (skipped, complete, extraComplete) :=
      if raw ≠ [] ∧ endsWithNewline raw = false then
        match (decode (Lines.tail newline raw)).bind json.loads with
        | none => (true, Lines.body newline raw, none)
        | some _ => (false, Lines.body newline raw, some (Lines.tail newline raw))
      else (false, raw, none)
    let (records, malformed) := readLines json (newlineTerminatedLines complete ++ extraComplete.toList)
    ⟨records, skipped, malformed⟩

/-- `rotated_paths`: the files there are, oldest first. -/
def rotatedPaths (backupCount : ℕ) (d : Directory) : List ℕ :=
  ((List.range' 1 backupCount).reverse.filter fun i => (d i).isSome) ++
    if (d 0).isSome then [0] else []

structure LoadedTelemetry (File : Type := ℕ) where
  records : List Payload
  inputFiles : List File
  recordsRead : ℕ
  malformedCompleteLines : ℕ
  skippedTrailingPartial : Bool
  healthy : Bool

/-- `TelemetryReader.load`. -/
def load (json : JsonModule) (backupCount : ℕ) (d : Directory) : LoadedTelemetry :=
  let files := rotatedPaths backupCount d
  let results := files.map fun i => readJsonl json (d i)
  let records := results.flatMap (·.records)
  let malformed := (results.map (·.malformedCompleteLines)).sum
  { records := records
    inputFiles := files
    recordsRead := records.length
    malformedCompleteLines := malformed
    skippedTrailingPartial := results.any (·.skippedTrailingPartial)
    healthy := malformed = 0 }

end MarketSentinel
