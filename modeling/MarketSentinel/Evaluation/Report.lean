import MarketSentinel.Evaluation.Aggregate
import MarketSentinel.Evaluation.Sanitize
import MarketSentinel.Intelligence.Router
import MarketSentinel.Lib.Grouping
import MarketSentinel.MarketData.CashSession

/-!
# The report of an evaluation

`evaluation/aggregate.py` and `evaluation/stats.py`: one pass for each section of the report over the
rows of a run, or of all runs. The rows come from files, so every field is read as any JSON value. A date
is the number of its day until it is written out, and floats are computed exactly.

Python leaves the order of a list that holds a NaN open; here a NaN is last.
-/

namespace MarketSentinel

open Lib

namespace Evaluation

/-! ## Numbers -/

/-- `isinstance(value, int | float)`; a `bool` is an `int`. -/
def isNumber : Json → Bool
  | .int _ | .float _ | .bool _ => true
  | _ => false

/-- `float(value)` of a number. -/
def floatOf : Json → Except PyError PyFloat
  | .int n => if (Json.intToFloat n).isNone then .error .overflowError else .ok (.finite (nearestFloat n))
  | .float x => .ok x
  | .bool b => .ok (.finite (if b then 1 else 0))
  | _ => .error .valueError

/-- The order of floats. -/
def floatLe : PyFloat → PyFloat → Bool
  | _, .nan => true
  | .nan, _ => false
  | .negInf, _ => true
  | _, .negInf => false
  | _, .posInf => true
  | .posInf, _ => false
  | .finite p, .finite q => p ≤ q

def FloatLe (x y : PyFloat) : Prop := floatLe x y = true

instance : DecidableRel FloatLe := fun x y => inferInstanceAs (Decidable (floatLe x y = true))

/-- `sorted`, of floats. A NaN is put last, where Python's `sorted` leaves the order of a list with one open. -/
def sortedFloats (xs : List PyFloat) : List PyFloat := xs.insertionSort FloatLe

/-- `sorted`, of strings. -/
def sortedTexts (texts : List String) : List String := texts.insertionSort (· ≤ ·)

def textsField (texts : List String) : Json := .list (texts.map .str)

def floatField : Option PyFloat → Json
  | some x => .float x
  | none => .null

def rateField (rate : Option ℚ) : Json := TelemetryEvent.numberField rate

/-- `percentile`: the nearest rank. -/
def percentile (values : List PyFloat) (pct : ℕ) : Option PyFloat :=
  let ordered := sortedFloats values
  let rank := max 1 (Rat.ceil (pct / 100 * ordered.length)).toNat
  ordered[rank - 1]?

/-- `latency_bundle`. -/
def latencyBundle (samples : List PyFloat) (stage : LatencyStage) : Payload :=
  let ordered := sortedFloats samples
  [("stage", .str stage.value),
    ("count", .int ordered.length),
    ("min_s", floatField ordered.head?),
    ("median_s", floatField (percentile ordered 50)),
    ("p95_s", floatField (percentile ordered 95)),
    ("max_s", floatField ordered.getLast?)]

/-! ## Rows -/

/-- `row.get("name") == name.value`. -/
def named (name : TelemetryName) (row : Record) : Bool := row.text "name" = some name.value

/-- `_count`. -/
def countOf (records : List Record) (name : TelemetryName) : ℕ := records.countP (named name)

/-- `float(row["market_timestamp"])`, of a row that has a number there. -/
def stampOf (row : Record) : Except PyError (Option PyFloat) :=
  if isNumber (Json.field row "market_timestamp") then
    do return some (← floatOf (Json.field row "market_timestamp"))
  else .ok none

def stampsOf (records : List Record) : Except PyError (List PyFloat) := do
  return (← records.mapM stampOf).reduceOption

/-- `session_id(float(row["market_timestamp"]))`, of a row that has a number there. -/
def dateOf (row : Record) : Except PyError (Option ℤ) := do
  match ← stampOf row with
  | some x => return some (← sessionOf x)
  | none => return none

structure Funnel where
  eventsGenerated : ℕ
  signalEpisodesCreated : ℕ
  alertCandidates : ℕ
  alertSuppressed : ℕ
  alertsPresented : ℕ
  deriving DecidableEq, Repr

/-- `_funnel`. -/
def funnel (records : List Record) : Funnel where
  eventsGenerated := countOf records .eventGenerated
  signalEpisodesCreated := countOf records .signalEpisodeCreated
  alertCandidates := countOf records .alertCandidate
  alertSuppressed := countOf records .alertSuppressed
  alertsPresented := countOf records .alertPresented

def Funnel.fields (f : Funnel) : Payload :=
  [("events_generated", .int f.eventsGenerated),
    ("signal_episodes_created", .int f.signalEpisodesCreated),
    ("alert_candidates", .int f.alertCandidates),
    ("alert_suppressed", .int f.alertSuppressed),
    ("alerts_presented", .int f.alertsPresented)]

/-! ## Reasons -/

def knownSkipReasons : List String :=
  [DecisionReason.expiredEpisode, .suppressedEdge, .staleFeed, .insufficientFeatures, .notCandidate,
    .episodeBudget].map (·.value)

def knownFallbackReasons : List String :=
  [FallbackReason.none, .notCandidate, .staleFeed, .insufficientFeatures, .suppressedEdge,
    .episodeBudget, .expiredEpisode, .timeout, .transport, .malformed, .rateLimited, .unavailable,
    .cancelled, .staleWork, .policy].map (·.value)

def knownSuppressionReasons : List String :=
  [SuppressionReason.cooldown, .sameTickDuplicate].map (·.value)

/-- The counters of the known reasons, and the number of other ones. -/
structure Tally where
  counts : Dict String ℕ
  unknown : ℕ

namespace Tally

/-- `{key: 0 for key in known}`. -/
def start (known : List String) : Tally := ⟨Dict.empty.setAll known 0, 0⟩

/-- One row with a reason. -/
def count (known : List String) (t : Tally) (reason : Option String) : Tally :=
  match reason.filter (· ∈ known) with
  | some r => { t with counts := t.counts.bump r }
  | none => { t with unknown := t.unknown + 1 }

def field (t : Tally) : Json := .obj (t.counts.entries.map fun e => (e.1, .int e.2))

end Tally

/-- `_suppression`. -/
def suppression (records : List Record) : Tally :=
  records.foldl
    (fun t row =>
      if named .alertSuppressed row then t.count knownSuppressionReasons (row.text "suppression_reason")
      else t)
    (.start knownSuppressionReasons)

/-! ## Intelligence -/

/-- `stage in samples`, with the stage. -/
def stageOf (stage : String) : Option LatencyStage :=
  [LatencyStage.router, .model, .parse].find? fun s => s.value = stage

structure IntelligenceTally where
  skip : Tally
  fallback : Tally
  samples : LatencyStage → List PyFloat

/-- The latency sample of a row. -/
def latencySample (row : Record) : Except PyError (Option (LatencyStage × PyFloat)) :=
  match (row.text "latency_stage").bind stageOf with
  | some stage =>
    if isNumber (Json.field row "latency_s") then
      do return some (stage, ← floatOf (Json.field row "latency_s"))
    else .ok none
  | none => .ok none

def addSample (samples : LatencyStage → List PyFloat) (stage : LatencyStage) (x : PyFloat) :
    LatencyStage → List PyFloat :=
  fun s => if s = stage then samples s ++ [x] else samples s

/-- One row of the loop of `_intelligence`. -/
def tallyRow (t : IntelligenceTally) (row : Record) : Except PyError IntelligenceTally :=
  if named .intelligenceSkipped row then
    .ok { t with skip := t.skip.count knownSkipReasons (row.text "decision_reason") }
  else if named .intelligenceFallback row then
    .ok { t with fallback := t.fallback.count knownFallbackReasons (row.text "fallback_reason") }
  else if named .intelligenceLatency row then do
    match ← latencySample row with
    | some (stage, x) => return { t with samples := addSample t.samples stage x }
    | none => return t
  else .ok t

def intelligenceTally (records : List Record) : Except PyError IntelligenceTally :=
  records.foldlM tallyRow ⟨.start knownSkipReasons, .start knownFallbackReasons, fun _ => []⟩

/-- `int(value)` of an `int`; a `bool` is one. -/
def intOf : Json → Option ℤ
  | .int n => some n
  | .bool b => some (if b then 1 else 0)
  | _ => none

/-- The token totals of the providers that report them. -/
def tokenUsage (records : List Record) : Payload :=
  let rows := records.filter (named .intelligenceTokenUsage)
  if rows = [] then
    [("available", .bool false), ("unavailable_reason", .str "no_provider_usage"),
      ("token_in_total", .null), ("token_out_total", .null), ("token_total", .null),
      ("token_events_count", .int 0)]
  else
    let tokenIn := (rows.filterMap fun row => intOf (Json.field row "token_in")).sum
    let tokenOut := (rows.filterMap fun row => intOf (Json.field row "token_out")).sum
    [("available", .bool true), ("unavailable_reason", .null), ("token_in_total", .int tokenIn),
      ("token_out_total", .int tokenOut), ("token_total", .int (tokenIn + tokenOut)),
      ("token_events_count", .int rows.length)]

/-- The section of `_intelligence`. -/
def intelligence (records : List Record) (t : IntelligenceTally) : Payload :=
  [("routed", .int (countOf records .intelligenceRouted)),
    ("skipped", .int (countOf records .intelligenceSkipped)),
    ("succeeded", .int (countOf records .intelligenceSucceeded)),
    ("fallback", .int (countOf records .intelligenceFallback)),
    ("skip_by_decision_reason", t.skip.field),
    ("fallback_by_fallback_reason", t.fallback.field),
    ("unrecognized_skip_reason_count", .int t.skip.unknown),
    ("unrecognized_fallback_reason_count", .int t.fallback.unknown),
    ("latency", .obj ([LatencyStage.router, .model, .parse].map fun stage =>
      (stage.value, .obj (latencyBundle (t.samples stage) stage)))),
    ("token_usage", .obj (tokenUsage records))]

/-! ## Market time -/

def unavailableMarketTime : String := "insufficient_market_time_evidence"

def unavailableMarketScope : String := "unsupported_market_scope"

/-- The value of `_market_scope`: `empty` means no market-timestamped observations. -/
inductive MarketScope
  | ashare | unsupported | empty
  deriving DecidableEq, Repr

/-- `_market_scope`. -/
def marketScope (rows : List Record) : MarketScope :=
  let stamped := rows.filter fun row => isNumber (Json.field row "market_timestamp")
  if stamped.isEmpty then .empty
  else
    let symbols := (stamped.filterMap fun row => Record.text row "symbol").filter (· ≠ "")
    if symbols.any (!isAShareSymbol ·) || symbols.isEmpty then .unsupported
    else if symbols.any isAShareSymbol then .ashare
    else .unsupported

structure RunExposure where
  funnel : Funnel
  observedMarketSeconds : ℚ
  alertsPerMarketHour : Payload
  scope : MarketScope
  candidates : ℕ
  exposureOk : Bool

/-- The exposure of rows whose market time is not usable. -/
def unexposed (rows : List Record) (observed : ℚ) (reason : String) : RunExposure where
  funnel := funnel rows
  observedMarketSeconds := observed
  alertsPerMarketHour := unavailable reason
  scope := marketScope rows
  candidates := countOf rows .alertCandidate
  exposureOk := false

/-- `available_value(candidates / observed * 3600.0)`. -/
def hourlyRate (candidates : ℕ) (observed : ℚ) : Payload := availableValue (candidates / observed * 3600)

/-- `_run_exposure`. -/
def runExposure (rows : List Record) : Except PyError RunExposure := do
  let stamped ← stampsOf rows
  if marketScope rows = .unsupported then return unexposed rows 0 unavailableMarketScope
  match sortedFloats stamped.dedup with
  | first :: second :: rest =>
    let observed ← cashSessionOverlapS first ((second :: rest).getLast (List.cons_ne_nil _ _))
    if observed ≤ 0 then return unexposed rows observed unavailableMarketTime
    let candidates := countOf rows .alertCandidate
    return { unexposed rows observed unavailableMarketTime with
      alertsPerMarketHour := hourlyRate candidates observed
      exposureOk := true }
  | _ => return unexposed rows 0 unavailableMarketTime

/-- `_group_by_run`. -/
def groupByRun (records : List Record) : Dict String (List Record) := groupBy (·.text "run_id") records

structure MarketMetrics where
  alertsPerMarketHour : Payload
  observedMarketSeconds : ℚ
  perRun : List Payload
  runsInsufficientMarketTime : List String
  runsUnsupportedMarketScope : List String

/-- What the report says of one run, or of one date. -/
def exposureFields (f : Funnel) (observed : ℚ) (rate : Payload) : Payload :=
  f.fields ++ [("observed_market_seconds", .float (.finite observed)), ("alerts_per_market_hour", .obj rate)]

/-- The metrics of all runs, from the exposure of each. -/
def marketMetricsOf (orphanCandidates : ℕ) (exposures : List (String × RunExposure)) : MarketMetrics :=
  let unsupported := exposures.filter fun e => e.2.scope = .unsupported
  let late := exposures.filter fun e =>
    e.2.scope ≠ .unsupported ∧ 0 < e.2.candidates ∧ e.2.exposureOk = false
  let insufficient := late.map (·.1) ++ if 0 < orphanCandidates then [""] else []
  let observed := ((exposures.filter (·.2.exposureOk)).map (·.2.observedMarketSeconds)).sum
  let candidates := (exposures.map (·.2.candidates)).sum + orphanCandidates
  -- One such run takes the rate from all of them.
  let (rate, observed) :=
    if unsupported ≠ [] then (unavailable unavailableMarketScope, 0)
    else if insufficient ≠ [] then (unavailable unavailableMarketTime, 0)
    else if observed ≤ 0 then (unavailable unavailableMarketTime, 0)
    else (hourlyRate candidates observed, observed)
  { alertsPerMarketHour := rate
    observedMarketSeconds := observed
    perRun := exposures.map fun e =>
      ("run_id", .str e.1) :: exposureFields e.2.funnel e.2.observedMarketSeconds e.2.alertsPerMarketHour
    runsInsufficientMarketTime := insufficient.filter (· ≠ "")
    runsUnsupportedMarketScope := unsupported.map (·.1) }

/-- `_market_metrics`. -/
def marketMetrics (records : List Record) : Except PyError MarketMetrics := do
  let grouped := groupByRun records
  let orphanCandidates := records.countP fun row => isCandidate row && (row.text "run_id").isNone
  let exposures ← (sortedTexts grouped.keys).mapM fun runId => do
    return (runId, ← runExposure (grouped.getD runId []))
  return marketMetricsOf orphanCandidates exposures

/-- `_per_market_date`. -/
def perMarketDate (records : List Record) : Except PyError (List Payload) := do
  let byDate ← groupByM dateOf records
  (byDate.keys.insertionSort (· ≤ ·)).mapM fun date => do
    let subset := byDate.getD date []
    let metrics ← marketMetrics subset
    return ("market_date", .str (isoformat date)) ::
      exposureFields (funnel subset) metrics.observedMarketSeconds metrics.alertsPerMarketHour

/-! ## Feedback -/

/-- `FEEDBACK_ALLOWLIST`. -/
def feedbackAllowlist : List String :=
  ["feedback_id", "created_timestamp", "run_id", "label", "symbol", "event_id", "signal_id",
    "telemetry_id"]

/-- `_OPTIONAL_FEEDBACK_TEXT`, each absent, `None` or a text that is not blank. -/
def optionalFeedbackText (row : Record) : Bool :=
  ["symbol", "event_id", "telemetry_id"].all fun key =>
    match Json.field row key with
    | .null => true
    | value => (nonBlankText value).isSome

/-- The checks of `_valid_feedback_row` before the timestamp. -/
def feedbackIdentified (row : Record) : Bool :=
  row.all (fun f => decide (f.1 ∈ feedbackAllowlist)) &&
    ["feedback_id", "run_id", "signal_id"].all (fun key => (nonBlankText (Json.field row key)).isSome) &&
      ((row.text "label").bind FeedbackLabel.parse).isSome

/-- `_valid_feedback_row`. -/
def validFeedbackRow (row : Record) : Except PyError Bool :=
  if feedbackIdentified row = false then .ok false
  else do
    match ← parseTimestamp (Json.field row "created_timestamp") with
    | none => return false
    | some _ => return optionalFeedbackText row

/-- The run and the signal of a row, when both are texts that are not blank. -/
def signalKey (row : Record) : Option (String × String) :=
  match nonBlankText (Json.field row "run_id"), nonBlankText (Json.field row "signal_id") with
  | some runId, some signalId => some (runId, signalId)
  | _, _ => none

/-- The valid feedback rows, and the number of the other ones. -/
def splitFeedback (feedbackRows : List Record) : Except PyError (List Record × ℕ) := do
  let verdicts ← feedbackRows.mapM fun row => do return (row, ← validFeedbackRow row)
  return ((verdicts.filter (·.2)).map (·.1), verdicts.countP fun v => !v.2)

/-- The section of `_explicit_feedback`. -/
def explicitFeedback (valid : List Record) (invalid : ℕ) (telemetryRows : List Record) : Payload :=
  let count (label : String) := valid.countP fun row => row.text "label" = some label
  let presentedKeys := ((telemetryRows.filter (named .alertPresented)).filterMap signalKey).dedup
  let feedbackKeys := (valid.filterMap signalKey).dedup
  let usefulRate :=
    if valid.length = 0 then unavailable "no_explicit_feedback"
    else availableValue (count "useful" / valid.length)
  let coverage :=
    if presentedKeys.length = 0 then unavailable "denominator_is_zero"
    else availableValue ((feedbackKeys.filter (· ∈ presentedKeys)).length / presentedKeys.length)
  [("feedback_count", .int valid.length),
    ("useful_count", .int (count "useful")),
    ("not_useful_count", .int (count "not_useful")),
    ("too_noisy_count", .int (count "too_noisy")),
    ("too_late_count", .int (count "too_late")),
    ("useful_rate", .obj usefulRate),
    ("feedback_coverage", .obj coverage),
    ("invalid_feedback_record_count", .int invalid)]

/-! ## The other sections -/

/-- `_metadata`. -/
def metadata (records : List Record) (runId : Option String) : Except PyError Payload := do
  let dates ← records.mapM dateOf
  return [("run_ids", textsField (sortedTexts (records.filterMap (·.text "run_id")).dedup)),
    ("symbols", textsField (sortedTexts (records.filterMap (·.text "symbol")).dedup)),
    ("market_dates", textsField ((dates.reduceOption.dedup.insertionSort (· ≤ ·)).map isoformat)),
    ("filter_run_id", TelemetryEvent.textField runId)]

/-- `_data_quality`. -/
def dataQuality (loaded : LoadedTelemetry String) (records : List Record) (runId : Option String)
    (market : MarketMetrics) (semantic : ℕ) (feedback : LoadedTelemetry String)
    (feedbackRecordsUsed : ℕ) : Except PyError Payload := do
  let timestamps := sortedFloats (← stampsOf records)
  let observed := if timestamps = [] then 0 else market.observedMarketSeconds
  let coverage : Payload :=
    [("min_market_timestamp", floatField timestamps.head?),
      ("max_market_timestamp", floatField timestamps.getLast?),
      ("observed_market_seconds", .float (.finite observed))]
  -- With a run id, only the rows of that run count as read.
  let recordsRead :=
    if runId = none then loaded.recordsRead + feedback.recordsRead
    else records.length + feedbackRecordsUsed
  return [("input_files", textsField (loaded.inputFiles ++ feedback.inputFiles)),
    ("records_read", .int recordsRead),
    ("malformed_complete_lines", .int (loaded.malformedCompleteLines + feedback.malformedCompleteLines)),
    ("skipped_trailing_partial", .bool (loaded.skippedTrailingPartial || feedback.skippedTrailingPartial)),
    ("healthy", .bool (loaded.healthy && feedback.healthy)),
    ("data_quality_warning", .bool (!loaded.healthy || !feedback.healthy || 0 < semantic)),
    ("semantic_warning_count", .int semantic),
    ("runs_insufficient_market_time", textsField market.runsInsufficientMarketTime),
    ("runs_unsupported_market_scope", textsField market.runsUnsupportedMarketScope),
    ("run_ids", textsField (sortedTexts (records.filterMap (·.text "run_id")).dedup)),
    ("market_time_coverage", .obj coverage)]

/-- `_pipeline`. -/
def pipeline (records : List Record) (clusterSeen : Option ℤ) : Payload :=
  let generated := countOf records .eventGenerated
  let deduped := countOf records .eventDeduped
  let created := countOf records .signalEpisodeCreated
  let candidates := countOf records .alertCandidate
  let suppressed := countOf records .alertSuppressed
  let presented := countOf records .alertPresented
  let clusteredIds := ((records.filter (named .eventClustered)).filterMap (·.text "event_id")).dedup
  [("events_generated", .int generated),
    ("events_deduped", .int deduped),
    ("events_clustered", .int (countOf records .eventClustered)),
    ("signal_episodes_created", .int created),
    ("signal_escalations", .int (countOf records .signalEscalated)),
    ("alert_candidates", .int candidates),
    ("alert_suppressed", .int suppressed),
    ("alerts_presented", .int presented),
    -- Without a tracker the distinct ids of the clustered events are counted.
    ("cluster_tracker_seen_count", .int (clusterSeen.getD clusteredIds.length)),
    ("dedupe_rate", rateField (ratio deduped generated)),
    ("event_to_signal_rate", rateField (ratio created generated)),
    ("signal_to_alert_candidate_rate", rateField (ratio candidates created)),
    ("candidate_to_presented_rate", rateField (ratio presented candidates)),
    ("alert_suppression_rate", rateField (ratio suppressed (candidates + suppressed)))]

/-- `_alert_noise`. -/
def alertNoiseSection (records : List Record) (market : MarketMetrics) (suppressed : Tally) : Payload :=
  let noise := alertNoise records
  [("info_count", .int noise.infoCount),
    ("notice_count", .int noise.noticeCount),
    ("important_count", .int noise.importantCount),
    ("critical_count", .int noise.criticalCount),
    ("important_critical_ratio", rateField noise.importantCriticalRatio),
    ("alerts_per_market_hour", .obj market.alertsPerMarketHour),
    ("observed_market_seconds", .float (.finite market.observedMarketSeconds)),
    ("repeated_episode_signal_count", .int noise.repeatedEpisodeSignalCount),
    ("repeated_episode_extra_alert_count", .int noise.repeatedEpisodeExtraAlertCount),
    ("suppression_by_reason", suppressed.field),
    ("unrecognized_suppression_reason_count", .int suppressed.unknown)]

/-- A host rate whose producer is not implemented. -/
def unimplemented (producer : String) : Json := .obj (unavailable "producer_not_implemented" (.str producer))

/-- `_host`. -/
def host (records : List Record) : Payload :=
  [("alerts_presented", .int (countOf records .alertPresented)),
    ("alert_badge_reset", .int (countOf records .alertBadgeReset)),
    ("signal_opened", unimplemented "signal_opened"),
    ("alert_dismissed", unimplemented "alert_dismissed"),
    ("signal_muted", unimplemented "signal_muted"),
    ("open_rate", unimplemented "signal_opened"),
    ("dismiss_rate", unimplemented "alert_dismissed"),
    ("mute_rate", unimplemented "signal_muted")]

/-- `_per_symbol`. -/
def perSymbol (records : List Record) : List Payload :=
  let bySymbol := groupBy (·.text "symbol") records
  (sortedTexts bySymbol.keys).map fun symbol =>
    ("symbol", .str symbol) :: (funnel (bySymbol.getD symbol [])).fields

/-- The feedback rows of one run, or of all of them. -/
def selectedFeedback (runId : Option String) (feedback : LoadedTelemetry String) : List Record :=
  feedback.records.filter fun row => runId = none ∨ row.text "run_id" = runId

/-- The feedback of an evaluation without a feedback file. -/
def noFeedback : LoadedTelemetry String := ⟨[], [], 0, 0, false, true⟩

/-- `evaluate`. -/
def evaluateReport (loaded : LoadedTelemetry String) (runId : Option String)
    (clusterTrackerSeenCount : Option ℤ) (feedback : Option (LoadedTelemetry String)) :
    Except PyError EvaluationReport := do
  let records := selected runId loaded.records
  let tally ← intelligenceTally records
  let suppressed := suppression records
  let market ← marketMetrics records
  let dates ← perMarketDate records
  let fbLoaded := feedback.getD noFeedback
  let fbRecords := selectedFeedback runId fbLoaded
  let (valid, invalid) ← splitFeedback fbRecords
  let semantic := tally.skip.unknown + tally.fallback.unknown + suppressed.unknown + invalid
  let metadata ← metadata records runId
  let dataQuality ← dataQuality loaded records runId market semantic fbLoaded fbRecords.length
  return {
    metadata := metadata
    dataQuality := dataQuality
    pipeline := pipeline records clusterTrackerSeenCount
    alertNoise := alertNoiseSection records market suppressed
    hostInteraction := host records
    intelligence := intelligence records tally
    perSymbol := perSymbol records
    perRun := market.perRun
    perMarketDate := dates
    explicitFeedback := explicitFeedback valid invalid records }

end Evaluation

end MarketSentinel
