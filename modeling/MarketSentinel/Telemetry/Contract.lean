import MarketSentinel.Lib.Json
import MarketSentinel.Domain.Model

/-!
# Telemetry records

The part of `telemetry/contract.py` and `telemetry/runtime.py` that the signal pipeline and
the host commands use: the record, its validation, the once-per-run cluster tracker, and a
runtime that appends every record its validation accepts. A record that is refused is
logged and dropped (`emit` never raises).
-/

namespace MarketSentinel

open Lib

inductive TelemetryKind
  | pipeline | host | intelligence
  deriving DecidableEq, Repr

inductive TelemetryName
  | eventGenerated | eventDeduped | eventClustered | signalEpisodeCreated | signalEscalated
  | alertCandidate | alertSuppressed | alertPresented | signalOpened | alertBadgeReset
  | alertDismissed | signalMuted | intelligenceRouted | intelligenceSkipped
  | intelligenceSucceeded | intelligenceFallback | intelligenceTokenUsage | intelligenceLatency
  deriving DecidableEq, Repr

def TelemetryKind.value : TelemetryKind → String
  | .pipeline => "pipeline"
  | .host => "host"
  | .intelligence => "intelligence"

def TelemetryName.value : TelemetryName → String
  | .eventGenerated => "event_generated"
  | .eventDeduped => "event_deduped"
  | .eventClustered => "event_clustered"
  | .signalEpisodeCreated => "signal_episode_created"
  | .signalEscalated => "signal_escalated"
  | .alertCandidate => "alert_candidate"
  | .alertSuppressed => "alert_suppressed"
  | .alertPresented => "alert_presented"
  | .signalOpened => "signal_opened"
  | .alertBadgeReset => "alert_badge_reset"
  | .alertDismissed => "alert_dismissed"
  | .signalMuted => "signal_muted"
  | .intelligenceRouted => "intelligence_routed"
  | .intelligenceSkipped => "intelligence_skipped"
  | .intelligenceSucceeded => "intelligence_succeeded"
  | .intelligenceFallback => "intelligence_fallback"
  | .intelligenceTokenUsage => "intelligence_token_usage"
  | .intelligenceLatency => "intelligence_latency"

/-- `_KIND_FOR_NAME`. -/
def kindFor : TelemetryName → TelemetryKind
  | .eventGenerated | .eventDeduped | .eventClustered | .signalEpisodeCreated | .signalEscalated
  | .alertCandidate | .alertSuppressed => .pipeline
  | .alertPresented | .signalOpened | .alertBadgeReset | .alertDismissed | .signalMuted => .host
  | .intelligenceRouted | .intelligenceSkipped | .intelligenceSucceeded | .intelligenceFallback
  | .intelligenceTokenUsage | .intelligenceLatency => .intelligence

inductive SuppressionReason
  | cooldown | sameTickDuplicate
  deriving DecidableEq, Repr

def SuppressionReason.value : SuppressionReason → String
  | .cooldown => "cooldown"
  | .sameTickDuplicate => "same_tick_duplicate"

inductive DecisionReason
  | expiredEpisode | suppressedEdge | staleFeed | insufficientFeatures | notCandidate | episodeBudget
  deriving DecidableEq, Repr

def DecisionReason.value : DecisionReason → String
  | .expiredEpisode => "expired_episode"
  | .suppressedEdge => "suppressed_edge"
  | .staleFeed => "stale_feed"
  | .insufficientFeatures => "insufficient_features"
  | .notCandidate => "not_candidate"
  | .episodeBudget => "episode_budget"

inductive LatencyStage
  | router | model | parse
  deriving DecidableEq, Repr

def LatencyStage.value : LatencyStage → String
  | .router => "router"
  | .model => "model"
  | .parse => "parse"

/-- An append-only observation. -/
structure TelemetryEvent where
  telemetryId : String
  name : TelemetryName
  createdTimestamp : ℚ
  runId : String
  marketTimestamp : Option ℚ := none
  symbol : Option String := none
  eventId : Option String := none
  signalId : Option String := none
  eventType : Option String := none
  family : Option String := none
  direction : Option String := none
  priority : Option String := none
  hostAction : Option String := none
  intelligenceStatus : Option String := none
  decisionReason : Option DecisionReason := none
  fallbackReason : Option String := none
  suppressionReason : Option SuppressionReason := none
  latencyS : Option ℚ := none
  latencyStage : Option LatencyStage := none
  tokenIn : Option ℤ := none
  tokenOut : Option ℤ := none
  deriving DecidableEq, Repr

/-- The code points that `str.isspace` accepts. -/
def isSpace (c : Char) : Bool :=
  let n := c.toNat
  (9 ≤ n ∧ n ≤ 13) ∨ (28 ≤ n ∧ n ≤ 32) ∨ n = 133 ∨ n = 160 ∨ n = 5760 ∨ (8192 ≤ n ∧ n ≤ 8202) ∨
    n = 8232 ∨ n = 8233 ∨ n = 8239 ∨ n = 8287 ∨ n = 12288

/-- `value.strip() == ""`. -/
def isBlank (value : String) : Bool := value.toList.all isSpace

namespace TelemetryEvent

/-- Python truth of an optional string. -/
def truthy : Option String → Bool
  | some s => s ≠ ""
  | none => false

def nonNegative : Option ℚ → Bool
  | some x => 0 ≤ x
  | none => true

/-- `_validate_correlations`: what each name requires. -/
def correlated (e : TelemetryEvent) : Bool :=
  match e.name with
  | .eventGenerated | .eventDeduped | .eventClustered => truthy e.eventId ∧ truthy e.symbol
  | .signalEpisodeCreated | .signalEscalated | .alertCandidate =>
    truthy e.signalId ∧ truthy e.symbol
  | .alertSuppressed => truthy e.signalId ∧ truthy e.symbol ∧ e.suppressionReason.isSome
  | .alertPresented | .signalOpened | .alertDismissed | .signalMuted => truthy e.signalId
  | .alertBadgeReset => true
  | .intelligenceRouted | .intelligenceSucceeded => truthy e.signalId
  | .intelligenceSkipped =>
    truthy e.signalId ∧ e.decisionReason.isSome ∧ e.fallbackReason.isNone
  | .intelligenceFallback =>
    truthy e.signalId ∧ truthy e.fallbackReason ∧ e.decisionReason.isNone
  | .intelligenceLatency => truthy e.signalId ∧ e.latencyS.isSome ∧ e.latencyStage.isSome
  | .intelligenceTokenUsage => truthy e.signalId ∧ (e.tokenIn.isSome ∨ e.tokenOut.isSome)

/-- `__post_init__` raises nothing. The kind is the name's by construction. -/
def valid (e : TelemetryEvent) : Bool :=
  !isBlank e.telemetryId ∧ !isBlank e.runId ∧ nonNegative e.latencyS ∧
    nonNegative (e.tokenIn.map (↑·)) ∧ nonNegative (e.tokenOut.map (↑·)) ∧
    (∀ r ∈ e.fallbackReason, !isBlank r) ∧ e.correlated

def textField : Option String → Json
  | some s => .str s
  | none => .null

def numberField : Option ℚ → Json
  | some x => .float (.finite x)
  | none => .null

def countField : Option ℤ → Json
  | some n => .int n
  | none => .null

/-- `to_record`: every field is on the allow list and none on the deny list. -/
def toRecord (e : TelemetryEvent) : List (String × Json) :=
  [("telemetry_id", .str e.telemetryId),
    ("name", .str e.name.value),
    ("kind", .str (kindFor e.name).value),
    ("created_timestamp", .float (.finite e.createdTimestamp)),
    ("run_id", .str e.runId),
    ("market_timestamp", numberField e.marketTimestamp),
    ("symbol", textField e.symbol),
    ("event_id", textField e.eventId),
    ("signal_id", textField e.signalId),
    ("event_type", textField e.eventType),
    ("family", textField e.family),
    ("direction", textField e.direction),
    ("priority", textField e.priority),
    ("host_action", textField e.hostAction),
    ("intelligence_status", textField e.intelligenceStatus),
    ("decision_reason", textField (e.decisionReason.map (·.value))),
    ("fallback_reason", textField e.fallbackReason),
    ("suppression_reason", textField (e.suppressionReason.map (·.value))),
    ("latency_s", numberField e.latencyS),
    ("latency_stage", textField (e.latencyStage.map (·.value))),
    ("token_in", countField e.tokenIn),
    ("token_out", countField e.tokenOut)]

theorem toRecord_name (e : TelemetryEvent) : Json.field e.toRecord "name" = .str e.name.value := by
  simp [toRecord, Json.field, List.lookup_cons]

theorem toRecord_priority (e : TelemetryEvent) :
    Json.field e.toRecord "priority" = textField e.priority := by
  simp [toRecord, Json.field, List.lookup_cons]

end TelemetryEvent

/-! ## The runtime -/

/-- `ClusterMembershipTracker.newly_clustered`: the ids to report, and the tracked ids after. -/
def newlyClustered (clustered memberIds : List String) : List String × List String :=
  let unique := memberIds.eraseDups
  if unique.length < 2 then ([], clustered)
  else
    let fresh := unique.filter (· ∉ clustered)
    (fresh, clustered ++ fresh)

/-- A `TelemetryRuntime` with a collector that keeps every record. `stamps n` is the id and the
wall time that the `n`-th emission draws. -/
structure TelemetryRuntime where
  runId : String
  stamps : ℕ → String × ℚ
  emitted : ℕ := 0
  clustered : List String := []
  events : List TelemetryEvent := []

/-- `emit`: `fields` builds the record from its id, run and creation time. -/
def TelemetryRuntime.emit (t : TelemetryRuntime)
    (fields : (telemetryId runId : String) → ℚ → TelemetryEvent) : TelemetryRuntime :=
  let stamp := t.stamps t.emitted
  let event := fields stamp.1 t.runId stamp.2
  { t with
    emitted := t.emitted + 1
    events := if event.valid then t.events ++ [event] else t.events }

/-- An emission appends the record or drops it. -/
theorem TelemetryRuntime.emit_events (t : TelemetryRuntime)
    (fields : String → String → ℚ → TelemetryEvent) :
    (t.emit fields).events = t.events ∨
      ∃ i r w, (t.emit fields).events = t.events ++ [fields i r w] := by
  unfold emit
  dsimp only
  split
  · exact .inr ⟨_, _, _, rfl⟩
  · exact .inl rfl

end MarketSentinel
