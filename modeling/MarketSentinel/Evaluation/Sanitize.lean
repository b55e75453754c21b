import MarketSentinel.Lib.Returns
import MarketSentinel.Telemetry.Jsonl

/-!
# The record of a report

`evaluation/report.py`: the allow list of a report, the rates that may be unavailable, and the
sanitizer that a report's record goes through. The sanitizer raises on a denied key at any depth.

* `returns_projectTree`: it raises on nothing else.
* `returns_toRecord`: a report whose sections hold no denied key has a record.
-/

namespace MarketSentinel

open Lib

namespace Evaluation

/-- `EVALUATION_ALLOWLIST`. -/
def evaluationAllowlist : List String :=
  ["metadata", "data_quality", "pipeline", "alert_noise", "host_interaction", "intelligence",
    "per_symbol", "per_run", "per_market_date", "explicit_feedback", "run_ids", "symbols",
    "market_dates", "filter_run_id", "input_files", "records_read", "malformed_complete_lines",
    "skipped_trailing_partial", "healthy", "data_quality_warning", "semantic_warning_count",
    "runs_insufficient_market_time", "runs_unsupported_market_scope", "market_time_coverage",
    "min_market_timestamp", "max_market_timestamp", "observed_market_seconds", "events_generated",
    "events_deduped", "events_clustered", "signal_episodes_created", "signal_escalations",
    "alert_candidates", "alert_suppressed", "alerts_presented", "cluster_tracker_seen_count",
    "dedupe_rate", "event_to_signal_rate", "signal_to_alert_candidate_rate",
    "candidate_to_presented_rate", "alert_suppression_rate", "info_count", "notice_count",
    "important_count", "critical_count", "important_critical_ratio", "alerts_per_market_hour",
    "repeated_episode_signal_count", "repeated_episode_extra_alert_count", "suppression_by_reason",
    "cooldown", "same_tick_duplicate", "unrecognized_skip_reason_count",
    "unrecognized_fallback_reason_count", "unrecognized_suppression_reason_count", "alert_badge_reset",
    "signal_opened", "alert_dismissed", "signal_muted", "open_rate", "dismiss_rate", "mute_rate",
    "feedback_count", "useful_count", "not_useful_count", "too_noisy_count", "too_late_count",
    "useful_rate", "feedback_coverage", "invalid_feedback_record_count", "available", "value",
    "unavailable_reason", "producer", "routed", "skipped", "succeeded", "fallback",
    "skip_by_decision_reason", "fallback_by_fallback_reason", "latency", "token_usage", "router",
    "model", "parse", "stage", "count", "min_s", "median_s", "p95_s", "max_s", "token_in_total",
    "token_out_total", "token_total", "token_events_count", "symbol", "run_id", "market_date",
    "expired_episode", "suppressed_edge", "stale_feed", "insufficient_features", "not_candidate",
    "episode_budget", "none", "timeout", "transport", "malformed", "rate_limited", "unavailable",
    "cancelled", "stale_work", "policy"]

/-- What a rate is written as. -/
def metric (available : Bool) (value reason producer : Json) : Payload :=
  [("available", .bool available), ("value", value), ("unavailable_reason", reason),
    ("producer", producer)]

/-- `unavailable`: the projection keeps its four fields. -/
def unavailable (reason : String) (producer : Json := .null) : Payload :=
  metric false .null (.str reason) producer

/-- `available_value`: the projection keeps its four fields. -/
def availableValue (value : ℚ) : Payload := metric true (.float (.finite value)) .null .null

/-! ## The sanitizer -/

mutual

/-- `_all_keys`. -/
def allKeys : Json → List String
  | .obj fields => fieldKeys fields
  | .list xs => itemKeys xs
  | _ => []

def fieldKeys : Payload → List String
  | [] => []
  | (key, value) :: rest => key :: (allKeys value ++ fieldKeys rest)

def itemKeys : List Json → List String
  | [] => []
  | x :: rest => allKeys x ++ itemKeys rest

end

mutual

/-- `_project_tree`. -/
def projectTree : Json → Except PyError Json
  | .obj fields =>
    if fields.any fun f => decide (f.1 ∈ telemetryDenylist) then .error .valueError
    else do return .obj (← projectFields fields)
  | .list xs => do return .list (← projectItems xs)
  | payload => .ok payload

def projectFields : Payload → Except PyError Payload
  | [] => .ok []
  | (key, value) :: rest =>
    if key ∈ evaluationAllowlist then do
      let projected ← projectTree value
      return (key, projected) :: (← projectFields rest)
    else projectFields rest

def projectItems : List Json → Except PyError (List Json)
  | [] => .ok []
  | x :: rest => do
    let projected ← projectTree x
    return projected :: (← projectItems rest)

end

/-- `sanitize_report`. -/
def sanitizeReport (payload : Payload) : Except PyError Json :=
  if (fieldKeys payload).any fun key => decide (key ∈ telemetryDenylist) then .error .valueError
  else projectTree (.obj payload)

/-- No denied key at any depth. -/
def Clean (payload : Json) : Prop := ∀ key ∈ allKeys payload, key ∉ telemetryDenylist

/-- The keys of a record, at any depth. -/
theorem fieldKeys_eq (fields : Payload) :
    fieldKeys fields = fields.flatMap fun f => f.1 :: allKeys f.2 := by
  induction fields with
  | nil => rw [fieldKeys]; rfl
  | cons f fields ih =>
    obtain ⟨key, value⟩ := f
    rw [fieldKeys, ih]
    rfl

theorem itemKeys_eq (xs : List Json) : itemKeys xs = xs.flatMap allKeys := by
  induction xs with
  | nil => rw [itemKeys]; rfl
  | cons x xs ih =>
    rw [itemKeys, ih]
    rfl

/-- A record is clean when its keys are allowed and its values are clean. -/
@[simp] theorem clean_obj {fields : Payload} :
    Clean (.obj fields) ↔ ∀ f ∈ fields, f.1 ∉ telemetryDenylist ∧ Clean f.2 := by
  unfold Clean
  rw [allKeys, fieldKeys_eq]
  constructor
  · intro h f hf
    refine ⟨h f.1 (List.mem_flatMap.2 ⟨f, hf, List.mem_cons_self⟩), ?_⟩
    intro key hkey
    exact h key (List.mem_flatMap.2 ⟨f, hf, List.mem_cons_of_mem _ hkey⟩)
  · intro h key hkey
    obtain ⟨f, hf, hmem⟩ := List.mem_flatMap.1 hkey
    rcases List.mem_cons.1 hmem with rfl | hmem
    · exact (h f hf).1
    · exact (h f hf).2 key hmem

/-- A list is clean when its items are. -/
@[simp] theorem clean_list {xs : List Json} : Clean (.list xs) ↔ ∀ x ∈ xs, Clean x := by
  unfold Clean
  rw [allKeys, itemKeys_eq]
  simp only [List.mem_flatMap]
  exact ⟨fun h x hx key hkey => h key ⟨x, hx, hkey⟩, fun h key ⟨x, hx, hkey⟩ => h x hx key hkey⟩

@[simp] theorem clean_null : Clean .null := by simp [Clean, allKeys]

@[simp] theorem clean_bool (b : Bool) : Clean (.bool b) := by simp [Clean, allKeys]

@[simp] theorem clean_int (n : ℤ) : Clean (.int n) := by simp [Clean, allKeys]

@[simp] theorem clean_float (x : PyFloat) : Clean (.float x) := by simp [Clean, allKeys]

@[simp] theorem clean_str (s : String) : Clean (.str s) := by simp [Clean, allKeys]

mutual

/-- **Projecting a clean tree returns.** -/
theorem returns_projectTree : ∀ payload : Json, Clean payload → Returns (projectTree payload)
  | .obj fields, h => by
    rw [clean_obj] at h
    have hnone : (fields.any fun f => decide (f.1 ∈ telemetryDenylist)) = false := by
      rw [List.any_eq_false]
      intro f hf
      simpa using (h f hf).1
    rw [projectTree, if_neg (by simp [hnone]), returns_bind_of fun _ _ => returns_pure _]
    exact returns_projectFields fields fun f hf => (h f hf).2
  | .list xs, h => by
    rw [projectTree, returns_bind_of fun _ _ => returns_pure _]
    exact returns_projectItems xs (clean_list.1 h)
  | .null, _ => ⟨_, by rw [projectTree] <;> simp⟩
  | .bool _, _ => ⟨_, by rw [projectTree] <;> simp⟩
  | .int _, _ => ⟨_, by rw [projectTree] <;> simp⟩
  | .float _, _ => ⟨_, by rw [projectTree] <;> simp⟩
  | .str _, _ => ⟨_, by rw [projectTree] <;> simp⟩

/-- A record with clean values can be projected. -/
theorem returns_projectFields :
    ∀ fields : Payload, (∀ f ∈ fields, Clean f.2) → Returns (projectFields fields)
  | [], _ => by
    rw [projectFields]
    exact returns_ok _
  | (key, value) :: rest, h => by
    rw [List.forall_mem_cons] at h
    have hrest := returns_projectFields rest h.2
    rw [projectFields]
    split
    · obtain ⟨projected, hvalue⟩ := returns_projectTree value h.1
      rw [hvalue, ok_bind, returns_bind_of fun _ _ => returns_pure _]
      exact hrest
    · exact hrest

theorem returns_projectItems :
    ∀ xs : List Json, (∀ x ∈ xs, Clean x) → Returns (projectItems xs)
  | [], _ => by
    rw [projectItems]
    exact returns_ok _
  | x :: rest, h => by
    rw [List.forall_mem_cons] at h
    obtain ⟨projected, hx⟩ := returns_projectTree x h.1
    rw [projectItems, hx, ok_bind, returns_bind_of fun _ _ => returns_pure _]
    exact returns_projectItems rest h.2

end

/-! ## The report -/

/-- The sections of a report. -/
structure EvaluationReport where
  metadata : Payload
  dataQuality : Payload
  pipeline : Payload
  alertNoise : Payload
  hostInteraction : Payload
  intelligence : Payload
  perSymbol : List Payload
  perRun : List Payload
  perMarketDate : List Payload
  explicitFeedback : Payload

namespace EvaluationReport

/-- The sections in the order of the record. -/
def sections (report : EvaluationReport) : Payload :=
  [("metadata", .obj report.metadata),
    ("data_quality", .obj report.dataQuality),
    ("pipeline", .obj report.pipeline),
    ("alert_noise", .obj report.alertNoise),
    ("host_interaction", .obj report.hostInteraction),
    ("intelligence", .obj report.intelligence),
    ("per_symbol", .list (report.perSymbol.map .obj)),
    ("per_run", .list (report.perRun.map .obj)),
    ("per_market_date", .list (report.perMarketDate.map .obj)),
    ("explicit_feedback", .obj report.explicitFeedback)]

/-- `to_record`. -/
def toRecord (report : EvaluationReport) : Except PyError Json := sanitizeReport report.sections

/-- **A report without a denied key has a record.** -/
theorem returns_toRecord {report : EvaluationReport} (h : Clean (.obj report.sections)) :
    Returns report.toRecord := by
  have hnone : (fieldKeys report.sections).any (fun key => decide (key ∈ telemetryDenylist)) = false := by
    rw [List.any_eq_false]
    intro key hkey
    have hclean := h key (by rwa [allKeys])
    simpa using hclean
  unfold toRecord sanitizeReport
  rw [if_neg (by simp [hnone])]
  exact returns_projectTree _ h

end EvaluationReport

end Evaluation

end MarketSentinel
