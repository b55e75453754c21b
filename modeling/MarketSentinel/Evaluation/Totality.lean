import MarketSentinel.Evaluation.Counts
import MarketSentinel.Evaluation.Exposure

/-!
# When an evaluation returns

The rows of an evaluation come from files: any field may hold any JSON value. Every read is guarded by a
type check, but not every conversion after it.

* `clean_sections`: no section of a report has a denied key, so every report has a record.
* `returns_evaluateReport`: the rows that an evaluation can read.
* `evaluation_complete_iff`: on those, and on no others, the report is complete.
-/

namespace MarketSentinel

open Lib

namespace Evaluation

/-! ## No denied keys -/

/-- A section is clean when its keys and its values are. -/
theorem clean_obj_cons {key : String} {value : Json} {rest : Payload} :
    Clean (.obj ((key, value) :: rest)) ↔
      key ∉ telemetryDenylist ∧ Clean value ∧ Clean (.obj rest) := by
  simp only [clean_obj, List.forall_mem_cons, and_assoc]

/-- A rate is clean when its parts are. -/
theorem clean_metric {available : Bool} {value reason producer : Json} (hvalue : Clean value)
    (hreason : Clean reason) (hproducer : Clean producer) :
    Clean (.obj (metric available value reason producer)) := by
  unfold metric
  simp [telemetryDenylist, hvalue, hreason, hproducer]

/-- So is one that is unavailable. -/
theorem clean_unavailable (reason : String) {producer : Json} (h : Clean producer) :
    Clean (.obj (unavailable reason producer)) := clean_metric clean_null (clean_str _) h

theorem clean_availableValue (value : ℚ) : Clean (.obj (availableValue value)) :=
  clean_metric (clean_float _) clean_null clean_null

/-- Texts are clean. -/
theorem clean_texts (texts : List String) : Clean (textsField texts) := by
  simp [textsField]

theorem clean_optionalFloat (x : Option PyFloat) : Clean (floatField x) := by
  cases x <;> simp [floatField]

theorem clean_rate (rate : Option ℚ) : Clean (rateField rate) := by
  cases rate <;> simp [rateField, TelemetryEvent.numberField]

/-- So are the counts of a funnel. -/
theorem clean_funnel (f : Funnel) : Clean (.obj f.fields) := by
  simp [Funnel.fields, telemetryDenylist]

theorem clean_exposureFields (f : Funnel) (observed : ℚ) {rate : Payload} (h : Clean (.obj rate)) :
    Clean (.obj (exposureFields f observed rate)) := by
  have hfunnel := clean_funnel f
  unfold exposureFields
  rw [clean_obj] at hfunnel ⊢
  intro e he
  rcases List.mem_append.1 he with hmem | hmem
  · exact hfunnel e hmem
  · simp only [List.mem_cons, List.not_mem_nil, or_false] at hmem
    rcases hmem with rfl | rfl
    · exact ⟨by simp [telemetryDenylist], clean_float _⟩
    · exact ⟨by simp [telemetryDenylist], h⟩

/-- The rate of a run. -/
theorem clean_runExposure {rows : List Record} {e : RunExposure} (h : runExposure rows = .ok e) :
    Clean (.obj e.alertsPerMarketHour) := by
  have hunexposed : ∀ observed reason, Clean (.obj (unexposed rows observed reason).alertsPerMarketHour) :=
    fun _ reason => clean_unavailable reason clean_null
  obtain ⟨stamped, -, hrest⟩ := bind_eq_ok.1 h
  split at hrest
  · cases hrest
    exact hunexposed _ _
  · split at hrest
    · obtain ⟨observed, -, hpure⟩ := bind_eq_ok.1 hrest
      split at hpure
      · cases hpure
        exact hunexposed _ _
      · cases hpure
        exact clean_availableValue _
    · cases hrest
      exact hunexposed _ _

/-- The rates of all runs. -/
theorem clean_marketMetrics {records : List Record} {market : MarketMetrics}
    (h : marketMetrics records = .ok market) :
    Clean (.obj market.alertsPerMarketHour) ∧ ∀ run ∈ market.perRun, Clean (.obj run) := by
  obtain ⟨exposures, hexposures, hmarket⟩ := bind_eq_ok.1 h
  cases hmarket
  have hclean : ∀ e ∈ exposures, Clean (.obj e.2.alertsPerMarketHour) := by
    intro e he
    obtain ⟨runId, -, hrun⟩ := (mem_of_mapM hexposures e).1 he
    obtain ⟨exposure, hexposure, hpure⟩ := bind_eq_ok.1 hrun
    cases hpure
    exact clean_runExposure hexposure
  constructor
  · unfold marketMetricsOf
    dsimp only
    split_ifs <;> first
      | exact clean_unavailable _ clean_null
      | exact clean_availableValue _
  · intro run hrun
    obtain ⟨e, he, rfl⟩ := List.mem_map.1 hrun
    exact clean_obj_cons.2 ⟨by decide, clean_str _, clean_exposureFields _ _ (hclean e he)⟩

/-- The sections of the dates. -/
theorem clean_perMarketDate {records : List Record} {dates : List Payload}
    (h : perMarketDate records = .ok dates) : ∀ date ∈ dates, Clean (.obj date) := by
  intro date hdate
  obtain ⟨byDate, -, hdates⟩ := bind_eq_ok.1 h
  obtain ⟨day, -, hday⟩ := (mem_of_mapM hdates date).1 hdate
  obtain ⟨metrics, hmetrics, hpure⟩ := bind_eq_ok.1 hday
  cases hpure
  exact clean_obj_cons.2 ⟨by decide, clean_str _,
    clean_exposureFields _ _ (clean_marketMetrics hmetrics).1⟩

/-- The sections of the symbols. -/
theorem clean_perSymbol (records : List Record) : ∀ row ∈ perSymbol records, Clean (.obj row) := by
  intro row hrow
  obtain ⟨symbol, -, rfl⟩ := List.mem_map.1 hrow
  exact clean_obj_cons.2 ⟨by decide, clean_str _, clean_funnel _⟩

/-- The latencies of a stage. -/
theorem clean_latencyBundle (samples : List PyFloat) (stage : LatencyStage) :
    Clean (.obj (latencyBundle samples stage)) := by
  simp [latencyBundle, telemetryDenylist, clean_optionalFloat]

theorem clean_tokenUsage (records : List Record) : Clean (.obj (tokenUsage records)) := by
  unfold tokenUsage
  dsimp only
  split <;> simp [telemetryDenylist]

/-- The section of the sidecar, whose reasons are known ones. -/
theorem clean_intelligence {records : List Record} {t : IntelligenceTally}
    (h : t.skip.Within knownSkipReasons ∧ t.fallback.Within knownFallbackReasons) :
    Clean (.obj (intelligence records t)) := by
  have hskip := h.1.clean (by decide)
  have hfallback := h.2.clean (by decide)
  unfold intelligence
  simp only [List.map_cons, List.map_nil, clean_obj_cons, clean_latencyBundle, clean_tokenUsage, clean_int,
    hskip, hfallback, true_and]
  simp [telemetryDenylist, LatencyStage.value]

/-- The feedback. -/
theorem clean_explicitFeedback (valid : List Record) (invalid : ℕ) (telemetryRows : List Record) :
    Clean (.obj (explicitFeedback valid invalid telemetryRows)) := by
  have hif : ∀ (c : Prop) [Decidable c] (reason : String) (value : ℚ),
      Clean (.obj (if c then unavailable reason else availableValue value)) := by
    intro c _ reason value
    split
    · exact clean_unavailable _ clean_null
    · exact clean_availableValue _
  unfold explicitFeedback
  simp only [clean_obj_cons, hif, clean_int, true_and]
  simp [telemetryDenylist]

theorem clean_metadata {records : List Record} {runId : Option String} {section' : Payload}
    (h : metadata records runId = .ok section') : Clean (.obj section') := by
  obtain ⟨dates, -, hpure⟩ := bind_eq_ok.1 h
  cases hpure
  cases runId <;> simp [telemetryDenylist, clean_texts, TelemetryEvent.textField]

/-- The rates of the pipeline. -/
theorem clean_pipeline (records : List Record) (clusterSeen : Option ℤ) :
    Clean (.obj (pipeline records clusterSeen)) := by
  simp [pipeline, telemetryDenylist, clean_rate]

/-- The section of the alerts. -/
theorem clean_alertNoise {records : List Record} {market : MarketMetrics} {suppressed : Tally}
    (hrate : Clean (.obj market.alertsPerMarketHour)) (hcounts : Clean suppressed.field) :
    Clean (.obj (alertNoiseSection records market suppressed)) := by
  unfold alertNoiseSection
  simp only [clean_obj_cons, clean_rate, clean_int, clean_float, hrate, hcounts, true_and]
  simp [telemetryDenylist]

theorem clean_host (records : List Record) : Clean (.obj (host records)) := by
  have hproducer : ∀ producer, Clean (unimplemented producer) :=
    fun producer => clean_unavailable _ (clean_str producer)
  simp [host, telemetryDenylist, hproducer]

/-- The quality of the data. -/
theorem clean_dataQuality {loaded feedback : LoadedTelemetry String} {records : List Record}
    {runId : Option String} {market : MarketMetrics} {semantic used : ℕ} {quality : Payload}
    (h : dataQuality loaded records runId market semantic feedback used = .ok quality) :
    Clean (.obj quality) := by
  obtain ⟨stamps, -, hpure⟩ := bind_eq_ok.1 h
  cases hpure
  simp only [clean_obj_cons, clean_texts, clean_optionalFloat, clean_int, clean_bool, clean_float, true_and]
  simp [telemetryDenylist]

/-- The count of malformed rows that a report was given. -/
theorem dataQuality_semantic {loaded feedback : LoadedTelemetry String} {records : List Record}
    {runId : Option String} {market : MarketMetrics} {semantic used : ℕ} {quality : Payload}
    (h : dataQuality loaded records runId market semantic feedback used = .ok quality) :
    Json.field quality "semantic_warning_count" = .int semantic := by
  obtain ⟨stamps, -, hpure⟩ := bind_eq_ok.1 h
  cases hpure
  rfl

/-! ## Reports -/

section Report

variable {loaded : LoadedTelemetry String} {runId : Option String} {seen : Option ℤ}
  {feedback : Option (LoadedTelemetry String)} {report : EvaluationReport}

/-- The parts of an evaluation that returned. -/
theorem evaluateReport_parts (h : evaluateReport loaded runId seen feedback = .ok report) :
    let records := selected runId loaded.records
    let fbLoaded := feedback.getD noFeedback
    let fbRecords := selectedFeedback runId fbLoaded
    ∃ tally market dates valid invalid metaFields quality,
      intelligenceTally records = .ok tally ∧ marketMetrics records = .ok market ∧
      perMarketDate records = .ok dates ∧ splitFeedback fbRecords = .ok (valid, invalid) ∧
      metadata records runId = .ok metaFields ∧
      dataQuality loaded records runId market
        (tally.skip.unknown + tally.fallback.unknown + (suppression records).unknown + invalid)
        fbLoaded fbRecords.length = .ok quality ∧
      report =
        { metadata := metaFields
          dataQuality := quality
          pipeline := pipeline records seen
          alertNoise := alertNoiseSection records market (suppression records)
          hostInteraction := host records
          intelligence := intelligence records tally
          perSymbol := perSymbol records
          perRun := market.perRun
          perMarketDate := dates
          explicitFeedback := explicitFeedback valid invalid records } := by
  obtain ⟨tally, htally, h⟩ := bind_eq_ok.1 h
  obtain ⟨market, hmarket, h⟩ := bind_eq_ok.1 h
  obtain ⟨dates, hdates, h⟩ := bind_eq_ok.1 h
  obtain ⟨⟨valid, invalid⟩, hsplit, h⟩ := bind_eq_ok.1 h
  obtain ⟨metaFields, hmeta, h⟩ := bind_eq_ok.1 h
  obtain ⟨quality, hquality, h⟩ := bind_eq_ok.1 h
  cases h
  exact ⟨tally, market, dates, valid, invalid, metaFields, quality, htally, hmarket, hdates, hsplit, hmeta,
    hquality, rfl⟩

/-- **No section of a report has a denied key.** -/
theorem clean_sections (h : evaluateReport loaded runId seen feedback = .ok report) :
    Clean (.obj report.sections) := by
  obtain ⟨tally, market, dates, valid, invalid, metaFields, quality, htally, hmarket, hdates, -, hmeta,
    hquality, rfl⟩ := evaluateReport_parts h
  have hrows := clean_marketMetrics hmarket
  have hcounts : Clean (suppression (selected runId loaded.records)).field :=
    (suppression_spec _).1.clean (by decide)
  have hlist : ∀ rows : List Payload, (∀ row ∈ rows, Clean (.obj row)) → Clean (.list (rows.map .obj)) := by
    intro rows hrows
    rw [clean_list]
    intro x hx
    obtain ⟨row, hrow, rfl⟩ := List.mem_map.1 hx
    exact hrows row hrow
  unfold EvaluationReport.sections
  simp only [clean_obj_cons, clean_metadata hmeta, clean_dataQuality hquality, clean_pipeline,
    clean_alertNoise hrows.1 hcounts, clean_host, clean_intelligence (intelligenceTally_within htally),
    hlist _ (clean_perSymbol _), hlist _ hrows.2, hlist _ (clean_perMarketDate hdates),
    clean_explicitFeedback, true_and]
  simp [telemetryDenylist]

end Report

/-- The rows that an evaluation can read. -/
structure Readable (records feedbackRows : List Record) : Prop where
  /-- A market timestamp that is a number has a session. -/
  dated : ∀ row ∈ records, Dated (Json.field row "market_timestamp")
  /-- No latency that is read is too large for a float, -/
  latency : ∀ row ∈ records, ¬ LatencyOverflow row
  /-- and no feedback timestamp. -/
  created : ∀ row ∈ feedbackRows, ¬ CreatedOverflow row
  /-- No run counts market time up to the last day of the calendar, -/
  runs : ∀ runId, ¬ Overruns (rowsOf runId records)
  /-- also not with its rows on that day alone. -/
  lastDay : ∀ runId, ¬ Overruns ((rowsOf runId records).filter onLastDay)

/-- **An evaluation returns** on the rows that it can read, and on no others. -/
theorem returns_evaluateReport (loaded : LoadedTelemetry String) (runId : Option String) (seen : Option ℤ)
    (feedback : Option (LoadedTelemetry String)) :
    Returns (evaluateReport loaded runId seen feedback) ↔
      Readable (selected runId loaded.records) (selectedFeedback runId (feedback.getD noFeedback)) := by
  -- The metadata read every date, which the sections after it rely on.
  have hmeta : Returns (metadata (selected runId loaded.records) runId) ↔
      ∀ row ∈ selected runId loaded.records, Returns (dateOf row) := by
    unfold metadata
    rw [returns_bind_of fun _ _ => returns_pure _, returns_mapM]
  constructor
  · rintro ⟨report, hreport⟩
    obtain ⟨tally, market, dates, valid, invalid, metaFields, quality, htally, hmarket, hdates, hsplit, hmetadata,
      -, -⟩ := evaluateReport_parts hreport
    have hdated := hmeta.1 ⟨metaFields, hmetadata⟩
    exact
      { dated := fun row hrow => (returns_dateOf row).1 (hdated row hrow)
        latency := (returns_intelligenceTally _).1 ⟨tally, htally⟩
        created := (returns_splitFeedback _).1 ⟨(valid, invalid), hsplit⟩
        runs := (returns_marketMetrics hdated).1 ⟨market, hmarket⟩
        lastDay := (returns_perMarketDate hdated).1 ⟨dates, hdates⟩ }
  · intro h
    have hdated : ∀ row ∈ selected runId loaded.records, Returns (dateOf row) :=
      fun row hrow => (returns_dateOf row).2 (h.dated row hrow)
    obtain ⟨tally, htally⟩ := (returns_intelligenceTally _).2 h.latency
    obtain ⟨market, hmarket⟩ := (returns_marketMetrics hdated).2 h.runs
    obtain ⟨dates, hdates⟩ := (returns_perMarketDate hdated).2 h.lastDay
    obtain ⟨split, hsplit⟩ := (returns_splitFeedback _).2 h.created
    obtain ⟨metaFields, hmetadata⟩ := hmeta.2 hdated
    obtain ⟨stamps, hstamps, -⟩ := stampsOf_dated hdated
    unfold evaluateReport dataQuality
    simp only [htally, hmarket, hdates, hsplit, hmetadata, hstamps, ok_bind, pure_bind]
    exact returns_pure _

/-- The malformed rows of an evaluation: the unrecognized reasons and the invalid feedback. -/
def malformedCount (records feedbackRows : List Record) : ℕ :=
  records.countP (unrecognized .intelligenceSkipped "decision_reason" knownSkipReasons) +
    records.countP (unrecognized .intelligenceFallback "fallback_reason" knownFallbackReasons) +
    records.countP (unrecognized .alertSuppressed "suppression_reason" knownSuppressionReasons) +
    feedbackRows.countP fun row => !wellFormedFeedback row

/-- The report and its record are made, the malformed rows are counted, and the rows without a name are
skipped. -/
def Complete (loaded : LoadedTelemetry String) (runId : Option String) (seen : Option ℤ)
    (feedback : Option (LoadedTelemetry String)) : Prop :=
  ∃ report record, evaluateReport loaded runId seen feedback = .ok report ∧ report.toRecord = .ok record ∧
    Json.field report.dataQuality "semantic_warning_count" =
      .int (malformedCount (selected runId loaded.records)
        (selectedFeedback runId (feedback.getD noFeedback))) ∧
    evaluateReport { loaded with records := loaded.records.filter fun row => (Record.text row "name").isSome }
      runId seen feedback = .ok report

/-- Rows without a name are never selected. -/
theorem selected_named (runId : Option String) (records : List Record) :
    selected runId (records.filter fun row => (row.text "name").isSome) = selected runId records := by
  unfold selected
  rw [List.filter_filter]
  apply List.filter_congr
  intro row _
  cases (row.text "name").isSome <;> simp

/-- A returned evaluation is complete. -/
theorem complete_of_returns {loaded : LoadedTelemetry String} {runId : Option String} {seen : Option ℤ}
    {feedback : Option (LoadedTelemetry String)} (h : Returns (evaluateReport loaded runId seen feedback)) :
    Complete loaded runId seen feedback := by
  obtain ⟨report, hreport⟩ := h
  obtain ⟨record, hrecord⟩ := EvaluationReport.returns_toRecord (clean_sections hreport)
  refine ⟨report, record, hreport, hrecord, ?_, ?_⟩
  · obtain ⟨tally, market, dates, valid, invalid, metaFields, quality, htally, -, -, hsplit, -, hquality, rfl⟩ :=
      evaluateReport_parts hreport
    obtain ⟨hskip, hfallback⟩ := intelligenceTally_unknown htally
    show Json.field quality "semantic_warning_count" = _
    rw [dataQuality_semantic hquality, hskip, hfallback, (suppression_spec _).2, splitFeedback_invalid hsplit]
    rfl
  · rw [← hreport]
    unfold evaluateReport dataQuality
    dsimp only
    rw [selected_named]

/-- **The evaluation of rows is complete exactly when it can read them.** -/
theorem evaluation_complete_iff (loaded : LoadedTelemetry String) (runId : Option String) (seen : Option ℤ)
    (feedback : Option (LoadedTelemetry String)) :
    Complete loaded runId seen feedback ↔
      Readable (selected runId loaded.records) (selectedFeedback runId (feedback.getD noFeedback)) := by
  rw [← returns_evaluateReport loaded runId seen feedback]
  constructor
  · rintro ⟨report, -, hreport, -⟩
    exact ⟨report, hreport⟩
  · exact complete_of_returns

/-- One row whose market timestamp is a NaN. -/
def nanRow : Record := [("name", .str "alert_candidate"), ("market_timestamp", .float .nan)]

/-- No report is made of that row. -/
theorem evaluation_incomplete_nan : ¬ ∀ loaded runId seen feedback, Complete loaded runId seen feedback := by
  intro h
  obtain ⟨report, -, hreport, -⟩ := h { noFeedback with records := [nanRow] } none none none
  have hreadable := (returns_evaluateReport _ _ _ _).1 ⟨report, hreport⟩
  have hrow : nanRow ∈ selected none [nanRow] :=
    List.mem_filter.2 ⟨List.mem_singleton_self _, by decide⟩
  exact hreadable.dated nanRow hrow

end Evaluation

end MarketSentinel
