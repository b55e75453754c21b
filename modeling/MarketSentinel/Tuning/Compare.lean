import MarketSentinel.Evaluation.Aggregate
import MarketSentinel.Signals.Runs

/-!
# The priority counts of the tuning comparison

`tuning/compare.py` counts the same records as the evaluation, after `str.upper`. The pipeline
writes priorities in lower case, so the two agree only where there is nothing to count.

* `Emitted.of_run`: what the pipeline writes as the priority of an alert candidate.
* `priority_counts_agree_iff`: on the records of every pipeline run, the report's counts are
  right exactly when there is no alert candidate.
-/

namespace MarketSentinel

open Lib Machine

namespace Tuning

/-- `str.upper`, on the characters that it sends into the letters of the four priorities: the ASCII
letters and the dotless i. -/
def upper (s : String) : String :=
  String.ofList (s.toList.map fun c => if c = 'ı' then 'I' else c.toUpper)

/-- `_PRIORITIES`. -/
def priorities : List (String × String) :=
  [("INFO", "info_count"), ("NOTICE", "notice_count"), ("IMPORTANT", "important_count"),
    ("CRITICAL", "critical_count")]

/-- The counter of a record, if it is a candidate with a known priority. -/
def counterOf (row : Record) : Option String :=
  if isCandidate row then (row.text "priority").bind fun p => priorities.lookup (upper p) else none

/-- `_priority_counts`. -/
def priorityCounts (records : List Record) : Dict String ℕ :=
  records.foldl (fun counts row => (counterOf row).elim counts counts.bump)
    (Dict.empty.setAll (priorities.map Prod.snd) 0)

/-- `_repeated`. -/
def repeated (records : List Record) : ℕ × ℕ :=
  Evaluation.repeatedOf
    (records.foldl (fun g row => if isCandidate row then Evaluation.group g row else g) Dict.empty)

/-- The part of `metrics_from_records` that reads the candidates. -/
structure Metrics where
  alertCandidates : ℕ
  priorityCounts : Dict String ℕ
  repeatedEpisodeSignalCount : ℕ
  repeatedEpisodeExtraAlertCount : ℕ

def metricsFromRecords (records : List Record) : Metrics where
  alertCandidates := records.countP isCandidate
  priorityCounts := priorityCounts records
  repeatedEpisodeSignalCount := (repeated records).1
  repeatedEpisodeExtraAlertCount := (repeated records).2

/-- The counter of a priority. -/
def counterName : SignalPriority → String
  | .info => "info_count"
  | .notice => "notice_count"
  | .important => "important_count"
  | .critical => "critical_count"

def Metrics.count (m : Metrics) (priority : SignalPriority) : ℕ :=
  m.priorityCounts.getD (counterName priority) 0

/-- Each counter is the number of records it counts. -/
theorem metrics_counts (records : List Record) (priority : SignalPriority) :
    (metricsFromRecords records).count priority =
      records.countP fun row => counterOf row = some (counterName priority) := by
  unfold metricsFromRecords Metrics.count priorityCounts Dict.getD
  dsimp only
  rw [Dict.get?_foldl_bump, Dict.get?_setAll, if_pos (by cases priority <;> decide)]
  simp

/-- The two modules agree on the repeated episodes. -/
theorem repeated_eq (records : List Record) :
    repeated records = Evaluation.repeatedEpisodes (records.filter isCandidate) := by
  unfold repeated Evaluation.repeatedEpisodes
  congr 1
  rw [List.foldl_filter]

end Tuning

/-! ## What the pipeline writes -/

/-- An alert candidate carries the value of a priority. -/
def Written (e : TelemetryEvent) : Prop :=
  e.name = .alertCandidate → ∃ priority : SignalPriority, e.priority = some priority.value

/-- Every alert candidate that was recorded carries the value of a priority. -/
def Emitted (p : SignalPipeline) : Prop := ∀ t ∈ p.telemetry, ∀ e ∈ t.events, Written e

section Emitted

variable {p : SignalPipeline}

theorem Emitted.of_telemetry {p' : SignalPipeline} (h : Emitted p)
    (ht : p'.telemetry = p.telemetry) : Emitted p' := by
  intro t hp e he
  exact h t (ht ▸ hp) e he

theorem Emitted.emit (h : Emitted p) {fields : String → String → ℚ → TelemetryEvent}
    (hw : ∀ i r w, Written (fields i r w)) : Emitted (p.emit fields) := by
  intro t ht e he
  obtain ⟨t', ht', rfl⟩ := Option.mem_map.1 ht
  rcases t'.emit_events fields with hsame | ⟨i, r, w, hsnoc⟩
  · exact h t' ht' e (hsame ▸ he)
  · rw [hsnoc, List.mem_append, List.mem_singleton] at he
    rcases he with he | rfl
    · exact h t' ht' e he
    · exact hw i r w

theorem written_of_name {e : TelemetryEvent} (h : e.name ≠ .alertCandidate) : Written e :=
  fun hn => absurd hn h

theorem written_suppressedFields (signal : Signal) (reason : SuppressionReason) (i r : String)
    (w : ℚ) : Written (SignalPipeline.suppressedFields signal reason i r w) :=
  written_of_name (by simp [SignalPipeline.suppressedFields, SignalPipeline.signalFields])

theorem written_signalFields (name : TelemetryName) (signal : Signal) (i r : String) (w : ℚ) :
    Written (SignalPipeline.signalFields name signal i r w) :=
  fun _ => ⟨signal.priority, rfl⟩

theorem Emitted.acceptEvent {r : SignalPipeline × List MarketEvent} (h : Emitted r.1)
    (event : MarketEvent) : Emitted (SignalPipeline.acceptEvent r event).1 := by
  have hgen : Emitted (r.1.emit (SignalPipeline.eventFields .eventGenerated event)) :=
    h.emit fun i r w => written_of_name (by simp [SignalPipeline.eventFields])
  unfold SignalPipeline.acceptEvent
  dsimp only
  split
  · exact hgen.of_telemetry rfl
  · refine Emitted.emit (hgen.of_telemetry rfl) fun i r w => written_of_name ?_
    simp [SignalPipeline.eventFields]

theorem Emitted.observeCluster (h : Emitted p) (signal : Signal) :
    Emitted (p.observeCluster signal) := by
  unfold SignalPipeline.observeCluster
  cases ht : p.telemetry with
  | none => exact h
  | some runtime =>
    dsimp only
    -- The tracker changes no record; each fresh member is one more record.
    refine List.foldlRecOn (motive := Emitted) _ _ ?_ fun p' hp' eventId _ => ?_
    · intro t hp e he
      cases hp
      exact h runtime ht e he
    · exact hp'.emit fun i r w => written_of_name (by simp [SignalPipeline.clusteredFields])

theorem Emitted.observeEpisode {r : SignalPipeline × List String} (h : Emitted r.1)
    (prior : List (String × SignalPriority)) (produced : Signal × SignalTrace) :
    Emitted (SignalPipeline.observeEpisode prior r produced).1 := by
  have hemit : ∀ name, Emitted (r.1.emit (SignalPipeline.signalFields name produced.1)) :=
    fun name => h.emit (written_signalFields name produced.1)
  unfold SignalPipeline.observeEpisode
  dsimp only
  split
  · exact h
  · refine Emitted.observeCluster ?_ _
    split
    · exact hemit .signalEpisodeCreated
    · split
      · exact hemit .signalEscalated
      · exact h

theorem Emitted.alertStep {s : SignalPipeline.AlertState} (h : Emitted s.pipeline)
    (env : PipelineEnv) (produced : Signal × SignalTrace) :
    Emitted (SignalPipeline.alertStep env s produced).pipeline := by
  unfold SignalPipeline.alertStep
  dsimp only
  split
  · exact h.emit (written_suppressedFields _ _)
  · split
    · exact Emitted.emit (h.of_telemetry rfl) (written_signalFields _ _)
    · exact Emitted.emit (h.of_telemetry rfl) (written_suppressedFields _ _)

theorem Emitted.composeStage (h : Emitted p) (env : PipelineEnv) (previous : Option MarketFeatures)
    (current : MarketFeatures) : Emitted (p.composeStage env previous current).2.2 := by
  have haccepts : Emitted
      ((evaluate env.eventId env.detectedAt previous current).foldl
        SignalPipeline.acceptEvent (p, [])).1 :=
    List.foldlRecOn (motive := fun r : SignalPipeline × List MarketEvent => Emitted r.1) _ _ h
      fun r hr event _ => hr.acceptEvent event
  unfold SignalPipeline.composeStage
  dsimp only
  split
  · exact haccepts.of_telemetry rfl
  · exact haccepts.of_telemetry rfl

theorem Emitted.process (h : Emitted p) (env : PipelineEnv) (previous : Option MarketFeatures)
    (current : MarketFeatures) : Emitted (p.process env previous current).2 := by
  have hobserve : Emitted ((p.composeStage env previous current).2.2.observeEpisodes
      (p.priorPriority current.symbol) (p.composeStage env previous current).2.1) :=
    List.foldlRecOn (motive := fun r : SignalPipeline × List String => Emitted r.1) _ _
      (h.composeStage env previous current) fun r hr produced _ => hr.observeEpisode _ produced
  unfold SignalPipeline.process
  dsimp only
  split
  · exact hobserve
  · exact List.foldlRecOn (motive := fun s : SignalPipeline.AlertState => Emitted s.pipeline) _ _
      hobserve fun s hs produced _ => hs.alertStep env produced

/-- **Every alert candidate of a run carries the value of a priority.** -/
theorem Emitted.of_run {p₀ : SignalPipeline} {calls : List SignalCall} (h : Emitted p₀)
    (hrun : run SignalPipeline.step p₀ calls = some p) : Emitted p := by
  refine run_inv (I := Emitted) (fun p call p' hp hstep => ?_) h hrun
  cases hstep
  cases call with
  | process env previous current => exact hp.process env previous current
  | consumeBatch draws events features => exact hp.of_telemetry rfl
  | prune symbol nowTs => exact hp.of_telemetry rfl

end Emitted

/-! ## The counts of a run -/

namespace SignalPipeline

/-- The records a pipeline wrote. -/
def records (p : SignalPipeline) : List Record :=
  (p.telemetry.map fun t => t.events.map TelemetryEvent.toRecord).getD []

end SignalPipeline

/-- The alert candidates written with a priority. -/
def writtenCount (records : List Record) (priority : SignalPriority) : ℕ :=
  records.countP fun row => isCandidate row ∧ row.text "priority" = some priority.value

def SignalPriority.all : List SignalPriority := [.info, .notice, .important, .critical]

/-- The report counts what was written, up to the total, and as the comparison does. -/
structure PriorityCountsAgree (records : List Record) : Prop where
  written : ∀ priority, (Evaluation.evaluate none records).count priority =
    writtenCount records priority
  total : (SignalPriority.all.map (Evaluation.evaluate none records).count).sum =
    records.countP isCandidate
  tuning : ∀ priority, (Evaluation.evaluate none records).count priority =
    (Tuning.metricsFromRecords records).count priority

/-- The records of telemetry events whose candidates carry the value of a priority. -/
structure WellWritten (records : List Record) : Prop where
  named : ∀ row ∈ records, (row.text "name").isSome
  priority : ∀ row ∈ records, isCandidate row →
    ∃ priority : SignalPriority, row.text "priority" = some priority.value

theorem toRecord_isCandidate {e : TelemetryEvent} (h : isCandidate e.toRecord) :
    e.name = .alertCandidate := by
  simp only [isCandidate, Record.text, TelemetryEvent.toRecord_name, decide_eq_true_eq] at h
  revert h
  cases e.name <;> decide

theorem Emitted.wellWritten {p : SignalPipeline} (h : Emitted p) : WellWritten p.records := by
  unfold SignalPipeline.records
  cases ht : p.telemetry with
  | none => exact ⟨by simp, by simp⟩
  | some t =>
    refine ⟨fun row hrow => ?_, fun row hrow hcand => ?_⟩ <;>
      obtain ⟨e, he, rfl⟩ := List.mem_map.1 hrow
    · simp only [Record.text, TelemetryEvent.toRecord_name, Option.isSome_some]
    · obtain ⟨priority, hp⟩ := h t ht e he (toRecord_isCandidate hcand)
      exact ⟨priority, by simp only [Record.text, TelemetryEvent.toRecord_priority, hp,
        TelemetryEvent.textField]⟩

section WellWritten

variable {records : List Record} (h : WellWritten records)
include h

/-- Nothing is counted under an upper-case key. -/
theorem WellWritten.report_zero (priority : SignalPriority) :
    (Evaluation.evaluate none records).count priority = 0 := by
  unfold Evaluation.evaluate
  rw [Evaluation.alertNoise_counts, List.countP_eq_zero]
  intro row hrow
  obtain ⟨hsel, hcand⟩ := List.mem_filter.1 hrow
  obtain ⟨written, hw⟩ := h.priority row (List.mem_filter.1 hsel).1 hcand
  rw [hw]
  cases written <;> cases priority <;> decide

/-- **The comparison counts what was written.** -/
theorem WellWritten.metrics_written (priority : SignalPriority) :
    (Tuning.metricsFromRecords records).count priority = writtenCount records priority := by
  rw [Tuning.metrics_counts]
  refine List.countP_congr fun row hrow => ?_
  unfold Tuning.counterOf
  split
  · next hcand =>
    obtain ⟨written, hw⟩ := h.priority row hrow hcand
    simp only [hw, hcand, true_and, Option.bind_some, decide_eq_true_eq]
    cases written <;> cases priority <;> decide
  · next hcand => simp [hcand]

end WellWritten

/-- A candidate is written with some priority. -/
theorem WellWritten.written_pos {records : List Record} (h : WellWritten records) {row : Record}
    (hrow : row ∈ records) (hcand : isCandidate row) :
    ∃ priority, 0 < writtenCount records priority := by
  obtain ⟨priority, hp⟩ := h.priority row hrow hcand
  exact ⟨priority, List.countP_pos_iff.2 ⟨row, hrow, by simp [hcand, hp]⟩⟩

theorem SignalPipeline.emitted_of_records {p : SignalPipeline} (h : p.records = []) :
    Emitted p := by
  intro t ht e he
  simp only [records, Option.mem_def.1 ht, Option.map_some, Option.getD_some, List.map_eq_nil_iff] at h
  simp [h] at he

/-- **The counts agree exactly where there is nothing to count.** The records are those of a
pipeline run that started with an empty collector. -/
theorem priority_counts_agree_iff {p₀ p : SignalPipeline} {calls : List SignalCall}
    (h₀ : p₀.records = []) (hrun : run SignalPipeline.step p₀ calls = some p) :
    PriorityCountsAgree p.records ↔ ∀ row ∈ p.records, isCandidate row = false := by
  have hw : WellWritten p.records := (p₀.emitted_of_records h₀ |>.of_run hrun).wellWritten
  constructor
  · intro hagree row hrow
    by_contra hcand
    rw [Bool.not_eq_false] at hcand
    obtain ⟨priority, hpos⟩ := hw.written_pos hrow hcand
    have hcount := hagree.written priority
    rw [hw.report_zero] at hcount
    omega
  · intro hnone
    have hzero : ∀ priority, writtenCount p.records priority = 0 := by
      intro priority
      refine List.countP_eq_zero.2 fun row hrow => ?_
      simp [hnone row hrow]
    have htotal : p.records.countP isCandidate = 0 :=
      List.countP_eq_zero.2 fun row hrow => by simp [hnone row hrow]
    refine ⟨fun priority => ?_, ?_, fun priority => ?_⟩
    · rw [hw.report_zero, hzero]
    · simp [SignalPriority.all, hw.report_zero, htotal]
    · rw [hw.report_zero, hw.metrics_written, hzero]

/-- A pipeline with an empty collector. -/
def observedPipeline : SignalPipeline where
  telemetry := some { runId := "r", stamps := fun n => (Nat.repr n, n) }

/-- A one-minute move of 0.7 percent. -/
def moveRun : List SignalCall :=
  [.process laterEnv none { bareFeatures "A" 20 with change1m := some (7 / 1000) }]

theorem priority_counts_agree_iff_move :
    ∃ p, run SignalPipeline.step observedPipeline moveRun = some p ∧
      (PriorityCountsAgree p.records ↔ ∀ row ∈ p.records, isCandidate row = false) := by
  obtain ⟨p, hp⟩ : ∃ p, run SignalPipeline.step observedPipeline moveRun = some p := ⟨_, rfl⟩
  exact ⟨p, hp, priority_counts_agree_iff rfl hp⟩

/-- The one alert candidate of the run is counted by the comparison and not by the report. -/
theorem priority_counts_disagree :
    ∃ p, run SignalPipeline.step observedPipeline moveRun = some p ∧
      ¬ PriorityCountsAgree p.records := by
  refine ⟨_, rfl, fun h => ?_⟩
  have hinfo := h.written .info
  revert hinfo
  decide +kernel

end MarketSentinel
