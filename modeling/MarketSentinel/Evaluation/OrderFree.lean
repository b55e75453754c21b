import MarketSentinel.Lib.OrderFree
import MarketSentinel.Evaluation.Counts

/-!
# The report of a permutation

Each section of a report reads the rows through counts, sums, sorted lists and groups, and none of these
depends on the order of the rows.

* `runExposure_perm`, `marketMetrics_perm`, `perMarketDate_perm`: market time.
* `intelligenceTally_perm`: the tallies agree, and the latency samples are permuted.
* `evaluateReport_perm`: so the report is the same.
-/

namespace MarketSentinel

open Lib

namespace Evaluation

/-- A row of exact numbers: its timestamp has a session, and its latency is no NaN, whose place in
a sorted list Python leaves open. Records are emitted with finite numbers only. -/
structure Exact (row : Record) : Prop where
  dated : Dated (Json.field row "market_timestamp")
  latency : Json.field row "latency_s" ≠ .float .nan

instance : Std.Antisymm FloatLe where
  antisymm x y hxy hyx := by
    unfold FloatLe at *
    cases x <;> cases y <;> simp_all [floatLe]
    exact le_antisymm hxy hyx

/-- A sorted list of numbers forgets the order. -/
theorem sortedFloats_perm {xs ys : List PyFloat} (h : xs.Perm ys) : sortedFloats xs = sortedFloats ys :=
  insertionSort_eq h

/-- So does a sorted list of texts. -/
theorem sortedTexts_perm {xs ys : List String} (h : xs.Perm ys) : sortedTexts xs = sortedTexts ys :=
  insertionSort_eq h

section

variable {rows rows' : List Record} (h : rows.Perm rows')
include h

/-- The counts of the records. -/
theorem countOf_perm (name : TelemetryName) : countOf rows name = countOf rows' name := h.countP_eq _

/-- The counts of the funnel. -/
theorem funnel_perm : funnel rows = funnel rows' := by
  unfold funnel
  simp only [countOf_perm h]

/-- Whether the rows are of one market. -/
theorem marketScope_perm : marketScope rows = marketScope rows' := by
  have hstamped := h.filter fun row => isNumber (Json.field row "market_timestamp")
  have hsymbols := (hstamped.filterMap fun row => Record.text row "symbol").filter fun s => decide (s ≠ "")
  unfold marketScope
  dsimp only
  rw [hstamped.isEmpty_eq, hsymbols.isEmpty_eq, hsymbols.any_eq, hsymbols.any_eq]

theorem unexposed_perm (observed : ℚ) (reason : String) :
    unexposed rows observed reason = unexposed rows' observed reason := by
  unfold unexposed
  rw [funnel_perm h, marketScope_perm h, countOf_perm h]

/-- The stamps of a permutation are a permutation of the stamps. -/
theorem stampsOf_perm (hdated : ∀ row ∈ rows, Returns (dateOf row)) :
    ∃ xs ys, stampsOf rows = .ok xs ∧ stampsOf rows' = .ok ys ∧ xs.Perm ys := by
  have hstamp : ∀ row ∈ rows, stampOf row = .ok (stampOf row).toOption.join := by
    intro row hrow
    obtain ⟨date, hdate⟩ := hdated row hrow
    obtain ⟨s, hs, -⟩ := bind_eq_ok.1 hdate
    rw [hs]
    rfl
  have hmap := mapM_eq_map hstamp
  have hmap' := mapM_eq_map fun row hrow => hstamp row (h.mem_iff.2 hrow)
  refine ⟨_, _, ?_, ?_, (h.map fun row => (stampOf row).toOption.join).filterMap id⟩
  · unfold stampsOf
    rw [hmap]
    rfl
  · unfold stampsOf
    rw [hmap']
    rfl

/-- The observed time of a run, from its first and last stamp. -/
theorem runExposure_perm (hdated : ∀ row ∈ rows, Returns (dateOf row)) :
    runExposure rows = runExposure rows' := by
  obtain ⟨xs, ys, hxs, hys, hperm⟩ := stampsOf_perm h hdated
  unfold runExposure
  rw [hxs, hys, ok_bind, ok_bind, marketScope_perm h, sortedFloats_perm hperm.dedup]
  simp only [unexposed_perm h, countOf_perm h]

/-- The observed time of all runs, by their groups. -/
theorem marketMetrics_perm (hdated : ∀ row ∈ rows, Returns (dateOf row)) :
    marketMetrics rows = marketMetrics rows' := by
  have hrun : ∀ runId, runExposure ((groupByRun rows).getD runId []) =
      runExposure ((groupByRun rows').getD runId []) := by
    intro runId
    apply runExposure_perm (getD_groupBy_perm _ h runId)
    intro row hrow
    rw [getD_groupBy] at hrow
    exact hdated row (List.mem_filter.1 hrow).1
  have hkeys := sortedTexts_perm (keys_groupBy_perm (fun row : Record => row.text "run_id") h)
  unfold marketMetrics
  dsimp only
  rw [h.countP_eq, show sortedTexts (groupByRun rows).keys = sortedTexts (groupByRun rows').keys from hkeys]
  simp only [hrun]

/-- The date of a row that has a session. -/
theorem groupByM_dateOf (hdated : ∀ row ∈ rows, Returns (dateOf row)) :
    groupByM dateOf rows = .ok (groupBy (fun row => (dateOf row).toOption.join) rows) ∧
      groupByM dateOf rows' = .ok (groupBy (fun row => (dateOf row).toOption.join) rows') := by
  have hdate : ∀ row ∈ rows, dateOf row = .ok (dateOf row).toOption.join := by
    intro row hrow
    obtain ⟨date, hd⟩ := hdated row hrow
    rw [hd]
    rfl
  exact ⟨groupByM_eq hdate, groupByM_eq fun row hrow => hdate row (h.mem_iff.2 hrow)⟩

/-- The counts of a date. -/
theorem perMarketDate_perm (hdated : ∀ row ∈ rows, Returns (dateOf row)) :
    perMarketDate rows = perMarketDate rows' := by
  obtain ⟨hgroup, hgroup'⟩ := groupByM_dateOf h hdated
  have hsubset := getD_groupBy_perm (fun row => (dateOf row).toOption.join) h
  have hmetrics : ∀ day, marketMetrics ((groupBy (fun row => (dateOf row).toOption.join) rows).getD day []) =
      marketMetrics ((groupBy (fun row => (dateOf row).toOption.join) rows').getD day []) := by
    intro day
    apply marketMetrics_perm (hsubset day)
    intro row hrow
    rw [getD_groupBy] at hrow
    exact hdated row (List.mem_filter.1 hrow).1
  have hkeys := insertionSort_eq (r := (· ≤ ·))
    (keys_groupBy_perm (fun row => (dateOf row).toOption.join) h)
  unfold perMarketDate
  rw [hgroup, hgroup', ok_bind, ok_bind, hkeys]
  simp only [hmetrics, fun day => funnel_perm (hsubset day)]

/-! ## Counters -/

omit h in
/-- Two reasons may be counted in either order. -/
theorem Tally.count_comm (known : List String) (t : Tally) (reason reason' : Option String) :
    (t.count known reason).count known reason' = (t.count known reason').count known reason := by
  unfold Tally.count
  cases reason.filter (· ∈ known) <;> cases reason'.filter (· ∈ known)
  · rfl
  · rfl
  · rfl
  · dsimp only
    rw [Dict.bump_comm]

/-- The reasons of suppressions. -/
theorem suppression_perm : suppression rows = suppression rows' := by
  unfold suppression
  apply h.foldl_eq'
  intro x _ y _ t
  split <;> split <;> first | rfl | exact Tally.count_comm _ _ _ _

/-- The episodes that were alerted more than once. -/
theorem repeatedEpisodes_perm : repeatedEpisodes rows = repeatedEpisodes rows' := by
  have hvalues := Dict.values_perm (Dict.get?_foldl_tick_perm episodeKey Dict.empty h)
  unfold repeatedEpisodes repeatedOf
  refine hvalues.foldl_eq' (fun count _ count' _ r => ?_) (0, 0)
  split_ifs
  · rw [Prod.mk.injEq]
    constructor <;> omega
  · rfl
  · rfl
  · rfl

/-- The alerts by priority. -/
theorem alertNoise_perm : alertNoise rows = alertNoise rows' := by
  have hcandidates := h.filter isCandidate
  have hcounts : priorityCounts (rows.filter isCandidate) = priorityCounts (rows'.filter isCandidate) :=
    Dict.foldl_bump_perm (fun row => Record.text row "priority") _ hcandidates
  unfold alertNoise
  dsimp only
  rw [hcounts, repeatedEpisodes_perm hcandidates]

/-- The tokens of the calls. -/
theorem tokenUsage_perm : tokenUsage rows = tokenUsage rows' := by
  have hrows := h.filter (named .intelligenceTokenUsage)
  have hnil : rows.filter (named .intelligenceTokenUsage) = [] ↔
      rows'.filter (named .intelligenceTokenUsage) = [] := by
    rw [← List.length_eq_zero_iff, hrows.length_eq, List.length_eq_zero_iff]
  have hsum : ∀ key, ((rows.filter (named .intelligenceTokenUsage)).filterMap fun row =>
      intOf (Json.field row key)).sum = ((rows'.filter (named .intelligenceTokenUsage)).filterMap fun row =>
        intOf (Json.field row key)).sum := fun key => (hrows.filterMap _).sum_eq
  unfold tokenUsage
  simp only [hnil, hsum, hrows.length_eq]

end

/-! ## Latency -/

/-- The latency sample of a row in a stage, if it has one and `float` takes it. -/
def sampleAt (stage : LatencyStage) (row : Record) : Option PyFloat :=
  if named .intelligenceLatency row then
    (latencySample row).toOption.join.bind fun sample => if stage = sample.1 then some sample.2 else none
  else none

/-- A row that skips an episode is counted by its reason. -/
def countSkip (t : Tally) (row : Record) : Tally :=
  if named .intelligenceSkipped row then t.count knownSkipReasons (row.text "decision_reason") else t

/-- A row that falls back is counted by its reason. -/
def countFallback (t : Tally) (row : Record) : Tally :=
  if named .intelligenceFallback row then t.count knownFallbackReasons (row.text "fallback_reason") else t

/-- The loop of `_intelligence` without its raises: three loops side by side. -/
def tallyPure (t : IntelligenceTally) (row : Record) : IntelligenceTally where
  skip := countSkip t.skip row
  fallback := countFallback t.fallback row
  samples := fun stage => t.samples stage ++ (sampleAt stage row).toList

/-- A number raises on its conversion in one way only. -/
theorem floatOf_error {value : Json} (h : isNumber value = true) {e : PyError} (he : floatOf value = .error e) :
    e = .overflowError := by
  cases value with
  | int n =>
    rw [floatOf] at he
    split at he
    · cases he
      rfl
    · cases he
  | float x => cases he
  | bool b => cases he
  | null => cases h
  | str s => cases h
  | list xs => cases h
  | obj fields => cases h

/-- So which row raises first does not matter. -/
theorem latencySample_error {row : Record} {e : PyError} (he : latencySample row = .error e) :
    e = .overflowError := by
  unfold latencySample at he
  split at he
  · split at he
    · rename_i hnum
      cases hx : floatOf (Json.field row "latency_s") with
      | ok x =>
        rw [hx] at he
        cases he
      | error e' =>
        rw [hx] at he
        cases he
        exact floatOf_error hnum hx
    · cases he
  · cases he

/-- One row of the loop raises, or does what each of the three loops does. -/
theorem tallyRow_eq (t : IntelligenceTally) (row : Record) :
    tallyRow t row = .error .overflowError ∨ tallyRow t row = .ok (tallyPure t row) := by
  unfold tallyRow
  -- A row has one name, so at most one of the three loops counts it.
  by_cases hskip : named .intelligenceSkipped row = true
  · have hfallback := named_ne hskip .intelligenceFallback (by decide)
    have hlatency := named_ne hskip .intelligenceLatency (by decide)
    right
    rw [if_pos hskip]
    simp [tallyPure, countSkip, countFallback, sampleAt, hskip, hfallback, hlatency]
  rw [if_neg hskip]
  by_cases hfallback : named .intelligenceFallback row = true
  · have hlatency := named_ne hfallback .intelligenceLatency (by decide)
    right
    rw [if_pos hfallback]
    simp [tallyPure, countSkip, countFallback, sampleAt, hskip, hfallback, hlatency]
  rw [if_neg hfallback]
  by_cases hlatency : named .intelligenceLatency row = true
  · rw [if_pos hlatency]
    cases hsample : latencySample row with
    | error e =>
      left
      rw [latencySample_error hsample]
      rfl
    | ok sample =>
      right
      rw [ok_bind]
      cases sample with
      | none =>
        simp [tallyPure, countSkip, countFallback, sampleAt, hskip, hfallback, hlatency, hsample,
          Except.toOption]
        rfl
      | some sample =>
        obtain ⟨stage, x⟩ := sample
        -- The sample goes to its own stage only.
        have hsamples : (fun s => t.samples s ++ (sampleAt s row).toList) = addSample t.samples stage x := by
          funext s
          by_cases hs : s = stage <;>
            simp [sampleAt, addSample, hlatency, hsample, Except.toOption, hs]
        simp only [tallyPure, countSkip, countFallback, hskip, hfallback, hsamples]
        rfl
  · right
    rw [if_neg hlatency]
    simp [tallyPure, countSkip, countFallback, sampleAt, hskip, hfallback, hlatency]

/-- A tally counts skips, fallbacks and samples apart from each other. -/
theorem foldl_tallyPure : ∀ (rows : List Record) (t : IntelligenceTally),
    (rows.foldl tallyPure t).skip = rows.foldl countSkip t.skip ∧
      (rows.foldl tallyPure t).fallback = rows.foldl countFallback t.fallback ∧
      ∀ stage, (rows.foldl tallyPure t).samples stage = t.samples stage ++ rows.filterMap (sampleAt stage) := by
  intro rows
  induction rows with
  | nil => intro t; simp
  | cons row rows ih =>
    intro t
    rw [List.foldl_cons]
    obtain ⟨hskip, hfallback, hsamples⟩ := ih (tallyPure t row)
    refine ⟨hskip, hfallback, fun stage => ?_⟩
    rw [hsamples]
    show t.samples stage ++ (sampleAt stage row).toList ++ _ = _
    rw [List.filterMap_cons, List.append_assoc]
    cases sampleAt stage row <;> rfl

/-- Two tallies whose reports are the same. -/
structure TallyAlike (t t' : IntelligenceTally) : Prop where
  skip : t.skip = t'.skip
  fallback : t.fallback = t'.fallback
  samples : ∀ stage, (t.samples stage).Perm (t'.samples stage)

section

variable {rows rows' : List Record} (h : rows.Perm rows')

/-- The loop raises `OverflowError`, or is the three loops. -/
theorem intelligenceTally_eq (rows : List Record) :
    intelligenceTally rows = .error .overflowError ∧ (∃ row ∈ rows, LatencyOverflow row) ∨
      intelligenceTally rows =
        .ok (rows.foldl tallyPure ⟨.start knownSkipReasons, .start knownFallbackReasons, fun _ => []⟩) ∧
        ∀ row ∈ rows, ¬ LatencyOverflow row := by
  by_cases hover : ∃ row ∈ rows, LatencyOverflow row
  · left
    refine ⟨?_, hover⟩
    have hraise : ¬ Returns (intelligenceTally rows) := by
      rw [returns_intelligenceTally]
      intro hfine
      obtain ⟨row, hrow, hover⟩ := hover
      exact hfine row hrow hover
    cases htally : intelligenceTally rows with
    | ok t => exact absurd ⟨t, htally⟩ hraise
    | error e =>
      refine congrArg Except.error (foldlM_error (P := (· = PyError.overflowError)) ?_ htally)
      intro t row e he
      rcases tallyRow_eq t row with heq | heq <;> rw [heq] at he <;> cases he
      rfl
  · right
    have hfine : ∀ row ∈ rows, ¬ LatencyOverflow row := fun row hrow ho => hover ⟨row, hrow, ho⟩
    refine ⟨?_, hfine⟩
    unfold intelligenceTally
    apply foldlM_eq_foldl
    intro t row hrow
    rcases tallyRow_eq t row with heq | heq
    · obtain ⟨t', ht'⟩ := (returns_tallyRow t row).2 (hfine row hrow)
      rw [heq] at ht'
      cases ht'
    · exact heq

include h

/-- **The tallies of a permutation** are alike, or both raise. -/
theorem intelligenceTally_perm :
    (intelligenceTally rows = .error .overflowError ∧ intelligenceTally rows' = .error .overflowError) ∨
      ∃ t t', intelligenceTally rows = .ok t ∧ intelligenceTally rows' = .ok t' ∧ TallyAlike t t' := by
  rcases intelligenceTally_eq rows with ⟨hraise, row, hrow, hover⟩ | ⟨hok, hfine⟩ <;>
    rcases intelligenceTally_eq rows' with ⟨hraise', row', hrow', hover'⟩ | ⟨hok', hfine'⟩
  · exact .inl ⟨hraise, hraise'⟩
  · exact absurd hover (hfine' row (h.mem_iff.1 hrow))
  · exact absurd hover' (hfine row' (h.mem_iff.2 hrow'))
  · right
    refine ⟨_, _, hok, hok', ?_⟩
    obtain ⟨hskip, hfallback, hsamples⟩ := foldl_tallyPure rows
      ⟨.start knownSkipReasons, .start knownFallbackReasons, fun _ => []⟩
    obtain ⟨hskip', hfallback', hsamples'⟩ := foldl_tallyPure rows'
      ⟨.start knownSkipReasons, .start knownFallbackReasons, fun _ => []⟩
    refine ⟨?_, ?_, fun stage => ?_⟩
    · rw [hskip, hskip']
      apply h.foldl_eq'
      intro x _ y _ t
      unfold countSkip
      split <;> split <;> first | rfl | exact Tally.count_comm _ _ _ _
    · rw [hfallback, hfallback']
      apply h.foldl_eq'
      intro x _ y _ t
      unfold countFallback
      split <;> split <;> first | rfl | exact Tally.count_comm _ _ _ _
    · rw [hsamples, hsamples', List.nil_append, List.nil_append]
      exact h.filterMap _

theorem intelligence_perm {t t' : IntelligenceTally} (ht : TallyAlike t t') :
    intelligence rows t = intelligence rows' t' := by
  have hbundle : ∀ stage, latencyBundle (t.samples stage) stage = latencyBundle (t'.samples stage) stage := by
    intro stage
    have hsorted := sortedFloats_perm (ht.samples stage)
    unfold latencyBundle percentile
    rw [hsorted]
  unfold intelligence
  simp only [countOf_perm h, ht.skip, ht.fallback, hbundle, tokenUsage_perm h]

/-! ## The other sections -/

/-- The texts of a column, sorted. -/
theorem textsOf_perm (key : String) :
    textsField (sortedTexts (rows.filterMap (·.text key)).dedup) =
      textsField (sortedTexts (rows'.filterMap (·.text key)).dedup) :=
  congrArg textsField (sortedTexts_perm (h.filterMap _).dedup)

/-- The metadata. -/
theorem metadata_perm (hdated : ∀ row ∈ rows, Returns (dateOf row)) (runId : Option String) :
    metadata rows runId = metadata rows' runId := by
  have hdate : ∀ row ∈ rows, dateOf row = .ok (dateOf row).toOption.join := by
    intro row hrow
    obtain ⟨date, hd⟩ := hdated row hrow
    rw [hd]
    rfl
  have hmap := mapM_eq_map hdate
  have hmap' := mapM_eq_map fun row hrow => hdate row (h.mem_iff.2 hrow)
  have hdates : ((rows.map fun row => (dateOf row).toOption.join).reduceOption.dedup.insertionSort (· ≤ ·)) =
      ((rows'.map fun row => (dateOf row).toOption.join).reduceOption.dedup.insertionSort (· ≤ ·)) :=
    insertionSort_eq ((h.map _).filterMap id).dedup
  unfold metadata
  rw [hmap, hmap', ok_bind, ok_bind, hdates, textsOf_perm h "run_id", textsOf_perm h "symbol"]

/-- The quality of the data. -/
theorem dataQuality_perm (hdated : ∀ row ∈ rows, Returns (dateOf row)) (loaded : LoadedTelemetry String)
    (runId : Option String) (market : MarketMetrics) (semantic : ℕ) (feedback : LoadedTelemetry String)
    (used : ℕ) : dataQuality loaded rows runId market semantic feedback used =
      dataQuality loaded rows' runId market semantic feedback used := by
  obtain ⟨xs, ys, hxs, hys, hperm⟩ := stampsOf_perm h hdated
  unfold dataQuality
  rw [hxs, hys, ok_bind, ok_bind, sortedFloats_perm hperm, textsOf_perm h "run_id", h.length_eq]

/-- The rates of the pipeline. -/
theorem pipeline_perm (clusterSeen : Option ℤ) : pipeline rows clusterSeen = pipeline rows' clusterSeen := by
  have hclustered := (((h.filter (named .eventClustered)).filterMap
    fun row => Record.text row "event_id").dedup).length_eq
  unfold pipeline
  dsimp only
  rw [hclustered]
  simp only [countOf_perm h]

theorem alertNoiseSection_perm (market : MarketMetrics) (suppressed : Tally) :
    alertNoiseSection rows market suppressed = alertNoiseSection rows' market suppressed := by
  unfold alertNoiseSection
  rw [alertNoise_perm h]

/-- The interactions with the host. -/
theorem host_perm : host rows = host rows' := by
  unfold host
  simp only [countOf_perm h]

/-- The sections of the symbols. -/
theorem perSymbol_perm : perSymbol rows = perSymbol rows' := by
  have hkeys := sortedTexts_perm (keys_groupBy_perm (fun row : Record => row.text "symbol") h)
  have hfunnel : ∀ symbol, funnel ((groupBy (fun row : Record => row.text "symbol") rows).getD symbol []) =
      funnel ((groupBy (fun row : Record => row.text "symbol") rows').getD symbol []) :=
    fun symbol => funnel_perm (getD_groupBy_perm _ h symbol)
  unfold perSymbol
  dsimp only
  rw [hkeys]
  simp only [hfunnel]

/-- The feedback, over the signals of the rows. -/
theorem explicitFeedback_perm (valid : List Record) (invalid : ℕ) :
    explicitFeedback valid invalid rows = explicitFeedback valid invalid rows' := by
  have hkeys := ((h.filter (named .alertPresented)).filterMap signalKey).dedup
  unfold explicitFeedback
  dsimp only
  rw [hkeys.length_eq]
  simp only [hkeys.mem_iff]

end

/-- **The report of a permutation** of rows with a session is the same, also when it raises. -/
theorem evaluateReport_perm {loaded : LoadedTelemetry String} {records : List Record}
    (h : records.Perm loaded.records) (hdated : ∀ row ∈ loaded.records, Returns (dateOf row))
    (runId : Option String) (seen : Option ℤ) (feedback : Option (LoadedTelemetry String)) :
    evaluateReport { loaded with records := records } runId seen feedback =
      evaluateReport loaded runId seen feedback := by
  have hrows : (selected runId records).Perm (selected runId loaded.records) := h.filter _
  have hdated' : ∀ row ∈ selected runId records, Returns (dateOf row) :=
    fun row hrow => hdated row (h.mem_iff.1 (List.mem_filter.1 hrow).1)
  unfold evaluateReport
  dsimp only
  rw [suppression_perm hrows, marketMetrics_perm hrows hdated', perMarketDate_perm hrows hdated',
    metadata_perm hrows hdated']
  simp only [dataQuality_perm hrows hdated', pipeline_perm hrows, alertNoiseSection_perm hrows,
    host_perm hrows, perSymbol_perm hrows, explicitFeedback_perm hrows]
  rcases intelligenceTally_perm hrows with ⟨hraise, hraise'⟩ | ⟨t, t', ht, ht', halike⟩
  · rw [hraise, hraise']
    rfl
  · rw [ht, ht', ok_bind, ok_bind]
    simp only [intelligence_perm hrows halike, halike.skip, halike.fallback]
    rfl

end Evaluation

end MarketSentinel
