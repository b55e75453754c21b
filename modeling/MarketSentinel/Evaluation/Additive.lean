import Mathlib.Algebra.BigOperators.Ring.Finset
import Mathlib.Algebra.Order.BigOperators.Group.List
import MarketSentinel.Evaluation.OrderFree

/-!
# The runs of a report add up

* `runExposure_spec`: the exposure of rows, by cases on whether it is usable.
* `marketMetrics_spec`: the metrics of all runs, from one exposure for each run.
* `evaluation_additive`: a report does not depend on the order of its rows, and its runs add up.
-/

namespace MarketSentinel

open Lib

namespace Evaluation

/-! ## One run -/

theorem windowOverlap_nonneg (start stop day : ℤ) (window : ℤ × ℤ) : 0 ≤ windowOverlap start stop day window := by
  unfold windowOverlap
  dsimp only
  split
  · rename_i hlt
    have hpos : (0 : ℚ) ≤ ((min stop (combine day window.2) - max start (combine day window.1) : ℤ) : ℚ) := by
      exact_mod_cast (by omega : (0 : ℤ) ≤ _)
    exact div_nonneg hpos (by norm_num)
  · exact le_rfl

theorem overlapDay_nonneg {start stop day : ℤ} {total total' : ℚ} (h : 0 ≤ total)
    (hday : overlapDay start stop total day = .ok total') : 0 ≤ total' := by
  have hsum : 0 ≤ (cashWindows.map (windowOverlap start stop day)).sum := by
    apply List.sum_nonneg
    intro x hx
    obtain ⟨window, -, rfl⟩ := List.mem_map.1 hx
    exact windowOverlap_nonneg _ _ _ _
  unfold overlapDay at hday
  dsimp only at hday
  split at hday
  · cases hday
  · cases hday
    split
    · exact add_nonneg h hsum
    · exact h

/-- No overlap is negative. -/
theorem cashSessionOverlapS_nonneg {x y : PyFloat} {observed : ℚ}
    (h : cashSessionOverlapS x y = .ok observed) : 0 ≤ observed := by
  have hbetween : ∀ p q, overlapBetween p q = .ok observed → 0 ≤ observed := by
    intro p q hpq
    unfold overlapBetween at hpq
    split at hpq
    · cases hpq
      exact le_rfl
    · obtain ⟨start, -, hpq⟩ := bind_eq_ok.1 hpq
      obtain ⟨stop, -, hpq⟩ := bind_eq_ok.1 hpq
      exact foldlM_invariant (P := (0 ≤ ·)) (fun _ _ _ _ hday h => overlapDay_nonneg h hday) le_rfl hpq
  unfold cashSessionOverlapS at h
  split at h
  · split at h
    · exact hbetween _ _ h
    · exact hbetween _ _ h
  · cases h
    exact le_rfl

/-- What an exposure says of its rows. -/
structure ExposureOf (rows : List Record) (x : RunExposure) : Prop where
  funnel : x.funnel = Evaluation.funnel rows
  scope : x.scope = marketScope rows
  candidates : x.candidates = countOf rows .alertCandidate
  ok : x.exposureOk = true → 0 < x.observedMarketSeconds ∧
    x.alertsPerMarketHour = hourlyRate x.candidates x.observedMarketSeconds
  unusable : x.exposureOk = false → x.observedMarketSeconds = 0 ∧
    ∃ reason, x.alertsPerMarketHour = unavailable reason
  unsupported : x.scope = .unsupported → x.exposureOk = false

theorem exposureOf_unexposed {rows : List Record} {reason : String} :
    ExposureOf rows (unexposed rows 0 reason) :=
  ⟨rfl, rfl, rfl, fun h => (by cases h), fun _ => ⟨rfl, reason, rfl⟩, fun _ => rfl⟩

/-- **The exposure of the rows of a run.** -/
theorem runExposure_spec {rows : List Record} {x : RunExposure} (h : runExposure rows = .ok x) :
    ExposureOf rows x := by
  unfold runExposure at h
  obtain ⟨stamped, -, h⟩ := bind_eq_ok.1 h
  split at h
  · cases h
    exact exposureOf_unexposed
  rename_i hscope
  split at h
  · obtain ⟨observed, hobserved, h⟩ := bind_eq_ok.1 h
    have hnonneg := cashSessionOverlapS_nonneg hobserved
    split at h
    · rename_i hle
      cases h
      obtain rfl : observed = 0 := le_antisymm hle hnonneg
      exact exposureOf_unexposed
    · rename_i hpos
      cases h
      exact ⟨rfl, rfl, rfl, fun _ => ⟨not_le.1 hpos, rfl⟩, fun hok => (by cases hok),
        fun hsc => absurd hsc hscope⟩
  · cases h
    exact exposureOf_unexposed

/-! ## All runs -/

/-- The runs of the rows, in order. -/
def runsOf (records : List Record) : List String := sortedTexts (groupByRun records).keys

theorem runsOf_nodup (records : List Record) : (runsOf records).Nodup :=
  (List.perm_insertionSort _ _).nodup_iff.2 (groupByRun records).nodup

theorem mem_runsOf {records : List Record} {runId : String} :
    runId ∈ runsOf records ↔ ∃ row ∈ records, row.text "run_id" = some runId := by
  unfold runsOf sortedTexts
  rw [List.mem_insertionSort]
  exact mem_keys_groupBy

/-- **The metrics of all runs**: one exposure for each run, of the rows of that run only. -/
theorem marketMetrics_spec {records : List Record} {m : MarketMetrics} (h : marketMetrics records = .ok m) :
    ∃ exposures : List (String × RunExposure), exposures.map Prod.fst = runsOf records ∧
      (∀ e ∈ exposures, runExposure (rowsOf e.1 records) = .ok e.2) ∧
      m = marketMetricsOf (records.countP fun row => isCandidate row && (row.text "run_id").isNone) exposures := by
  unfold marketMetrics at h
  obtain ⟨exposures, hexposures, h⟩ := bind_eq_ok.1 h
  refine ⟨exposures, ?_, ?_, (Except.ok.inj h).symm⟩
  · refine map_of_mapM ?_ hexposures
    intro runId e hrun
    obtain ⟨x, -, heq⟩ := bind_eq_ok.1 hrun
    cases heq
    rfl
  · intro e he
    obtain ⟨runId, -, hrun⟩ := (mem_of_mapM hexposures e).1 he
    obtain ⟨x, hx, heq⟩ := bind_eq_ok.1 hrun
    cases heq
    rw [groupByRun, getD_groupBy] at hx
    exact hx

/-- An integer of a section. -/
def countField (section' : Payload) (key : String) : ℤ := (intOf (Json.field section' key)).getD 0

/-- The observed market seconds of a section. -/
def secondsField (section' : Payload) : ℚ :=
  match Json.field section' "observed_market_seconds" with
  | .float (.finite q) => q
  | _ => 0

/-- The alerts per market hour of a section. -/
def rateOf (section' : Payload) : Json := Json.field section' "alerts_per_market_hour"

/-- The entry of a run. -/
def runEntry (e : String × RunExposure) : Payload :=
  ("run_id", .str e.1) :: exposureFields e.2.funnel e.2.observedMarketSeconds e.2.alertsPerMarketHour

/-- The funnel counts of a report, and the rows that they count. -/
def funnelCounts : List (String × TelemetryName) :=
  [("events_generated", .eventGenerated), ("signal_episodes_created", .signalEpisodeCreated),
    ("alert_candidates", .alertCandidate), ("alert_suppressed", .alertSuppressed),
    ("alerts_presented", .alertPresented)]

theorem countField_runEntry {e : String × RunExposure} {rows : List Record} (h : ExposureOf rows e.2) :
    ∀ c ∈ funnelCounts, countField (runEntry e) c.1 = countOf rows c.2 := by
  have hfunnel := h.funnel
  obtain ⟨runId, x⟩ := e
  dsimp only at hfunnel
  unfold funnelCounts
  simp only [List.forall_mem_cons, List.not_mem_nil, false_implies, implies_true, and_true]
  simp only [countField, runEntry, exposureFields, Funnel.fields, hfunnel]
  exact ⟨rfl, rfl, rfl, rfl, rfl⟩

theorem countField_pipeline (records : List Record) (seen : Option ℤ) :
    ∀ c ∈ funnelCounts, countField (pipeline records seen) c.1 = countOf records c.2 := by
  unfold funnelCounts
  simp only [List.forall_mem_cons, List.not_mem_nil, false_implies, implies_true, and_true]
  exact ⟨rfl, rfl, rfl, rfl, rfl⟩

/-- The counts of the runs add up, when every counted row has a run. -/
theorem countOf_runs {records : List Record} {name : TelemetryName}
    (hruns : ∀ row ∈ records, named name row = true → (row.text "run_id").isSome = true) :
    countOf records name = ((runsOf records).map fun runId => countOf (rowsOf runId records) name).sum := by
  apply countP_groups (runsOf_nodup records)
  intro row hrow hname
  obtain ⟨runId, hid⟩ := Option.isSome_iff_exists.1 (hruns row hrow hname)
  exact ⟨runId, mem_runsOf.2 ⟨row, hrow, hid⟩, hid⟩

/-! ## The rate -/

theorem availableValue_ne_unavailable {rate : ℚ} {reason : String} {producer : Json} :
    availableValue rate ≠ unavailable reason producer := by
  intro h
  unfold availableValue unavailable metric at h
  have hfirst := (List.cons.inj h).1
  cases hfirst

theorem availableValue_inj {rate rate' : ℚ} (h : availableValue rate = availableValue rate') :
    rate = rate' := by
  unfold availableValue metric at h
  have hvalue := (List.cons.inj (List.cons.inj h).2).1
  cases hvalue
  rfl

variable {orphans : ℕ} {exposures : List (String × RunExposure)}

/-- The exposures are those of some rows each. -/
def Genuine (exposures : List (String × RunExposure)) : Prop := ∀ e ∈ exposures, ∃ rows, ExposureOf rows e.2

/-- Runs without a usable exposure add no seconds. -/
theorem sum_usable (h : Genuine exposures) :
    ((exposures.filter (·.2.exposureOk)).map (·.2.observedMarketSeconds)).sum =
      (exposures.map (·.2.observedMarketSeconds)).sum := by
  induction exposures with
  | nil => rfl
  | cons e exposures ih =>
    have hrest := ih fun e' he' => h e' (List.mem_cons_of_mem _ he')
    obtain ⟨rows, he⟩ := h e List.mem_cons_self
    rw [List.filter_cons, List.map_cons, List.sum_cons]
    cases hok : e.2.exposureOk with
    | true =>
      rw [if_pos rfl, List.map_cons, List.sum_cons, hrest]
    | false =>
      rw [if_neg Bool.false_ne_true, hrest, (he.unusable hok).1, zero_add]

/-- **An available rate** is over the seconds of all runs; every candidate has a run then. -/
theorem marketMetricsOf_available (h : Genuine exposures) {rate : ℚ}
    (hrate : (marketMetricsOf orphans exposures).alertsPerMarketHour = availableValue rate) :
    orphans = 0 ∧
      (marketMetricsOf orphans exposures).observedMarketSeconds =
        (exposures.map (·.2.observedMarketSeconds)).sum ∧
      rate = ((exposures.map (·.2.candidates)).sum + orphans : ℕ) /
        (exposures.map (·.2.observedMarketSeconds)).sum * 3600 := by
  unfold marketMetricsOf at hrate ⊢
  dsimp only at hrate ⊢
  rw [sum_usable h] at hrate ⊢
  generalize hinsufficient : List.map _ _ ++ (if 0 < orphans then [""] else []) = insufficient at hrate ⊢
  split at hrate
  · exact absurd hrate.symm availableValue_ne_unavailable
  rename_i hsupported
  rw [if_neg hsupported]
  split at hrate
  · exact absurd hrate.symm availableValue_ne_unavailable
  rename_i hsufficient
  rw [if_neg hsufficient]
  split at hrate
  · exact absurd hrate.symm availableValue_ne_unavailable
  rename_i hpos
  rw [if_neg hpos]
  refine ⟨?_, rfl, (availableValue_inj hrate).symm⟩
  -- A candidate without a run would have been listed under the empty text.
  by_contra hne
  apply hsufficient
  rw [← hinsufficient, if_pos (Nat.pos_of_ne_zero hne)]
  simp

/-- **A run with candidates and no exposure** makes the rate unavailable. -/
theorem marketMetricsOf_unavailable {e : String × RunExposure} (he : e ∈ exposures)
    (hcandidates : 0 < e.2.candidates) (hok : e.2.exposureOk = false) :
    ∃ reason, (marketMetricsOf orphans exposures).alertsPerMarketHour = unavailable reason := by
  unfold marketMetricsOf
  dsimp only
  split
  · exact ⟨_, rfl⟩
  rename_i hsupported
  rw [if_pos]
  · exact ⟨_, rfl⟩
  -- The scope is supported, so the run is listed as one without enough market time.
  have hscope : e.2.scope ≠ .unsupported := by
    intro hscope
    apply hsupported
    exact List.ne_nil_of_mem (List.mem_filter.2 ⟨he, decide_eq_true hscope⟩)
  apply List.ne_nil_of_mem (a := e.1)
  apply List.mem_append_left
  exact List.mem_map.2 ⟨e, List.mem_filter.2 ⟨he, by simp [hscope, hcandidates, hok]⟩, rfl⟩

/-! ## The report -/

/-- The runs of a report on some rows. -/
structure RunsAdd (report : EvaluationReport) (rows : List Record) : Prop where
  /-- There is one entry for each run, of the rows of that run only. -/
  runs : ∃ exposures : List (String × RunExposure), exposures.map Prod.fst = runsOf rows ∧
    (∀ e ∈ exposures, runExposure (rowsOf e.1 rows) = .ok e.2) ∧
    report.perRun = exposures.map runEntry
  counts : (∀ row ∈ rows, (row.text "run_id").isSome = true) → ∀ c ∈ funnelCounts,
    countField report.pipeline c.1 = (report.perRun.map fun run => countField run c.1).sum
  available : ∀ rate, rateOf report.alertNoise = .obj (availableValue rate) →
    secondsField report.alertNoise = (report.perRun.map secondsField).sum ∧
    rate = countField report.pipeline "alert_candidates" / (report.perRun.map secondsField).sum * 3600
  unavailable : ∀ run ∈ report.perRun, 0 < countField run "alert_candidates" →
    (∃ reason, rateOf run = .obj (unavailable reason)) →
    ∃ reason, rateOf report.alertNoise = .obj (unavailable reason)

/-- What a report takes from the metrics of all runs. -/
theorem evaluateReport_market {loaded : LoadedTelemetry String} {runId : Option String} {seen : Option ℤ}
    {feedback : Option (LoadedTelemetry String)} {report : EvaluationReport}
    (h : evaluateReport loaded runId seen feedback = .ok report) :
    ∃ market, marketMetrics (selected runId loaded.records) = .ok market ∧
      report.perRun = market.perRun ∧
      report.pipeline = pipeline (selected runId loaded.records) seen ∧
      rateOf report.alertNoise = .obj market.alertsPerMarketHour ∧
      secondsField report.alertNoise = market.observedMarketSeconds := by
  unfold evaluateReport at h
  dsimp only at h
  obtain ⟨tally, -, h⟩ := bind_eq_ok.1 h
  obtain ⟨market, hmarket, h⟩ := bind_eq_ok.1 h
  obtain ⟨dates, -, h⟩ := bind_eq_ok.1 h
  obtain ⟨split, -, h⟩ := bind_eq_ok.1 h
  obtain ⟨described, -, h⟩ := bind_eq_ok.1 h
  obtain ⟨quality, -, h⟩ := bind_eq_ok.1 h
  cases h
  exact ⟨market, hmarket, rfl, rfl, rfl, rfl⟩

/-- **The runs of a report add up.** -/
theorem runsAdd_of_report {loaded : LoadedTelemetry String} {runId : Option String} {seen : Option ℤ}
    {feedback : Option (LoadedTelemetry String)} {report : EvaluationReport}
    (h : evaluateReport loaded runId seen feedback = .ok report) :
    RunsAdd report (selected runId loaded.records) := by
  obtain ⟨market, hmarket, hperRun, hpipeline, hrate, hseconds⟩ := evaluateReport_market h
  generalize selected runId loaded.records = rows at hmarket hpipeline ⊢
  obtain ⟨exposures, hruns, hexposures, hof⟩ := marketMetrics_spec hmarket
  have hspec : ∀ e ∈ exposures, ExposureOf (rowsOf e.1 rows) e.2 :=
    fun e he => runExposure_spec (hexposures e he)
  have hgenuine : Genuine exposures := fun e he => ⟨_, hspec e he⟩
  have hentries : report.perRun = exposures.map runEntry := by rw [hperRun, hof]; rfl
  have hsum : (report.perRun.map secondsField).sum = (exposures.map (·.2.observedMarketSeconds)).sum := by
    rw [hentries, List.map_map]
    rfl
  -- The counts of the entries are those of the rows of each run.
  have hcount : ∀ c ∈ funnelCounts, (report.perRun.map fun run => countField run c.1).sum =
      (((runsOf rows).map fun runId => countOf (rowsOf runId rows) c.2).sum : ℕ) := by
    intro c hc
    rw [hentries, List.map_map, ← hruns, List.map_map, Nat.cast_list_sum, List.map_map]
    apply congrArg List.sum
    apply List.map_congr_left
    intro e he
    exact countField_runEntry (hspec e he) c hc
  refine ⟨⟨exposures, hruns, hexposures, hentries⟩, fun hids c hc => ?_, fun rate hav => ?_, ?_⟩
  · rw [hcount c hc, hpipeline, countField_pipeline rows seen c hc,
      countOf_runs fun row hrow _ => hids row hrow]
  · rw [hrate, hof] at hav
    obtain ⟨horphans, hobserved, heq⟩ := marketMetricsOf_available hgenuine (Json.obj.inj hav)
    rw [hseconds, hsum, hof, hobserved]
    refine ⟨rfl, ?_⟩
    have hmem : ("alert_candidates", TelemetryName.alertCandidate) ∈ funnelCounts := by
      unfold funnelCounts
      simp
    have hruns' : ∀ row ∈ rows, named .alertCandidate row = true → (row.text "run_id").isSome = true := by
      intro row hrow hname
      by_contra hno
      rw [List.countP_eq_zero] at horphans
      refine horphans row hrow ?_
      have hcandidate : isCandidate row = true := hname
      rw [hcandidate, Bool.true_and, Option.isNone_iff_eq_none]
      exact Option.not_isSome_iff_eq_none.1 hno
    have htotal : countField report.pipeline "alert_candidates" = (exposures.map (·.2.candidates)).sum := by
      rw [hpipeline, countField_pipeline rows seen _ hmem, countOf_runs hruns', ← hruns, List.map_map]
      congr 2
      apply List.map_congr_left
      intro e he
      exact ((hspec e he).candidates).symm
    rw [heq, horphans, htotal, Nat.add_zero, Int.cast_natCast]
  · intro run hrun hpos hno
    rw [hentries] at hrun
    obtain ⟨e, he, rfl⟩ := List.mem_map.1 hrun
    have hmem : ("alert_candidates", TelemetryName.alertCandidate) ∈ funnelCounts := by
      unfold funnelCounts
      simp
    rw [countField_runEntry (hspec e he) _ hmem] at hpos
    obtain ⟨reason, hreason⟩ := hno
    have hok : e.2.exposureOk = false := by
      rw [← Bool.not_eq_true]
      intro hok
      have heq : e.2.alertsPerMarketHour = unavailable reason := Json.obj.inj hreason
      rw [((hspec e he).ok hok).2] at heq
      exact availableValue_ne_unavailable heq
    have hcandidates : 0 < e.2.candidates := by
      rw [(hspec e he).candidates]
      exact_mod_cast hpos
    obtain ⟨reason', heq⟩ := marketMetricsOf_unavailable he hcandidates hok
    exact ⟨reason', by rw [hrate, hof, heq]⟩

/-- **An evaluation is order-free and additive over runs**, on rows of exact numbers. -/
theorem evaluation_additive {loaded : LoadedTelemetry String} (hexact : ∀ row ∈ loaded.records, Exact row)
    (runId : Option String) (seen : Option ℤ) (feedback : Option (LoadedTelemetry String)) :
    (∀ records, records.Perm loaded.records →
      evaluateReport { loaded with records := records } runId seen feedback =
        evaluateReport loaded runId seen feedback) ∧
      ∀ report, evaluateReport loaded runId seen feedback = .ok report →
        RunsAdd report (selected runId loaded.records) := by
  refine ⟨fun records hperm => evaluateReport_perm hperm (fun row hrow => ?_) runId seen feedback,
    fun report h => runsAdd_of_report h⟩
  exact (returns_dateOf row).2 (hexact row hrow).dated

/-- A candidate of a run, at a time. -/
def candidateRow (runId : String) (ts : ℚ) : Record :=
  [("name", .str "alert_candidate"), ("run_id", .str runId), ("symbol", .str "600000.SH"),
    ("market_timestamp", .float (.finite ts))]

/-- Two runs of half an hour of a morning session, row by row in turn. -/
def twoRuns : LoadedTelemetry String where
  records := [candidateRow "a" 1751335200, candidateRow "b" 1751421600, candidateRow "a" 1751337000,
    candidateRow "b" 1751423400]
  inputFiles := []
  recordsRead := 4
  malformedCompleteLines := 0
  skippedTrailingPartial := false
  healthy := true

theorem evaluation_additive_two : ∃ report, evaluateReport twoRuns none none none = .ok report ∧
    evaluateReport { twoRuns with records := twoRuns.records.reverse } none none none = .ok report ∧
    report.perRun.map secondsField = [1800, 1800] ∧ secondsField report.alertNoise = 3600 ∧
    RunsAdd report (selected none twoRuns.records) := by
  have hexact : ∀ row ∈ twoRuns.records, Exact row := by
    have hrow : ∀ runId ts, OnCalendar ts → Exact (candidateRow runId ts) :=
      fun _ _ h => ⟨h, nofun⟩
    intro row hmem
    simp only [twoRuns, List.mem_cons, List.not_mem_nil, or_false] at hmem
    rcases hmem with rfl | rfl | rfl | rfl <;> exact hrow _ _ ⟨by decide +kernel, by decide +kernel⟩
  obtain ⟨hperm, hadd⟩ := evaluation_additive hexact none none none
  have hrun : (evaluateReport twoRuns none none none).toOption.map (fun report =>
      (report.perRun.map secondsField, secondsField report.alertNoise)) = some ([1800, 1800], 3600) := by
    decide +kernel
  obtain ⟨report, hreport, hfields⟩ := Option.map_eq_some_iff.1 hrun
  obtain ⟨hseconds, htotal⟩ := Prod.mk.inj hfields
  have hok : evaluateReport twoRuns none none none = .ok report := by
    cases h : evaluateReport twoRuns none none none with
    | error e =>
      rw [h] at hreport
      cases hreport
    | ok r =>
      rw [h] at hreport
      exact congrArg Except.ok (Option.some.inj hreport)
  exact ⟨report, hok, (hperm _ (List.reverse_perm _)).trans hok, hseconds, htotal, hadd report hok⟩

end Evaluation

end MarketSentinel
