import MarketSentinel.Lib.Dict
import MarketSentinel.Telemetry.Contract

/-!
# The alert noise of an evaluation

`evaluation/aggregate.py`, as far as it counts the priorities of the alert candidates: the
records of a report, the four counters of `_alert_noise` and the repeated episodes. Counters are
kept in a dictionary, as in the source.

* `alertNoise_counts`: each counter is the number of candidates whose priority is spelled like
  its key.
-/

namespace MarketSentinel

open Lib

/-- A telemetry record as it was read. -/
abbrev Record := List (String × Json)

namespace Record

/-- `row.get(key)`, when it is a string. -/
def text (row : Record) (key : String) : Option String :=
  match Json.field row key with
  | .str s => some s
  | _ => none

end Record

/-- `row.get("name") == TelemetryName.ALERT_CANDIDATE.value`. -/
def isCandidate (row : Record) : Bool := row.text "name" = some TelemetryName.alertCandidate.value

/-- The numerator over the denominator, or `None`. -/
def ratio (numerator denominator : ℕ) : Option ℚ :=
  if denominator = 0 then none else some (numerator / denominator)

namespace Evaluation

/-- `_PRIORITIES`. -/
def priorities : List String := ["INFO", "NOTICE", "IMPORTANT", "CRITICAL"]

/-- The records of a report on one run, or on all of them. -/
def selected (runId : Option String) (records : List Record) : List Record :=
  records.filter fun row =>
    (row.text "name").isSome ∧ (runId = none ∨ row.text "run_id" = runId)

/-- One candidate in the loop of `_alert_noise`. -/
def countPriority (counts : Dict String ℕ) (row : Record) : Dict String ℕ :=
  (row.text "priority").elim counts counts.bump

def priorityCounts (candidates : List Record) : Dict String ℕ :=
  candidates.foldl countPriority (Dict.empty.setAll priorities 0)

/-- The run and the signal of a candidate, when both are strings. -/
def episodeKey (row : Record) : Option (String × String) :=
  match row.text "run_id", row.text "signal_id" with
  | some runId, some signalId => some (runId, signalId)
  | _, _ => none

/-- `grouped[key] += 1` on a `defaultdict(int)`. -/
def group (grouped : Dict (String × String) ℕ) (row : Record) : Dict (String × String) ℕ :=
  (episodeKey row).elim grouped fun k => grouped.set k (grouped.getD k 0 + 1)

/-- The episodes that were alerted more than once, and the alerts beyond the first of each. -/
def repeatedOf (grouped : Dict (String × String) ℕ) : ℕ × ℕ :=
  grouped.values.foldl (fun r count => if 1 < count then (r.1 + 1, r.2 + (count - 1)) else r) (0, 0)

/-- `_repeated_episodes`. -/
def repeatedEpisodes (candidates : List Record) : ℕ × ℕ :=
  repeatedOf (candidates.foldl group Dict.empty)

/-- The part of `_alert_noise` that reads the candidates. -/
structure AlertNoise where
  infoCount : ℕ
  noticeCount : ℕ
  importantCount : ℕ
  criticalCount : ℕ
  importantCriticalRatio : Option ℚ
  repeatedEpisodeSignalCount : ℕ
  repeatedEpisodeExtraAlertCount : ℕ
  deriving DecidableEq, Repr

def alertNoise (records : List Record) : AlertNoise :=
  let candidates := records.filter isCandidate
  let priorityCounts := priorityCounts candidates
  let totalPriority := priorityCounts.values.sum
  let importantCritical := priorityCounts.getD "IMPORTANT" 0 + priorityCounts.getD "CRITICAL" 0
  let repeated := repeatedEpisodes candidates
  { infoCount := priorityCounts.getD "INFO" 0
    noticeCount := priorityCounts.getD "NOTICE" 0
    importantCount := priorityCounts.getD "IMPORTANT" 0
    criticalCount := priorityCounts.getD "CRITICAL" 0
    importantCriticalRatio := ratio importantCritical totalPriority
    repeatedEpisodeSignalCount := repeated.1
    repeatedEpisodeExtraAlertCount := repeated.2 }

/-- The alert noise of a report. -/
def evaluate (runId : Option String) (records : List Record) : AlertNoise :=
  alertNoise (selected runId records)

/-- The count of a priority in the report. -/
def AlertNoise.count (n : AlertNoise) : SignalPriority → ℕ
  | .info => n.infoCount
  | .notice => n.noticeCount
  | .important => n.importantCount
  | .critical => n.criticalCount

/-- The key that `_alert_noise` counts a priority under. -/
def keyOf : SignalPriority → String
  | .info => "INFO"
  | .notice => "NOTICE"
  | .important => "IMPORTANT"
  | .critical => "CRITICAL"

/-- **Each counter is the number of candidates with its spelling.** -/
theorem alertNoise_counts (records : List Record) (priority : SignalPriority) :
    (alertNoise records).count priority =
      (records.filter isCandidate).countP fun row => row.text "priority" = some (keyOf priority) := by
  have hcount : ∀ key ∈ priorities, (priorityCounts (records.filter isCandidate)).getD key 0 =
      (records.filter isCandidate).countP fun row => row.text "priority" = some key := by
    intro key hkey
    unfold priorityCounts countPriority Dict.getD
    rw [Dict.get?_foldl_bump, Dict.get?_setAll, if_pos hkey]
    simp
  cases priority with
  | info => exact hcount "INFO" (by decide)
  | notice => exact hcount "NOTICE" (by decide)
  | important => exact hcount "IMPORTANT" (by decide)
  | critical => exact hcount "CRITICAL" (by decide)

end Evaluation

end MarketSentinel
