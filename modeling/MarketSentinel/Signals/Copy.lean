import MarketSentinel.Lib.Json
import MarketSentinel.Signals.Cluster

/-!
# Priority and copy of a signal

`signals/copy.py`: the priority a set of members gives a signal, with the reason kept in
its trace, and the title and summary shown to the user.
-/

namespace MarketSentinel

/-- `max(a, b, key=rank)`: the first of the two with the greater rank. -/
def maxPriority (a b : SignalPriority) : SignalPriority :=
  if priorityRank a < priorityRank b then b else a

def priorityFromSeverity (severity : ℤ) : SignalPriority :=
  if 5 ≤ severity then .critical
  else if 4 ≤ severity then .important
  else if 3 ≤ severity then .notice
  else .info

/-- `max(item.severity for item in events)`; the composer never asks it of no events. -/
def maxSeverity : List MarketEvent → ℤ
  | [] => 0
  | e :: es => es.foldl (fun m x => max m x.severity) e.severity

def composePriority (events : List MarketEvent) (family : String) : SignalPriority × String :=
  let maxSeverity := maxSeverity events
  let base := priorityFromSeverity maxSeverity
  let types := events.map (·.type)
  let hasVol : Bool := .volumeSpike ∈ types ∨ .priceVolumeExpansion ∈ types
  let hasMove : Bool := .rapidMove ∈ types ∨ .priceVolumeExpansion ∈ types
  let severityText := "max_severity=" ++ toString maxSeverity
  if family = "price_volume" ∨ (hasVol ∧ hasMove) then
    (maxPriority base .important, "family=" ++ family ++ "; " ++ severityText ++ "; cluster=price_volume")
  else if family = "volume" then
    (maxPriority base .notice, "family=volume; " ++ severityText ++ "; standalone_volume_notice")
  else (base, "family=" ++ family ++ "; " ++ severityText)

/-! ## Copy -/

/-- The digits of `|x|` in Python's `.2f` format. -/
def digits2 (x : ℚ) : String :=
  let hundredths := (Lib.roundHalfEven (|x| * 100)).toNat
  let cents := hundredths % 100
  toString (hundredths / 100) ++ "." ++ (if cents < 10 then "0" else "") ++ toString cents

/-- Python's `{x:.2f}`. -/
def fixed2 (x : ℚ) : String := (if x < 0 then "-" else "") ++ digits2 x

/-- Python's `{x:+.2f}`. -/
def signed2 (x : ℚ) : String := (if x < 0 then "-" else "+") ++ digits2 x

/-- The titles table of `render_copy`. -/
def titleOf (symbol family : String) : String :=
  if family = "volume" then symbol ++ " 成交量明显放大"
  else if family = "move" then symbol ++ " 出现短时快速涨跌"
  else if family = "price_volume" then symbol ++ " 出现量价同步扩张"
  else if family = "breakout" then symbol ++ " 突破日内高点"
  else if family = "breakdown" then symbol ++ " 跌破日内低点"
  else if family = "vwap" then symbol ++ " 价格穿越VWAP"
  else symbol ++ " 出现市场异动"

/-- The title and the summary of a signal, for a non-empty list of members. -/
def renderCopy (events : List MarketEvent) (family : String) (features : MarketFeatures) :
    String × String :=
  let symbol := (events.getLast?.map (·.symbol)).getD ""
  let facts : List String :=
    (features.change1m.map fun c => "1分钟涨跌 " ++ signed2 (c * 100) ++ "%").toList ++
    (features.change5m.map fun c => "5分钟涨跌 " ++ signed2 (c * 100) ++ "%").toList ++
    (features.volumeRatio1m.map fun r => "1分钟成交量 " ++ fixed2 r ++ " 倍").toList ++
    (features.volumeRatio5m.map fun r => "5分钟成交量 " ++ fixed2 r ++ " 倍").toList ++
    (features.sessionHighRef.map fun ref =>
      "观测日内高 " ++ fixed2 features.sessionHighObs ++ " vs 前高 " ++ fixed2 ref).toList ++
    (features.sessionLowRef.map fun ref =>
      "观测日内低 " ++ fixed2 features.sessionLowObs ++ " vs 前低 " ++ fixed2 ref).toList ++
    (match features.vwap, features.aboveVwap with
      | some vwap, some above =>
        ["价格位于VWAP" ++ (if above then "上方" else "下方") ++ " " ++ fixed2 vwap]
      | _, _ => [])
  let types := ((events.map (·.type.value)).dedup).insertionSort (· ≤ ·)
  let facts := facts ++ ["触发规则 " ++ String.intercalate " + " types]
  (titleOf symbol family, String.intercalate "，" facts)

end MarketSentinel
