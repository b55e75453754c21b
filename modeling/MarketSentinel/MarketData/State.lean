import MarketSentinel.Domain.Model
import MarketSentinel.Lib.Dict

/-!
# The state store

`market_data/state.py`: the durable state of each symbol that was ever quoted or projected. Nothing
removes a symbol from it.

* `signalsOf_applyRuntime`, `signalsOf_updateLatest`: which writes change the active signals.
* `latestOf_applyRuntime`, `latestOf_updateLatest`: which writes change the latest quote.
-/

namespace MarketSentinel

open Lib

/-- The state of each symbol. -/
structure MarketStateStore where
  states : Dict String MarketState := Dict.empty

/-- What `_project_health` writes for a symbol. -/
structure RuntimeReading where
  level : SchedulerLevel
  feedStatus : FeedStatus
  feedLatency : Option ℚ
  lastUpdateAge : Option ℚ
  deriving DecidableEq, Repr

namespace MarketStateStore

def get (s : MarketStateStore) (symbol : String) : Option MarketState := s.states.get? symbol

/-- `update_latest`. -/
def updateLatest (s : MarketStateStore) (snapshot : MarketSnapshot) : MarketStateStore :=
  let current := s.get snapshot.symbol
  { states := s.states.set snapshot.symbol
      { symbol := snapshot.symbol
        latest := some snapshot
        level := (current.map (·.level)).getD .cold
        feedStatus := (current.map (·.feedStatus)).getD .live
        feedLatency := current.bind (·.feedLatency)
        lastUpdateAge := current.bind (·.lastUpdateAge)
        features := current.bind (·.features)
        activeSignals := (current.map (·.activeSignals)).getD [] } }

/-- `apply_runtime`; `produced` are the features and the signals of a tick, when they are given. -/
def applyRuntime (s : MarketStateStore) (symbol : String) (reading : RuntimeReading)
    (produced : Option (Option MarketFeatures × List Signal) := none) : MarketStateStore :=
  let current := s.get symbol
  let kept := (current.bind (·.features), (current.map (·.activeSignals)).getD [])
  { states := s.states.set symbol
      { symbol := symbol
        latest := current.bind (·.latest)
        level := reading.level
        feedStatus := reading.feedStatus
        feedLatency := reading.feedLatency
        lastUpdateAge := reading.lastUpdateAge
        features := (produced.getD kept).1
        activeSignals := (produced.getD kept).2 } }

/-- The active signals in the state of a symbol. -/
def signalsOf (s : MarketStateStore) (symbol : String) : List Signal :=
  ((s.get symbol).map (·.activeSignals)).getD []

variable (s : MarketStateStore) (symbol symbol' : String)

@[simp] theorem signalsOf_updateLatest (snapshot : MarketSnapshot) :
    (s.updateLatest snapshot).signalsOf symbol' = s.signalsOf symbol' := by
  unfold updateLatest signalsOf get
  by_cases h : symbol' = snapshot.symbol
  · simp [h]
  · simp [Dict.get?_set, h]

/-- A row replaces the signals of its symbol, where its pipeline ran. -/
theorem signalsOf_applyRuntime (reading : RuntimeReading)
    (produced : Option (Option MarketFeatures × List Signal)) :
    (s.applyRuntime symbol reading produced).signalsOf symbol' =
      if symbol' = symbol then (produced.map Prod.snd).getD (s.signalsOf symbol)
      else s.signalsOf symbol' := by
  unfold applyRuntime signalsOf get
  by_cases h : symbol' = symbol
  · cases produced <;> simp [h]
  · simp [Dict.get?_set, h]

/-- The latest quote in the state of a symbol. -/
def latestOf (s : MarketStateStore) (symbol : String) : Option MarketSnapshot :=
  (s.get symbol).bind (·.latest)

/-- It leaves the other symbols alone. -/
theorem get_applyRuntime_ne {reading : RuntimeReading}
    {produced : Option (Option MarketFeatures × List Signal)} (h : symbol' ≠ symbol) :
    (s.applyRuntime symbol reading produced).get symbol' = s.get symbol' := by
  unfold applyRuntime get
  rw [Dict.get?_set_ne _ h]

/-- It writes what it read of its own. -/
theorem get_applyRuntime_self (reading : RuntimeReading)
    (produced : Option (Option MarketFeatures × List Signal)) :
    ∃ state, (s.applyRuntime symbol reading produced).get symbol = some state ∧
      state.level = reading.level ∧ state.latest = s.latestOf symbol := by
  unfold applyRuntime get latestOf
  rw [Dict.get?_set_self]
  exact ⟨_, rfl, rfl, rfl⟩

@[simp] theorem latestOf_applyRuntime (reading : RuntimeReading)
    (produced : Option (Option MarketFeatures × List Signal)) :
    (s.applyRuntime symbol reading produced).latestOf symbol' = s.latestOf symbol' := by
  by_cases h : symbol' = symbol
  · obtain ⟨state, hget, -, hlatest⟩ := s.get_applyRuntime_self symbol reading produced
    rw [h, latestOf, hget]
    exact hlatest
  · unfold latestOf
    rw [get_applyRuntime_ne _ _ _ h]

/-- A quote replaces the latest one of its symbol. -/
theorem latestOf_updateLatest (snapshot : MarketSnapshot) :
    (s.updateLatest snapshot).latestOf symbol' =
      if symbol' = snapshot.symbol then some snapshot else s.latestOf symbol' := by
  unfold updateLatest latestOf get
  by_cases h : symbol' = snapshot.symbol
  · simp [h]
  · simp [Dict.get?_set, h]

end MarketStateStore

end MarketSentinel
