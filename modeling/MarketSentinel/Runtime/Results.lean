import MarketSentinel.Domain.Model

/-!
# The results of a tick

`runtime/results.py`: what one tick produced for each due symbol.
-/

namespace MarketSentinel

/-- Edge-triggered output for one symbol on one tick. -/
structure SymbolTickResult where
  symbol : String
  features : Option MarketFeatures
  acceptedEvents : List MarketEvent
  signalUpdates : List Signal
  traces : List SignalTrace
  alertCandidates : List Signal
  levelBefore : SchedulerLevel
  levelAfter : SchedulerLevel
  deriving DecidableEq, Repr

/-- This tick's new output, one entry for each due symbol. -/
structure EngineTickResult where
  symbolResults : List SymbolTickResult
  deriving DecidableEq, Repr

end MarketSentinel
