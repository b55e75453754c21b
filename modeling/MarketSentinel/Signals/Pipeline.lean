import MarketSentinel.Events.Rules
import MarketSentinel.Signals.Composer
import MarketSentinel.Signals.Gates
import MarketSentinel.Telemetry.Contract

/-!
# The signal pipeline

`signals/pipeline.py`: one feature snapshot through detect, dedupe, compose and cooldown. The
clock readings and the ids of a call are its environment (`PipelineEnv`); each of them is a
function of what it is read for, and is read at most once.
-/

namespace MarketSentinel

open Lib

/-- What a `process` call reads from the clock and draws from `uuid4`. -/
structure PipelineEnv where
  /-- The wall time of the detector. -/
  detectedAt : ℚ
  /-- The id of the event of each type. -/
  eventId : EventType → String
  /-- The id and wall time of each episode that is created. -/
  draws : Draws
  /-- The monotonic time at which the cooldown gate is asked about a signal id. -/
  monotonic : String → ℚ

structure SignalPipeline where
  deduper : EventDeduper := {}
  composer : SignalComposer := {}
  cooldown : CooldownGate := {}
  telemetry : Option TelemetryRuntime := none

namespace SignalPipeline

/-- Emit to the telemetry runtime, when there is one. -/
def emit (p : SignalPipeline) (fields : String → String → ℚ → TelemetryEvent) : SignalPipeline :=
  { p with telemetry := p.telemetry.map fun t => t.emit fields }

def eventFields (name : TelemetryName) (event : MarketEvent) (telemetryId runId : String)
    (created : ℚ) : TelemetryEvent where
  telemetryId := telemetryId
  name := name
  createdTimestamp := created
  runId := runId
  symbol := some event.symbol
  eventId := some event.id
  eventType := some event.type.value
  direction := some event.direction.value
  marketTimestamp := some event.marketTimestamp

def signalFields (name : TelemetryName) (signal : Signal) (telemetryId runId : String)
    (created : ℚ) : TelemetryEvent where
  telemetryId := telemetryId
  name := name
  createdTimestamp := created
  runId := runId
  symbol := some signal.symbol
  signalId := some signal.id
  family := some signal.family
  direction := some signal.direction.value
  priority := some signal.priority.value
  marketTimestamp := some signal.marketTimestamp

def suppressedFields (signal : Signal) (reason : SuppressionReason) (telemetryId runId : String)
    (created : ℚ) : TelemetryEvent :=
  { signalFields .alertSuppressed signal telemetryId runId created with
    suppressionReason := some reason }

def clusteredFields (signal : Signal) (eventId : String) (telemetryId runId : String)
    (created : ℚ) : TelemetryEvent where
  telemetryId := telemetryId
  name := .eventClustered
  createdTimestamp := created
  runId := runId
  symbol := some signal.symbol
  eventId := some eventId
  signalId := some signal.id
  family := some signal.family
  direction := some signal.direction.value
  marketTimestamp := some signal.marketTimestamp

/-- One detected event through the deduper. -/
def acceptEvent (r : SignalPipeline × List MarketEvent) (event : MarketEvent) :
    SignalPipeline × List MarketEvent :=
  let p := r.1.emit (eventFields .eventGenerated event)
  let (kept, deduper) := p.deduper.accept event
  let p := { p with deduper := deduper }
  if kept then (p, r.2 ++ [event]) else (p.emit (eventFields .eventDeduped event), r.2)

/-- `runtime.cluster.newly_clustered` for one signal, and its records. -/
def observeCluster (p : SignalPipeline) (signal : Signal) : SignalPipeline :=
  match p.telemetry with
  | none => p
  | some runtime =>
    let (fresh, clustered) := newlyClustered runtime.clustered signal.eventIds
    let p := { p with telemetry := some { runtime with clustered := clustered } }
    fresh.foldl (fun p eventId => p.emit (clusteredFields signal eventId)) p

/-- One produced signal in `_observe_episodes`; `seen` are the ids already observed. -/
def observeEpisode (prior : List (String × SignalPriority)) (r : SignalPipeline × List String)
    (produced : Signal × SignalTrace) : SignalPipeline × List String :=
  let (p, seen) := r
  let signal := produced.1
  if signal.id ∈ seen then (p, seen)
  else
    let p := match prior.lookup signal.id with
      | none => p.emit (signalFields .signalEpisodeCreated signal)
      | some previous =>
        if priorityRank previous < priorityRank signal.priority then
          p.emit (signalFields .signalEscalated signal)
        else p
    (p.observeCluster signal, seen ++ [signal.id])

def observeEpisodes (p : SignalPipeline) (prior : List (String × SignalPriority))
    (produced : List (Signal × SignalTrace)) : SignalPipeline :=
  (produced.foldl (observeEpisode prior) (p, [])).1

/-- What the alert loop of `process` carries. -/
structure AlertState where
  pipeline : SignalPipeline
  seen : List String := []
  alerts : List Signal := []
  /-- Ghost: the signals suppressed as duplicates of the same tick. -/
  duplicates : List Signal := []

/-- One produced signal in the alert loop. -/
def alertStep (env : PipelineEnv) (s : AlertState) (produced : Signal × SignalTrace) : AlertState :=
  let signal := produced.1
  if signal.id ∈ s.seen then
    { s with
      pipeline := s.pipeline.emit (suppressedFields signal .sameTickDuplicate)
      duplicates := s.duplicates ++ [signal] }
  else
    -- The id is seen whether or not the cooldown lets the signal pass.
    let seen := s.seen ++ [signal.id]
    let (allowed, cooldown) :=
      s.pipeline.cooldown.allow (env.monotonic signal.id) signal.id signal.priority
    let p := { s.pipeline with cooldown := cooldown }
    if allowed then
      { s with
        pipeline := p.emit (signalFields .alertCandidate signal)
        seen := seen
        alerts := s.alerts ++ [signal] }
    else { s with pipeline := p.emit (suppressedFields signal .cooldown), seen := seen }

/-- `{item.id: item.priority for item in active_signals(symbol)}`, latest entry first. -/
def priorPriority (p : SignalPipeline) (symbol : String) : List (String × SignalPriority) :=
  ((p.composer.activeSignals symbol).map fun s => (s.id, s.priority)).reverse

/-- The detect, dedupe and compose stages: the accepted events, the produced signals, the
pipeline after. -/
def composeStage (p : SignalPipeline) (env : PipelineEnv) (previous : Option MarketFeatures)
    (current : MarketFeatures) : List MarketEvent × List (Signal × SignalTrace) × SignalPipeline :=
  let (p, acceptedEvents) :=
    (evaluate env.eventId env.detectedAt previous current).foldl acceptEvent (p, [])
  if acceptedEvents ≠ [] then
    let (produced, composer) := p.composer.consumeBatch env.draws acceptedEvents current
    (acceptedEvents, produced, { p with composer := composer })
  else
    (acceptedEvents, [],
      { p with composer := p.composer.prune current.symbol current.marketTimestamp })

/-- The result of a `process` call, with the duplicates that were suppressed. -/
structure ProcessResult where
  result : SignalPipelineResult
  /-- Ghost: the signals suppressed as duplicates of the same tick. -/
  duplicates : List Signal

/-- `process`. The result is `none` when `trace_for` raises a `KeyError`. -/
def process (p : SignalPipeline) (env : PipelineEnv) (previous : Option MarketFeatures)
    (current : MarketFeatures) : Option ProcessResult × SignalPipeline :=
  let (acceptedEvents, produced, p') := p.composeStage env previous current
  let p' := p'.observeEpisodes (p.priorPriority current.symbol) produced
  let signalUpdates := p'.composer.activeSignals current.symbol
  match signalUpdates.mapM fun item => p'.composer.traceFor item.id with
  | none => (none, p')
  | some traces =>
    let s := produced.foldl (alertStep env) { pipeline := p' }
    (some
      { result :=
          { acceptedEvents := acceptedEvents
            signalUpdates := signalUpdates
            traces := traces
            alertCandidates := s.alerts }
        duplicates := s.duplicates },
      s.pipeline)

end SignalPipeline

end MarketSentinel
