import MarketSentinel.Lib.Dict
import MarketSentinel.Signals.Copy

/-!
# The signal composer

`signals/composer.py`. The composer keeps, over all symbols, the accepted events of the
look-back, the active episodes by `(symbol, lineage, direction)`, their traces by signal
id, and for each event the episode it was last put in (`home`).

`_resolve_identity` draws a new id and reads the clock at most once per episode key in a
call, so the environment of a call is a function of the key (`Draws`): the pair
`(uuid.uuid4().hex, clock.wall_time())` the call gets if it creates that episode.

`_prune_active` runs over the episodes of **all** symbols, with the time of one.
-/

namespace MarketSentinel

open Lib

/-- The keys `(symbol, lineage, direction)` of the active table. -/
structure EpisodeKey where
  symbol : String
  lineage : Lineage
  direction : EventDirection
  deriving DecidableEq, Repr

/-- The NONE episode of the same symbol and lineage. -/
def EpisodeKey.noneKey (k : EpisodeKey) : EpisodeKey := { k with direction := .none }

/-- What a call gets when it creates the episode of a key: a new id and the wall time. -/
abbrev Draws := EpisodeKey → String × ℚ

/-- The state of a `SignalComposer`. Its two callers give a non-negative look-back: the default
of 90 s, or a tuning value that was checked to be positive. -/
structure SignalComposer where
  lookbackS : ℚ := clusterLookbackS
  lookback_nonneg : 0 ≤ lookbackS := by exact clusterLookbackS_nonneg
  accepted : Dict String (List MarketEvent) := Dict.empty
  active : Dict EpisodeKey Signal := Dict.empty
  traces : Dict String SignalTrace := Dict.empty
  home : Dict String EpisodeKey := Dict.empty

namespace SignalComposer

/-- Start of the look-back of a market time. -/
def cutoff (c : SignalComposer) (nowTs : ℚ) : ℚ := nowTs - c.lookbackS

/-- The episode of a key, when its last market time is inside the look-back. -/
def live? (c : SignalComposer) (nowTs : ℚ) (k : EpisodeKey) : Option Signal :=
  (c.active.get? k).filter fun signal => c.cutoff nowTs ≤ signal.marketTimestamp

def lineageRank : Lineage → ℕ
  | .tape => 0
  | .vwap => 1

def directionRank : EventDirection → ℕ
  | .none => 0
  | .up => 1
  | .down => 2

/-- The order of the rows `(lineage rank, direction rank, id, signal)` of `active_signals`. Two
rows of a symbol never tie on the two ranks. -/
def RowLe (a b : EpisodeKey × Signal) : Prop :=
  lineageRank a.1.lineage < lineageRank b.1.lineage ∨
    (lineageRank a.1.lineage = lineageRank b.1.lineage ∧
      (directionRank a.1.direction < directionRank b.1.direction ∨
        (directionRank a.1.direction = directionRank b.1.direction ∧ a.2.id ≤ b.2.id)))

instance : DecidableRel RowLe := fun _ _ => inferInstanceAs (Decidable (_ ∨ _ ∧ (_ ∨ _ ∧ _)))

instance : Std.Total RowLe where
  total a b := by
    unfold RowLe
    rcases lt_trichotomy (lineageRank a.1.lineage) (lineageRank b.1.lineage) with h | h | h
    · exact .inl (.inl h)
    · rcases lt_trichotomy (directionRank a.1.direction) (directionRank b.1.direction) with h' | h' | h'
      · exact .inl (.inr ⟨h, .inl h'⟩)
      · exact (le_total a.2.id b.2.id).imp (fun hi => .inr ⟨h, .inr ⟨h', hi⟩⟩)
          fun hi => .inr ⟨h.symm, .inr ⟨h'.symm, hi⟩⟩
      · exact .inr (.inr ⟨h.symm, .inl h'⟩)
    · exact .inr (.inl h)

instance : IsTrans (EpisodeKey × Signal) RowLe where
  trans a b c := by
    unfold RowLe
    rintro h1 h2
    rcases h1 with h1 | ⟨h1, h1' | ⟨h1', h1i⟩⟩ <;> rcases h2 with h2 | ⟨h2, h2' | ⟨h2', h2i⟩⟩
    any_goals omega
    exact .inr ⟨h1.trans h2, .inr ⟨h1'.trans h2', h1i.trans h2i⟩⟩

def activeSignals (c : SignalComposer) (symbol : String) : List Signal :=
  ((c.active.entries.filter fun e => e.1.symbol = symbol).insertionSort RowLe).map Prod.snd

/-- `trace_for`; `none` is the `KeyError`. -/
def traceFor (c : SignalComposer) (signalId : String) : Option SignalTrace := c.traces.get? signalId

/-- Drop one episode: its entry, its trace, and the homes that still point to it. -/
def dropEpisode (c : SignalComposer) (key : EpisodeKey) (signal : Signal) : SignalComposer :=
  { c with
    active := c.active.pop key
    traces := c.traces.pop signal.id
    home := signal.eventIds.foldl
      (fun home eventId => if home.get? eventId = some key then home.pop eventId else home) c.home }

/-- `_prune_active`: drop every episode, of whatever symbol, that is older than the look-back. -/
def pruneActive (c : SignalComposer) (nowTs : ℚ) : SignalComposer :=
  let expired := c.active.entries.filter fun e => e.2.marketTimestamp < c.cutoff nowTs
  expired.foldl (fun c e => c.dropEpisode e.1 e.2) c

/-- Keep the accepted events of a symbol that are inside the look-back. -/
def trimAccepted (c : SignalComposer) (symbol : String) (events : List MarketEvent) (nowTs : ℚ) :
    SignalComposer :=
  { c with
    accepted := c.accepted.set symbol (events.filter fun e => c.cutoff nowTs ≤ e.marketTimestamp) }

def prune (c : SignalComposer) (symbol : String) (nowTs : ℚ) : SignalComposer :=
  (c.trimAccepted symbol (c.accepted.getD symbol []) nowTs).pruneActive nowTs

end SignalComposer

/-! ## Composing -/

/-- What the loops of one `_consume_symbol` call carry. -/
structure ComposeState where
  composer : SignalComposer
  stolenNone : List (String × Lineage) := []
  produced : List (Signal × SignalTrace) := []

namespace ComposeState

/-- The NONE episode of `key`'s lineage becomes the episode of `key`: its entry goes, and its
events move home. -/
def takeOver (s : ComposeState) (key : EpisodeKey) (noneSignal : Signal) : ComposeState :=
  { s with
    composer := { s.composer with
      active := s.composer.active.pop key.noneKey
      home := s.composer.home.setAll noneSignal.eventIds key }
    stolenNone := (key.symbol, key.lineage) :: s.stolenNone }

/-- `_resolve_identity`: the id and the creation time of the episode being composed. -/
def resolveIdentity (s : ComposeState) (draws : Draws) (key : EpisodeKey) (nowTs : ℚ) :
    (String × ℚ) × ComposeState :=
  match s.composer.live? nowTs key with
  | some existing => ((existing.id, existing.signalCreatedTimestamp), s)
  | none =>
    if key.direction ≠ .none ∧ (key.symbol, key.lineage) ∉ s.stolenNone then
      match s.composer.live? nowTs key.noneKey with
      | some noneSignal =>
        ((noneSignal.id, noneSignal.signalCreatedTimestamp), s.takeOver key noneSignal)
      | none => (draws key, s)
    else (draws key, s)

end ComposeState

/-- The signal and the trace of an episode with the given identity and members. -/
def signalOf (key : EpisodeKey) (members : List MarketEvent) (features : MarketFeatures)
    (identity : String × ℚ) : Signal :=
  let family := classifyFamily members
  let copy := renderCopy members family features
  -- Members are sorted by time, so the last one is the latest.
  let latest := members.getLast?
  { id := identity.1
    eventIds := members.map (·.id)
    symbol := key.symbol
    family := family
    direction := key.direction
    priority := (composePriority members family).1
    title := copy.1
    summary := copy.2
    generatedBy := .rule
    marketTimestamp := (latest.map (·.marketTimestamp)).getD 0
    receivedTimestamp := (latest.map (·.receivedTimestamp)).getD 0
    detectedTimestamp := (latest.map (·.detectedTimestamp)).getD 0
    signalCreatedTimestamp := identity.2 }

def traceOf (members : List MarketEvent) (features : MarketFeatures) (signal : Signal) :
    SignalTrace where
  signalId := signal.id
  eventIds := signal.eventIds
  ruleNames := members.map (·.ruleName)
  features := features
  family := signal.family
  direction := signal.direction
  priority := signal.priority
  priorityReason := (composePriority members signal.family).2
  detectedTimestamp := signal.detectedTimestamp
  signalCreatedTimestamp := signal.signalCreatedTimestamp

namespace ComposeState

/-- Write a composed episode into the tables. -/
def store (s : ComposeState) (key : EpisodeKey) (members : List MarketEvent) (signal : Signal)
    (trace : SignalTrace) : ComposeState :=
  { s with
    composer := { s.composer with
      active := s.composer.active.set key signal
      home := s.composer.home.setAll (members.map (·.id)) key
      traces := s.composer.traces.set signal.id trace }
    produced := s.produced ++ [(signal, trace)] }

/-- `_compose_episode`; `members` is not empty. -/
def composeEpisode (s : ComposeState) (draws : Draws) (key : EpisodeKey)
    (members : List MarketEvent) (features : MarketFeatures) (nowTs : ℚ) : ComposeState :=
  let (identity, s) := s.resolveIdentity draws key nowTs
  let signal := signalOf key members features identity
  s.store key members signal (traceOf members features signal)

end ComposeState

namespace SignalComposer

/-- Whether `_events_for_partition` selects an event: a directional one always, a NONE one by
its home. -/
def selects (c : SignalComposer) (symbol : String) (lineage : Lineage) (batchIds : List String)
    (noneTarget : EventDirection) (event : MarketEvent) : Bool :=
  if event.direction ≠ .none then true
  else
    match c.home.get? event.id with
    | none => event.id ∈ batchIds
    | some home =>
      if home.symbol ≠ symbol ∨ home.lineage ≠ lineage then false
      else if home.direction = noneTarget then true
      else home.direction = .none ∧ (noneTarget = .up ∨ noneTarget = .down)

def eventsForPartition (c : SignalComposer) (symbol : String) (lineage : Lineage)
    (recent batch : List MarketEvent) (noneTarget : EventDirection) : List MarketEvent :=
  recent.filter (c.selects symbol lineage (batch.map (·.id)) noneTarget)

/-- The directions of the active episodes of a symbol and lineage. -/
def liveDirections (c : SignalComposer) (symbol : String) (lineage : Lineage) :
    Finset EventDirection :=
  ((c.active.keys.filter fun k => k.symbol = symbol ∧ k.lineage = lineage).map
    (·.direction)).toFinset

/-- `max(item.market_timestamp for item in batch)`; the batch is not empty. -/
def latestTs : List MarketEvent → ℚ
  | [] => 0
  | e :: es => es.foldl (fun m x => max m x.marketTimestamp) e.marketTimestamp

end SignalComposer

/-- The events of a list that belong to a lineage. -/
def ofLineage (lineage : Lineage) (events : List MarketEvent) : List MarketEvent :=
  events.filter fun e => lineageOf e.type = lineage

/-- The constants of one `_consume_symbol` call. -/
structure SymbolCall where
  draws : Draws
  symbol : String
  batch : List MarketEvent
  features : MarketFeatures
  recent : List MarketEvent

namespace SymbolCall

def nowTs (call : SymbolCall) : ℚ := SignalComposer.latestTs call.batch

/-- The target of the NONE events of a lineage, in the state the lineage's turn starts from. -/
def noneTarget (call : SymbolCall) (c : SignalComposer) (lineage : Lineage) : EventDirection :=
  resolveNoneTarget (ofLineage lineage call.batch) (ofLineage lineage call.recent)
    (c.liveDirections call.symbol lineage)

/-- The events that are split into episodes. -/
def selected (call : SymbolCall) (c : SignalComposer) (lineage : Lineage) : List MarketEvent :=
  c.eventsForPartition call.symbol lineage (ofLineage lineage call.recent)
    (ofLineage lineage call.batch) (call.noneTarget c lineage)

/-- Compose one episode of the split, when it has a new member. -/
def composeNew (call : SymbolCall) (lineage : Lineage) (s : ComposeState)
    (episode : EventDirection × List MarketEvent) : ComposeState :=
  if episode.2.any fun e => e.id ∈ call.batch.map (·.id) then
    s.composeEpisode call.draws ⟨call.symbol, lineage, episode.1⟩ episode.2 call.features call.nowTs
  else s

/-- One turn of the loop over the lineages. -/
def consumeLineage (call : SymbolCall) (s : ComposeState) (lineage : Lineage) : ComposeState :=
  if call.batch.any fun e => lineageOf e.type = lineage then
    let noneTarget := call.noneTarget s.composer lineage
    let composeRecent := call.selected s.composer lineage
    (partitionLineageEpisodes composeRecent noneTarget).foldl (call.composeNew lineage) s
  else s

end SymbolCall

namespace SignalComposer

/-- The look-back of a symbol with a batch added, and the episodes pruned at the batch's time. -/
def accept (c : SignalComposer) (symbol : String) (batch : List MarketEvent) : SignalComposer :=
  (c.trimAccepted symbol (c.accepted.getD symbol [] ++ batch) (latestTs batch)).pruneActive
    (latestTs batch)

/-- The constants of `_consume_symbol` on a batch. -/
def callFor (c : SignalComposer) (draws : Draws) (symbol : String) (batch : List MarketEvent)
    (features : MarketFeatures) : SymbolCall where
  draws := draws
  symbol := symbol
  batch := batch
  features := features
  recent := (c.accept symbol batch).accepted.getD symbol []

/-- `_consume_symbol`. -/
def consumeSymbol (c : SignalComposer) (draws : Draws) (symbol : String) (batch : List MarketEvent)
    (features : MarketFeatures) : List (Signal × SignalTrace) × SignalComposer :=
  let call := c.callFor draws symbol batch features
  let s : ComposeState := { composer := c.accept symbol batch }
  let s := [Lineage.tape, Lineage.vwap].foldl call.consumeLineage s
  (s.produced, s.composer)

/-- The batches by symbol, in the order of the symbols' first events. -/
def bySymbol (events : List MarketEvent) : Dict String (List MarketEvent) :=
  events.foldl (fun d e => d.set e.symbol (d.getD e.symbol [] ++ [e])) Dict.empty

def consumeBatch (c : SignalComposer) (draws : Draws) (events : List MarketEvent)
    (features : MarketFeatures) : List (Signal × SignalTrace) × SignalComposer :=
  (bySymbol events).entries.foldl
    (fun r e =>
      let (produced, c) := r.2.consumeSymbol draws e.1 e.2 features
      (r.1 ++ produced, c))
    ([], c)

/-- `consume`; `none` is the `RuntimeError`. -/
def consume (c : SignalComposer) (draws : Draws) (event : MarketEvent) (features : MarketFeatures) :
    Option (Signal × SignalTrace) × SignalComposer :=
  let (produced, c) := c.consumeBatch draws [event] features
  (produced.find? fun p => event.id ∈ p.1.eventIds, c)

end SignalComposer

end MarketSentinel
