import MarketSentinel.Runtime.CallBudget

/-!
# What the market core does not depend on

The intelligence sidecar, the telemetry runtime and the notification cooldown hang on the engine, and the tick
loop reads none of them. `SameCore` says that two engines have everything else in common: it leaves out the
status that was last logged for a symbol, which a question of the sidecar may write.

* `SamePipeline.process`: a `process` call gives the same but for the alert candidates.
* `SameCore.endTick`, `SameCore.endIdleTick`: a tick keeps `SameCore` and gives the same rows but for the alert
  candidates.
* `core_runs_alone`: the run of a session is matched, tick for tick, by the run of any session with the same core
  in which the workers of the sidecar take no step.
-/

namespace MarketSentinel

open Lib Machine

/-! ## The components -/

/-- Two pipelines that differ in cooldown and telemetry. -/
structure SamePipeline (p q : SignalPipeline) : Prop where
  deduper : q.deduper = p.deduper
  composer : q.composer = p.composer

/-- A health record without the status that was logged last. -/
def SymbolHealth.unlogged (record : SymbolHealth) : SymbolHealth := { record with lastStatus := none }

/-- Two trackers that differ in the statuses that were logged last. -/
structure SameHealth (h k : FeedHealthTracker) : Prop where
  policy : k.policy = h.policy
  symbols : ∀ symbol, (k.symbols.get? symbol).map SymbolHealth.unlogged =
    (h.symbols.get? symbol).map SymbolHealth.unlogged

namespace SameHealth

variable {h k l : FeedHealthTracker} {symbol : String}

theorem refl : SameHealth h h := ⟨rfl, fun _ => rfl⟩

theorem symm (hs : SameHealth h k) : SameHealth k h := ⟨hs.policy.symm, fun s => (hs.symbols s).symm⟩

theorem trans (hs : SameHealth h k) (hs' : SameHealth k l) : SameHealth h l :=
  ⟨hs'.policy.trans hs.policy, fun s => (hs'.symbols s).trans (hs.symbols s)⟩

/-- Nothing but the log reads the status that was logged last. -/
theorem compute_unlogged (h : FeedHealthTracker) (now : ℚ) (record : Option SymbolHealth) :
    h.compute now (record.map SymbolHealth.unlogged) = h.compute now record := by
  cases record with
  | none => rfl
  | some record => rfl

/-- The status of a symbol does not depend on what was logged. -/
theorem peekStatus (hs : SameHealth h k) (now : ℚ) (symbol : String) :
    k.peekStatus now symbol = h.peekStatus now symbol := by
  have hpolicy : ∀ record, k.compute now record = h.compute now record := by
    intro record
    unfold FeedHealthTracker.compute
    rw [hs.policy]
  unfold FeedHealthTracker.peekStatus
  rw [hpolicy, ← compute_unlogged, hs.symbols, compute_unlogged]

theorem feedLatency (hs : SameHealth h k) (symbol : String) : k.feedLatency symbol = h.feedLatency symbol := by
  have hclear : ∀ h : FeedHealthTracker, h.feedLatency symbol =
      ((h.symbols.get? symbol).map SymbolHealth.unlogged).bind fun record =>
        record.receivedTimestamp.bind fun received =>
          record.marketTimestamp.map fun market => max 0 (received - market) := by
    intro h
    unfold FeedHealthTracker.feedLatency
    cases h.symbols.get? symbol with
    | none => rfl
    | some record =>
      obtain ⟨mono, failures, market, received, status⟩ := record
      cases market <;> cases received <;> rfl
  rw [hclear, hclear, hs.symbols]

theorem lastUpdateAge (hs : SameHealth h k) (now : ℚ) (symbol : String) :
    k.lastUpdateAge now symbol = h.lastUpdateAge now symbol := by
  have hclear : ∀ h : FeedHealthTracker, h.lastUpdateAge now symbol =
      ((h.symbols.get? symbol).map SymbolHealth.unlogged).bind fun record =>
        record.lastSuccessMono.map (now - ·) := by
    intro h
    unfold FeedHealthTracker.lastUpdateAge
    cases h.symbols.get? symbol <;> rfl
  rw [hclear, hclear, hs.symbols]

/-- Two records that differ in the status that was logged last. -/
theorem set (hs : SameHealth h k) (symbol : String) {r r' : SymbolHealth} (hr : r'.unlogged = r.unlogged) :
    SameHealth { h with symbols := h.symbols.set symbol r } { k with symbols := k.symbols.set symbol r' } := by
  refine ⟨hs.policy, fun other => ?_⟩
  simp only [Dict.get?_set]
  split
  · simp only [Option.map_some, hr]
  · exact hs.symbols other

/-- The side effect of `status` is in the log. -/
theorem status_left (h : FeedHealthTracker) (now : ℚ) (symbol : String) : SameHealth h (h.status now symbol).2 := by
  unfold FeedHealthTracker.status
  dsimp only
  cases hget : h.symbols.get? symbol with
  | none => exact refl
  | some record =>
    refine ⟨rfl, fun other => ?_⟩
    simp only [Dict.get?_set]
    split
    · next heq =>
      rw [heq, hget]
      rfl
    · rfl

/-- A question writes at most what was logged. -/
theorem status (hs : SameHealth h k) (now now' : ℚ) (symbol : String) :
    SameHealth (h.status now symbol).2 (k.status now' symbol).2 :=
  ((status_left h now symbol).symm.trans hs).trans (status_left k now' symbol)

/-- The records agree but for what was logged. -/
theorem getD (hs : SameHealth h k) (symbol : String) :
    (k.symbols.getD symbol {}).unlogged = (h.symbols.getD symbol {}).unlogged := by
  have hsame := hs.symbols symbol
  unfold Dict.getD
  cases hk : k.symbols.get? symbol <;> cases hh : h.symbols.get? symbol <;>
    simp_all

/-- An observation is written alike. -/
theorem observe (hs : SameHealth h k) (now : ℚ) (symbol : String) (snapshot : Option MarketSnapshot) :
    SameHealth (h.observe now symbol snapshot) (k.observe now symbol snapshot) := by
  have hrecord := hs.getD symbol
  simp only [SymbolHealth.unlogged, SymbolHealth.mk.injEq, and_true] at hrecord
  obtain ⟨hmono, hfailures, hmarket, hreceived⟩ := hrecord
  unfold FeedHealthTracker.observe
  cases snapshot with
  | none => exact (hs.set symbol (by simp [SymbolHealth.unlogged, hmono, hfailures, hmarket, hreceived])).status _ _ _
  | some snapshot => exact (hs.set symbol (by simp [SymbolHealth.unlogged])).status _ _ _

theorem keepAlive (hs : SameHealth h k) (now : ℚ) (symbol : String) :
    SameHealth (h.keepAlive now symbol) (k.keepAlive now symbol) := by
  have hsame := hs.symbols symbol
  unfold FeedHealthTracker.keepAlive
  cases hk : k.symbols.get? symbol with
  | none =>
    cases hh : h.symbols.get? symbol with
    | none => exact hs
    | some record => simp [hk, hh] at hsame
  | some record' =>
    cases hh : h.symbols.get? symbol with
    | none => simp [hk, hh] at hsame
    | some record =>
      simp only [hk, hh, Option.map_some, Option.some.injEq, SymbolHealth.unlogged, SymbolHealth.mk.injEq,
        and_true] at hsame
      obtain ⟨hmono, hfailures, hmarket, hreceived⟩ := hsame
      dsimp only
      rw [hmono, hfailures]
      split
      · exact hs
      · exact hs.set symbol (by simp [SymbolHealth.unlogged, hmarket, hreceived])

end SameHealth

/-! ## The engine -/

/-- Two engines with the same market core. -/
structure SameCore (e f : MarketEngine) : Prop where
  watchlist : f.watchlist = e.watchlist
  scheduler : f.scheduler = e.scheduler
  buffers : f.buffers = e.buffers
  states : f.states = e.states
  health : SameHealth e.health f.health
  featureEngine : f.featureEngine = e.featureEngine
  pipeline : SamePipeline e.pipeline f.pipeline
  warming : f.warming = e.warming
  fetched : f.fetchedSymbols = e.fetchedSymbols
  diagnostics : f.diagnostics = e.diagnostics

/-- Two rows that are the same but for the alert candidates. -/
structure SameRow (r r' : SymbolTickResult) : Prop where
  symbol : r'.symbol = r.symbol
  features : r'.features = r.features
  acceptedEvents : r'.acceptedEvents = r.acceptedEvents
  signalUpdates : r'.signalUpdates = r.signalUpdates
  traces : r'.traces = r.traces
  levelBefore : r'.levelBefore = r.levelBefore
  levelAfter : r'.levelAfter = r.levelAfter

/-- The same rows but for the alert candidates. -/
def SameTick (t t' : EngineTickResult) : Prop := List.Forall₂ SameRow t.symbolResults t'.symbolResults

/-- Two `process` calls that raise for a reason outside the model raise alike. -/
def SameLeft : {p full q full' : SignalPipeline} → Option (p.Partial full) → Option (q.Partial full') → Prop
  | _, _, _, _, none, none => True
  | _, _, _, _, some left, some left' => SamePipeline left.1 left'.1
  | _, _, _, _, _, _ => False

/-- What two ticks read and draw, but for the times at which the sidecar and the cooldown ask. -/
structure SameEnv (env env' : TickEnv) : Prop where
  mono : ∀ read symbol, read ≠ .feedStatus → env'.mono read symbol = env.mono read symbol
  detectedAt : ∀ symbol, (env'.pipeline symbol).detectedAt = (env.pipeline symbol).detectedAt
  eventId : ∀ symbol, (env'.pipeline symbol).eventId = (env.pipeline symbol).eventId
  draws : ∀ symbol, (env'.pipeline symbol).draws = (env.pipeline symbol).draws
  featuresRaise : env'.featuresRaise = env.featuresRaise
  pipelineRaise : ∀ symbol {p full q full' : SignalPipeline}, SamePipeline p q → SamePipeline full full' →
    SameLeft (env.pipelineRaise symbol p full) (env'.pipelineRaise symbol q full')

/-! ### The pipeline -/

section Pipeline

variable {p q : SignalPipeline} {env env' : PipelineEnv}

theorem SamePipeline.refl : SamePipeline p p := ⟨rfl, rfl⟩

theorem SamePipeline.symm (h : SamePipeline p q) : SamePipeline q p := ⟨h.deduper.symm, h.composer.symm⟩

theorem SamePipeline.trans {r : SignalPipeline} (h : SamePipeline p q) (h' : SamePipeline q r) : SamePipeline p r :=
  ⟨h'.deduper.trans h.deduper, h'.composer.trans h.composer⟩

/-- A record changes the runtime only. -/
theorem SamePipeline.emit (p : SignalPipeline) (fields : String → String → ℚ → TelemetryEvent) :
    SamePipeline p (p.emit fields) :=
  ⟨rfl, rfl⟩

/-- So do the records of a cluster. -/
theorem SamePipeline.observeCluster (p : SignalPipeline) (signal : Signal) :
    SamePipeline p (p.observeCluster signal) := by
  unfold SignalPipeline.observeCluster
  split
  · exact .refl
  · dsimp only
    exact List.foldlRecOn (motive := fun q => SamePipeline p q) _ _ ⟨rfl, rfl⟩ fun q hq eventId _ =>
      hq.trans (SamePipeline.emit q _)

/-- So do those of the episodes. -/
theorem SamePipeline.observeEpisodes (p : SignalPipeline) (prior : List (String × SignalPriority))
    (produced : List (Signal × SignalTrace)) : SamePipeline p (p.observeEpisodes prior produced) := by
  unfold SignalPipeline.observeEpisodes
  refine List.foldlRecOn (motive := fun r : SignalPipeline × List String => SamePipeline p r.1) _ _ .refl
    fun r hr signal _ => ?_
  unfold SignalPipeline.observeEpisode
  dsimp only
  split
  · exact hr
  · refine hr.trans (SamePipeline.trans ?_ (SamePipeline.observeCluster _ _))
    split
    · exact SamePipeline.emit _ _
    · split
      · exact SamePipeline.emit _ _
      · exact .refl

/-- The alert loop changes the runtime and the cooldown. -/
theorem SamePipeline.alertSteps (env : PipelineEnv) (s : SignalPipeline.AlertState)
    (produced : List (Signal × SignalTrace)) :
    SamePipeline s.pipeline (produced.foldl (SignalPipeline.alertStep env) s).pipeline := by
  refine List.foldlRecOn (motive := fun s' : SignalPipeline.AlertState => SamePipeline s.pipeline s'.pipeline) _ _
    .refl fun s' hs' signal _ => hs'.trans ?_
  unfold SignalPipeline.alertStep
  dsimp only
  split
  · exact SamePipeline.emit _ _
  · split <;> exact ⟨rfl, rfl⟩

/-- An event is accepted or deduped alike. -/
theorem SamePipeline.acceptEvent (h : SamePipeline p q) (kept : List MarketEvent) (event : MarketEvent) :
    SamePipeline (SignalPipeline.acceptEvent (p, kept) event).1 (SignalPipeline.acceptEvent (q, kept) event).1 ∧
      (SignalPipeline.acceptEvent (q, kept) event).2 = (SignalPipeline.acceptEvent (p, kept) event).2 := by
  unfold SignalPipeline.acceptEvent
  simp only [SignalPipeline.emit, h.deduper]
  by_cases hk : (p.deduper.accept event).1 = true
  · simp only [hk, if_true]
    exact ⟨⟨rfl, h.composer⟩, trivial⟩
  · simp only [hk, if_false, Bool.false_eq_true]
    exact ⟨⟨rfl, h.composer⟩, trivial⟩

/-- So are all events of a call. -/
theorem SamePipeline.acceptEvents (events : List MarketEvent) : ∀ r r' : SignalPipeline × List MarketEvent,
    SamePipeline r.1 r'.1 → r'.2 = r.2 →
      SamePipeline (events.foldl SignalPipeline.acceptEvent r).1 (events.foldl SignalPipeline.acceptEvent r').1 ∧
        (events.foldl SignalPipeline.acceptEvent r').2 = (events.foldl SignalPipeline.acceptEvent r).2 := by
  induction events with
  | nil => exact fun _ _ h hkept => ⟨h, hkept⟩
  | cons event events ih =>
    rintro ⟨p, kept⟩ ⟨q, kept'⟩ h hkept
    obtain rfl : kept' = kept := hkept
    obtain ⟨hone, hsame⟩ := SamePipeline.acceptEvent h kept' event
    exact ih _ _ hone hsame

/-- The compose stage reads the deduper and the composer only. -/
theorem SamePipeline.composeStage (h : SamePipeline p q) (hdetected : env'.detectedAt = env.detectedAt)
    (hevent : env'.eventId = env.eventId) (hdraws : env'.draws = env.draws) (previous : Option MarketFeatures)
    (current : MarketFeatures) :
    (q.composeStage env' previous current).1 = (p.composeStage env previous current).1 ∧
      (q.composeStage env' previous current).2.1 = (p.composeStage env previous current).2.1 ∧
      SamePipeline (p.composeStage env previous current).2.2 (q.composeStage env' previous current).2.2 := by
  obtain ⟨hpipeline, hkept⟩ :=
    SamePipeline.acceptEvents (evaluate env.eventId env.detectedAt previous current) (p, []) (q, []) h rfl
  unfold SignalPipeline.composeStage
  rw [hdetected, hevent, hdraws]
  dsimp only
  rw [hkept, hpipeline.composer]
  split
  · exact ⟨rfl, rfl, ⟨hpipeline.deduper, rfl⟩⟩
  · exact ⟨rfl, rfl, ⟨hpipeline.deduper, rfl⟩⟩

/-- Two results that are the same but for the alert candidates. -/
structure SameButAlerts (r r' : SignalPipelineResult) : Prop where
  acceptedEvents : r'.acceptedEvents = r.acceptedEvents
  signalUpdates : r'.signalUpdates = r.signalUpdates
  traces : r'.traces = r.traces

/-- **A `process` call** gives the same but for the alert candidates, and leaves the same. -/
theorem SamePipeline.process (h : SamePipeline p q) (hdetected : env'.detectedAt = env.detectedAt)
    (hevent : env'.eventId = env.eventId) (hdraws : env'.draws = env.draws) (previous : Option MarketFeatures)
    (current : MarketFeatures) :
    Option.Rel (fun r r' : SignalPipeline.ProcessResult => SameButAlerts r.result r'.result)
        (p.process env previous current).1 (q.process env' previous current).1 ∧
      SamePipeline (p.process env previous current).2 (q.process env' previous current).2 := by
  obtain ⟨hevents, hproduced, hstage⟩ := SamePipeline.composeStage h hdetected hevent hdraws previous current
  unfold SignalPipeline.process
  dsimp only
  set p₁ := (p.composeStage env previous current).2.2
  set q₁ := (q.composeStage env' previous current).2.2
  rw [hevents, hproduced]
  set produced := (p.composeStage env previous current).2.1
  have hobserved : SamePipeline (p₁.observeEpisodes (p.priorPriority current.symbol) produced)
      (q₁.observeEpisodes (q.priorPriority current.symbol) produced) :=
    ((SamePipeline.observeEpisodes p₁ _ produced).symm.trans hstage).trans (SamePipeline.observeEpisodes q₁ _ produced)
  set p₂ := p₁.observeEpisodes (p.priorPriority current.symbol) produced
  set q₂ := q₁.observeEpisodes (q.priorPriority current.symbol) produced
  rw [hobserved.composer]
  cases (p₂.composer.activeSignals current.symbol).mapM fun item => p₂.composer.traceFor item.id with
  | none => exact ⟨.none, hobserved⟩
  | some traces =>
    refine ⟨.some ⟨rfl, rfl, rfl⟩, ?_⟩
    exact ((SamePipeline.alertSteps env ⟨p₂, [], [], []⟩ produced).symm.trans hobserved).trans
      (SamePipeline.alertSteps env' ⟨q₂, [], [], []⟩ produced)

end Pipeline

/-! ### Booking -/

namespace SameCore

variable {e f g : MarketEngine} {env env' : TickEnv} {symbol : String}

theorem refl : SameCore e e := ⟨rfl, rfl, rfl, rfl, .refl, rfl, .refl, rfl, rfl, rfl⟩

theorem trans (h : SameCore e f) (h' : SameCore f g) : SameCore e g :=
  ⟨h'.watchlist.trans h.watchlist, h'.scheduler.trans h.scheduler, h'.buffers.trans h.buffers,
    h'.states.trans h.states, h.health.trans h'.health, h'.featureEngine.trans h.featureEngine,
    h.pipeline.trans h'.pipeline, h'.warming.trans h.warming, h'.fetched.trans h.fetched,
    h'.diagnostics.trans h.diagnostics⟩

theorem symm (h : SameCore e f) : SameCore f e :=
  ⟨h.watchlist.symm, h.scheduler.symm, h.buffers.symm, h.states.symm, h.health.symm, h.featureEngine.symm,
    h.pipeline.symm, h.warming.symm, h.fetched.symm, h.diagnostics.symm⟩

/-- A change of the diagnostics alone. -/
theorem setDiagnostics (h : SameCore e f) (d : EngineDiagnostics) :
    SameCore (e.setDiagnostics d) (f.setDiagnostics d) :=
  { h with diagnostics := rfl }

/-- An error is booked alike. -/
theorem observeError (h : SameCore e f) (henv : SameEnv env env') (symbol : String) :
    SameCore (e.observeError env symbol) (f.observeError env' symbol) :=
  { h with
    health := by
      unfold MarketEngine.observeError
      rw [henv.mono .observe symbol (by decide)]
      exact h.health.observe _ symbol none }

theorem markFetched (h : SameCore e f) (henv : SameEnv env env') (symbol : String) :
    SameCore (e.markFetched env symbol) (f.markFetched env' symbol) :=
  { h with
    scheduler := by
      unfold MarketEngine.markFetched
      rw [henv.mono .markFetched symbol (by decide), h.scheduler] }

theorem keepAlive (h : SameCore e f) (henv : SameEnv env env') (symbol : String) :
    SameCore (e.keepAlive env symbol) (f.keepAlive env' symbol) :=
  { h with
    health := by
      unfold MarketEngine.keepAlive
      rw [henv.mono .keepAlive symbol (by decide)]
      exact h.health.keepAlive _ symbol }

/-- A quote is kept alike. -/
theorem keepQuote (h : SameCore e f) (henv : SameEnv env env') (symbol : String) (snapshot : MarketSnapshot) :
    SameCore (e.keepQuote env symbol snapshot) (f.keepQuote env' symbol snapshot) :=
  { h with
    buffers := by
      unfold MarketEngine.keepQuote
      rw [h.buffers]
    states := by
      unfold MarketEngine.keepQuote
      rw [h.states]
    health := by
      unfold MarketEngine.keepQuote
      rw [henv.mono .observe symbol (by decide)]
      exact h.health.observe _ symbol (some snapshot)
    fetched := by
      unfold MarketEngine.keepQuote
      rw [h.fetched] }

/-- It is ingested alike. -/
theorem ingestSnapshot (h : SameCore e f) (henv : SameEnv env env') (symbol : String) (snapshot : MarketSnapshot) :
    SameCore (e.ingestSnapshot env symbol snapshot) (f.ingestSnapshot env' symbol snapshot) := by
  have hduplicate : SameCore (e.countDuplicate (e.buffers.latest symbol) snapshot)
      (f.countDuplicate (e.buffers.latest symbol) snapshot) := by
    unfold MarketEngine.countDuplicate
    split
    · exact { h with diagnostics := by rw [h.diagnostics] }
    · exact h
  have hkept := hduplicate.keepQuote henv symbol snapshot
  unfold MarketEngine.ingestSnapshot
  dsimp only
  rw [h.buffers, henv.mono .peekBefore symbol (by decide), henv.mono .peekAfter symbol (by decide),
    h.health.peekStatus]
  split
  · have hcount : SameCore e.countOutOfOrder f.countOutOfOrder :=
      { h with diagnostics := by unfold MarketEngine.countOutOfOrder; rw [h.diagnostics] }
    exact hcount.observeError henv symbol
  · rw [hkept.health.peekStatus]
    unfold MarketEngine.countRecovery
    split
    · exact { hkept with diagnostics := by rw [hkept.diagnostics] }
    · exact hkept

/-- So a symbol is booked alike. -/
theorem bookSymbol (h : SameCore e f) (henv : SameEnv env env') (snapshots : List MarketSnapshot)
    (symbol : String) :
    SameCore (MarketEngine.bookSymbol env snapshots e symbol) (MarketEngine.bookSymbol env' snapshots f symbol) := by
  unfold MarketEngine.bookSymbol
  cases MarketEngine.quoteOf snapshots symbol with
  | none => exact (h.observeError henv symbol).markFetched henv symbol
  | some snapshot => exact (h.ingestSnapshot henv symbol snapshot).markFetched henv symbol

/-- A loop over symbols, each turn of which keeps the core. -/
theorem foldl {t t' : MarketEngine → String → MarketEngine}
    (hturn : ∀ e f symbol, SameCore e f → SameCore (t e symbol) (t' f symbol)) (symbols : List String) :
    ∀ {e f : MarketEngine}, SameCore e f → SameCore (symbols.foldl t e) (symbols.foldl t' f) := by
  induction symbols with
  | nil => exact fun h => h
  | cons symbol symbols ih => exact fun h => ih (hturn _ _ symbol h)

/-- And a fetch. -/
theorem bookFetch (h : SameCore e f) (henv : SameEnv env env') (due : List String) (outcome : FetchOutcome) :
    SameCore (e.bookFetch env due outcome) (f.bookFetch env' due outcome) := by
  have herror : ∀ error, SameCore (e.setFetchError error) (f.setFetchError error) := fun error =>
    { h with diagnostics := by unfold MarketEngine.setFetchError; rw [h.diagnostics] }
  cases outcome with
  | raised typeName =>
    exact foldl (fun _ _ symbol hs => (hs.observeError henv symbol).markFetched henv symbol) due (herror _)
  | quotes snapshots => exact foldl (fun _ _ symbol hs => hs.bookSymbol henv snapshots symbol) due (herror _)

/-- And a tick without one. -/
theorem bookExhausted (h : SameCore e f) (henv : SameEnv env env') (due : List String) :
    SameCore (e.bookExhausted env due) (f.bookExhausted env' due) :=
  foldl (fun _ _ symbol hs => (hs.keepAlive henv symbol).markFetched henv symbol) due h

/-! ### Processing -/

/-- The reading of a row is the same. -/
theorem reading (h : SameCore e f) (symbol : String) (level : SchedulerLevel) (status age : ℚ) :
    f.reading symbol level status age = e.reading symbol level status age := by
  unfold MarketEngine.reading
  rw [h.health.peekStatus, h.health.feedLatency, h.health.lastUpdateAge]

/-- A question about the status keeps the core. -/
theorem touchStatus (h : SameCore e f) (now now' : ℚ) (symbol : String) :
    SameCore (e.touchStatus now symbol) (f.touchStatus now' symbol) :=
  { h with health := h.health.status now now' symbol }

/-- A row is written alike into the states. -/
theorem applyRuntime (h : SameCore e f) (symbol : String) (r : RuntimeReading)
    (produced : Option (Option MarketFeatures × List Signal)) :
    SameCore (e.applyRuntime symbol r produced) (f.applyRuntime symbol r produced) :=
  { h with
    states := by
      unfold MarketEngine.applyRuntime
      rw [h.states] }

/-- And its health. -/
theorem projectHealth (h : SameCore e f) (henv : SameEnv env env') (symbol : String) :
    SameCore (MarketEngine.projectHealth env e symbol) (MarketEngine.projectHealth env' f symbol) := by
  unfold MarketEngine.projectHealth
  dsimp only
  rw [henv.mono .projectStatus symbol (by decide), henv.mono .projectAge symbol (by decide), h.scheduler, h.reading]
  exact (h.touchStatus _ _ symbol).applyRuntime symbol _ none

theorem setPipeline (h : SameCore e f) {p q : SignalPipeline} (hp : SamePipeline p q) :
    SameCore (e.setPipeline p) (f.setPipeline q) :=
  { h with pipeline := hp }

/-- Two rows with their engines. -/
def Both (r r' : SymbolTickResult × MarketEngine) : Prop := SameRow r.1 r'.1 ∧ SameCore r.2 r'.2

/-- The rows of two results that differ in their alerts do so too. -/
theorem tickResult (h : SameCore e f) (symbol : String) (level : SchedulerLevel) (features : Option MarketFeatures)
    {r r' : SignalPipelineResult} (hr : SameButAlerts r r') :
    SameRow (e.tickResult symbol level features r) (f.tickResult symbol level features r') :=
  ⟨rfl, rfl, hr.acceptedEvents, hr.signalUpdates, hr.traces, rfl, by
    unfold MarketEngine.tickResult
    rw [h.scheduler]⟩

/-- A symbol without a quote, or without features. -/
theorem processNothing (h : SameCore e f) (henv : SameEnv env env') (symbol : String) (level : SchedulerLevel)
    (withFeatures : Bool) :
    Both (e.processNothing env symbol level withFeatures) (f.processNothing env' symbol level withFeatures) := by
  have hproject := h.projectHealth henv symbol
  refine ⟨?_, hproject⟩
  unfold MarketEngine.processNothing
  dsimp only
  rw [hproject.states]
  exact hproject.tickResult symbol level _ ⟨rfl, rfl, rfl⟩

/-- A symbol whose pipeline has a result. -/
theorem processResult (h : SameCore e f) (henv : SameEnv env env') (symbol : String) (level : SchedulerLevel)
    (features : Option MarketFeatures) {r r' : SignalPipelineResult} (hr : SameButAlerts r r') :
    Both (e.processResult env symbol level features r) (f.processResult env' symbol level features r') := by
  unfold MarketEngine.processResult
  dsimp only
  rw [h.warming, h.scheduler, hr.acceptedEvents, hr.signalUpdates, henv.mono .setLevel symbol (by decide),
    henv.mono .status symbol (by decide), henv.mono .updateAge symbol (by decide)]
  set s := (e.scheduler.setLevel (env.mono .setLevel symbol) symbol
    (e.warming.request symbol features r.acceptedEvents).level).2
  have hs : SameCore (e.setScheduler s) (f.setScheduler s) := { h with scheduler := rfl }
  rw [hs.scheduler, hs.reading]
  have hleft := (hs.touchStatus (env.mono .status symbol) (env.mono .status symbol) symbol).applyRuntime symbol
    ((e.setScheduler s).reading symbol ((e.setScheduler s).scheduler.getLevel symbol) (env.mono .status symbol)
      (env.mono .updateAge symbol)) (some (features, r.signalUpdates))
  exact ⟨hleft.tickResult symbol level features hr, hleft⟩

/-- The pipeline stage, with the exceptions outside the model. -/
theorem runPipeline (h : SameCore e f) (henv : SameEnv env env') (symbol : String) (features : MarketFeatures) :
    Option.Rel (fun r r' : SignalPipeline.ProcessResult => SameButAlerts r.result r'.result)
        (e.runPipeline env symbol features).1 (f.runPipeline env' symbol features).1 ∧
      SamePipeline (e.runPipeline env symbol features).2 (f.runPipeline env' symbol features).2 := by
  obtain ⟨hresult, hleft⟩ := SamePipeline.process h.pipeline (henv.detectedAt symbol) (henv.eventId symbol)
    (henv.draws symbol) ((e.states.get symbol).bind (·.features)) features
  unfold MarketEngine.runPipeline SignalPipeline.attempt
  rw [h.states]
  dsimp only
  have hraise := henv.pipelineRaise symbol h.pipeline hleft
  revert hraise
  cases env.pipelineRaise symbol e.pipeline _ with
  | none =>
    cases env'.pipelineRaise symbol f.pipeline _ with
    | none => exact fun _ => ⟨hresult, hleft⟩
    | some left' => exact fun hraise => hraise.elim
  | some left =>
    cases env'.pipelineRaise symbol f.pipeline _ with
    | none => exact fun hraise => hraise.elim
    | some left' => exact fun hraise => ⟨.none, hraise⟩

/-- A symbol with a buffer. -/
theorem processBuffer (h : SameCore e f) (henv : SameEnv env env') (symbol : String) (level : SchedulerLevel)
    (buffer : RingBuffer) :
    Both (e.processBuffer env symbol level buffer) (f.processBuffer env' symbol level buffer) := by
  have hfeatures : f.runFeatures env' symbol buffer = e.runFeatures env symbol buffer := by
    unfold MarketEngine.runFeatures
    rw [henv.featuresRaise, h.featureEngine]
  unfold MarketEngine.processBuffer
  rw [hfeatures]
  split
  · exact h.processNothing henv symbol level true
  · exact h.processResult henv symbol level none ⟨rfl, rfl, rfl⟩
  · next features _ =>
    obtain ⟨hresult, hleft⟩ := h.runPipeline henv symbol features
    revert hresult hleft
    generalize e.runPipeline env symbol features = x
    generalize f.runPipeline env' symbol features = y
    obtain ⟨r, p⟩ := x
    obtain ⟨r', q⟩ := y
    intro hresult hleft
    cases hresult with
    | none => exact (h.setPipeline hleft).processNothing henv symbol level true
    | some hr => exact (h.setPipeline hleft).processResult henv symbol level (some features) hr

/-- **A symbol is processed alike.** -/
theorem processSymbol (h : SameCore e f) (henv : SameEnv env env') (symbol : String) :
    Both (e.processSymbol env symbol) (f.processSymbol env' symbol) := by
  unfold MarketEngine.processSymbol
  dsimp only
  rw [h.scheduler, h.fetched, h.buffers]
  split
  · exact h.processNothing henv symbol _ true
  · split
    · exact h.processNothing henv symbol _ false
    · exact h.processBuffer henv symbol _ _

/-! ### A tick -/

/-- The sidecar observes a tick and leaves the core. -/
theorem observeTick_left (e : MarketEngine) (env : TickEnv) (tick : EngineTickResult) :
    SameCore e (e.observeTick env tick) := by
  unfold MarketEngine.observeTick
  split
  · exact refl
  · next c _ =>
    have hset : ∀ c, SameCore e (e.setIntelligence c) := fun c =>
      ⟨rfl, rfl, rfl, rfl, .refl, rfl, .refl, rfl, rfl, rfl⟩
    refine List.foldlRecOn (motive := fun f => SameCore e f) _ _ (hset _) fun f hf row _ => hf.trans ?_
    exact { refl with health := .status_left f.health _ _ }

/-- So are all symbols of a tick. -/
theorem finishTick (h : SameCore e f) (henv : SameEnv env env') (plan : TickPlan) :
    SameTick (e.finishTick env plan).1 (f.finishTick env' plan).1 ∧
      SameCore (e.finishTick env plan).2 (f.finishTick env' plan).2 := by
  have hloop : ∀ (due : List String) (r r' : List SymbolTickResult × MarketEngine),
      List.Forall₂ SameRow r.1 r'.1 → SameCore r.2 r'.2 →
        List.Forall₂ SameRow (due.foldl (MarketEngine.processNext env) r).1
            (due.foldl (MarketEngine.processNext env') r').1 ∧
          SameCore (due.foldl (MarketEngine.processNext env) r).2 (due.foldl (MarketEngine.processNext env') r').2 := by
    intro due
    induction due with
    | nil => exact fun _ _ hrows hcore => ⟨hrows, hcore⟩
    | cons symbol due ih =>
      intro r r' hrows hcore
      obtain ⟨hrow, hleft⟩ := hcore.processSymbol henv symbol
      refine ih _ _ ?_ hleft
      exact List.rel_append hrows (.cons hrow .nil)
  obtain ⟨hrows, hcore⟩ := hloop plan.due ([], e) ([], f) .nil h
  have hothers := foldl (fun e f symbol hs => hs.projectHealth henv symbol)
    (plan.enabled.filter fun symbol => decide (symbol ∉ plan.due)) hcore
  exact ⟨hrows, ((observeTick_left _ env _).symm.trans hothers).trans (observeTick_left _ env' _)⟩

/-- **A tick** keeps the core. -/
theorem endTick (h : SameCore e f) (henv : SameEnv env env') (plan : TickPlan) (outcome : FetchOutcome) :
    SameTick (e.endTick env plan outcome).1 (f.endTick env' plan outcome).1 ∧
      SameCore (e.endTick env plan outcome).2 (f.endTick env' plan outcome).2 :=
  (h.bookFetch henv plan.due outcome).finishTick henv plan

theorem endIdleTick (h : SameCore e f) (henv : SameEnv env env') (plan : TickPlan) :
    SameTick (e.endIdleTick env plan).1 (f.endIdleTick env' plan).1 ∧
      SameCore (e.endIdleTick env plan).2 (f.endIdleTick env' plan).2 :=
  (h.bookExhausted henv plan.due).finishTick henv plan

/-- A tick begins alike. -/
theorem beginTick (h : SameCore e f) (due : ℚ) :
    (f.beginTick due).1 = (e.beginTick due).1 ∧ SameCore (e.beginTick due).2 (f.beginTick due).2 := by
  refine ⟨?_, { h with fetched := rfl }⟩
  unfold MarketEngine.beginTick
  rw [h.watchlist, h.scheduler]

/-- The watchlist is replaced alike. -/
theorem replaceWatchlist (h : SameCore e f) (items : List WatchItem) :
    SameCore (e.replaceWatchlist items) (f.replaceWatchlist items) := by
  unfold MarketEngine.replaceWatchlist
  rw [h.watchlist]
  split
  · exact h
  · exact { h with watchlist := rfl }

/-- The step of a worker is not the core's. -/
theorem work_left {w : WorkerStep} (hw : e.work w = some f) : SameCore e f := by
  obtain ⟨c, c', -, -, rfl⟩ := EngineSession.work_cases hw
  exact ⟨rfl, rfl, rfl, rfl, .refl, rfl, .refl, rfl, rfl, rfl⟩

end SameCore

/-! ## Runs -/

namespace EngineSession

/-- A step without the workers of the sidecar; a tick may read other times for the sidecar and the cooldown. -/
def coreStep (times : TickEnv → TickEnv) : EngineStep → Option EngineStep
  | .begin due => some (.begin due)
  | .finish env outcome => some (.finish (times env) outcome)
  | .idle due env => some (.idle due (times env))
  | .replace items => some (.replace items)
  | .worker _ => none

/-- Two sessions with the same core and the same tick under way. -/
structure SameSession (s t : EngineSession) : Prop where
  engine : SameCore s.engine t.engine
  inFlight : t.inFlight = s.inFlight

/-- **One step** of a session is a step of the other, or the step of a worker. -/
theorem same_step {times : TickEnv → TickEnv} {s s' t : EngineSession} {l : EngineStep} (h : SameSession s t)
    (henv : ∀ env ∈ envOf l, SameEnv env (times env)) (hs : s.step l = some s') :
    (coreStep times l = none ∧ SameSession s' t ∧ s.tickOf l = none) ∨
      ∃ l' t', coreStep times l = some l' ∧ t.step l' = some t' ∧ SameSession s' t' ∧
        Option.Rel SameTick (s.tickOf l) (t.tickOf l') := by
  cases l with
  | begin due =>
    obtain ⟨hplan, hcore⟩ := h.engine.beginTick due
    simp only [step] at hs
    split at hs
    · next hbegin =>
      obtain rfl := Option.some.inj hs
      refine .inr ⟨.begin due,
        { t with engine := (t.engine.beginTick due).2, inFlight := some (t.engine.beginTick due).1 }, rfl, ?_,
        ⟨hcore, by rw [hplan]⟩, .none⟩
      simp only [step]
      rw [hplan, h.inFlight, if_pos hbegin]
    · cases hs
  | finish env outcome =>
    have hsame := henv env rfl
    simp only [step] at hs
    cases hflight : s.inFlight with
    | none =>
      rw [hflight] at hs
      cases hs
    | some plan =>
      rw [hflight] at hs
      obtain rfl := Option.some.inj hs
      obtain ⟨htick, hcore⟩ := h.engine.endTick hsame plan outcome
      have hflight' : t.inFlight = some plan := h.inFlight.trans hflight
      refine .inr ⟨.finish (times env) outcome,
        ⟨(t.engine.endTick (times env) plan outcome).2, none,
          t.drawn ++ MarketEngine.drawIds (times env) plan.due⟩, rfl, ?_, ⟨hcore, rfl⟩, ?_⟩
      · simp only [step, hflight']
      · simp only [tickOf, hflight, hflight', Option.map_some]
        exact .some htick
  | idle due env =>
    have hsame := henv env rfl
    obtain ⟨hplan, hbegin⟩ := h.engine.beginTick due
    simp only [step] at hs
    split at hs
    · next hidle =>
      obtain rfl := Option.some.inj hs
      obtain ⟨htick, hcore⟩ := hbegin.endIdleTick hsame (s.engine.beginTick due).1
      have hidle' : t.inFlight = none := h.inFlight.trans hidle
      refine .inr ⟨.idle due (times env),
        ⟨((t.engine.beginTick due).2.endIdleTick (times env) (s.engine.beginTick due).1).2, none,
          t.drawn ++ MarketEngine.drawIds (times env) (s.engine.beginTick due).1.due⟩, rfl, ?_, ⟨hcore, rfl⟩, ?_⟩
      · simp only [step, hidle', hplan, if_true]
      · simp only [tickOf, hplan]
        exact .some htick
    · cases hs
  | replace items =>
    simp only [step] at hs
    split at hs
    · next hidle =>
      obtain rfl := Option.some.inj hs
      have hidle' : t.inFlight = none := h.inFlight.trans hidle
      refine .inr ⟨.replace items, { t with engine := t.engine.replaceWatchlist items }, rfl,
        by simp only [step, hidle', if_true], ⟨h.engine.replaceWatchlist items, h.inFlight⟩, .none⟩
    · cases hs
  | worker w =>
    obtain ⟨engine, hwork, rfl⟩ := Option.map_eq_some_iff.1 hs
    exact .inl ⟨rfl, ⟨(SameCore.work_left hwork).symm.trans h.engine, h.inFlight⟩, rfl⟩

/-- **The market core runs alone.** Take any run of a session: ticks with any quotes, replacements of the watchlist,
and the workers of the sidecar coming at any time with any answers of the model. Any session with the same core
(without a sidecar or with another one, with another cooldown or telemetry) can take the same steps without the
workers; its ticks give the same features, events, signals, traces and levels, and it ends with the same core. -/
theorem core_runs_alone {times : TickEnv → TickEnv} : ∀ {steps : List EngineStep} {s s' t : EngineSession},
    SameSession s t → (∀ l ∈ steps, ∀ env ∈ envOf l, SameEnv env (times env)) → run step s steps = some s' →
      ∃ t', run step t (steps.filterMap (coreStep times)) = some t' ∧ SameSession s' t' ∧
        List.Forall₂ SameTick (s.ticks steps) (t.ticks (steps.filterMap (coreStep times))) := by
  intro steps
  induction steps with
  | nil =>
    intro s s' t h _ hrun
    obtain rfl := Option.some.inj hrun
    exact ⟨t, rfl, h, .nil⟩
  | cons l steps ih =>
    intro s s' t h henv hrun
    rw [List.forall_mem_cons] at henv
    obtain ⟨s₁, hs, hrest⟩ := run_cons.1 hrun
    have hticks : s.ticks (l :: steps) = (s.tickOf l).toList ++ s₁.ticks steps := by rw [ticks, hs]
    rw [hticks]
    rcases same_step h henv.1 hs with ⟨hskip, hsame, hnone⟩ | ⟨l', t₁, hstep, ht, hsame, htick⟩
    · rw [List.filterMap_cons_none hskip, hnone]
      exact ih hsame henv.2 hrest
    · obtain ⟨t', hrun', hsame', hforall⟩ := ih hsame henv.2 hrest
      have hticks' : t.ticks (l' :: steps.filterMap (coreStep times)) =
          (t.tickOf l').toList ++ t₁.ticks (steps.filterMap (coreStep times)) := by rw [ticks, ht]
      rw [List.filterMap_cons_some hstep, hticks']
      refine ⟨t', run_cons.2 ⟨t₁, ht, hrun'⟩, hsame', List.rel_append ?_ hforall⟩
      revert htick
      generalize s.tickOf l = tick
      generalize t.tickOf l' = tick'
      rintro (htick | _)
      · exact .cons htick .nil
      · exact .nil

/-- No sidecar, and a cooldown of an hour. -/
def bareSession : EngineSession where
  engine := { pipeline := { cooldown := { cooldownS := 3600 } } }

/-- The sidecar and the cooldown read clocks that stand still. -/
def stoppedTimes (env : TickEnv) : TickEnv :=
  { env with
    mono := fun read symbol => if read = .feedStatus then 0 else env.mono read symbol
    pipeline := fun symbol => { env.pipeline symbol with monotonic := fun _ => 0 }
    now := 0 }

theorem sameEnv_stoppedTimes (pre : String) (t : ℚ) : SameEnv (tickAt pre t) (stoppedTimes (tickAt pre t)) where
  mono _ _ hread := if_neg hread
  detectedAt _ := rfl
  eventId _ := rfl
  draws _ := rfl
  featuresRaise := rfl
  pipelineRaise _ _ _ _ _ _ _ := trivial

/-- A signal that the sidecar calls a model for, and the same ticks without the sidecar. -/
theorem core_runs_alone_called : ∃ s' t', run step freshSession (removedRun.take 7) = some s' ∧
    run step bareSession ((removedRun.take 7).filterMap (coreStep stoppedTimes)) = some t' ∧ SameSession s' t' := by
  obtain ⟨s', hrun⟩ : ∃ s', run step freshSession (removedRun.take 7) = some s' :=
    Option.isSome_iff_exists.1 (by decide +kernel)
  have hsame : SameSession freshSession bareSession :=
    ⟨⟨rfl, rfl, rfl, rfl, .refl, rfl, ⟨rfl, rfl⟩, rfl, rfl, rfl⟩, rfl⟩
  have henv : ∀ l ∈ removedRun.take 7, ∀ env ∈ envOf l, SameEnv env (stoppedTimes env) := by
    intro l hl env he
    simp only [removedRun, List.take_succ_cons, List.take_zero, List.mem_cons, List.not_mem_nil, or_false] at hl
    rcases hl with rfl | rfl | rfl | rfl | rfl | rfl | rfl <;> cases he <;> exact sameEnv_stoppedTimes _ _
  obtain ⟨t', hrun', hsame', -⟩ := core_runs_alone hsame henv hrun
  exact ⟨s', t', hrun, hrun', hsame'⟩

end EngineSession

end MarketSentinel
