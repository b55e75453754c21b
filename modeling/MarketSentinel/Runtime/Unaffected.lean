import MarketSentinel.Runtime.Coherence

/-!
# A symbol that fails leaves the others alone

Two ticks are compared: one with a symbol `x` among the due ones, one without. `SameOff x` is what
the engines of the two have in common all along.

* `processSymbol_failing`: a symbol without a quote, or without features, writes only its own state.
* `tickRest_unaffected`: the two ticks leave the same of every other symbol.
-/

namespace MarketSentinel

open Lib Machine

variable {x y : String}

/-! ## The components -/

/-- Two schedulers that agree off a symbol. -/
structure SchedulerOff (x : String) (a b : AdaptiveScheduler) : Prop where
  policy : b.policy = a.policy
  levels : Dict.AgreeOff x a.levels b.levels
  lastChange : Dict.AgreeOff x a.lastChangeMono b.lastChangeMono
  lastFetch : Dict.AgreeOff x a.lastFetchMono b.lastFetchMono

namespace SchedulerOff

variable {a b : AdaptiveScheduler}

theorem refl : SchedulerOff x a a := ⟨rfl, .refl, .refl, .refl⟩

theorem trans {c : AdaptiveScheduler} (h : SchedulerOff x a b) (h' : SchedulerOff x b c) :
    SchedulerOff x a c :=
  ⟨h'.policy.trans h.policy, h.levels.trans h'.levels, h.lastChange.trans h'.lastChange,
    h.lastFetch.trans h'.lastFetch⟩

theorem symm (h : SchedulerOff x a b) : SchedulerOff x b a :=
  ⟨h.policy.symm, h.levels.symm, h.lastChange.symm, h.lastFetch.symm⟩

/-- The levels of the others. -/
theorem getLevel (h : SchedulerOff x a b) (hy : y ≠ x) : b.getLevel y = a.getLevel y :=
  h.levels.getD hy _

theorem markFetched (h : SchedulerOff x a b) (now : ℚ) (y : String) :
    SchedulerOff x (a.markFetched now y) (b.markFetched now y) :=
  ⟨h.policy, h.levels, h.lastChange, h.lastFetch.set_both y now⟩

theorem markFetched_own (a : AdaptiveScheduler) (now : ℚ) : SchedulerOff x a (a.markFetched now x) :=
  ⟨rfl, .refl, .refl, .set_right _ x now⟩

/-- A level is set for both, by the same dwell. -/
theorem setLevel (h : SchedulerOff x a b) (hy : y ≠ x) (now : ℚ) (level : SchedulerLevel) :
    SchedulerOff x (a.setLevel now y level).2 (b.setLevel now y level).2 := by
  have hdwell : b.dwellElapsed now y (a.getLevel y) level = a.dwellElapsed now y (a.getLevel y) level := by
    unfold AdaptiveScheduler.dwellElapsed AdaptiveScheduler.requiredDwell
    rw [h.lastChange y hy, h.policy]
  unfold AdaptiveScheduler.setLevel
  dsimp only
  rw [h.getLevel hy, hdwell]
  split
  · exact ⟨h.policy, h.levels.set_both y _, h.lastChange, h.lastFetch⟩
  · split
    · exact h
    · exact ⟨h.policy, h.levels.set_both y level, h.lastChange.set_both y now, h.lastFetch⟩

end SchedulerOff

/-- Two trackers that agree off a symbol. -/
structure HealthOff (x : String) (a b : FeedHealthTracker) : Prop where
  policy : b.policy = a.policy
  symbols : Dict.AgreeOff x a.symbols b.symbols

namespace HealthOff

variable {a b : FeedHealthTracker}

theorem refl : HealthOff x a a := ⟨rfl, .refl⟩

theorem trans {c : FeedHealthTracker} (h : HealthOff x a b) (h' : HealthOff x b c) :
    HealthOff x a c :=
  ⟨h'.policy.trans h.policy, h.symbols.trans h'.symbols⟩

theorem symm (h : HealthOff x a b) : HealthOff x b a := ⟨h.policy.symm, h.symbols.symm⟩

/-- The status of a record needs the policy only. -/
theorem compute (h : HealthOff x a b) (now : ℚ) (record : Option SymbolHealth) :
    b.compute now record = a.compute now record := by
  unfold FeedHealthTracker.compute
  rw [h.policy]

theorem peekStatus (h : HealthOff x a b) (hy : y ≠ x) (now : ℚ) :
    b.peekStatus now y = a.peekStatus now y := by
  unfold FeedHealthTracker.peekStatus
  rw [h.compute, h.symbols y hy]

/-- A question about another symbol is answered and noted alike. -/
theorem status (h : HealthOff x a b) (hy : y ≠ x) (now : ℚ) :
    HealthOff x (a.status now y).2 (b.status now y).2 := by
  unfold FeedHealthTracker.status
  rw [h.peekStatus hy, h.symbols y hy]
  dsimp only
  split
  · exact h
  · exact ⟨h.policy, h.symbols.set_both y _⟩

/-- A question about the symbol itself is no other's. -/
theorem status_own (a : FeedHealthTracker) (now : ℚ) : HealthOff x a (a.status now x).2 := by
  unfold FeedHealthTracker.status
  dsimp only
  split
  · exact .refl
  · exact ⟨rfl, .set_right _ x _⟩

theorem observe (h : HealthOff x a b) (hy : y ≠ x) (now : ℚ) (snapshot : Option MarketSnapshot) :
    HealthOff x (a.observe now y snapshot) (b.observe now y snapshot) := by
  have hset : ∀ record, HealthOff x { a with symbols := a.symbols.set y record }
      { b with symbols := b.symbols.set y record } := fun record =>
    ⟨h.policy, h.symbols.set_both y record⟩
  unfold FeedHealthTracker.observe
  rw [h.symbols.getD hy]
  cases snapshot with
  | none => exact (hset _).status hy now
  | some snapshot => exact (hset _).status hy now

/-- An observation of the symbol itself is no other's. -/
theorem observe_own (a : FeedHealthTracker) (now : ℚ) (snapshot : Option MarketSnapshot) :
    HealthOff x a (a.observe now x snapshot) := by
  have hset : ∀ record, HealthOff x a { a with symbols := a.symbols.set x record } := fun record =>
    ⟨rfl, .set_right _ x record⟩
  unfold FeedHealthTracker.observe
  cases snapshot with
  | none => exact (hset _).trans (status_own _ now)
  | some snapshot => exact (hset _).trans (status_own _ now)

theorem feedLatency (h : HealthOff x a b) (hy : y ≠ x) : b.feedLatency y = a.feedLatency y := by
  unfold FeedHealthTracker.feedLatency
  rw [h.symbols y hy]

theorem lastUpdateAge (h : HealthOff x a b) (hy : y ≠ x) (now : ℚ) :
    b.lastUpdateAge now y = a.lastUpdateAge now y := by
  unfold FeedHealthTracker.lastUpdateAge
  rw [h.symbols y hy]

end HealthOff

/-- Two stores of quotes that agree off a symbol. -/
structure BuffersOff (x : String) (a b : SymbolBuffers) : Prop where
  retention : b.retentionS = a.retentionS
  size : b.maxSize = a.maxSize
  buffer : ∀ y, y ≠ x → b.buffer y = a.buffer y

namespace BuffersOff

variable {a b : SymbolBuffers} {snapshot : MarketSnapshot}

theorem refl : BuffersOff x a a := ⟨rfl, rfl, fun _ _ => rfl⟩

theorem trans {c : SymbolBuffers} (h : BuffersOff x a b) (h' : BuffersOff x b c) : BuffersOff x a c :=
  ⟨h'.retention.trans h.retention, h'.size.trans h.size,
    fun y hy => (h'.buffer y hy).trans (h.buffer y hy)⟩

theorem symm (h : BuffersOff x a b) : BuffersOff x b a :=
  ⟨h.retention.symm, h.size.symm, fun y hy => (h.buffer y hy).symm⟩

/-- The latest quotes of the others. -/
theorem latest (h : BuffersOff x a b) (hy : y ≠ x) : b.latest y = a.latest y := by
  unfold SymbolBuffers.latest
  rw [h.buffer y hy]

theorem bufferFor (h : BuffersOff x a b) (hy : y ≠ x) : b.bufferFor y = a.bufferFor y := by
  unfold SymbolBuffers.bufferFor
  rw [h.buffer y hy]
  congr 1
  simp only [h.retention, h.size]

/-- A quote is kept by both. -/
theorem append (h : BuffersOff x a b) (snapshot : MarketSnapshot) :
    BuffersOff x (a.append snapshot) (b.append snapshot) := by
  refine ⟨h.retention, h.size, fun z hz => ?_⟩
  rw [SymbolBuffers.buffer_append, SymbolBuffers.buffer_append]
  by_cases hs : z = snapshot.symbol
  · rw [if_pos hs, if_pos hs, h.bufferFor hz]
  · rw [if_neg hs, if_neg hs, h.buffer z hz]

/-- A quote of the symbol itself is no other's. -/
theorem append_own (a : SymbolBuffers) (hx : snapshot.symbol = x) : BuffersOff x a (a.append snapshot) := by
  refine ⟨rfl, rfl, fun z hz => ?_⟩
  rw [SymbolBuffers.buffer_append, if_neg (hx ▸ hz)]

end BuffersOff

/-! ## The engine -/

/-- What two engines have in common, off a symbol. -/
structure SameOff (x : String) (a b : MarketEngine) : Prop where
  watchlist : b.watchlist = a.watchlist
  scheduler : SchedulerOff x a.scheduler b.scheduler
  buffers : BuffersOff x a.buffers b.buffers
  states : Dict.AgreeOff x a.states.states b.states.states
  health : HealthOff x a.health b.health
  featureEngine : b.featureEngine = a.featureEngine
  pipeline : b.pipeline = a.pipeline
  warming : b.warming = a.warming
  intelligence : b.intelligence = a.intelligence
  fetched : ∀ y, y ≠ x → (y ∈ b.fetchedSymbols ↔ y ∈ a.fetchedSymbols)

namespace SameOff

variable {a b c : MarketEngine} {env : TickEnv}

theorem refl : SameOff x a a :=
  ⟨rfl, .refl, .refl, .refl, .refl, rfl, rfl, rfl, rfl, fun _ _ => Iff.rfl⟩

theorem trans (h : SameOff x a b) (h' : SameOff x b c) : SameOff x a c :=
  ⟨h'.watchlist.trans h.watchlist, h.scheduler.trans h'.scheduler, h.buffers.trans h'.buffers,
    h.states.trans h'.states, h.health.trans h'.health, h'.featureEngine.trans h.featureEngine,
    h'.pipeline.trans h.pipeline, h'.warming.trans h.warming, h'.intelligence.trans h.intelligence,
    fun y hy => (h'.fetched y hy).trans (h.fetched y hy)⟩

theorem symm (h : SameOff x a b) : SameOff x b a :=
  ⟨h.watchlist.symm, h.scheduler.symm, h.buffers.symm, h.states.symm, h.health.symm,
    h.featureEngine.symm, h.pipeline.symm, h.warming.symm, h.intelligence.symm,
    fun y hy => (h.fetched y hy).symm⟩

/-- The states of the others. -/
theorem get (h : SameOff x a b) (hy : y ≠ x) : b.states.get y = a.states.get y := h.states y hy

/-- A change of the diagnostics alone. -/
theorem of_diagnostics (h : SameOff x a b) (d d' : EngineDiagnostics) :
    SameOff x (a.setDiagnostics d) (b.setDiagnostics d') :=
  ⟨h.watchlist, h.scheduler, h.buffers, h.states, h.health, h.featureEngine, h.pipeline, h.warming,
    h.intelligence, h.fetched⟩

/-! ### Booking -/

/-- An error is booked by both. -/
theorem observeError (h : SameOff x a b) (hy : y ≠ x) :
    SameOff x (a.observeError env y) (b.observeError env y) :=
  { h with health := h.health.observe hy _ none }

/-- An error of the symbol itself is no other's. -/
theorem observeError_own (a : MarketEngine) (env : TickEnv) : SameOff x a (a.observeError env x) :=
  { refl with health := .observe_own a.health _ none }

theorem markFetched (h : SameOff x a b) (y : String) :
    SameOff x (a.markFetched env y) (b.markFetched env y) :=
  { h with scheduler := h.scheduler.markFetched _ y }

theorem markFetched_own (a : MarketEngine) (env : TickEnv) : SameOff x a (a.markFetched env x) :=
  { refl with scheduler := .markFetched_own a.scheduler _ }

/-- A quote of another symbol changes the stores alike. -/
theorem updateLatest {a b : MarketStateStore} (h : Dict.AgreeOff x a.states b.states)
    {snapshot : MarketSnapshot} (hs : snapshot.symbol ≠ x) :
    Dict.AgreeOff x (a.updateLatest snapshot).states (b.updateLatest snapshot).states := by
  have hget : b.get snapshot.symbol = a.get snapshot.symbol := h _ hs
  unfold MarketStateStore.updateLatest
  rw [hget]
  exact h.set_both _ _

/-- A quote that is kept changes the engines alike. -/
theorem keepQuote (h : SameOff x a b) (env : TickEnv) (hy : y ≠ x) {snapshot : MarketSnapshot}
    (hs : snapshot.symbol = y) :
    SameOff x (a.keepQuote env y snapshot) (b.keepQuote env y snapshot) :=
  { h with
    buffers := h.buffers.append snapshot
    states := updateLatest h.states (hs ▸ hy)
    health := h.health.observe hy (env.mono .observe y) (some snapshot)
    fetched := fun z hz => by
      unfold MarketEngine.keepQuote
      rw [List.mem_append, List.mem_append, h.fetched z hz] }

/-- A quote of the symbol itself is no other's. -/
theorem keepQuote_own (a : MarketEngine) (env : TickEnv) {snapshot : MarketSnapshot}
    (hs : snapshot.symbol = x) : SameOff x a (a.keepQuote env x snapshot) :=
  { refl with
    buffers := .append_own a.buffers hs
    states := by
      unfold MarketEngine.keepQuote MarketStateStore.updateLatest
      rw [hs]
      exact .set_right _ x _
    health := .observe_own a.health (env.mono .observe x) (some snapshot)
    fetched := fun z hz => by
      unfold MarketEngine.keepQuote
      simp [hz] }

/-- A quote is kept, or booked as an error, by both. -/
theorem ingestSnapshot (h : SameOff x a b) (hy : y ≠ x) {snapshot : MarketSnapshot}
    (hs : snapshot.symbol = y) :
    SameOff x (a.ingestSnapshot env y snapshot) (b.ingestSnapshot env y snapshot) := by
  have hlatest := h.buffers.latest hy
  rcases a.ingestSnapshot_cases env y snapshot with ⟨hold, d, heq⟩ | ⟨hlate, d, heq⟩ <;>
    rcases b.ingestSnapshot_cases env y snapshot with ⟨hold', d', heq'⟩ | ⟨hlate', d', heq'⟩ <;>
    rw [heq, heq']
  · exact (h.of_diagnostics d d').observeError hy
  · rw [hlatest] at hlate'
    obtain ⟨last, hlast, hlt⟩ := hold
    exact absurd (hlate' last hlast) (not_le.2 hlt)
  · rw [hlatest] at hold'
    obtain ⟨last, hlast, hlt⟩ := hold'
    exact absurd (hlate last hlast) (not_le.2 hlt)
  · exact (h.keepQuote env hy hs).of_diagnostics d d'

theorem ingestSnapshot_own (a : MarketEngine) (env : TickEnv) {snapshot : MarketSnapshot}
    (hs : snapshot.symbol = x) : SameOff x a (a.ingestSnapshot env x snapshot) := by
  have hdiag : ∀ (e : MarketEngine) d, SameOff x e (e.setDiagnostics d) := fun e d =>
    (refl (a := e)).of_diagnostics e.diagnostics d
  rcases a.ingestSnapshot_cases env x snapshot with ⟨-, d, heq⟩ | ⟨-, d, heq⟩ <;> rw [heq]
  · exact (hdiag a d).trans (observeError_own _ env)
  · exact (keepQuote_own a env hs).trans (hdiag _ d)

/-- A symbol is booked alike from lists that hold the same quote of it. -/
theorem bookSymbol (h : SameOff x a b) (hy : y ≠ x) {snapshots snapshots' : List MarketSnapshot}
    (hq : MarketEngine.quoteOf snapshots' y = MarketEngine.quoteOf snapshots y) :
    SameOff x (MarketEngine.bookSymbol env snapshots a y) (MarketEngine.bookSymbol env snapshots' b y) := by
  unfold MarketEngine.bookSymbol
  rw [hq]
  cases hquote : MarketEngine.quoteOf snapshots y with
  | none => exact (h.observeError hy).markFetched y
  | some snapshot =>
    exact (h.ingestSnapshot hy (MarketEngine.quoteOf_symbol hquote)).markFetched y

/-- Booking a symbol writes only what is its own. -/
theorem bookSymbol_own (a : MarketEngine) (env : TickEnv) (snapshots : List MarketSnapshot) :
    SameOff x a (MarketEngine.bookSymbol env snapshots a x) := by
  unfold MarketEngine.bookSymbol
  cases hquote : MarketEngine.quoteOf snapshots x with
  | none => exact (observeError_own a env).trans (markFetched_own _ env)
  | some snapshot =>
    exact (ingestSnapshot_own a env (MarketEngine.quoteOf_symbol hquote)).trans (markFetched_own _ env)

/-! ### Processing -/

/-- What a row reads and produces is put into the states of both. -/
theorem applyRuntime {a b : MarketStateStore} (h : Dict.AgreeOff x a.states b.states) (hy : y ≠ x)
    (reading : RuntimeReading) (produced : Option (Option MarketFeatures × List Signal)) :
    Dict.AgreeOff x (a.applyRuntime y reading produced).states (b.applyRuntime y reading produced).states := by
  have hget : b.get y = a.get y := h y hy
  unfold MarketStateStore.applyRuntime
  rw [hget]
  exact h.set_both y _

/-- The reading of a row is of its own symbol. -/
theorem reading (h : SameOff x a b) (hy : y ≠ x) (level : SchedulerLevel) (status age : ℚ) :
    b.reading y level status age = a.reading y level status age := by
  unfold MarketEngine.reading
  rw [h.health.peekStatus hy, h.health.feedLatency hy, h.health.lastUpdateAge hy]

/-- The health of another symbol is written alike. -/
theorem projectHealth (h : SameOff x a b) (hy : y ≠ x) :
    SameOff x (MarketEngine.projectHealth env a y) (MarketEngine.projectHealth env b y) :=
  { h with
    states := by
      unfold MarketEngine.projectHealth
      rw [h.scheduler.getLevel hy, h.reading hy]
      exact applyRuntime h.states hy _ _
    health := h.health.status hy _ }

/-- The health of the symbol itself is no other's. -/
theorem projectHealth_own (env : TickEnv) (a : MarketEngine) :
    SameOff x a (MarketEngine.projectHealth env a x) :=
  { refl with
    states := .set_right _ x _
    health := .status_own a.health _ }

theorem setPipeline (h : SameOff x a b) (p : SignalPipeline) : SameOff x (a.setPipeline p) (b.setPipeline p) :=
  { h with pipeline := rfl }

/-- A result is taken over by both. -/
theorem processResult (h : SameOff x a b) (hy : y ≠ x) (level : SchedulerLevel)
    (features : Option MarketFeatures) (r : SignalPipelineResult) :
    SameOff x (a.processResult env y level features r).2 (b.processResult env y level features r).2 := by
  have hscheduler := h.scheduler.setLevel hy (env.mono .setLevel y)
    (a.warming.request y features r.acceptedEvents).level
  exact
    { h with
      scheduler := by
        unfold MarketEngine.processResult
        rw [h.warming]
        exact hscheduler
      states := by
        unfold MarketEngine.processResult
        rw [h.warming]
        have hread : ∀ (s s' : AdaptiveScheduler) level status age,
            (b.setScheduler s').reading y level status age = (a.setScheduler s).reading y level status age :=
          fun _ _ level status age => h.reading hy level status age
        dsimp only
        rw [show (b.setScheduler _).scheduler.getLevel y = _ from hscheduler.getLevel hy, hread _ _]
        exact applyRuntime h.states hy _ _
      health := h.health.status hy _ }

theorem processSymbol (h : SameOff x a b) (hy : y ≠ x) :
    SameOff x (a.processSymbol env y).2 (b.processSymbol env y).2 := by
  unfold MarketEngine.processSymbol
  dsimp only
  rw [h.scheduler.getLevel hy, h.buffers.buffer y hy]
  by_cases hf : y ∈ a.fetchedSymbols
  · rw [if_neg (not_not.2 hf), if_neg (not_not.2 ((h.fetched y hy).2 hf))]
    cases a.buffers.buffer y with
    | none => exact h.projectHealth hy
    | some buffer =>
      -- The computation of another symbol's features reads what the engines share.
      have hfeatures : b.runFeatures env y buffer = a.runFeatures env y buffer := by
        unfold MarketEngine.runFeatures
        rw [h.featureEngine]
      dsimp only
      unfold MarketEngine.processBuffer
      rw [hfeatures]
      split
      · exact h.projectHealth hy
      · exact h.processResult hy _ _ _
      · next features _ =>
        have hpipeline : b.runPipeline env y features = a.runPipeline env y features := by
          unfold MarketEngine.runPipeline
          rw [h.pipeline, h.get hy]
        rw [hpipeline]
        split
        · next p _ => exact (h.setPipeline p).projectHealth hy
        · next r p _ => exact (h.setPipeline p).processResult hy _ _ _
  · rw [if_pos hf, if_pos (mt (h.fetched y hy).1 hf)]
    exact h.projectHealth hy

end SameOff

/-! ## A tick without the symbol -/

/-- The plan of a tick in which a symbol is not due. -/
def TickPlan.without (plan : TickPlan) (x : String) : TickPlan :=
  { plan with due := plan.due.filter fun s => decide (s ≠ x) }

/-- What is the same of a symbol in two engines. -/
structure SameSymbol (y : String) (a b : MarketEngine) : Prop where
  buffer : b.buffers.buffer y = a.buffers.buffer y
  state : b.states.get y = a.states.get y
  level : b.scheduler.getLevel y = a.scheduler.getLevel y
  health : b.health.symbols.get? y = a.health.symbols.get? y

namespace MarketEngine

variable {a b : MarketEngine} {env : TickEnv} {plan : TickPlan}

/-- `compute` raises on the buffer of a symbol. -/
def FeaturesRaise (e : MarketEngine) (env : TickEnv) (symbol : String) : Prop :=
  ∃ buffer err, e.buffers.buffer symbol = some buffer ∧ e.runFeatures env symbol buffer = .error err

/-- A symbol without an ingested quote, or without features. -/
def Failing (e : MarketEngine) (env : TickEnv) (symbol : String) : Prop :=
  symbol ∉ e.fetchedSymbols ∨ e.FeaturesRaise env symbol

/-- **A failing symbol writes only what is its own.** -/
theorem processSymbol_failing (h : a.Failing env x) : SameOff x a (a.processSymbol env x).2 := by
  unfold processSymbol
  dsimp only
  by_cases hf : x ∈ a.fetchedSymbols
  · rcases h with h | ⟨buffer, err, hbuffer, herr⟩
    · exact absurd hf h
    · rw [if_neg (not_not.2 hf), hbuffer]
      dsimp only
      unfold processBuffer
      rw [herr]
      exact .projectHealth_own env a
  · rw [if_pos hf]
    exact .projectHealth_own env a

/-- No row changes the feature engine. -/
theorem processSymbol_featureEngine (e : MarketEngine) (env : TickEnv) (symbol : String) :
    (e.processSymbol env symbol).2.featureEngine = e.featureEngine := by
  unfold processSymbol
  dsimp only
  split
  · rfl
  · split
    · rfl
    · unfold processBuffer
      split
      · rfl
      · rfl
      · split <;> rfl

/-- A symbol that fails goes on failing while others are processed. -/
theorem Failing.processSymbol (h : a.Failing env x) (symbol : String) :
    (a.processSymbol env symbol).2.Failing env x := by
  have hw := processSymbol_writes a env symbol
  refine h.imp (fun hf => by rwa [hw.fetched]) ?_
  rintro ⟨buffer, err, hbuffer, herr⟩
  refine ⟨buffer, err, by rw [hw.buffers, hbuffer], ?_⟩
  unfold runFeatures at herr ⊢
  rwa [processSymbol_featureEngine]

/-- The loop over the due symbols, with and without the failing one. -/
theorem loop_off (h : SameOff x b a) (hfail : a.Failing env x) (due : List String) :
    SameOff x ((due.filter fun s => decide (s ≠ x)).foldl (processNext env) ([], b)).2
      (due.foldl (processNext env) ([], a)).2 := by
  have hloop := foldl_skip (f := processNext env) (g := processNext env) (p := fun s => decide (s ≠ x))
    (R := fun r r' => SameOff x r'.2 r.2 ∧ r.2.Failing env x) (l := due) (b := ([], a)) (c := ([], b))
    (fun s r r' hs hr => ?_) (fun s r r' hs hr => ?_) ⟨h, hfail⟩
  · exact hloop.1
  · obtain rfl : s = x := by simpa using hs
    exact ⟨hr.1.trans (processSymbol_failing hr.2), hr.2.processSymbol s⟩
  · have hne : s ≠ x := by simpa using hs
    exact ⟨hr.1.processSymbol hne, hr.2.processSymbol s⟩

/-- The loop over the symbols that were not due. -/
theorem projectOthers_off (h : SameOff x b a) (hx : x ∈ plan.due) :
    SameOff x (b.projectOthers env (plan.without x)) (a.projectOthers env plan) := by
  have hlist : (plan.enabled.filter fun s => decide (s ∉ plan.due)) =
      (plan.enabled.filter fun s => decide (s ∉ (plan.without x).due)).filter
        fun s => decide (s ≠ x) := by
    rw [List.filter_filter]
    refine List.filter_congr fun s _ => ?_
    by_cases hs : s = x
    · simp [hs, hx]
    · simp [TickPlan.without, hs]
  unfold projectOthers
  rw [hlist]
  refine foldl_skip (R := fun e e' => SameOff x e e') (fun s e e' hs he => ?_) (fun s e e' hs he => ?_) h
  · obtain rfl : s = x := by simpa using hs
    exact (SameOff.projectHealth_own env e).symm.trans he
  · have hne : s ≠ x := by simpa using hs
    exact he.projectHealth hne

/-- The statuses that the coordinator asks for. -/
theorem observeTick_health (e : MarketEngine) (env : TickEnv) (tick : EngineTickResult) :
    (e.observeTick env tick).health =
      if e.intelligence.isSome then
        (tick.symbolResults.map (·.symbol)).foldl (fun h s => (h.status (env.mono .feedStatus s) s).2) e.health
      else e.health := by
  unfold observeTick
  cases e.intelligence with
  | none => rfl
  | some c =>
    have htouch : ∀ (rows : List SymbolTickResult) (e : MarketEngine),
        (rows.foldl (fun e row => e.touchStatus (env.mono .feedStatus row.symbol) row.symbol) e).health =
          (rows.map (·.symbol)).foldl (fun h s => (h.status (env.mono .feedStatus s) s).2) e.health := by
      intro rows
      induction rows with
      | nil => intro e; rfl
      | cons row rows ih => intro e; exact ih _
    exact htouch _ _

/-- The sidecar hears of the other rows as before. -/
theorem observeTick_off (h : SameOff x b a) {tick tick' : EngineTickResult}
    (hrows : tick'.symbolResults.map (·.symbol) =
      (tick.symbolResults.map (·.symbol)).filter fun s => decide (s ≠ x)) (hy : y ≠ x) :
    SameSymbol y (b.observeTick env tick') (a.observeTick env tick) := by
  obtain ⟨hastates, habuffers, hascheduler⟩ := observeTick_writes a env tick
  obtain ⟨hbstates, hbbuffers, hbscheduler⟩ := observeTick_writes b env tick'
  have hhealth : HealthOff x (b.observeTick env tick').health (a.observeTick env tick).health := by
    rw [observeTick_health, observeTick_health, h.intelligence, hrows]
    split
    · refine foldl_skip (R := fun t t' => HealthOff x t' t) (fun s t t' hs ht => ?_)
        (fun s t t' hs ht => ?_) h.health
      · obtain rfl : s = x := by simpa using hs
        exact ht.trans (.status_own t _)
      · have hne : s ≠ x := by simpa using hs
        exact ht.status hne _
    · exact h.health
  exact
    { buffer := by rw [habuffers, hbbuffers, h.buffers.buffer y hy]
      state := by rw [hastates, hbstates, h.get hy]
      level := by rw [hascheduler, hbscheduler, h.scheduler.getLevel hy]
      health := hhealth.symbols y hy }

/-- The end of a tick without the symbol. -/
theorem finishTick_off (h : SameOff x b a) (hfail : a.Failing env x) (hx : x ∈ plan.due) (hy : y ≠ x) :
    SameSymbol y (b.finishTick env (plan.without x)).2 (a.finishTick env plan).2 := by
  have hloop := loop_off h hfail plan.due
  have hrows := (loopWrites_foldl a env plan.due).symbols
  have hrows' := (loopWrites_foldl b env (plan.without x).due).symbols
  have hothers := @projectOthers_off _ _ _ env _ hloop hx
  refine observeTick_off hothers ?_ hy
  rw [hrows]
  exact hrows'

/-! ### The rest of a tick -/

/-- The rest of a tick of a source that is not exhausted: without a due symbol nothing is fetched. -/
def tickRest (e : MarketEngine) (env : TickEnv) (plan : TickPlan) (outcome : FetchOutcome) :
    EngineTickResult × MarketEngine :=
  if plan.due = [] then e.endIdleTick env plan else e.endTick env plan outcome

/-- The quote of a symbol is missing or out of order, or its features raise once it is booked. -/
def Fails (e : MarketEngine) (env : TickEnv) (due : List String) (snapshots : List MarketSnapshot)
    (symbol : String) : Prop :=
  ¬ e.Ingests snapshots symbol ∨ (e.bookFetch env due (.quotes snapshots)).FeaturesRaise env symbol

/-- Booking the quotes, with and without a symbol. -/
theorem bookFetch_off {snapshots snapshots' : List MarketSnapshot} (e : MarketEngine) (env : TickEnv)
    {due : List String} (hsame : ∀ s ∈ due, s ≠ x → quoteOf snapshots' s = quoteOf snapshots s) :
    SameOff x (e.bookFetch env (due.filter fun s => decide (s ≠ x)) (.quotes snapshots'))
      (e.bookFetch env due (.quotes snapshots)) := by
  unfold bookFetch
  dsimp only
  have hkeep : ∀ l : List String, (∀ s ∈ l, s ∈ due) → ∀ {a b : MarketEngine}, SameOff x b a →
      SameOff x ((l.filter fun s => decide (s ≠ x)).foldl (bookSymbol env snapshots') b)
        (l.foldl (bookSymbol env snapshots) a) := by
    intro l
    induction l with
    | nil => intro _ a b h; exact h
    | cons s l ih =>
      intro hl a b h
      have hrest : ∀ s ∈ l, s ∈ due := fun s hs => hl s (List.mem_cons_of_mem _ hs)
      by_cases hs : s = x
      · rw [List.filter_cons_of_neg (by simp [hs])]
        exact ih hrest (h.trans (hs ▸ SameOff.bookSymbol_own a env snapshots))
      · rw [List.filter_cons_of_pos (by simp [hs])]
        have hquote := hsame s (hl s List.mem_cons_self) hs
        exact ih hrest (h.bookSymbol hs hquote.symm)
  exact hkeep due (fun _ hs => hs) .refl

/-- **A symbol that fails leaves the others as if it had not been due.** -/
theorem tickRest_unaffected (e : MarketEngine) (env : TickEnv) {snapshots snapshots' : List MarketSnapshot}
    (hdue : plan.due.Nodup) (hnone : e.fetchedSymbols = []) (hx : x ∈ plan.due)
    (hsame : ∀ s ∈ plan.due, s ≠ x → quoteOf snapshots' s = quoteOf snapshots s)
    (hfail : e.Fails env plan.due snapshots x) (hy : y ≠ x) :
    SameSymbol y (e.tickRest env (plan.without x) (.quotes snapshots')).2
      (e.tickRest env plan (.quotes snapshots)).2 := by
  have hfailing : (e.bookFetch env plan.due (.quotes snapshots)).Failing env x := by
    refine hfail.imp (fun hnot hf => ?_) id
    rcases fetched_bookFetch e env hdue snapshots x hf with hf | ⟨-, hf⟩
    · rw [hnone] at hf
      cases hf
    · exact hnot hf
  have hbook := bookFetch_off e env hsame
  unfold tickRest
  rw [if_neg (List.ne_nil_of_mem hx)]
  by_cases hempty : (plan.without x).due = []
  · rw [if_pos hempty]
    -- Nothing is booked without the symbol, which is what booking no symbol does.
    have hidle : SameOff x (e.bookExhausted env (plan.without x).due)
        (e.bookFetch env plan.due (.quotes snapshots)) := by
      have hnothing : plan.due.filter (fun s => decide (s ≠ x)) = [] := hempty
      rw [hnothing] at hbook
      rw [hempty]
      exact SameOff.trans (SameOff.refl.of_diagnostics e.diagnostics _) hbook
    exact finishTick_off hidle hfailing hx hy
  · rw [if_neg hempty]
    exact finishTick_off hbook hfailing hx hy

end MarketEngine

namespace EngineSession

/-- An engine before its first tick. -/
structure Blank (s : EngineSession) : Prop where
  idle : s.inFlight = none
  states : s.engine.states = {}
  buffers : ∀ symbol, s.engine.buffers.buffer symbol = none

variable {s₀ s s' : EngineSession}

/-- Nothing is known of any symbol at first. -/
theorem Blank.stateInv (h : s₀.Blank) : s₀.StateInv where
  coherent := by
    intro symbol
    rw [h.states]
    unfold SymbolBuffers.latest
    rw [h.buffers symbol]
    rfl
  plan := fun plan hp => absurd (h.idle.symm.trans hp) (by simp)

/-- A whole tick that fetches nothing. -/
theorem StateInv.idle (h : s.StateInv) (due : ℚ) (env : TickEnv) :
    MarketEngine.TickCoherent s.engine (s.engine.beginTick due).1.due (fun _ => False)
      ((s.engine.beginTick due).2.endIdleTick env (s.engine.beginTick due).1).1
      ((s.engine.beginTick due).2.endIdleTick env (s.engine.beginTick due).1).2 := by
  have hbegin : MarketEngine.Advances s.engine (s.engine.beginTick due).2 :=
    .of_same h.coherent (fun _ => rfl) rfl
  have htick := MarketEngine.endIdleTick_coherent hbegin.coherent env (s.engine.beginTick due).1 rfl
  exact htick.of_advances hbegin fun _ _ hf => hf

/-- **The engine stays coherent.** In every run from an engine without quotes no latest quote of a symbol
becomes older; whichever way the tick under way ends, and in a tick that fetches nothing, there is a row
for each due symbol in order, its state has the latest quote of its buffer and the level of the
scheduler, and only symbols of which the tick kept a quote have events or alerts; and a symbol whose
quote is missing or out of order, or whose features raise, leaves every other symbol as if it had not
been due. -/
theorem engine_coherent {pre post : List EngineStep} (h₀ : s₀.Blank) (hpre : run step s₀ pre = some s)
    (hpost : run step s post = some s') :
    MarketEngine.Advances s.engine s'.engine ∧
      (∀ plan ∈ s'.inFlight, ∀ env outcome,
        MarketEngine.TickCoherent s'.engine plan.due (s'.engine.IngestedBy outcome)
          (s'.engine.endTick env plan outcome).1 (s'.engine.endTick env plan outcome).2) ∧
      (∀ due env,
        MarketEngine.TickCoherent s'.engine (s'.engine.beginTick due).1.due (fun _ => False)
          ((s'.engine.beginTick due).2.endIdleTick env (s'.engine.beginTick due).1).1
          ((s'.engine.beginTick due).2.endIdleTick env (s'.engine.beginTick due).1).2) ∧
      ∀ plan ∈ s'.inFlight, ∀ env snapshots snapshots', ∀ x ∈ plan.due,
        (∀ symbol ∈ plan.due, symbol ≠ x →
          MarketEngine.quoteOf snapshots' symbol = MarketEngine.quoteOf snapshots symbol) →
        s'.engine.Fails env plan.due snapshots x → ∀ y, y ≠ x →
          SameSymbol y (s'.engine.tickRest env (plan.without x) (.quotes snapshots')).2
            (s'.engine.tickRest env plan (.quotes snapshots)).2 := by
  obtain ⟨hinv, -⟩ := h₀.stateInv.of_run hpre
  obtain ⟨hinv', hadv⟩ := hinv.of_run hpost
  refine ⟨hadv, fun plan hp env outcome => ?_, hinv'.idle, ?_⟩
  · obtain ⟨hdue, hnone⟩ := hinv'.plan plan hp
    exact MarketEngine.endTick_coherent hinv'.coherent env hdue hnone outcome
  · intro plan hp env snapshots snapshots' x hx hsame hfail y hy
    obtain ⟨hdue, hnone⟩ := hinv'.plan plan hp
    exact s'.engine.tickRest_unaffected env hdue hnone hx hsame hfail hy

/-- An empty session. -/
def blankSession : EngineSession where
  engine := {}

/-- The session begins so. -/
theorem blankSession_blank : blankSession.Blank := ⟨rfl, rfl, fun _ => rfl⟩

/-- A quote at one price. -/
def flatQuote (symbol : String) (ts : ℚ) : MarketSnapshot where
  symbol := symbol
  price := 100
  openPrice := 100
  high := 100
  low := 100
  prevClose := 100
  volume := 0
  turnover := none
  marketTimestamp := ts
  receivedTimestamp := ts

/-- A tick in no time. -/
def instantTick (t : ℚ) : TickEnv where
  mono _ _ := t
  pipeline _ :=
    { detectedAt := t
      eventId := fun type => type.value
      draws := prefixDraws "" t
      monotonic := fun _ => t }
  now := t
  routerS _ := 0

/-- Two symbols, of which the second is quoted out of order in the second tick. -/
theorem engine_coherent_late_quote : ∃ s s' plan,
    run step blankSession [.replace [{ symbol := "A" }, { symbol := "B" }], .begin 0] = some s ∧
    run step s [.finish (instantTick 0) (.quotes [flatQuote "A" 50, flatQuote "B" 50]), .begin 60] = some s' ∧
    s'.inFlight = some plan ∧ plan.due = ["A", "B"] ∧
    MarketEngine.Advances s.engine s'.engine ∧
    SameSymbol "A"
      (s'.engine.tickRest (instantTick 60) (plan.without "B") (.quotes [flatQuote "A" 110])).2
      (s'.engine.tickRest (instantTick 60) plan (.quotes [flatQuote "A" 110, flatQuote "B" 40])).2 := by
  have hfacts : (run step blankSession ([.replace [{ symbol := "A" }, { symbol := "B" }], .begin 0] ++
      [.finish (instantTick 0) (.quotes [flatQuote "A" 50, flatQuote "B" 50]), .begin 60])).map
        (fun s => (s.inFlight.map (·.due), s.engine.buffers.latest "B")) =
      some (some ["A", "B"], some (flatQuote "B" 50)) := by
    decide +kernel
  obtain ⟨s', hrun, heq⟩ := Option.map_eq_some_iff.1 hfacts
  obtain ⟨hflight, hlatest⟩ := Prod.mk.inj heq
  obtain ⟨plan, hplan, hdue⟩ := Option.map_eq_some_iff.1 hflight
  obtain ⟨s, hpre, hpost⟩ := run_append.1 hrun
  obtain ⟨hadv, -, -, hothers⟩ := engine_coherent blankSession_blank hpre hpost
  refine ⟨s, s', plan, hpre, hpost, hplan, hdue, hadv, ?_⟩
  refine hothers plan hplan _ _ _ "B" (by simp [hdue]) ?_ (.inl ?_) "A" (by decide)
  · intro symbol hmem hne
    rw [hdue] at hmem
    obtain rfl : symbol = "A" := by simpa [hne] using hmem
    decide
  · rintro ⟨snapshot, hquote, hle⟩
    have hlate := hle _ hlatest
    have hsnap : MarketEngine.quoteOf [flatQuote "A" 110, flatQuote "B" 40] "B" = some (flatQuote "B" 40) := by
      decide
    obtain rfl := Option.some.inj (hsnap.symm.trans hquote)
    exact absurd hlate (by decide)

end EngineSession

end MarketSentinel
