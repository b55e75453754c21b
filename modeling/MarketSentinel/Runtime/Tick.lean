import MarketSentinel.Lib.Machine
import MarketSentinel.Runtime.Engine
import MarketSentinel.Signals.Reported

/-!
# What a tick does

* `processSymbol_turn`: one symbol of a tick.
* `endTick_effect`, `endIdleTick_effect`: a whole tick. Its rows are those of the due symbols, every
  signal of a row is in the state of its symbol afterwards, every alert is a signal of its row, and
  an active episode was active before or has an id drawn in the tick.
-/

namespace MarketSentinel

open Lib Machine

variable {e e' : MarketEngine} {env : TickEnv} {symbol : String}

/-- What booking and projecting leave alone. -/
structure SameSignals (e e' : MarketEngine) : Prop where
  watchlist : e'.watchlist = e.watchlist
  pipeline : e'.pipeline = e.pipeline
  intelligence : e'.intelligence = e.intelligence
  signals : ∀ s, e'.states.signalsOf s = e.states.signalsOf s

theorem SameSignals.refl : SameSignals e e := ⟨rfl, rfl, rfl, fun _ => rfl⟩

theorem SameSignals.trans {e'' : MarketEngine} (h : SameSignals e e') (h' : SameSignals e' e'') :
    SameSignals e e'' :=
  ⟨h'.watchlist.trans h.watchlist, h'.pipeline.trans h.pipeline,
    h'.intelligence.trans h.intelligence, fun s => (h'.signals s).trans (h.signals s)⟩

theorem SameSignals.foldl {A : Type*} {f : MarketEngine → A → MarketEngine}
    (hf : ∀ e x, SameSignals e (f e x)) (l : List A) (e : MarketEngine) :
    SameSignals e (l.foldl f e) :=
  List.foldlRecOn l f (motive := SameSignals e) .refl fun b hb x _ => hb.trans (hf b x)

namespace MarketEngine

/-! ## Booking -/

theorem sameSignals_observeError (e : MarketEngine) (env : TickEnv) (symbol : String) :
    SameSignals e (e.observeError env symbol) := ⟨rfl, rfl, rfl, fun _ => rfl⟩

theorem sameSignals_markFetched (e : MarketEngine) (env : TickEnv) (symbol : String) :
    SameSignals e (e.markFetched env symbol) := ⟨rfl, rfl, rfl, fun _ => rfl⟩

theorem sameSignals_ingestSnapshot (e : MarketEngine) (env : TickEnv) (symbol : String)
    (snapshot : MarketSnapshot) : SameSignals e (e.ingestSnapshot env symbol snapshot) := by
  rcases ingestSnapshot_cases e env symbol snapshot with ⟨-, d, heq⟩ | ⟨-, d, heq⟩
  · rw [heq]
    exact ⟨rfl, rfl, rfl, fun _ => rfl⟩
  · rw [heq]
    exact ⟨rfl, rfl, rfl, fun s => MarketStateStore.signalsOf_updateLatest _ s _⟩

theorem sameSignals_bookSymbol (env : TickEnv) (snapshots : List MarketSnapshot) (e : MarketEngine)
    (symbol : String) : SameSignals e (bookSymbol env snapshots e symbol) := by
  unfold bookSymbol
  split
  · exact (sameSignals_observeError ..).trans (sameSignals_markFetched ..)
  · exact (sameSignals_ingestSnapshot ..).trans (sameSignals_markFetched ..)

theorem sameSignals_bookFetch (e : MarketEngine) (env : TickEnv) (due : List String)
    (outcome : FetchOutcome) : SameSignals e (e.bookFetch env due outcome) := by
  have herror : ∀ error, SameSignals e (e.setFetchError error) := fun _ =>
    ⟨rfl, rfl, rfl, fun _ => rfl⟩
  unfold bookFetch
  split
  · refine (herror _).trans (SameSignals.foldl (fun e symbol => ?_) due _)
    exact (sameSignals_observeError ..).trans (sameSignals_markFetched ..)
  · exact (herror _).trans (SameSignals.foldl (sameSignals_bookSymbol env _) due _)

theorem sameSignals_bookExhausted (e : MarketEngine) (env : TickEnv) (due : List String) :
    SameSignals e (e.bookExhausted env due) := by
  refine SameSignals.foldl (fun e symbol => ?_) due e
  have halive : SameSignals e (e.keepAlive env symbol) := ⟨rfl, rfl, rfl, fun _ => rfl⟩
  exact halive.trans (sameSignals_markFetched ..)

/-! ## Processing -/

/-- A projection of the health alone keeps the signals of every symbol. -/
theorem sameSignals_projectHealth (env : TickEnv) (e : MarketEngine) (symbol : String) :
    SameSignals e (projectHealth env e symbol) := by
  refine ⟨rfl, rfl, rfl, fun s => ?_⟩
  unfold projectHealth applyRuntime
  dsimp only
  rw [MarketStateStore.signalsOf_applyRuntime]
  split
  · next h => rw [h]; rfl
  · rfl

/-- The ids that a tick may give to new episodes of a symbol. -/
def Drawn (env : TickEnv) (symbol id : String) : Prop :=
  ∃ k : EpisodeKey, k.symbol = symbol ∧ ((env.pipeline symbol).draws k).1 = id

/-- The episode of an id is active for a symbol. -/
def Live (e : MarketEngine) (symbol id : String) : Prop :=
  ∃ signal ∈ e.pipeline.composer.activeSignals symbol, signal.id = id

/-- What processing one symbol does. -/
structure SymbolTurn (e : MarketEngine) (env : TickEnv) (symbol : String) (row : SymbolTickResult)
    (e' : MarketEngine) : Prop where
  rowSymbol : row.symbol = symbol
  watchlist : e'.watchlist = e.watchlist
  intelligence : e'.intelligence = e.intelligence
  others : ∀ s, s ≠ symbol → e'.states.signalsOf s = e.states.signalsOf s
  origin : ∀ s id, e'.Live s id → e.Live s id ∨ s = symbol ∧ Drawn env symbol id
  fetched : e'.fetchedSymbols = e.fetchedSymbols
  updates : ∀ signal ∈ row.signalUpdates, symbol ∈ e.fetchedSymbols ∧ e'.Live symbol signal.id ∧
    signal ∈ e'.states.signalsOf symbol
  alerts : ∀ a ∈ row.alertCandidates, a.symbol = symbol ∧ a ∈ row.signalUpdates

/-- A row that reports nothing. -/
theorem processNothing_turn (e e₁ : MarketEngine) (hw : e₁.watchlist = e.watchlist)
    (hi : e₁.intelligence = e.intelligence) (hs : e₁.states = e.states)
    (hf : e₁.fetchedSymbols = e.fetchedSymbols)
    (ho : ∀ s id, e₁.Live s id → e.Live s id ∨ s = symbol ∧ Drawn env symbol id)
    (levelBefore : SchedulerLevel) (withFeatures : Bool) :
    SymbolTurn e env symbol (e₁.processNothing env symbol levelBefore withFeatures).1
      (e₁.processNothing env symbol levelBefore withFeatures).2 := by
  have hsame := sameSignals_projectHealth env e₁ symbol
  exact
    { rowSymbol := rfl
      watchlist := hw
      intelligence := hi
      others := fun s _ => (hsame.signals s).trans (by rw [hs])
      origin := ho
      fetched := hf
      updates := fun _ h => by cases h
      alerts := fun _ h => by cases h }

/-- A row that reports what the pipeline returned. -/
theorem processResult_turn (e e₁ : MarketEngine) {features : Option MarketFeatures}
    {r : SignalPipelineResult} (hw : e₁.watchlist = e.watchlist)
    (hi : e₁.intelligence = e.intelligence) (hs : e₁.states = e.states)
    (hf : e₁.fetchedSymbols = e.fetchedSymbols)
    (ho : ∀ s id, e₁.Live s id → e.Live s id ∨ s = symbol ∧ Drawn env symbol id)
    (hu : ∀ signal ∈ r.signalUpdates, symbol ∈ e.fetchedSymbols ∧ e₁.Live symbol signal.id)
    (ha : ∀ a ∈ r.alertCandidates, a.symbol = symbol ∧ a ∈ r.signalUpdates)
    (levelBefore : SchedulerLevel) :
    SymbolTurn e env symbol (e₁.processResult env symbol levelBefore features r).1
      (e₁.processResult env symbol levelBefore features r).2 := by
  have hstates : ∀ s, (e₁.processResult env symbol levelBefore features r).2.states.signalsOf s =
      if s = symbol then r.signalUpdates else e.states.signalsOf s := by
    intro s
    rw [← hs]
    exact MarketStateStore.signalsOf_applyRuntime _ _ _ _ _
  exact
    { rowSymbol := rfl
      watchlist := hw
      intelligence := hi
      others := fun s hne => by rw [hstates, if_neg hne]
      origin := ho
      fetched := hf
      updates := fun signal hsig =>
        ⟨(hu signal hsig).1, (hu signal hsig).2, by rw [hstates, if_pos rfl]; exact hsig⟩
      alerts := ha }

theorem runFeatures_ok {buffer : RingBuffer} {features : Option MarketFeatures}
    (h : e.runFeatures env symbol buffer = .ok features) : e.featureEngine.compute buffer = .ok features := by
  unfold runFeatures at h
  split at h
  · cases h
  · exact h

theorem runPipeline_ok {features : MarketFeatures} {r : SignalPipeline.ProcessResult}
    {p : SignalPipeline} (h : e.runPipeline env symbol features = (some r, p)) :
    e.pipeline.process (env.pipeline symbol) ((e.states.get symbol).bind (·.features)) features =
      (some r, p) := by
  unfold runPipeline SignalPipeline.attempt at h
  dsimp only at h
  split at h
  · exact h
  · cases h

/-- The episodes after the pipeline stage, whether it raises or not. -/
theorem runPipeline_origin (e : MarketEngine) (env : TickEnv) {features : MarketFeatures}
    (hsymbol : features.symbol = symbol) : ∀ s id,
    (e.setPipeline (e.runPipeline env symbol features).2).Live s id →
      e.Live s id ∨ s = symbol ∧ Drawn env symbol id := by
  have hfull : ∀ s, ∀ signal ∈ (e.pipeline.process (env.pipeline symbol)
      ((e.states.get symbol).bind (·.features)) features).2.composer.activeSignals s,
      e.Live s signal.id ∨ s = symbol ∧ Drawn env symbol signal.id := by
    intro s signal hsig
    rcases SignalPipeline.process_origin hsig with ⟨signal', hsig', hid⟩ | ⟨rfl, k, hk, hid⟩
    · exact .inl ⟨signal', hsig', hid⟩
    · exact .inr ⟨hsymbol, k, hk.trans hsymbol, hid⟩
  rintro s id ⟨signal, hsig, rfl⟩
  unfold runPipeline SignalPipeline.attempt at hsig
  dsimp only at hsig
  split at hsig
  · exact hfull s signal hsig
  · next left _ =>
    obtain ⟨signal', hsig', hid⟩ := left.2 s signal hsig
    rcases List.mem_append.1 hsig' with hsig' | hsig'
    · exact .inl ⟨signal', hsig', hid⟩
    · exact hid ▸ hfull s signal' hsig'

/-- **Processing one symbol.** -/
theorem processSymbol_turn (e : MarketEngine) (env : TickEnv) (symbol : String) :
    SymbolTurn e env symbol (e.processSymbol env symbol).1 (e.processSymbol env symbol).2 := by
  have hnothing := processNothing_turn e e rfl rfl rfl rfl
    fun (s id : String) (h : e.Live s id) => .inl (b := s = symbol ∧ Drawn env symbol id) h
  unfold processSymbol
  dsimp only
  split
  · exact hnothing _ _
  next hunfetched =>
  have hfetched : symbol ∈ e.fetchedSymbols := not_not.1 hunfetched
  split
  · exact hnothing _ _
  next buffer hbuffer =>
    unfold processBuffer
    split
    · exact hnothing _ _
    · -- A symbol that is still warming up has a row without signals and alerts.
      refine processResult_turn e e rfl rfl rfl rfl (fun _ _ h => .inl h) ?_ ?_ _ <;>
        exact fun _ h => by cases h
    next features hfeatures =>
      obtain ⟨latest, hlatest, hsym, -⟩ := FeatureEngine.compute_stamp (runFeatures_ok hfeatures)
      have hsymbol : features.symbol = symbol :=
        hsym.trans (SymbolBuffers.latest_symbol hbuffer hlatest)
      have horigin := runPipeline_origin e env hsymbol
      split
      · next p hp =>
        rw [hp] at horigin
        exact processNothing_turn e (e.setPipeline p) rfl rfl rfl rfl horigin _ _
      · next r p hp =>
        -- The pipeline took the snapshot of this symbol, so what it tells of is about this symbol.
        have hr := runPipeline_ok hp
        have hsome : (e.pipeline.process (env.pipeline symbol)
            ((e.states.get symbol).bind (·.features)) features).1 = some r := by rw [hr]
        obtain ⟨hupdates, halerts⟩ := SignalPipeline.process_alerts hsome
        rw [hsymbol] at hupdates halerts
        rw [hp] at horigin
        rw [hr] at hupdates
        refine processResult_turn e (e.setPipeline p) rfl rfl rfl rfl horigin
          (fun signal hsig => ?_) halerts _
        rw [hupdates] at hsig
        exact ⟨hfetched, signal, hsig, rfl⟩

/-! ## A whole tick -/

/-- The ids that a tick may give to new episodes. -/
def DrawnIn (env : TickEnv) (due : List String) (symbol id : String) : Prop :=
  symbol ∈ due ∧ Drawn env symbol id

/-- What the loop over the due symbols has done, with the symbols of `done` behind it. -/
structure LoopInv (e : MarketEngine) (env : TickEnv) (done : List String)
    (r : List SymbolTickResult × MarketEngine) : Prop where
  symbols : r.1.map (·.symbol) = done
  watchlist : r.2.watchlist = e.watchlist
  intelligence : r.2.intelligence = e.intelligence
  fetched : r.2.fetchedSymbols = e.fetchedSymbols
  origin : ∀ s id, r.2.Live s id → e.Live s id ∨ DrawnIn env done s id
  updates : ∀ row ∈ r.1, ∀ signal ∈ row.signalUpdates, row.symbol ∈ e.fetchedSymbols ∧
    (e.Live row.symbol signal.id ∨ DrawnIn env done row.symbol signal.id) ∧
      signal ∈ r.2.states.signalsOf row.symbol
  alerts : ∀ row ∈ r.1, ∀ a ∈ row.alertCandidates, a.symbol = row.symbol ∧ a ∈ row.signalUpdates

theorem LoopInv.next {done : List String} {r : List SymbolTickResult × MarketEngine}
    (h : LoopInv e env done r) (hnew : symbol ∉ done) :
    LoopInv e env (done ++ [symbol]) (processNext env r symbol) := by
  have ht := processSymbol_turn r.2 env symbol
  unfold processNext
  generalize r.2.processSymbol env symbol = q at ht
  obtain ⟨row, e'⟩ := q
  have hrowSymbol : row.symbol = symbol := ht.rowSymbol
  have hmono : ∀ {s id}, DrawnIn env done s id → DrawnIn env (done ++ [symbol]) s id :=
    fun hd => ⟨List.mem_append_left _ hd.1, hd.2⟩
  have horigin : ∀ s id, e'.Live s id → e.Live s id ∨ DrawnIn env (done ++ [symbol]) s id := by
    intro s id hl
    rcases ht.origin s id hl with hl | ⟨rfl, hd⟩
    · exact (h.origin s id hl).imp_right hmono
    · exact .inr ⟨List.mem_append_right _ (List.mem_singleton_self _), hd⟩
  refine ⟨by simp [h.symbols, hrowSymbol], ht.watchlist.trans h.watchlist,
    ht.intelligence.trans h.intelligence, ht.fetched.trans h.fetched, horigin,
    fun row' hrow signal hsig => ?_,
    fun row' hrow a ha => ?_⟩
  · rcases List.mem_append.1 hrow with hrow | hrow
    · obtain ⟨hfetched, hknown, hstate⟩ := h.updates row' hrow signal hsig
      -- The symbols are distinct, so that this turn leaves the earlier rows' states alone.
      have hne : row'.symbol ≠ symbol := by
        rintro rfl
        exact hnew (h.symbols ▸ List.mem_map_of_mem hrow)
      exact ⟨hfetched, hknown.imp_right hmono, (ht.others _ hne).symm ▸ hstate⟩
    · obtain rfl := List.mem_singleton.1 hrow
      obtain ⟨hfetched, hlive, hstate⟩ := ht.updates signal hsig
      rw [hrowSymbol]
      exact ⟨h.fetched ▸ hfetched, horigin _ _ hlive, hstate⟩
  · rcases List.mem_append.1 hrow with hrow | hrow
    · exact h.alerts row' hrow a ha
    · obtain rfl := List.mem_singleton.1 hrow
      rw [hrowSymbol]
      exact ht.alerts a ha

theorem loopInv_foldl (e : MarketEngine) (env : TickEnv) {due : List String} (hdue : due.Nodup) :
    LoopInv e env due (due.foldl (processNext env) ([], e)) := by
  refine foldl_history (I := LoopInv e env) ?_ fun pre symbol post r heq h => h.next ?_
  · exact ⟨rfl, rfl, rfl, rfl, fun _ _ h => .inl h,
      fun _ h => absurd h List.not_mem_nil, fun _ h => absurd h List.not_mem_nil⟩
  · rw [heq] at hdue
    exact fun hmem => (List.nodup_append.1 hdue).2.2 symbol hmem symbol List.mem_cons_self rfl

/-- What a tick does; `fetched` are the symbols of which it kept a quote. -/
structure TickEffect (e : MarketEngine) (env : TickEnv) (plan : TickPlan) (fetched : List String)
    (tick : EngineTickResult) (e' : MarketEngine) : Prop where
  symbols : tick.symbolResults.map (·.symbol) = plan.due
  watchlist : e'.watchlist = e.watchlist
  origin : ∀ s id, e'.Live s id → e.Live s id ∨ DrawnIn env plan.due s id
  updates : ∀ row ∈ tick.symbolResults, ∀ signal ∈ row.signalUpdates, row.symbol ∈ fetched ∧
    (e.Live row.symbol signal.id ∨ DrawnIn env plan.due row.symbol signal.id) ∧
      signal ∈ e'.states.signalsOf row.symbol
  alerts : ∀ row ∈ tick.symbolResults, ∀ a ∈ row.alertCandidates, a.symbol = row.symbol ∧
    a ∈ row.signalUpdates
  intelligence : ∃ observeEnv, e'.intelligence =
    e.intelligence.map fun c => c.observeTick observeEnv tick (some e'.activeIds)

theorem sameSignals_touchStatus (e : MarketEngine) (now : ℚ) (symbol : String) :
    SameSignals e (e.touchStatus now symbol) := ⟨rfl, rfl, rfl, fun _ => rfl⟩

/-- The observation of a tick changes the coordinator alone. -/
theorem observeTick_effect (e : MarketEngine) (env : TickEnv) (tick : EngineTickResult) :
    (e.observeTick env tick).watchlist = e.watchlist ∧
      (e.observeTick env tick).pipeline = e.pipeline ∧
      (∀ s, (e.observeTick env tick).states.signalsOf s = e.states.signalsOf s) ∧
      (e.observeTick env tick).intelligence =
        e.intelligence.map fun c => c.observeTick (e.observeEnv env) tick (some e.activeIds) := by
  unfold observeTick
  cases hi : e.intelligence with
  | none => exact ⟨rfl, rfl, fun _ => rfl, hi⟩
  | some c =>
    have h := SameSignals.foldl (fun e (row : SymbolTickResult) =>
      sameSignals_touchStatus e (env.mono .feedStatus row.symbol) row.symbol) tick.symbolResults
      (e.setIntelligence (c.observeTick (e.observeEnv env) tick (some e.activeIds)))
    exact ⟨h.watchlist, h.pipeline, h.signals, h.intelligence⟩

theorem activeIds_congr (hw : e'.watchlist = e.watchlist)
    (hs : ∀ s, e'.states.signalsOf s = e.states.signalsOf s) : e'.activeIds = e.activeIds := by
  unfold activeIds
  rw [hw]
  simp only [hs]

/-- **A tick from its quotes on.** -/
theorem finishTick_effect (e : MarketEngine) (env : TickEnv) {plan : TickPlan}
    (hdue : plan.due.Nodup) :
    TickEffect e env plan e.fetchedSymbols (e.finishTick env plan).1 (e.finishTick env plan).2 := by
  have hloop := loopInv_foldl e env hdue
  unfold finishTick
  generalize plan.due.foldl (processNext env) ([], e) = r at hloop
  obtain ⟨rows, e₁⟩ := r
  dsimp only
  have hothers : SameSignals e₁ (e₁.projectOthers env plan) :=
    SameSignals.foldl (sameSignals_projectHealth env) _ e₁
  obtain ⟨hw, hp, hs, hi⟩ := observeTick_effect (e₁.projectOthers env plan) env ⟨rows⟩
  have hsignals := fun s => (hs s).trans (hothers.signals s)
  refine ⟨hloop.symbols, hw.trans (hothers.watchlist.trans hloop.watchlist), fun s id hl => ?_,
    fun row hrow signal hsig => ?_, hloop.alerts, (e₁.projectOthers env plan).observeEnv env, ?_⟩
  · obtain ⟨signal, hsig, hid⟩ := hl
    rw [hp, hothers.pipeline] at hsig
    exact hloop.origin s id ⟨signal, hsig, hid⟩
  · obtain ⟨hfetched, hknown, hstate⟩ := hloop.updates row hrow signal hsig
    exact ⟨hfetched, hknown, (hsignals row.symbol).symm ▸ hstate⟩
  · rw [hi, activeIds_congr hw hs, hothers.intelligence, hloop.intelligence]

/-- Booking before the rest of the tick changes nothing that the effect speaks of. -/
theorem TickEffect.of_same {plan : TickPlan} {fetched : List String} {tick : EngineTickResult}
    {e₁ : MarketEngine} (hs : SameSignals e e₁) (h : TickEffect e₁ env plan fetched tick e') :
    TickEffect e env plan fetched tick e' := by
  have hlive : ∀ s id, e₁.Live s id → e.Live s id := by
    intro s id hl
    unfold Live at hl
    rwa [hs.pipeline] at hl
  exact
    { symbols := h.symbols
      watchlist := h.watchlist.trans hs.watchlist
      origin := fun s id hl => (h.origin s id hl).imp_left (hlive s id)
      updates := fun row hrow signal hsig =>
        (h.updates row hrow signal hsig).imp_right (And.imp_left (Or.imp_left (hlive _ _)))
      alerts := h.alerts
      intelligence := hs.intelligence ▸ h.intelligence }

/-- **The rest of a tick that awaited its quotes.** -/
theorem endTick_effect (e : MarketEngine) (env : TickEnv) {plan : TickPlan} (hdue : plan.due.Nodup)
    (outcome : FetchOutcome) :
    TickEffect e env plan (e.bookFetch env plan.due outcome).fetchedSymbols
      (e.endTick env plan outcome).1 (e.endTick env plan outcome).2 :=
  (finishTick_effect _ env hdue).of_same (sameSignals_bookFetch e env plan.due outcome)

theorem fetched_bookExhausted (e : MarketEngine) (env : TickEnv) (due : List String) :
    (e.bookExhausted env due).fetchedSymbols = e.fetchedSymbols :=
  List.foldlRecOn due _ (motive := fun e' : MarketEngine => e'.fetchedSymbols = e.fetchedSymbols)
    rfl fun _ h _ _ => h

/-- **The rest of a tick that fetched nothing.** -/
theorem endIdleTick_effect (e : MarketEngine) (env : TickEnv) {plan : TickPlan}
    (hdue : plan.due.Nodup) :
    TickEffect e env plan e.fetchedSymbols (e.endIdleTick env plan).1 (e.endIdleTick env plan).2 := by
  have h := (finishTick_effect _ env hdue).of_same (sameSignals_bookExhausted e env plan.due)
  rwa [fetched_bookExhausted] at h

/-- The due symbols of a tick are enabled and distinct. -/
theorem beginTick_due (e : MarketEngine) (due : ℚ) :
    (e.beginTick due).1.due.Sublist e.watchlist.enabledSymbols ∧ (e.beginTick due).1.due.Nodup :=
  ⟨List.filter_sublist, e.watchlist.enabledSymbols_nodup.sublist List.filter_sublist⟩

end MarketEngine

end MarketSentinel
