import MarketSentinel.Runtime.Session

/-!
# The state of a symbol and what it mirrors

* `Coherent`: the latest quote of each state is the latest of its buffer.
* `Advances`: a step keeps the engine coherent, and no latest quote becomes older.
* `endTick_coherent`, `endIdleTick_coherent`: a whole tick, with the levels and what it reports.
-/

namespace MarketSentinel

open Lib Machine

namespace MarketEngine

variable {e e' e'' : MarketEngine} {env : TickEnv} {symbol : String}

/-- The states and the buffers agree on the latest quotes. -/
def Coherent (e : MarketEngine) : Prop :=
  ∀ symbol, e.states.latestOf symbol = e.buffers.latest symbol

/-- The engine stays coherent, and time does not run backwards. -/
structure Advances (e e' : MarketEngine) : Prop where
  coherent : e'.Coherent
  later : ∀ symbol last, e.states.latestOf symbol = some last →
    ∃ last', e'.states.latestOf symbol = some last' ∧ last.marketTimestamp ≤ last'.marketTimestamp

/-- The level in the state of a symbol is the one of the scheduler. -/
def Levelled (e : MarketEngine) (symbol : String) : Prop :=
  ∃ state, e.states.get symbol = some state ∧ state.level = e.scheduler.getLevel symbol

/-- A step that leaves the latest quotes alone. -/
theorem Advances.of_same (h : e.Coherent)
    (hs : ∀ symbol, e'.states.latestOf symbol = e.states.latestOf symbol)
    (hb : e'.buffers = e.buffers) : Advances e e' where
  coherent := fun symbol => by rw [hs, hb, h symbol]
  later := fun symbol last hl => ⟨last, (hs symbol).trans hl, le_rfl⟩

theorem Advances.trans (h : Advances e e') (h' : Advances e' e'') : Advances e e'' where
  coherent := h'.coherent
  later := by
    intro symbol last hl
    obtain ⟨last', hl', hle⟩ := h.later symbol last hl
    obtain ⟨last'', hl'', hle'⟩ := h'.later symbol last' hl'
    exact ⟨last'', hl'', hle.trans hle'⟩

theorem Advances.refl (h : e.Coherent) : Advances e e := .of_same h (fun _ => rfl) rfl

/-- A loop of steps that advance does so. -/
theorem Advances.foldl {A : Type*} {f : MarketEngine → A → MarketEngine} {l : List A}
    (hf : ∀ e, ∀ x ∈ l, e.Coherent → Advances e (f e x)) (h : e.Coherent) :
    Advances e (l.foldl f e) :=
  List.foldlRecOn l f (motive := fun b : MarketEngine => Advances e b) (.refl h)
    fun b hb x hx => hb.trans (hf b x hx hb.coherent)

/-! ## Booking -/

/-- The quote of a symbol is booked: it is not older than the latest one. -/
def Ingests (e : MarketEngine) (snapshots : List MarketSnapshot) (symbol : String) : Prop :=
  ∃ snapshot, quoteOf snapshots symbol = some snapshot ∧
    ∀ last ∈ e.buffers.latest symbol, last.marketTimestamp ≤ snapshot.marketTimestamp

/-- The quote that is found is of the symbol. -/
theorem quoteOf_symbol {snapshots : List MarketSnapshot} {snapshot : MarketSnapshot}
    (h : quoteOf snapshots symbol = some snapshot) : snapshot.symbol = symbol := by
  have hfound := List.find?_some h
  simpa using hfound

/-- A quote that is kept becomes the latest of its symbol. -/
theorem latest_append {b : SymbolBuffers} {snapshot : MarketSnapshot}
    (h : ∀ last ∈ b.latest snapshot.symbol, last.marketTimestamp ≤ snapshot.marketTimestamp)
    (symbol : String) :
    (b.append snapshot).latest symbol = if symbol = snapshot.symbol then some snapshot else b.latest symbol := by
  unfold SymbolBuffers.latest
  rw [SymbolBuffers.buffer_append]
  by_cases hs : symbol = snapshot.symbol
  · rw [if_pos hs, if_pos hs, hs]
    exact RingBuffer.append_latest (by rwa [SymbolBuffers.latest_bufferFor])
  · rw [if_neg hs, if_neg hs]

/-- A quote that is not older than the last advances the engine. -/
theorem advances_keepQuote (h : e.Coherent) {snapshot : MarketSnapshot}
    (hlate : ∀ last ∈ e.buffers.latest snapshot.symbol,
      last.marketTimestamp ≤ snapshot.marketTimestamp) :
    Advances e (e.keepQuote env symbol snapshot) := by
  have hstates : ∀ s, (e.keepQuote env symbol snapshot).states.latestOf s =
      if s = snapshot.symbol then some snapshot else e.states.latestOf s :=
    fun s => e.states.latestOf_updateLatest s snapshot
  refine ⟨fun s => ?_, fun s last hl => ?_⟩
  · have hbuffer := latest_append hlate s
    rw [hstates, h s]
    exact hbuffer.symm
  · rw [hstates]
    by_cases hs : s = snapshot.symbol
    · rw [if_pos hs]
      refine ⟨snapshot, rfl, hlate last ?_⟩
      rw [← hs, ← h s]
      exact hl
    · rw [if_neg hs]
      exact ⟨last, hl, le_rfl⟩

/-- A quote advances it, or is booked as an error. -/
theorem advances_ingestSnapshot (env : TickEnv) (h : e.Coherent) {snapshot : MarketSnapshot}
    (hsymbol : snapshot.symbol = symbol) : Advances e (e.ingestSnapshot env symbol snapshot) := by
  rcases ingestSnapshot_cases e env symbol snapshot with ⟨-, d, heq⟩ | ⟨hlate, d, heq⟩
  · rw [heq]
    exact .of_same h (fun _ => rfl) rfl
  · have hkeep : Advances e (e.keepQuote env symbol snapshot) :=
      advances_keepQuote h (hsymbol ▸ hlate)
    rw [heq]
    exact hkeep.trans (.of_same hkeep.coherent (fun _ => rfl) rfl)

/-- So a symbol does. -/
theorem advances_bookSymbol (h : e.Coherent) (snapshots : List MarketSnapshot) (symbol : String) :
    Advances e (bookSymbol env snapshots e symbol) := by
  unfold bookSymbol
  split
  · exact .of_same h (fun _ => rfl) rfl
  · next snapshot hquote =>
    have hbook := advances_ingestSnapshot env h (quoteOf_symbol hquote)
    exact hbook.trans (.of_same hbook.coherent (fun _ => rfl) rfl)

/-- So does a fetch. -/
theorem advances_bookFetch (env : TickEnv) (h : e.Coherent) (due : List String) (outcome : FetchOutcome) :
    Advances e (e.bookFetch env due outcome) := by
  have herror : ∀ error, Advances e (e.setFetchError error) := fun _ => .of_same h (fun _ => rfl) rfl
  unfold bookFetch
  split
  · refine (herror _).trans (Advances.foldl (fun e symbol _ h => ?_) (herror _).coherent)
    exact .of_same h (fun _ => rfl) rfl
  · exact (herror _).trans
      (Advances.foldl (fun e symbol _ h => advances_bookSymbol h _ symbol) (herror _).coherent)

theorem advances_bookExhausted (env : TickEnv) (h : e.Coherent) (due : List String) :
    Advances e (e.bookExhausted env due) :=
  Advances.foldl (fun _ _ _ h => .of_same h (fun _ => rfl) rfl) h

/-- What booking one symbol does to the ingested symbols and to the other buffers. -/
theorem bookSymbol_fetched (e : MarketEngine) (env : TickEnv) (snapshots : List MarketSnapshot)
    (symbol : String) :
    (∀ s ∈ (bookSymbol env snapshots e symbol).fetchedSymbols,
      s ∈ e.fetchedSymbols ∨ s = symbol ∧ e.Ingests snapshots symbol) ∧
    ∀ s, s ≠ symbol → (bookSymbol env snapshots e symbol).buffers.latest s = e.buffers.latest s := by
  unfold bookSymbol
  split
  · exact ⟨fun s hs => .inl hs, fun s _ => rfl⟩
  next snapshot hquote =>
    have hsymbol := quoteOf_symbol hquote
    rcases ingestSnapshot_cases e env symbol snapshot with ⟨-, d, heq⟩ | ⟨hlate, d, heq⟩
    · rw [heq]
      exact ⟨fun s hs => .inl hs, fun s _ => rfl⟩
    · rw [heq]
      refine ⟨fun s hs => ?_, fun s hne => ?_⟩
      · rcases List.mem_append.1 hs with hs | hs
        · exact .inl hs
        · exact .inr ⟨List.mem_singleton.1 hs, snapshot, hquote, hlate⟩
      · have hlatest := latest_append (hsymbol ▸ hlate) s
        rw [if_neg (hsymbol ▸ hne)] at hlatest
        exact hlatest

/-- The symbols that a fetch ingests. -/
theorem fetched_bookFetch (e : MarketEngine) (env : TickEnv) {due : List String} (hdue : due.Nodup)
    (snapshots : List MarketSnapshot) :
    ∀ s ∈ (e.bookFetch env due (.quotes snapshots)).fetchedSymbols,
      s ∈ e.fetchedSymbols ∨ s ∈ due ∧ e.Ingests snapshots s := by
  have hloop := foldl_history (f := bookSymbol env snapshots) (b := e.setFetchError none) (l := due)
    (I := fun pre e' => (∀ s ∈ e'.fetchedSymbols, s ∈ e.fetchedSymbols ∨ s ∈ pre ∧ e.Ingests snapshots s) ∧
      ∀ s, s ∉ pre → e'.buffers.latest s = e.buffers.latest s)
    ⟨fun s hs => .inl hs, fun s _ => rfl⟩ fun pre symbol post e' heq h => ?_
  · exact hloop.1
  have hnew : symbol ∉ pre := by
    rw [heq] at hdue
    exact fun hmem => (List.nodup_append.1 hdue).2.2 symbol hmem symbol List.mem_cons_self rfl
  obtain ⟨hfetched, hothers⟩ := bookSymbol_fetched e' env snapshots symbol
  refine ⟨fun s hs => ?_, fun s hs => ?_⟩
  · rcases hfetched s hs with hs | ⟨rfl, snapshot, hquote, hle⟩
    · exact (h.1 s hs).imp_right fun hpre => ⟨List.mem_append_left _ hpre.1, hpre.2⟩
    · rw [h.2 s hnew] at hle
      exact .inr ⟨List.mem_append_right _ (List.mem_singleton_self s), snapshot, hquote, hle⟩
  · have hne : s ≠ symbol := by
      rintro rfl
      exact hs (List.mem_append_right _ (List.mem_singleton_self s))
    exact (hothers s hne).trans (h.2 s fun hpre => hs (List.mem_append_left _ hpre))

/-! ## Processing -/

/-- What processing one symbol writes. -/
structure SymbolWrites (e : MarketEngine) (symbol : String) (row : SymbolTickResult)
    (e' : MarketEngine) : Prop where
  latest : ∀ s, e'.states.latestOf s = e.states.latestOf s
  buffers : e'.buffers = e.buffers
  fetched : e'.fetchedSymbols = e.fetchedSymbols
  level : e'.Levelled symbol
  others : ∀ s, s ≠ symbol → e'.states.get s = e.states.get s ∧
    e'.scheduler.getLevel s = e.scheduler.getLevel s
  accepted : row.acceptedEvents ≠ [] → symbol ∈ e.fetchedSymbols
  alerts : row.alertCandidates ≠ [] → symbol ∈ e.fetchedSymbols

/-- The health of a symbol is written into its own state. -/
theorem projectHealth_writes (env : TickEnv) (e : MarketEngine) (symbol : String) :
    (∀ s, (projectHealth env e symbol).states.latestOf s = e.states.latestOf s) ∧
      (projectHealth env e symbol).Levelled symbol ∧
      ∀ s, s ≠ symbol → (projectHealth env e symbol).states.get s = e.states.get s := by
  refine ⟨fun s => e.states.latestOf_applyRuntime symbol s _ _, ?_, fun s hne => ?_⟩
  · obtain ⟨state, hget, hlevel, -⟩ := e.states.get_applyRuntime_self symbol
      (e.reading symbol (e.scheduler.getLevel symbol) (env.mono .projectStatus symbol)
        (env.mono .projectAge symbol)) none
    exact ⟨state, hget, hlevel⟩
  · exact e.states.get_applyRuntime_ne symbol s hne

/-- A row without features writes its own state. -/
theorem processNothing_writes (e e₁ : MarketEngine) (hs : e₁.states = e.states)
    (hb : e₁.buffers = e.buffers) (hf : e₁.fetchedSymbols = e.fetchedSymbols)
    (hl : e₁.scheduler = e.scheduler) (levelBefore : SchedulerLevel) (withFeatures : Bool) :
    SymbolWrites e symbol (e₁.processNothing env symbol levelBefore withFeatures).1
      (e₁.processNothing env symbol levelBefore withFeatures).2 := by
  obtain ⟨hlatest, hlevel, hothers⟩ := projectHealth_writes env e₁ symbol
  exact
    { latest := fun s => (hlatest s).trans (by rw [hs])
      buffers := hb
      fetched := hf
      level := hlevel
      others := fun s hne => ⟨(hothers s hne).trans (by rw [hs]), by rw [← hl]; rfl⟩
      accepted := fun hne => absurd rfl hne
      alerts := fun hne => absurd rfl hne }

/-- The levels of the others stay. -/
theorem getLevel_setLevel_ne (s : AdaptiveScheduler) (now : ℚ) (level : SchedulerLevel) {y : String}
    (h : y ≠ symbol) : (s.setLevel now symbol level).2.getLevel y = s.getLevel y := by
  unfold AdaptiveScheduler.setLevel
  dsimp only
  split
  · simp [AdaptiveScheduler.getLevel, Dict.getD_set, h]
  · split
    · rfl
    · simp [AdaptiveScheduler.getLevel, Dict.getD_set, h]

/-- A row with a result writes its own state, and its level. -/
theorem processResult_writes (e e₁ : MarketEngine) (hs : e₁.states = e.states)
    (hb : e₁.buffers = e.buffers) (hf : e₁.fetchedSymbols = e.fetchedSymbols)
    (hl : e₁.scheduler = e.scheduler) (hfetched : symbol ∈ e.fetchedSymbols)
    (levelBefore : SchedulerLevel) (features : Option MarketFeatures) (r : SignalPipelineResult) :
    SymbolWrites e symbol (e₁.processResult env symbol levelBefore features r).1
      (e₁.processResult env symbol levelBefore features r).2 where
  latest := fun s => (e₁.states.latestOf_applyRuntime symbol s _ _).trans (by rw [hs])
  buffers := hb
  fetched := hf
  level := by
    obtain ⟨state, hget, hlevel, -⟩ := e₁.states.get_applyRuntime_self symbol _ _
    exact ⟨state, hget, hlevel⟩
  others := fun s hne => by
    refine ⟨(e₁.states.get_applyRuntime_ne symbol s hne).trans (by rw [hs]), ?_⟩
    rw [← hl]
    exact getLevel_setLevel_ne e₁.scheduler _ _ hne
  accepted := fun _ => hfetched
  alerts := fun _ => hfetched

/-- **Processing one symbol.** -/
theorem processSymbol_writes (e : MarketEngine) (env : TickEnv) (symbol : String) :
    SymbolWrites e symbol (e.processSymbol env symbol).1 (e.processSymbol env symbol).2 := by
  unfold processSymbol
  dsimp only
  split
  · exact processNothing_writes e e rfl rfl rfl rfl _ _
  next hunfetched =>
  have hfetched : symbol ∈ e.fetchedSymbols := not_not.1 hunfetched
  split
  · exact processNothing_writes e e rfl rfl rfl rfl _ _
  next buffer hbuffer =>
    unfold processBuffer
    split
    · exact processNothing_writes e e rfl rfl rfl rfl _ _
    · exact processResult_writes e e rfl rfl rfl rfl hfetched _ _ _
    · split
      · next p _ => exact processNothing_writes e (e.setPipeline p) rfl rfl rfl rfl _ _
      · next r p _ => exact processResult_writes e (e.setPipeline p) rfl rfl rfl rfl hfetched _ _ _

/-- What the loop over the due symbols has written. -/
structure LoopWrites (e : MarketEngine) (done : List String)
    (r : List SymbolTickResult × MarketEngine) : Prop where
  symbols : r.1.map (·.symbol) = done
  latest : ∀ s, r.2.states.latestOf s = e.states.latestOf s
  buffers : r.2.buffers = e.buffers
  fetched : r.2.fetchedSymbols = e.fetchedSymbols
  levels : ∀ s ∈ done, r.2.Levelled s
  reported : ∀ row ∈ r.1, row.acceptedEvents ≠ [] ∨ row.alertCandidates ≠ [] →
    row.symbol ∈ e.fetchedSymbols

/-- A level that nobody wrote is still right. -/
theorem Levelled.congr {s : String} (h : e.Levelled s) (hs : e'.states.get s = e.states.get s)
    (hl : e'.scheduler.getLevel s = e.scheduler.getLevel s) : e'.Levelled s := by
  obtain ⟨state, hget, hlevel⟩ := h
  exact ⟨state, hs.trans hget, hlevel.trans hl.symm⟩

/-- The loop writes the states of the due symbols. -/
theorem loopWrites_foldl (e : MarketEngine) (env : TickEnv) (due : List String) :
    LoopWrites e due (due.foldl (processNext env) ([], e)) := by
  refine foldl_history (I := LoopWrites e) ?_ fun pre symbol post r _ h => ?_
  · exact ⟨rfl, fun _ => rfl, rfl, rfl, fun _ hs => absurd hs List.not_mem_nil,
      fun _ hrow => absurd hrow List.not_mem_nil⟩
  have hw := processSymbol_writes r.2 env symbol
  have hrow := (processSymbol_turn r.2 env symbol).rowSymbol
  unfold processNext
  generalize r.2.processSymbol env symbol = q at hw hrow
  obtain ⟨row, e'⟩ := q
  have hrow' : row.symbol = symbol := hrow
  refine ⟨by simp [h.symbols, hrow'], fun s => (hw.latest s).trans (h.latest s), hw.buffers.trans h.buffers,
    hw.fetched.trans h.fetched, fun s hs => ?_, fun row' hmem hne => ?_⟩
  · by_cases heq : s = symbol
    · exact heq ▸ hw.level
    · have hpre : s ∈ pre := by
        rcases List.mem_append.1 hs with hs | hs
        · exact hs
        · exact absurd (List.mem_singleton.1 hs) heq
      obtain ⟨hstate, hlevel⟩ := hw.others s heq
      exact (h.levels s hpre).congr hstate hlevel
  · rcases List.mem_append.1 hmem with hmem | hmem
    · exact h.reported row' hmem hne
    · obtain rfl := List.mem_singleton.1 hmem
      rw [hrow', ← h.fetched]
      exact hne.elim hw.accepted hw.alerts

/-! ## A whole tick -/

/-- What a tick leaves behind; `fetched` are the symbols of which it kept a quote. -/
structure TickCoherent (e : MarketEngine) (due : List String) (fetched : String → Prop)
    (tick : EngineTickResult) (e' : MarketEngine) : Prop where
  rows : tick.symbolResults.map (·.symbol) = due
  advances : Advances e e'
  state : ∀ symbol ∈ due, ∃ state, e'.states.get symbol = some state ∧
    state.latest = e'.buffers.latest symbol ∧ state.level = e'.scheduler.getLevel symbol
  reported : ∀ row ∈ tick.symbolResults, row.acceptedEvents ≠ [] ∨ row.alertCandidates ≠ [] →
    row.symbol ∈ due ∧ fetched row.symbol

/-- The health of the others leaves their quotes alone. -/
theorem projectOthers_writes (e : MarketEngine) (env : TickEnv) (plan : TickPlan) :
    (∀ s, (e.projectOthers env plan).states.latestOf s = e.states.latestOf s) ∧
      (e.projectOthers env plan).buffers = e.buffers ∧
      (e.projectOthers env plan).scheduler = e.scheduler ∧
      ∀ s ∈ plan.due, (e.projectOthers env plan).states.get s = e.states.get s := by
  unfold projectOthers
  refine List.foldlRecOn _ (projectHealth env) (motive := fun e' : MarketEngine =>
    (∀ s, e'.states.latestOf s = e.states.latestOf s) ∧ e'.buffers = e.buffers ∧
      e'.scheduler = e.scheduler ∧ ∀ s ∈ plan.due, e'.states.get s = e.states.get s)
    ⟨fun _ => rfl, rfl, rfl, fun _ _ => rfl⟩ fun e' h symbol hsymbol => ?_
  obtain ⟨hlatest, -, hothers⟩ := projectHealth_writes env e' symbol
  have hout : symbol ∉ plan.due := by simpa using (List.mem_filter.1 hsymbol).2
  refine ⟨fun s => (hlatest s).trans (h.1 s), h.2.1, h.2.2.1, fun s hs => ?_⟩
  have hne : s ≠ symbol := by
    rintro rfl
    exact hout hs
  exact (hothers s hne).trans (h.2.2.2 s hs)

/-- The sidecar writes nothing of the engine's. -/
theorem observeTick_writes (e : MarketEngine) (env : TickEnv) (tick : EngineTickResult) :
    (e.observeTick env tick).states = e.states ∧ (e.observeTick env tick).buffers = e.buffers ∧
      (e.observeTick env tick).scheduler = e.scheduler := by
  unfold observeTick
  cases e.intelligence with
  | none => exact ⟨rfl, rfl, rfl⟩
  | some c =>
    dsimp only
    refine List.foldlRecOn _ _ (motive := fun e' : MarketEngine =>
      e'.states = e.states ∧ e'.buffers = e.buffers ∧ e'.scheduler = e.scheduler) ⟨rfl, rfl, rfl⟩ ?_
    exact fun e' h _ _ => h

/-- A tick from its quotes on. -/
theorem finishTick_coherent (h : e.Coherent) (env : TickEnv) (plan : TickPlan) :
    TickCoherent e plan.due (· ∈ e.fetchedSymbols) (e.finishTick env plan).1
      (e.finishTick env plan).2 := by
  have hloop := loopWrites_foldl e env plan.due
  unfold finishTick
  generalize plan.due.foldl (processNext env) ([], e) = r at hloop
  obtain ⟨rows, e₁⟩ := r
  dsimp only
  obtain ⟨hplatest, hpbuffers, hpscheduler, hpget⟩ := projectOthers_writes e₁ env plan
  obtain ⟨hostates, hobuffers, hoscheduler⟩ := observeTick_writes (e₁.projectOthers env plan) env ⟨rows⟩
  -- What follows the loop writes no quotes, so each state is as recent as the loop left it.
  have hadvances : Advances e ((e₁.projectOthers env plan).observeTick env ⟨rows⟩) := by
    refine .of_same h (fun s => ?_) ?_
    · rw [hostates]
      exact (hplatest s).trans (hloop.latest s)
    · rw [hobuffers, hpbuffers]
      exact hloop.buffers
  refine ⟨hloop.symbols, hadvances, fun symbol hsymbol => ?_, fun row hrow hne => ?_⟩
  · obtain ⟨state, hget, hlevel⟩ := hloop.levels symbol hsymbol
    have hstate : ((e₁.projectOthers env plan).observeTick env ⟨rows⟩).states.get symbol = some state := by
      rw [hostates, hpget symbol hsymbol]
      exact hget
    have hlatest := hadvances.coherent symbol
    unfold MarketStateStore.latestOf at hlatest
    rw [hstate] at hlatest
    exact ⟨state, hstate, hlatest, by rw [hoscheduler, hpscheduler]; exact hlevel⟩
  · have hdue : row.symbol ∈ plan.due := by
      rw [← hloop.symbols]
      exact List.mem_map_of_mem hrow
    exact ⟨hdue, hloop.reported row hrow hne⟩

/-- Booking before the rest of a tick. -/
theorem TickCoherent.of_advances {e₁ : MarketEngine} {due : List String} {fetched fetched' : String → Prop}
    {tick : EngineTickResult} (ha : Advances e e₁) (h : TickCoherent e₁ due fetched tick e')
    (hf : ∀ s ∈ due, fetched s → fetched' s) : TickCoherent e due fetched' tick e' :=
  ⟨h.rows, ha.trans h.advances, h.state, fun row hrow hne =>
    ⟨(h.reported row hrow hne).1, hf _ (h.reported row hrow hne).1 (h.reported row hrow hne).2⟩⟩

/-- The symbols that a fetch ingests. -/
def IngestedBy (e : MarketEngine) : FetchOutcome → String → Prop
  | .raised _, _ => False
  | .quotes snapshots, symbol => e.Ingests snapshots symbol

/-- **A tick that awaited its quotes.** -/
theorem endTick_coherent (h : e.Coherent) (env : TickEnv) {plan : TickPlan} (hdue : plan.due.Nodup)
    (hnone : e.fetchedSymbols = []) (outcome : FetchOutcome) :
    TickCoherent e plan.due (e.IngestedBy outcome) (e.endTick env plan outcome).1
      (e.endTick env plan outcome).2 := by
  have hbook := advances_bookFetch env h plan.due outcome
  refine (finishTick_coherent hbook.coherent env plan).of_advances hbook fun s _ hs => ?_
  cases outcome with
  | raised typeName =>
    have hraised : (e.bookFetch env plan.due (.raised typeName)).fetchedSymbols = e.fetchedSymbols :=
      List.foldlRecOn plan.due _ (motive := fun e' : MarketEngine => e'.fetchedSymbols = e.fetchedSymbols)
        rfl fun _ hb _ _ => hb
    rw [hraised, hnone] at hs
    cases hs
  | quotes snapshots =>
    rcases fetched_bookFetch e env hdue snapshots s hs with hs | ⟨-, hs⟩
    · rw [hnone] at hs
      cases hs
    · exact hs

/-- **A tick that fetched nothing.** -/
theorem endIdleTick_coherent (h : e.Coherent) (env : TickEnv) (plan : TickPlan)
    (hnone : e.fetchedSymbols = []) :
    TickCoherent e plan.due (fun _ => False) (e.endIdleTick env plan).1 (e.endIdleTick env plan).2 := by
  have hbook := advances_bookExhausted env h plan.due
  refine (finishTick_coherent hbook.coherent env plan).of_advances hbook fun s _ hs => ?_
  rw [fetched_bookExhausted, hnone] at hs
  cases hs

end MarketEngine

/-! ## Runs -/

namespace EngineSession

variable {s s' : EngineSession}

/-- The engine is coherent, and a tick under way has ingested nothing yet. -/
structure StateInv (s : EngineSession) : Prop where
  coherent : s.engine.Coherent
  plan : ∀ plan ∈ s.inFlight, plan.due.Nodup ∧ s.engine.fetchedSymbols = []

/-- A replaced watchlist is nothing else. -/
theorem replaceWatchlist_frame (e : MarketEngine) (items : List WatchItem) :
    (e.replaceWatchlist items).states = e.states ∧ (e.replaceWatchlist items).buffers = e.buffers := by
  rcases replaceWatchlist_cases e items with heq | ⟨watchlist, heq⟩ <;> rw [heq] <;> exact ⟨rfl, rfl⟩

/-- A step of a session keeps it coherent, and no latest quote becomes older. -/
theorem StateInv.of_step {l : EngineStep} (h : s.StateInv) (hs : s.step l = some s') :
    s'.StateInv ∧ MarketEngine.Advances s.engine s'.engine := by
  have hsame : ∀ {e : MarketEngine}, e.states = s.engine.states → e.buffers = s.engine.buffers →
      MarketEngine.Advances s.engine e := fun hstates hbuffers =>
    .of_same h.coherent (fun symbol => by rw [hstates]) hbuffers
  rcases step_cases hs with ⟨due, -, rfl⟩ | ⟨env, outcome, plan, -, hplan, rfl⟩ |
    ⟨due, env, -, -, rfl⟩ | ⟨items, -, hidle, rfl⟩ | ⟨w, c, c', -, -, -, rfl⟩
  · have hadv : MarketEngine.Advances s.engine (s.engine.beginTick due).2 := hsame rfl rfl
    refine ⟨⟨hadv.coherent, fun plan hp => ?_⟩, hadv⟩
    obtain rfl := Option.some.inj hp
    exact ⟨(s.engine.beginTick_due due).2, rfl⟩
  · obtain ⟨hdue, hnone⟩ := h.plan plan hplan
    have hadv := (MarketEngine.endTick_coherent h.coherent env hdue hnone outcome).advances
    exact ⟨⟨hadv.coherent, fun _ hp => by cases hp⟩, hadv⟩
  · have hbegin : MarketEngine.Advances s.engine (s.engine.beginTick due).2 := hsame rfl rfl
    have hadv := (MarketEngine.endIdleTick_coherent hbegin.coherent env (s.engine.beginTick due).1
      rfl).advances
    exact ⟨⟨hadv.coherent, fun _ hp => by cases hp⟩, hbegin.trans hadv⟩
  · obtain ⟨hstates, hbuffers⟩ := replaceWatchlist_frame s.engine items
    have hadv := hsame hstates hbuffers
    exact ⟨⟨hadv.coherent, fun _ hp => absurd (hidle.symm.trans hp) (by simp)⟩, hadv⟩
  · have hadv : MarketEngine.Advances s.engine (s.engine.setIntelligence c') := hsame rfl rfl
    exact ⟨⟨hadv.coherent, h.plan⟩, hadv⟩

/-- A run advances the engine. -/
theorem StateInv.of_run {steps : List EngineStep} (h : s.StateInv)
    (hrun : run step s steps = some s') :
    s'.StateInv ∧ MarketEngine.Advances s.engine s'.engine := by
  have hkeep : ∀ a l b, (StateInv a ∧ MarketEngine.Advances s.engine a.engine) → step a l = some b →
      StateInv b ∧ MarketEngine.Advances s.engine b.engine := by
    intro a l b ha hb
    obtain ⟨hinv, hadv⟩ := ha.1.of_step hb
    exact ⟨hinv, ha.2.trans hadv⟩
  exact run_inv hkeep ⟨h, .refl h.coherent⟩ hrun

end EngineSession

end MarketSentinel
