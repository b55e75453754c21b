import MarketSentinel.Features.FirstQuote
import MarketSentinel.Runtime.Unaffected

/-!
# Events at the start of a session

What the detector emits for the first quote of a session, after any history of the symbol.

* `turnOf_spec`: the buffer and the stored features of a symbol when a tick comes to it.
* `detected_first`: only `vwap_cross` can emit something, and it looks at the stored features.
* `first_quote_events_iff`: when two histories make the same events.
-/

namespace MarketSentinel

open Lib Machine

/-! ## The rules -/

/-- An event without what is drawn and read for it. -/
def MarketEvent.undrawn (event : MarketEvent) : MarketEvent :=
  { event with id := "", detectedTimestamp := 0 }

/-- The events of two evaluations are the same, up to ids and clock readings. -/
def SameEvents (r r' : Except PyError (List MarketEvent)) : Prop :=
  r.map (·.map (·.undrawn)) = r'.map (·.map (·.undrawn))

instance (r r' : Except PyError (List MarketEvent)) : Decidable (SameEvents r r') :=
  inferInstanceAs (Decidable (r.map _ = r'.map _))

theorem SameEvents.length {r r' : Except PyError (List MarketEvent)} (h : SameEvents r r') :
    r.map (·.length) = r'.map (·.length) := by
  have hmap : ∀ q : Except PyError (List MarketEvent),
      q.map (·.length) = (q.map (·.map (·.undrawn))).map (·.length) := by
    intro q
    cases q <;> simp [Except.map]
  have hsame : r.map (·.map (·.undrawn)) = r'.map (·.map (·.undrawn)) := h
  rw [hmap r, hmap r', hsame]

/-- The features that are compared with the first quote of a session are on the other side of their
average price. -/
def Crosses (previous : Option MarketFeatures) (q : MarketSnapshot) : Prop :=
  ∃ before above, previous.bind (·.aboveVwap) = some before ∧ (sessionVwap q).2 = some above ∧
    before ≠ above

variable {newId newId' : EventType → String} {detectedAt detectedAt' : ℚ}
  {previous previous' : Option MarketFeatures} {q : MarketSnapshot}

/-- **Only `vwap_cross` emits something for the first quote of a session.** -/
theorem evaluate_first : evaluate newId detectedAt previous (firstFeatures q) =
    vwapCrossRule newId previous (firstFeatures q) detectedAt := by
  unfold evaluate defaultRules
  simp [rapidMoveRule, volumeSpikeRule, priceVolumeExpansionRule, dayHighBreakoutRule,
    dayLowBreakdownRule, firstFeatures, rapidMoveSeverity, volumeSpikeSeverity, orNone]

theorem vwapCrossRule_still (h : ¬ Crosses previous q) :
    vwapCrossRule newId previous (firstFeatures q) detectedAt = [] := by
  unfold vwapCrossRule
  cases previous with
  | none => rfl
  | some features =>
    dsimp only
    split
    · next before above vwap hbefore habove hvwap =>
      rw [if_pos]
      by_contra hne
      exact h ⟨before, above, hbefore, habove, hne⟩
    · rfl

/-- The average price is known when the side is. -/
theorem sessionVwap_some {above : Bool} (h : (sessionVwap q).2 = some above) :
    ∃ vwap, (sessionVwap q).1 = some vwap := by
  revert h
  unfold sessionVwap
  split
  · intro h
    cases h
  · split
    · intro h
      cases h
    · intro _
      exact ⟨_, rfl⟩

theorem vwapCrossRule_cross (h : Crosses previous q) :
    ∃ event, vwapCrossRule newId previous (firstFeatures q) detectedAt = [event] := by
  obtain ⟨before, above, hbefore, habove, hne⟩ := h
  obtain ⟨features, rfl, hfeatures⟩ := Option.bind_eq_some_iff.1 hbefore
  obtain ⟨vwap, hvwap⟩ := sessionVwap_some habove
  unfold vwapCrossRule
  dsimp only [firstFeatures]
  rw [hfeatures, habove, hvwap]
  dsimp only
  rw [if_neg hne]
  exact ⟨_, rfl⟩

/-- The event does not tell from which features the quote crossed. -/
theorem vwapCrossRule_same (h : Crosses previous q) (h' : Crosses previous' q) :
    (vwapCrossRule newId previous (firstFeatures q) detectedAt).map (·.undrawn) =
      (vwapCrossRule newId' previous' (firstFeatures q) detectedAt').map (·.undrawn) := by
  obtain ⟨before, above, hbefore, habove, hne⟩ := h
  obtain ⟨before', above', hbefore', habove', hne'⟩ := h'
  obtain rfl := Option.some.inj (habove.symm.trans habove')
  obtain ⟨features, rfl, hfeatures⟩ := Option.bind_eq_some_iff.1 hbefore
  obtain ⟨features', rfl, hfeatures'⟩ := Option.bind_eq_some_iff.1 hbefore'
  obtain ⟨vwap, hvwap⟩ := sessionVwap_some habove
  unfold vwapCrossRule
  dsimp only [firstFeatures]
  rw [hfeatures, hfeatures', habove, hvwap]
  dsimp only
  rw [if_neg hne, if_neg hne']
  rfl

/-! ## The turn of a symbol -/

namespace MarketEngine

variable {a b c e : MarketEngine} {env : TickEnv} {symbol : String}

/-- The features that the next quote of a symbol is compared with. -/
def stored (e : MarketEngine) (symbol : String) : Option MarketFeatures :=
  (e.states.get symbol).bind (·.features)

/-- What the detector emits when a symbol is processed. -/
def detected (e : MarketEngine) (env : TickEnv) (symbol : String) : Except PyError (List MarketEvent) :=
  if symbol ∉ e.fetchedSymbols then .ok []
  else
    match e.buffers.buffer symbol with
    | none => .ok []
    | some buffer =>
      (e.runFeatures env symbol buffer).map fun
        | none => []
        | some features =>
          evaluate (env.pipeline symbol).eventId (env.pipeline symbol).detectedAt (e.stored symbol) features

/-- The engine when a tick comes to a symbol. -/
def turnOf (e : MarketEngine) (env : TickEnv) (due : List String) (snapshots : List MarketSnapshot)
    (symbol : String) : MarketEngine :=
  ((due.takeWhile fun s => decide (s ≠ symbol)).foldl (processNext env)
    ([], e.bookFetch env due (.quotes snapshots))).2

/-- What the turns of the other symbols keep of a symbol. -/
structure Keeps (symbol : String) (a b : MarketEngine) : Prop where
  bufferFor : b.buffers.bufferFor symbol = a.buffers.bufferFor symbol
  buffer : b.buffers.buffer symbol = a.buffers.buffer symbol
  stored : b.stored symbol = a.stored symbol
  featureEngine : b.featureEngine = a.featureEngine
  fetched : symbol ∈ a.fetchedSymbols → symbol ∈ b.fetchedSymbols

theorem Keeps.refl : Keeps symbol a a := ⟨rfl, rfl, rfl, rfl, id⟩

theorem Keeps.trans (h : Keeps symbol a b) (h' : Keeps symbol b c) : Keeps symbol a c :=
  ⟨h'.bufferFor.trans h.bufferFor, h'.buffer.trans h.buffer, h'.stored.trans h.stored,
    h'.featureEngine.trans h.featureEngine, fun hf => h'.fetched (h.fetched hf)⟩

theorem keeps_bookSymbol (e : MarketEngine) (env : TickEnv) (snapshots : List MarketSnapshot) {s : String}
    (hs : symbol ≠ s) : Keeps symbol e (bookSymbol env snapshots e s) := by
  have hoff := SameOff.bookSymbol_own (x := s) e env snapshots
  refine ⟨hoff.buffers.bufferFor hs, hoff.buffers.buffer symbol hs, ?_, hoff.featureEngine,
    (hoff.fetched symbol hs).2⟩
  unfold MarketEngine.stored
  rw [hoff.get hs]

theorem keeps_processSymbol (e : MarketEngine) (env : TickEnv) {s : String} (hs : symbol ≠ s) :
    Keeps symbol e (e.processSymbol env s).2 := by
  have hw := processSymbol_writes e env s
  refine ⟨by rw [hw.buffers], by rw [hw.buffers], ?_, processSymbol_featureEngine e env s, ?_⟩
  · unfold MarketEngine.stored
    rw [(hw.others symbol hs).1]
  · rw [hw.fetched]
    exact id

theorem keeps_book (snapshots : List MarketSnapshot) {l : List String} (hl : symbol ∉ l) (e : MarketEngine) :
    Keeps symbol e (l.foldl (bookSymbol env snapshots) e) :=
  List.foldlRecOn l _ (motive := fun e' : MarketEngine => Keeps symbol e e') .refl
    fun e' h _ hs => h.trans (keeps_bookSymbol e' env snapshots fun heq => hl (heq ▸ hs))

theorem keeps_process {l : List String} (hl : symbol ∉ l) (rows : List SymbolTickResult) (e : MarketEngine) :
    Keeps symbol e (l.foldl (processNext env) (rows, e)).2 :=
  List.foldlRecOn l _ (motive := fun r : List SymbolTickResult × MarketEngine => Keeps symbol e r.2) .refl
    fun r h _ hs => h.trans (keeps_processSymbol r.2 env fun heq => hl (heq ▸ hs))

/-- A quote that is kept, in the buffer and among the ingested symbols. -/
theorem bookSymbol_kept {snapshots : List MarketSnapshot} (hquote : quoteOf snapshots symbol = some q)
    (hlate : ∀ last ∈ e.buffers.latest symbol, last.marketTimestamp ≤ q.marketTimestamp) :
    (bookSymbol env snapshots e symbol).buffers.buffer symbol =
        some ((e.buffers.bufferFor symbol).append q) ∧
      (bookSymbol env snapshots e symbol).stored symbol = e.stored symbol ∧
      (bookSymbol env snapshots e symbol).featureEngine = e.featureEngine ∧
      symbol ∈ (bookSymbol env snapshots e symbol).fetchedSymbols := by
  have hsymbol := quoteOf_symbol hquote
  rcases e.ingestSnapshot_cases env symbol q with ⟨⟨last, hlast, hlt⟩, -⟩ | ⟨-, d, heq⟩
  · exact absurd (hlate last hlast) (not_le.2 hlt)
  have hbuffer : (e.buffers.append q).buffer symbol = some ((e.buffers.bufferFor symbol).append q) := by
    rw [SymbolBuffers.buffer_append, if_pos hsymbol.symm]
  have hstored : ((e.states.updateLatest q).get symbol).bind (·.features) = e.stored symbol := by
    unfold MarketStateStore.updateLatest MarketStateStore.get
    rw [hsymbol]
    dsimp only
    rw [Dict.get?_set, if_pos rfl]
    rfl
  unfold bookSymbol
  rw [hquote]
  dsimp only
  rw [heq]
  exact ⟨hbuffer, hstored, rfl, List.mem_append_right _ (List.mem_singleton_self symbol)⟩

/-- **What a tick finds of a symbol when it comes to it.** -/
theorem turnOf_spec {due : List String} {snapshots : List MarketSnapshot} (env : TickEnv)
    (hdue : due.Nodup) (hmem : symbol ∈ due) (hquote : quoteOf snapshots symbol = some q)
    (hlate : ∀ last ∈ e.buffers.latest symbol, last.marketTimestamp ≤ q.marketTimestamp) :
    (e.turnOf env due snapshots symbol).buffers.buffer symbol =
        some ((e.buffers.bufferFor symbol).append q) ∧
      (e.turnOf env due snapshots symbol).stored symbol = e.stored symbol ∧
      (e.turnOf env due snapshots symbol).featureEngine = e.featureEngine ∧
      symbol ∈ (e.turnOf env due snapshots symbol).fetchedSymbols := by
  obtain ⟨pre, post, rfl⟩ := List.append_of_mem hmem
  have hpre : symbol ∉ pre := fun hs =>
    (List.nodup_append.1 hdue).2.2 symbol hs symbol List.mem_cons_self rfl
  have hpost : symbol ∉ post := (List.nodup_cons.1 (List.nodup_append.1 hdue).2.1).1
  have hbefore : (pre ++ symbol :: post).takeWhile (fun s => decide (s ≠ symbol)) = pre := by
    rw [List.takeWhile_append_of_pos fun s hs => by simpa using fun heq : s = symbol => hpre (heq ▸ hs)]
    simp
  -- The quotes of the symbols before it, its own, and those of the symbols after it.
  let e₁ := pre.foldl (bookSymbol env snapshots) (e.setFetchError none)
  have herror : Keeps symbol e (e.setFetchError none) := ⟨rfl, rfl, rfl, rfl, id⟩
  have hone : Keeps symbol e e₁ := herror.trans (keeps_book snapshots hpre _)
  have hlate₁ : ∀ last ∈ e₁.buffers.latest symbol, last.marketTimestamp ≤ q.marketTimestamp := by
    rw [← SymbolBuffers.latest_bufferFor, hone.bufferFor, SymbolBuffers.latest_bufferFor]
    exact hlate
  obtain ⟨hbuffer, hstored, hengine, hfetched⟩ := @bookSymbol_kept _ _ env _ _ hquote hlate₁
  have hthree := (@keeps_book env symbol snapshots _ hpost (bookSymbol env snapshots e₁ symbol)).trans
    (@keeps_process env symbol _ hpre [] _)
  have heq : e.turnOf env (pre ++ symbol :: post) snapshots symbol = (pre.foldl (processNext env)
      ([], post.foldl (bookSymbol env snapshots) (bookSymbol env snapshots e₁ symbol))).2 := by
    unfold turnOf bookFetch
    rw [hbefore]
    dsimp only
    rw [List.foldl_append, List.foldl_cons]
  rw [heq]
  refine ⟨?_, ?_, ?_, hthree.fetched hfetched⟩
  · rw [hthree.buffer, hbuffer, hone.bufferFor]
  · rw [hthree.stored, hstored, hone.stored]
  · rw [hthree.featureEngine, hengine, hone.featureEngine]

end MarketEngine

/-! ## Histories -/

/-- A tick, in a run of an engine, that brings the first quote of a session of a symbol. -/
structure FirstQuote (s : EngineSession) (plan : TickPlan) (env : TickEnv)
    (snapshots : List MarketSnapshot) (q : MarketSnapshot) : Prop where
  reached : ∃ s₀ steps, s₀.Blank ∧ run EngineSession.step s₀ steps = some s
  inFlight : s.inFlight = some plan
  due : q.symbol ∈ plan.due
  quote : MarketEngine.quoteOf snapshots q.symbol = some q
  day : ∃ day, sessionId q.marketTimestamp = .ok day
  earlier : ∀ item ∈ (s.engine.buffers.bufferFor q.symbol).items, Foreign q item
  computes : env.featuresRaise q.symbol = false

/-- What the detector emits for the quote of a symbol in a tick. -/
def EngineSession.detectedFor (s : EngineSession) (plan : TickPlan) (env : TickEnv)
    (snapshots : List MarketSnapshot) (symbol : String) : Except PyError (List MarketEvent) :=
  (s.engine.turnOf env plan.due snapshots symbol).detected env symbol

/-- **The events of the first quote of a session.** -/
theorem detected_first {s : EngineSession} {plan : TickPlan} {env : TickEnv}
    {snapshots : List MarketSnapshot} (h : FirstQuote s plan env snapshots q) :
    s.detectedFor plan env snapshots q.symbol = (reach q).map fun _ =>
      vwapCrossRule (env.pipeline q.symbol).eventId (s.engine.stored q.symbol) (firstFeatures q)
        (env.pipeline q.symbol).detectedAt := by
  obtain ⟨s₀, steps, hblank, hrun⟩ := h.reached
  obtain ⟨hdue, -⟩ := (hblank.stateInv.of_run hrun).1.plan plan h.inFlight
  obtain ⟨day, hday⟩ := h.day
  have hlate : ∀ last ∈ s.engine.buffers.latest q.symbol, last.marketTimestamp ≤ q.marketTimestamp := by
    intro last hlast
    rw [← SymbolBuffers.latest_bufferFor] at hlast
    exact (h.earlier last (RingBuffer.latest_mem hlast)).1.le
  obtain ⟨hbuffer, hstored, hengine, hfetched⟩ :=
    MarketEngine.turnOf_spec env hdue h.due h.quote hlate
  have hlatest : ((s.engine.buffers.bufferFor q.symbol).append q).latest = some q := by
    refine RingBuffer.append_latest ?_
    rwa [SymbolBuffers.latest_bufferFor]
  have hfirst : FirstIn q ((s.engine.buffers.bufferFor q.symbol).append q) := fun item hitem =>
    (RingBuffer.mem_append hitem).imp_right (h.earlier item)
  unfold EngineSession.detectedFor MarketEngine.detected
  rw [if_neg (not_not.2 hfetched), hbuffer]
  dsimp only
  unfold MarketEngine.runFeatures FeatureEngine.compute
  rw [h.computes, hengine, hlatest, hstored]
  dsimp only
  rw [computeLatest_first s.engine.featureEngine hfirst hday]
  cases reach q with
  | error err => rfl
  | ok _ =>
    simp only [Bool.false_eq_true, if_false, Except.map, Functor.map]
    rw [evaluate_first]

/-- **When two histories make the same events.** The histories before the first quote of a session
make no difference to its events just when the features that they left are on the other side of the
average price in both or in neither (or the windows of the quote begin before the first date). -/
theorem first_quote_events_iff {s s' : EngineSession} {plan plan' : TickPlan} {env env' : TickEnv}
    {snapshots snapshots' : List MarketSnapshot} (h : FirstQuote s plan env snapshots q)
    (h' : FirstQuote s' plan' env' snapshots' q) :
    SameEvents (s.detectedFor plan env snapshots q.symbol)
        (s'.detectedFor plan' env' snapshots' q.symbol) ↔
      (reach q = .ok () →
        (Crosses (s.engine.stored q.symbol) q ↔ Crosses (s'.engine.stored q.symbol) q)) := by
  rw [detected_first h, detected_first h']
  unfold SameEvents
  cases hreach : reach q with
  | error err => simp [Except.map]
  | ok _ =>
    simp only [Except.map, Except.ok.injEq, forall_const]
    by_cases hc : Crosses (s.engine.stored q.symbol) q <;>
      by_cases hc' : Crosses (s'.engine.stored q.symbol) q
    · exact iff_of_true (vwapCrossRule_same hc hc') (iff_of_true hc hc')
    · obtain ⟨event, hevent⟩ :=
        @vwapCrossRule_cross (env.pipeline q.symbol).eventId (env.pipeline q.symbol).detectedAt _ _ hc
      rw [hevent, vwapCrossRule_still hc']
      simp [hc, hc']
    · obtain ⟨event, hevent⟩ :=
        @vwapCrossRule_cross (env'.pipeline q.symbol).eventId (env'.pipeline q.symbol).detectedAt _ _ hc'
      rw [hevent, vwapCrossRule_still hc]
      simp [hc, hc']
    · rw [vwapCrossRule_still hc, vwapCrossRule_still hc']
      simp [hc, hc']

/-! ## Two days -/

namespace EngineSession

/-- A quote of "A" whose session has an average price of 100. -/
def averagedQuote (price ts : ℚ) : MarketSnapshot :=
  { flatQuote "A" ts with price := price, volume := 100, turnover := some 10000 }

/-- A day with one quote, up to the fetch of the next day. -/
def dayRun (price : ℚ) : List EngineStep :=
  [.replace [{ symbol := "A" }],
    .begin 0, .finish (instantTick 0) (.quotes [averagedQuote price 36000]), .begin 86400]

/-- The opening quote of the next day. -/
def openingQuote : MarketSnapshot := averagedQuote 101 122400

def dayPlan : TickPlan := ⟨["A"], ["A"]⟩

/-- What is read from the session after a day. -/
def dayReading (s : EngineSession) : Option TickPlan × List MarketSnapshot × Option Bool ×
    Except PyError ℕ :=
  (s.inFlight, (s.engine.buffers.bufferFor "A").items, (s.engine.stored "A").bind (·.aboveVwap),
    (s.detectedFor dayPlan (instantTick 86400) [openingQuote] "A").map (·.length))

theorem firstQuote_of_reading {price : ℚ} {s : EngineSession}
    (hrun : run step blankSession (dayRun price) = some s)
    (hplan : s.inFlight = some dayPlan)
    (hitems : (s.engine.buffers.bufferFor "A").items = [averagedQuote price 36000]) :
    FirstQuote s dayPlan (instantTick 86400) [openingQuote] openingQuote where
  reached := ⟨_, _, blankSession_blank, hrun⟩
  inFlight := hplan
  due := by decide
  quote := by decide
  day := ⟨1, by decide +kernel⟩
  earlier := by
    intro item hitem
    have hmem : item ∈ (s.engine.buffers.bufferFor "A").items := hitem
    rw [hitems, List.mem_singleton] at hmem
    subst hmem
    have hsame : isSameSession (36000 : ℚ) 122400 = .ok false := by decide +kernel
    exact ⟨by change (36000 : ℚ) < 122400; norm_num, hsame⟩
  computes := rfl

/-- **The features of the day before count**: after a close below the average price the first quote of
the next day is a cross, after a close above it is not. -/
theorem first_quote_events_differ : ∃ s s', FirstQuote s dayPlan (instantTick 86400) [openingQuote] openingQuote ∧
    FirstQuote s' dayPlan (instantTick 86400) [openingQuote] openingQuote ∧
    ¬ SameEvents (s.detectedFor dayPlan (instantTick 86400) [openingQuote] openingQuote.symbol)
      (s'.detectedFor dayPlan (instantTick 86400) [openingQuote] openingQuote.symbol) := by
  have hbelow : (run step blankSession (dayRun 99)).map dayReading =
      some (some dayPlan, [averagedQuote 99 36000], some false, .ok 1) := by
    decide +kernel
  have habove : (run step blankSession (dayRun 101)).map dayReading =
      some (some dayPlan, [averagedQuote 101 36000], some true, .ok 0) := by
    decide +kernel
  obtain ⟨s, hrun, heq⟩ := Option.map_eq_some_iff.1 hbelow
  obtain ⟨s', hrun', heq'⟩ := Option.map_eq_some_iff.1 habove
  simp only [dayReading, Prod.mk.injEq] at heq heq'
  refine ⟨s, s', firstQuote_of_reading hrun heq.1 heq.2.1, firstQuote_of_reading hrun' heq'.1 heq'.2.1, ?_⟩
  intro hsame
  have hlength := hsame.length
  have hone : (s.detectedFor dayPlan (instantTick 86400) [openingQuote] openingQuote.symbol).map
      (·.length) = .ok 1 := heq.2.2.2
  have hzero : (s'.detectedFor dayPlan (instantTick 86400) [openingQuote] openingQuote.symbol).map
      (·.length) = .ok 0 := heq'.2.2.2
  rw [hone, hzero] at hlength
  cases hlength

/-- Two different closes below the average price. -/
theorem first_quote_events_below : ∃ s s',
    run step blankSession (dayRun 99) = some s ∧ run step blankSession (dayRun 98) = some s' ∧
    SameEvents (s.detectedFor dayPlan (instantTick 86400) [openingQuote] openingQuote.symbol)
      (s'.detectedFor dayPlan (instantTick 86400) [openingQuote] openingQuote.symbol) := by
  have hfirst : (run step blankSession (dayRun 99)).map dayReading =
      some (some dayPlan, [averagedQuote 99 36000], some false, .ok 1) := by
    decide +kernel
  have hsecond : (run step blankSession (dayRun 98)).map dayReading =
      some (some dayPlan, [averagedQuote 98 36000], some false, .ok 1) := by
    decide +kernel
  obtain ⟨s, hrun, heq⟩ := Option.map_eq_some_iff.1 hfirst
  obtain ⟨s', hrun', heq'⟩ := Option.map_eq_some_iff.1 hsecond
  simp only [dayReading, Prod.mk.injEq] at heq heq'
  refine ⟨s, s', hrun, hrun', (first_quote_events_iff (firstQuote_of_reading hrun heq.1 heq.2.1)
    (firstQuote_of_reading hrun' heq'.1 heq'.2.1)).2 fun _ => ?_⟩
  -- Both closes are below, the opening quote is above.
  have hvwap : (sessionVwap openingQuote).2 = some true := by decide +kernel
  exact iff_of_true ⟨false, true, heq.2.2.1, hvwap, by decide⟩ ⟨false, true, heq'.2.2.1, hvwap, by decide⟩

end EngineSession

end MarketSentinel
