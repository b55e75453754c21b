import MarketSentinel.Features.Extremes
import MarketSentinel.Runtime.SessionStart

/-!
# Breakouts over a run

What the breakout events of a tick say of all the quotes that the engine has ingested. The references are
taken from the buffer, which forgets a quote after an hour, beyond 4096 quotes, and when a later quote has
the same timestamp.

* `retains_run`: a buffer is what is retained of the quotes ingested in a run.
* `breakouts_sound_iff`: when the breakout events of a tick are sound for the whole session.
* `breakouts_sound_cumulative`: they are when the extremes of the quotes run on through the session.
-/

namespace MarketSentinel

open Lib Machine

/-! ## A default buffer -/

namespace RingBuffer

/-- A buffer with the default bounds is what is retained of a history. -/
structure Retains (b : RingBuffer) (history : List MarketSnapshot) : Prop where
  items : b.items = retained 3600 4096 history
  retention : b.retentionS = 3600
  size : b.maxSize = 4096

variable {b : RingBuffer} {history : List MarketSnapshot}

theorem Retains.append (h : b.Retains history) (q : MarketSnapshot) : (b.append q).Retains (history ++ [q]) where
  items := by
    unfold RingBuffer.append
    dsimp only
    rw [h.items, h.retention, h.size]
    exact retained_snoc (by norm_num) (by norm_num) history q
  retention := h.retention
  size := h.size

theorem Retains.foldl {quotes : List MarketSnapshot} (h : b.Retains history) :
    (quotes.foldl RingBuffer.append b).Retains (history ++ quotes) := by
  induction quotes generalizing b history with
  | nil => simpa using h
  | cons q quotes ih =>
    have hone := ih (h.append q)
    rwa [List.append_assoc, List.singleton_append] at hone

end RingBuffer

/-! ## The quotes of a run -/

namespace MarketEngine

variable {e : MarketEngine} {env : TickEnv} {symbol : String}

/-- The quote of a symbol that a fetch adds to its buffer: it is not older than the latest one. -/
def kept (e : MarketEngine) (snapshots : List MarketSnapshot) (symbol : String) : Option MarketSnapshot :=
  (quoteOf snapshots symbol).filter fun q =>
    decide (∀ last ∈ e.buffers.latest symbol, last.marketTimestamp ≤ q.marketTimestamp)

/-- The quotes of a symbol that the end of a fetch ingests. -/
def keptOf (e : MarketEngine) (due : List String) (symbol : String) : FetchOutcome → List MarketSnapshot
  | .raised _ => []
  | .quotes snapshots => if symbol ∈ due then (e.kept snapshots symbol).toList else []

theorem bookSymbol_bufferFor (snapshots : List MarketSnapshot) :
    (bookSymbol env snapshots e symbol).buffers.bufferFor symbol =
      (e.kept snapshots symbol).toList.foldl RingBuffer.append (e.buffers.bufferFor symbol) := by
  unfold bookSymbol kept
  cases hquote : quoteOf snapshots symbol with
  | none => rfl
  | some q =>
    have hsymbol := quoteOf_symbol hquote
    rw [Option.filter_some]
    dsimp only
    rcases e.ingestSnapshot_cases env symbol q with ⟨⟨last, hlast, hlt⟩, d, heq⟩ | ⟨hlate, d, heq⟩
    · rw [heq, if_neg]
      · rfl
      · rw [decide_eq_true_eq]
        exact fun hall => absurd (hall last hlast) (not_le.2 hlt)
    · have hbuffer : (e.buffers.append q).bufferFor symbol = (e.buffers.bufferFor symbol).append q := by
        have happend := @SymbolBuffers.buffer_append e.buffers symbol q
        rw [if_pos hsymbol.symm] at happend
        unfold SymbolBuffers.bufferFor at happend ⊢
        rw [happend]
        rfl
      rw [heq, if_pos (decide_eq_true hlate)]
      exact hbuffer

/-- **What a fetch adds to the buffer of a symbol.** -/
theorem bookFetch_bufferFor {due : List String} (hdue : due.Nodup) (outcome : FetchOutcome) :
    (e.bookFetch env due outcome).buffers.bufferFor symbol =
      (e.keptOf due symbol outcome).foldl RingBuffer.append (e.buffers.bufferFor symbol) := by
  cases outcome with
  | raised typeName =>
    exact List.foldlRecOn due _ (motive := fun e' : MarketEngine =>
      e'.buffers.bufferFor symbol = e.buffers.bufferFor symbol) rfl fun _ h _ _ => h
  | quotes snapshots =>
    have herror : Keeps symbol e (e.setFetchError none) := ⟨rfl, rfl, rfl, rfl, id⟩
    unfold bookFetch keptOf
    dsimp only
    split
    · rename_i hmem
      obtain ⟨pre, post, rfl⟩ := List.append_of_mem hmem
      have hpre : symbol ∉ pre := fun hs =>
        (List.nodup_append.1 hdue).2.2 symbol hs symbol List.mem_cons_self rfl
      have hpost : symbol ∉ post := (List.nodup_cons.1 (List.nodup_append.1 hdue).2.1).1
      -- The symbols before it leave the buffer as it was, and so do those after it.
      have hone := herror.trans (@keeps_book env symbol snapshots _ hpre (e.setFetchError none))
      have hlatest := congrArg RingBuffer.latest hone.bufferFor
      rw [SymbolBuffers.latest_bufferFor, SymbolBuffers.latest_bufferFor] at hlatest
      rw [List.foldl_append, List.foldl_cons, (keeps_book snapshots hpost _).bufferFor,
        bookSymbol_bufferFor, hone.bufferFor]
      unfold kept
      rw [hlatest]
    · rename_i hout
      exact (herror.trans (keeps_book snapshots hout _)).bufferFor

theorem bookExhausted_buffers (due : List String) : (e.bookExhausted env due).buffers = e.buffers :=
  List.foldlRecOn due _ (motive := fun e' : MarketEngine => e'.buffers = e.buffers) rfl fun _ h _ _ => h

/-- After its quotes are booked a tick does not write a buffer. -/
theorem finishTick_buffers (plan : TickPlan) : (e.finishTick env plan).2.buffers = e.buffers := by
  have hloop := (loopWrites_foldl e env plan.due).buffers
  unfold finishTick
  generalize plan.due.foldl (processNext env) ([], e) = r at hloop
  dsimp only
  rw [(observeTick_writes _ env _).2.1, (projectOthers_writes r.2 env plan).2.1]
  exact hloop

end MarketEngine

namespace EngineSession

variable {s s' : EngineSession} {symbol : String} {history : List MarketSnapshot}

/-- The quotes of a symbol that a step ingests. -/
def ingested (s : EngineSession) (symbol : String) : EngineStep → List MarketSnapshot
  | .finish _ outcome =>
    match s.inFlight with
    | none => []
    | some plan => s.engine.keptOf plan.due symbol outcome
  | _ => []

/-- The quotes of a symbol that a run ingests, in order. -/
def ingestedIn (symbol : String) : EngineSession → List EngineStep → List MarketSnapshot
  | _, [] => []
  | s, l :: steps =>
    s.ingested symbol l ++
      match s.step l with
      | none => []
      | some s' => ingestedIn symbol s' steps

/-- **A step adds what it ingests to the history of the buffer.** -/
theorem retains_step {l : EngineStep} (hinv : s.StateInv)
    (h : (s.engine.buffers.bufferFor symbol).Retains history) (hs : s.step l = some s') :
    (s'.engine.buffers.bufferFor symbol).Retains (history ++ s.ingested symbol l) := by
  have hsame : ∀ {s' : EngineSession}, s'.engine.buffers = s.engine.buffers →
      (s'.engine.buffers.bufferFor symbol).Retains (history ++ []) := by
    intro s' hbuffers
    rw [hbuffers, List.append_nil]
    exact h
  rcases step_cases hs with ⟨due, rfl, rfl⟩ | ⟨env, outcome, plan, rfl, hplan, rfl⟩ |
    ⟨due, env, rfl, -, rfl⟩ | ⟨items, rfl, -, rfl⟩ | ⟨w, c, c', rfl, -, -, rfl⟩
  · exact hsame rfl
  · have hingested : s.ingested symbol (.finish env outcome) = s.engine.keptOf plan.due symbol outcome := by
      unfold ingested
      rw [hplan]
    unfold MarketEngine.endTick
    dsimp only
    rw [hingested, MarketEngine.finishTick_buffers, MarketEngine.bookFetch_bufferFor (hinv.plan plan hplan).1]
    exact h.foldl
  · refine hsame ?_
    unfold MarketEngine.endIdleTick
    dsimp only
    rw [MarketEngine.finishTick_buffers, MarketEngine.bookExhausted_buffers]
    rfl
  · exact hsame (replaceWatchlist_frame s.engine items).2
  · exact hsame rfl

/-- **The buffer of a symbol is what is retained of the quotes ingested in a run.** -/
theorem retains_run {steps : List EngineStep} (hinv : s.StateInv)
    (h : (s.engine.buffers.bufferFor symbol).Retains history) (hrun : run step s steps = some s') :
    (s'.engine.buffers.bufferFor symbol).Retains (history ++ ingestedIn symbol s steps) := by
  induction steps generalizing s history with
  | nil =>
    obtain rfl := Option.some.inj hrun
    simpa [ingestedIn] using h
  | cons l steps ih =>
    obtain ⟨s₁, hstep, hrest⟩ := run_cons.1 hrun
    have hone := ih (hinv.of_step hstep).1 (retains_step hinv h hstep) hrest
    unfold ingestedIn
    rw [hstep, ← List.append_assoc]
    exact hone

/-! ## Sound breakouts -/

/-- A tick, in a run of an engine with the default buffers, that brings a quote in order. -/
structure QuoteTick (s₀ : EngineSession) (steps : List EngineStep) (s : EngineSession) (plan : TickPlan)
    (snapshots : List MarketSnapshot) (q : MarketSnapshot) : Prop where
  blank : s₀.Blank
  retention : s₀.engine.buffers.retentionS = 3600
  size : s₀.engine.buffers.maxSize = 4096
  reached : run step s₀ steps = some s
  inFlight : s.inFlight = some plan
  due : q.symbol ∈ plan.due
  quote : MarketEngine.quoteOf snapshots q.symbol = some q
  inOrder : ∀ last ∈ s.engine.buffers.latest q.symbol, last.marketTimestamp ≤ q.marketTimestamp

end EngineSession

variable {history : List MarketSnapshot} {q : MarketSnapshot} {events : List MarketEvent}

/-- The quotes that the references of `q` see after a history. -/
def seen (history : List MarketSnapshot) (q : MarketSnapshot) : List MarketSnapshot :=
  referenced q (retained 3600 4096 (history ++ [q]))

/-- An earlier quote of the session that the references do not see. -/
def Forgotten (history : List MarketSnapshot) (q x : MarketSnapshot) : Prop :=
  x ∈ history ∧ before q x = true ∧ x ∉ seen history q

/-- A breakout is above, and a breakdown below, every earlier quote of the session. -/
def SoundBreakouts (history : List MarketSnapshot) (q : MarketSnapshot) (events : List MarketEvent) : Prop :=
  ((∃ event ∈ events, event.type = .dayHighBreakout) →
      ∀ x ∈ history, before q x = true → sessionExtremeHigh x < sessionExtremeHigh q) ∧
    ((∃ event ∈ events, event.type = .dayLowBreakdown) →
      ∀ x ∈ history, before q x = true → sessionExtremeLow q < sessionExtremeLow x)

/-- No forgotten quote is as high as `q`, unless what is seen makes a breakout impossible. -/
def HighCovered (history : List MarketSnapshot) (q : MarketSnapshot) : Prop :=
  (∃ x ∈ seen history q, sessionExtremeHigh q ≤ sessionExtremeHigh x) ∨
    (∀ x ∈ seen history q, sessionExtremeHigh x ≤ 0) ∨
    ∀ x, Forgotten history q x → sessionExtremeHigh x < sessionExtremeHigh q

/-- No forgotten quote is as low as `q`, unless what is seen makes a breakdown impossible. -/
def LowCovered (history : List MarketSnapshot) (q : MarketSnapshot) : Prop :=
  (∃ x ∈ seen history q, sessionExtremeLow x ≤ sessionExtremeLow q) ∨
    (∃ x ∈ seen history q, sessionExtremeLow x ≤ 0) ∨ seen history q = [] ∨
    ∀ x, Forgotten history q x → sessionExtremeLow q < sessionExtremeLow x

/-- **What the breakout events of a tick are taken from.** -/
theorem breakouts_seen {s₀ s : EngineSession} {steps : List EngineStep} {plan : TickPlan} {env : TickEnv}
    {snapshots : List MarketSnapshot} (h : s₀.QuoteTick steps s plan snapshots q)
    (hevents : s.detectedFor plan env snapshots q.symbol = .ok events) :
    ((∃ event ∈ events, event.type = .dayHighBreakout) ↔
        (∃ x ∈ seen (EngineSession.ingestedIn q.symbol s₀ steps) q, 0 < sessionExtremeHigh x) ∧
          ∀ x ∈ seen (EngineSession.ingestedIn q.symbol s₀ steps) q,
            sessionExtremeHigh x < sessionExtremeHigh q) ∧
      ((∃ event ∈ events, event.type = .dayLowBreakdown) ↔
        seen (EngineSession.ingestedIn q.symbol s₀ steps) q ≠ [] ∧
          (∀ x ∈ seen (EngineSession.ingestedIn q.symbol s₀ steps) q, 0 < sessionExtremeLow x) ∧
          ∀ x ∈ seen (EngineSession.ingestedIn q.symbol s₀ steps) q,
            sessionExtremeLow q < sessionExtremeLow x) := by
  have hinv := h.blank.stateInv
  obtain ⟨hdue, -⟩ := (hinv.of_run h.reached).1.plan plan h.inFlight
  -- The buffer that the features are computed from.
  have hblank : (s₀.engine.buffers.bufferFor q.symbol).Retains [] := by
    unfold SymbolBuffers.bufferFor
    rw [h.blank.buffers q.symbol]
    exact ⟨by simp [retained, lastWrites], h.retention, h.size⟩
  have hretains := (EngineSession.retains_run hinv hblank h.reached).append q
  rw [List.nil_append] at hretains
  obtain ⟨hbuffer, -, -, hfetched⟩ := @MarketEngine.turnOf_spec _ _ _ _ _ env hdue h.due h.quote h.inOrder
  have hlatest : ((s.engine.buffers.bufferFor q.symbol).append q).latest = some q := by
    refine RingBuffer.append_latest ?_
    rw [SymbolBuffers.latest_bufferFor]
    exact h.inOrder
  unfold EngineSession.detectedFor MarketEngine.detected at hevents
  rw [if_neg (not_not.2 hfetched), hbuffer] at hevents
  dsimp only at hevents
  unfold MarketEngine.runFeatures FeatureEngine.compute at hevents
  rw [hlatest] at hevents
  split at hevents
  · cases hevents
  dsimp only at hevents
  generalize (s.engine.turnOf env plan.due snapshots q.symbol).featureEngine = engine at hevents
  cases hfeatures : engine.computeLatest ((s.engine.buffers.bufferFor q.symbol).append q) q with
  | error err =>
    rw [hfeatures] at hevents
    cases hevents
  | ok features =>
    rw [hfeatures] at hevents
    obtain rfl := Except.ok.inj hevents
    have hhigh := @highBreakout_iff _ _ (env.pipeline q.symbol).eventId
      ((s.engine.turnOf env plan.due snapshots q.symbol).stored q.symbol) _ (env.pipeline q.symbol).detectedAt
      _ hfeatures
    have hlow := @lowBreakdown_iff _ _ (env.pipeline q.symbol).eventId
      ((s.engine.turnOf env plan.due snapshots q.symbol).stored q.symbol) _ (env.pipeline q.symbol).detectedAt
      _ hfeatures
    rw [hretains.items] at hhigh hlow
    exact ⟨hhigh, hlow⟩

theorem highCovered_iff : HighCovered history q ↔
    ((∃ x ∈ seen history q, 0 < sessionExtremeHigh x) ∧
        (∀ x ∈ seen history q, sessionExtremeHigh x < sessionExtremeHigh q) →
      ∀ x ∈ history, before q x = true → sessionExtremeHigh x < sessionExtremeHigh q) := by
  constructor
  · rintro (⟨x, hx, hle⟩ | hneg | hforgotten) ⟨⟨y, hy, hpos⟩, habove⟩ z hz hbefore
    · exact absurd (habove x hx) (not_lt.2 hle)
    · exact absurd (hneg y hy) (not_le.2 hpos)
    · by_cases hseen : z ∈ seen history q
      · exact habove z hseen
      · exact hforgotten z ⟨hz, hbefore, hseen⟩
  · intro h
    by_cases hreach : ∃ x ∈ seen history q, sessionExtremeHigh q ≤ sessionExtremeHigh x
    · exact .inl hreach
    by_cases hneg : ∀ x ∈ seen history q, sessionExtremeHigh x ≤ 0
    · exact .inr (.inl hneg)
    push Not at hreach hneg
    exact .inr (.inr fun x hx => h ⟨hneg, hreach⟩ x hx.1 hx.2.1)

theorem lowCovered_iff : LowCovered history q ↔
    (seen history q ≠ [] ∧ (∀ x ∈ seen history q, 0 < sessionExtremeLow x) ∧
        (∀ x ∈ seen history q, sessionExtremeLow q < sessionExtremeLow x) →
      ∀ x ∈ history, before q x = true → sessionExtremeLow q < sessionExtremeLow x) := by
  constructor
  · rintro (⟨x, hx, hle⟩ | ⟨x, hx, hneg⟩ | hnil | hforgotten) ⟨hsome, hpos, hbelow⟩ z hz hbefore
    · exact absurd (hbelow x hx) (not_lt.2 hle)
    · exact absurd (hpos x hx) (not_lt.2 hneg)
    · exact absurd hnil hsome
    · by_cases hseen : z ∈ seen history q
      · exact hbelow z hseen
      · exact hforgotten z ⟨hz, hbefore, hseen⟩
  · intro h
    by_cases hreach : ∃ x ∈ seen history q, sessionExtremeLow x ≤ sessionExtremeLow q
    · exact .inl hreach
    by_cases hneg : ∃ x ∈ seen history q, sessionExtremeLow x ≤ 0
    · exact .inr (.inl hneg)
    by_cases hnil : seen history q = []
    · exact .inr (.inr (.inl hnil))
    push Not at hreach hneg
    exact .inr (.inr (.inr fun x hx => h ⟨hnil, hneg, hreach⟩ x hx.1 hx.2.1))

/-- **When the breakouts of a tick are sound for the whole session.** -/
theorem breakouts_sound_iff {s₀ s : EngineSession} {steps : List EngineStep} {plan : TickPlan} {env : TickEnv}
    {snapshots : List MarketSnapshot} (h : s₀.QuoteTick steps s plan snapshots q)
    (hevents : s.detectedFor plan env snapshots q.symbol = .ok events) :
    SoundBreakouts (EngineSession.ingestedIn q.symbol s₀ steps) q events ↔
      HighCovered (EngineSession.ingestedIn q.symbol s₀ steps) q ∧
        LowCovered (EngineSession.ingestedIn q.symbol s₀ steps) q := by
  obtain ⟨hhigh, hlow⟩ := breakouts_seen h hevents
  unfold SoundBreakouts
  rw [hhigh, hlow, highCovered_iff, lowCovered_iff]

/-! ## Providers with running extremes -/

/-- What is retained of a history is the end of it. -/
theorem retained_newer {w y : MarketSnapshot} (hy : y ∈ retained 3600 4096 history)
    (hw : w ∈ lastWrites history) (hle : y.marketTimestamp ≤ w.marketTimestamp) :
    w ∈ retained 3600 4096 history := by
  unfold retained at hy ⊢
  have hwithin : w ∈ (lastWrites history).filter fun item => decide (Within 3600 history item) := by
    have hy' := (List.mem_filter.1 (List.mem_of_mem_drop hy)).2
    rw [decide_eq_true_eq] at hy'
    exact List.mem_filter.2 ⟨hw, decide_eq_true fun x hx => (hy' x hx).trans hle⟩
  have hsorted := (lastWrites_sorted history).filter fun item => decide (Within 3600 history item)
  generalize (lastWrites history).filter (fun item => decide (Within 3600 history item)) = items at *
  have hfront : items.take (items.length - 4096) ++ items.rtake 4096 = items := List.take_append_drop _ _
  rw [← hfront, List.mem_append] at hwithin
  rcases hwithin with hold | hnew
  · rw [← hfront, List.pairwise_append] at hsorted
    exact absurd (hsorted.2.2 w hold y hy) (not_lt.2 hle)
  · exact hnew

/-- The extremes of the quotes run on through the session: no quote is less extreme than one at its time
or before it. -/
def Cumulative (history : List MarketSnapshot) (q : MarketSnapshot) : Prop :=
  ∀ x ∈ history, ∀ y ∈ history, before q x = true → before q y = true →
    x.marketTimestamp ≤ y.marketTimestamp →
      sessionExtremeHigh x ≤ sessionExtremeHigh y ∧ sessionExtremeLow y ≤ sessionExtremeLow x

/-- One seen quote stands for the forgotten ones. -/
theorem Cumulative.covers (h : Cumulative history q) {x y : MarketSnapshot} (hx : x ∈ history)
    (hbefore : before q x = true) (hy : y ∈ seen history q) : ∃ z ∈ seen history q,
      sessionExtremeHigh x ≤ sessionExtremeHigh z ∧ sessionExtremeLow z ≤ sessionExtremeLow x := by
  have hown : before q q = false := by simp [before]
  have hmem : ∀ z ∈ history ++ [q], before q z = true → z ∈ history := by
    intro z hz hbefore
    rcases List.mem_append.1 hz with hz | hz
    · exact hz
    · rw [List.mem_singleton.1 hz, hown] at hbefore
      cases hbefore
  obtain ⟨hy, hybefore⟩ := List.mem_filter.1 hy
  obtain ⟨hyretained, hypos⟩ := List.mem_filter.1 hy
  rw [decide_eq_true_eq] at hypos
  rcases le_or_gt x.marketTimestamp y.marketTimestamp with hle | hlt
  · -- A later quote of the session covers the earlier one, since its extremes are cumulative.
    have hywrite := mem_lastWrites.1 (List.mem_filter.1 (List.mem_of_mem_drop hyretained)).1
    exact ⟨y, List.mem_filter.2 ⟨hy, hybefore⟩,
      h x hx y (hmem y (lastWrite_ts hywrite).1 hybefore) hbefore hybefore hle⟩
  · -- The last write at the time of `x` is newer than `y`, so it is retained too.
    obtain ⟨w, hw⟩ := Option.isSome_iff_exists.1 (lastWrite_isSome (List.mem_append_left [q] hx))
    obtain ⟨hwmem, hwts⟩ := lastWrite_ts hw
    have hwbefore : before q w = true := by
      unfold before inSession at hbefore ⊢
      rw [hwts]
      exact hbefore
    have hwretained : w ∈ retained 3600 4096 (history ++ [q]) :=
      retained_newer hyretained (mem_lastWrites.2 (by rw [hwts]; exact hw)) (by rw [hwts]; exact hlt.le)
    have hwpos : 0 ≤ w.marketTimestamp := by
      rw [hwts]
      exact hypos.trans hlt.le
    exact ⟨w, List.mem_filter.2 ⟨List.mem_filter.2 ⟨hwretained, decide_eq_true hwpos⟩, hwbefore⟩,
      h x hx w (hmem w hwmem hwbefore) hbefore hwbefore hwts.ge⟩

/-- **Breakouts are sound for a provider with running extremes.** -/
theorem breakouts_sound_cumulative {s₀ s : EngineSession} {steps : List EngineStep} {plan : TickPlan}
    {env : TickEnv} {snapshots : List MarketSnapshot} (h : s₀.QuoteTick steps s plan snapshots q)
    (hcumulative : Cumulative (EngineSession.ingestedIn q.symbol s₀ steps) q)
    (hevents : s.detectedFor plan env snapshots q.symbol = .ok events) :
    SoundBreakouts (EngineSession.ingestedIn q.symbol s₀ steps) q events := by
  obtain ⟨hhigh, hlow⟩ := breakouts_seen h hevents
  constructor
  · intro hevent x hx hbefore
    obtain ⟨⟨y, hy, -⟩, habove⟩ := hhigh.1 hevent
    obtain ⟨z, hz, hle, -⟩ := hcumulative.covers hx hbefore hy
    exact hle.trans_lt (habove z hz)
  · intro hevent x hx hbefore
    obtain ⟨hsome, -, hbelow⟩ := hlow.1 hevent
    obtain ⟨y, hy⟩ := List.exists_mem_of_ne_nil _ hsome
    obtain ⟨z, hz, -, hle⟩ := hcumulative.covers hx hbefore hy
    exact (hbelow z hz).trans_le hle

/-! ## A high of more than an hour ago -/

namespace EngineSession

/-- A morning that begins with a price, and two more quotes after an hour, of which the last is fetched. -/
def morningRun (first : ℚ) : List EngineStep :=
  [.replace [{ symbol := "A" }],
    .begin 0, .finish (instantTick 0) (.quotes [averagedQuote first 36000]),
    .begin 3700, .finish (instantTick 3700) (.quotes [averagedQuote 101 39700]), .begin 3760]

/-- The quote that is fetched. -/
def morningQuote : MarketSnapshot := averagedQuote 102 39760

/-- What is read from the session after a morning. -/
def morningReading (s : EngineSession) : Option TickPlan × List MarketSnapshot ×
    Except PyError (List EventType) :=
  (s.inFlight, (s.engine.buffers.bufferFor "A").items,
    (s.detectedFor dayPlan (instantTick 3760) [morningQuote] "A").map (·.map (·.type)))

theorem quoteTick_of_reading {first : ℚ} {s : EngineSession}
    (hrun : run step blankSession (morningRun first) = some s) (hplan : s.inFlight = some dayPlan)
    (hitems : (s.engine.buffers.bufferFor "A").items = [averagedQuote 101 39700]) :
    blankSession.QuoteTick (morningRun first) s dayPlan [morningQuote] morningQuote where
  blank := blankSession_blank
  retention := rfl
  size := rfl
  reached := hrun
  inFlight := hplan
  due := by decide
  quote := by decide
  inOrder := by
    intro last hlast
    have hlatest : (s.engine.buffers.bufferFor "A").latest = some last := by
      rw [SymbolBuffers.latest_bufferFor]
      exact hlast
    unfold RingBuffer.latest at hlatest
    rw [hitems] at hlatest
    obtain rfl := Option.some.inj hlatest
    change (39700 : ℚ) ≤ 39760
    norm_num

/-- The tick after a morning that is read so. -/
theorem detected_of_reading {first : ℚ} {types : List EventType}
    (h : (run step blankSession (morningRun first)).map morningReading =
      some (some dayPlan, [averagedQuote 101 39700], .ok types)) :
    ∃ s : EngineSession, ∃ events, blankSession.QuoteTick (morningRun first) s dayPlan [morningQuote] morningQuote ∧
      s.detectedFor dayPlan (instantTick 3760) [morningQuote] "A" = .ok events ∧ events.map (·.type) = types := by
  obtain ⟨s, hrun, heq⟩ := Option.map_eq_some_iff.1 h
  simp only [morningReading, Prod.mk.injEq] at heq
  obtain ⟨hplan, hitems, hevents⟩ := heq
  have htick := quoteTick_of_reading hrun hplan hitems
  cases hdetected : s.detectedFor dayPlan (instantTick 3760) [morningQuote] "A" with
  | error err =>
    rw [hdetected] at hevents
    cases hevents
  | ok events =>
    rw [hdetected] at hevents
    exact ⟨s, events, htick, hdetected, Except.ok.inj hevents⟩

/-- **A breakout below the high of the morning**, of which the buffer does not know any more. -/
theorem breakouts_unsound : ∃ s : EngineSession, ∃ events,
    blankSession.QuoteTick (morningRun 110) s dayPlan [morningQuote] morningQuote ∧
    s.detectedFor dayPlan (instantTick 3760) [morningQuote] "A" = .ok events ∧
    ¬SoundBreakouts (ingestedIn "A" blankSession (morningRun 110)) morningQuote events := by
  have hfacts : (run step blankSession (morningRun 110)).map morningReading =
      some (some dayPlan, [averagedQuote 101 39700], .ok [.rapidMove, .dayHighBreakout]) := by
    decide +kernel
  have hhistory : averagedQuote 110 36000 ∈ ingestedIn "A" blankSession (morningRun 110) := by
    decide +kernel
  have hbefore : before morningQuote (averagedQuote 110 36000) = true := by decide +kernel
  obtain ⟨s, events, htick, hdetected, htypes⟩ := detected_of_reading hfacts
  refine ⟨s, events, htick, hdetected, fun hsound => ?_⟩
  have hevent : ∃ event ∈ events, event.type = .dayHighBreakout := by
    have hmem : EventType.dayHighBreakout ∈ events.map (·.type) := by
      rw [htypes]
      decide
    exact List.mem_map.1 hmem
  have habove : (110 : ℚ) < 102 := hsound.1 hevent _ hhistory hbefore
  norm_num at habove

/-- A morning that begins with a lower price. -/
theorem breakouts_sound_morning : ∃ s : EngineSession, ∃ events,
    blankSession.QuoteTick (morningRun 100) s dayPlan [morningQuote] morningQuote ∧
    s.detectedFor dayPlan (instantTick 3760) [morningQuote] "A" = .ok events ∧
    (SoundBreakouts (ingestedIn "A" blankSession (morningRun 100)) morningQuote events ↔
      HighCovered (ingestedIn "A" blankSession (morningRun 100)) morningQuote ∧
        LowCovered (ingestedIn "A" blankSession (morningRun 100)) morningQuote) := by
  have hfacts : (run step blankSession (morningRun 100)).map morningReading =
      some (some dayPlan, [averagedQuote 101 39700], .ok [.rapidMove, .dayHighBreakout]) := by
    decide +kernel
  obtain ⟨s, events, htick, hdetected, -⟩ := detected_of_reading hfacts
  exact ⟨s, events, htick, hdetected, breakouts_sound_iff htick hdetected⟩

end EngineSession

end MarketSentinel
