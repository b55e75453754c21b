import MarketSentinel.Signals.Runs

/-!
# What a call reports

Facts about one `process` call that hold whatever ids it draws.

* `process_alerts`: every alert is among the signals that the call reports.
* `process_origin`: a reported signal continues an episode of its symbol, or has a drawn id.
-/

namespace MarketSentinel

open Lib SignalComposer

variable {draws : Draws} {symbol : String}

/-! ## One `_consume_symbol` call -/

section Call

variable (call : SymbolCall) (c₀ : SignalComposer)

/-- The produced signals are the signals of the keys in `done`. -/
def Stands (done : List EpisodeKey) (s : ComposeState) : Prop :=
  ∀ p ∈ s.produced, p.1.symbol = call.symbol ∧ ∃ k ∈ done, s.composer.active.get? k = some p.1

/-- Every episode continues one of its symbol, or has an id drawn in this call. -/
def Originated (s : ComposeState) : Prop :=
  ∀ k signal, s.composer.active.get? k = some signal →
    (∃ k' signal', k'.symbol = k.symbol ∧ c₀.active.get? k' = some signal' ∧
      signal'.id = signal.id) ∨
    (k.symbol = call.symbol ∧ ∃ k', k'.symbol = call.symbol ∧ (call.draws k').1 = signal.id)

variable {call c₀} {done : List EpisodeKey} {l : Lineage} {d : EventDirection}
  {c : SignalComposer} {s s' : ComposeState}

/-- One direction more. The NONE key of the lineage is not treated yet, so a take-over displaces no
signal of this call. -/
theorem Stands.step (h : Stands call done s) (hk : call.keyOf l d ∉ done)
    (hn : call.keyOf l .none ∉ done) (hst : call.DirStep l c d s s') :
    Stands call (call.keyOf l d :: done) s' := by
  cases hst with
  | skip hr hs =>
    subst hs
    intro p hp
    obtain ⟨hsym, k, hkd, ha⟩ := h p hp
    exact ⟨hsym, k, List.mem_cons_of_mem _ hkd, ha⟩
  | compose hr identity former hc =>
    intro p hp
    rw [hc.produced, List.mem_append, List.mem_singleton] at hp
    rcases hp with hp | rfl
    · obtain ⟨hsym, k, hkd, ha⟩ := h p hp
      have hnone : k ≠ (call.keyOf l d).noneKey := fun he => by
        rw [he] at hkd
        exact hn hkd
      refine ⟨hsym, k, List.mem_cons_of_mem _ hkd, ?_⟩
      rw [hc.active, if_neg fun he : k = call.keyOf l d => hk (he ▸ hkd), if_neg fun he => hnone he.2]
      exact ha
    · exact ⟨rfl, _, List.mem_cons_self, (hc.active _).trans (if_pos rfl)⟩

theorem Stands.lineage (h : Stands call done s) (hl : ∀ k ∈ done, k.lineage ≠ l)
    (hc : call.LineageChain l s s') :
    Stands call (call.keyOf l .none :: call.keyOf l .down :: call.keyOf l .up :: done) s' := by
  have hnot : ∀ d, call.keyOf l d ∉ done := fun d hd => hl _ hd rfl
  cases hc with
  | skip hb hs =>
    subst hs
    intro p hp
    obtain ⟨hsym, k, hkd, ha⟩ := h p hp
    exact ⟨hsym, k, by simp [hkd], ha⟩
  | turn hb s₁ s₂ up down none =>
    have h1 := h.step (hnot .up) (hnot .none) up
    have h2 := h1.step (by simpa [SymbolCall.keyOf] using hnot .down)
      (by simpa [SymbolCall.keyOf] using hnot .none) down
    exact h2.step (by simpa [SymbolCall.keyOf] using hnot .none)
      (by simpa [SymbolCall.keyOf] using hnot .none) none

theorem Originated.step (h : Originated call c₀ s) (hst : call.DirStep l c d s s') :
    Originated call c₀ s' := by
  cases hst with
  | skip hr hs => exact hs ▸ h
  | compose hr identity former hc =>
    intro k signal ha
    by_cases hk : k = call.keyOf l d
    · rw [hc.active, if_pos hk] at ha
      obtain rfl := Option.some.inj ha
      subst hk
      cases hc.origin with
      | continued existing hl => exact h _ existing (live?_eq_some.1 hl).1
      | taken noneSignal _ _ _ hl => exact h (call.keyOf l .none) noneSignal (live?_eq_some.1 hl).1
      | fresh => exact .inr ⟨rfl, call.keyOf l d, rfl, rfl⟩
    · exact h k signal (hc.active_of_ne hk ha).1

end Call

/-- The produced signals are active after the call. -/
theorem consumeSymbol_stands (c : SignalComposer) (draws : Draws) (symbol : String)
    (batch : List MarketEvent) (features : MarketFeatures) :
    ∀ p ∈ (c.consumeSymbol draws symbol batch features).1, p.1.symbol = symbol ∧
      p.1 ∈ (c.consumeSymbol draws symbol batch features).2.activeSignals symbol := by
  obtain ⟨s₁, s₂, tape, vwap, heq⟩ := consumeSymbol_chain c draws symbol batch features
  set call := c.callFor draws symbol batch features with hcall
  have h0 : Stands call [] { composer := c.accept symbol batch } := fun p hp => by cases hp
  have h2 := (h0.lineage (by simp) tape).lineage (by simp [SymbolCall.keyOf]) vwap
  rw [heq]
  intro p hp
  obtain ⟨hsym, k, hk, ha⟩ := h2 p hp
  refine ⟨hsym, mem_activeSignals.2 ⟨k, ?_, ha⟩⟩
  have hkeys : k.symbol = call.symbol := by
    simp only [List.mem_cons, List.not_mem_nil, or_false] at hk
    rcases hk with rfl | rfl | rfl | rfl | rfl | rfl <;> rfl
  exact hkeys

theorem consumeSymbol_origin (c : SignalComposer) (draws : Draws) (symbol : String)
    (batch : List MarketEvent) (features : MarketFeatures) :
    Originated (c.callFor draws symbol batch features) c
      { composer := (c.consumeSymbol draws symbol batch features).2 } := by
  obtain ⟨s₁, s₂, tape, vwap, heq⟩ := consumeSymbol_chain c draws symbol batch features
  have h0 : Originated (c.callFor draws symbol batch features) c
      { composer := c.accept symbol batch } := fun k signal ha =>
    .inl ⟨k, signal, rfl, (accept_active.1 ha).1, rfl⟩
  have h1 := tape.inv (fun _ _ _ _ h hst => h.step hst) h0
  have h2 := vwap.inv (fun _ _ _ _ h hst => h.step hst) h1
  rw [heq]
  exact h2

/-! ## One `process` call -/

namespace SignalPipeline

variable (p : SignalPipeline) (env : PipelineEnv) (previous : Option MarketFeatures)
  (current : MarketFeatures)

/-- The produced signals of the compose stage are active after it. -/
theorem composeStage_stands : ∀ q ∈ (p.composeStage env previous current).2.1,
    q.1.symbol = current.symbol ∧
      q.1 ∈ (p.composeStage env previous current).2.2.composer.activeSignals current.symbol := by
  rw [composeStage_eq]
  split
  · exact consumeSymbol_stands _ _ _ _ _
  · intro q hq
    cases hq

variable {p env previous current}

/-- **What a call that returns reports**: the active signals of its symbol, and every alert is one
of them. -/
theorem process_alerts {r : ProcessResult} (h : (p.process env previous current).1 = some r) :
    r.result.signalUpdates =
        (p.process env previous current).2.composer.activeSignals current.symbol ∧
      ∀ a ∈ r.result.alertCandidates, a.symbol = current.symbol ∧ a ∈ r.result.signalUpdates := by
  have hstands := p.composeStage_stands env previous current
  rw [process_composer]
  revert h hstands
  unfold process
  obtain ⟨acceptedEvents, produced, p'⟩ := p.composeStage env previous current
  dsimp only
  intro h hstands
  rw [observeEpisodes_composer] at h
  split at h
  · cases h
  · obtain rfl := Option.some.inj h
    refine ⟨rfl, fun a ha => ?_⟩
    rcases (foldl_alertStep env produced _).2 a ha with ha | ⟨q, hq, rfl⟩
    · cases ha
    · exact hstands q hq

/-- **Where the active signals after a call come from.** -/
theorem process_origin {s : String} {signal : Signal}
    (h : signal ∈ (p.process env previous current).2.composer.activeSignals s) :
    (∃ signal' ∈ p.composer.activeSignals s, signal'.id = signal.id) ∨
      s = current.symbol ∧ ∃ k, k.symbol = s ∧ (env.draws k).1 = signal.id := by
  rw [process_composer, composeStage_eq] at h
  obtain ⟨k, rfl, ha⟩ := mem_activeSignals.1 h
  split at ha
  · rcases consumeSymbol_origin _ _ _ _ _ k signal ha with ⟨k', signal', hk', ha', hid⟩ |
      ⟨hk, k', hk', hid⟩
    · exact .inl ⟨signal', mem_activeSignals.2 ⟨k', hk', ha'⟩, hid⟩
    · exact .inr ⟨hk, k', hk'.trans hk.symm, hid⟩
  · exact .inl ⟨signal, mem_activeSignals.2 ⟨k, rfl, (pruneActive_active.1 ha).1⟩, rfl⟩

end SignalPipeline

end MarketSentinel
