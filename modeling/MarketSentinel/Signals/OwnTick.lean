import MarketSentinel.Signals.Runs

/-!
# The signals of a tick

What holds of the signal layer in every state that a run with fresh ids reaches.

* `process_spec`: a `process` call returns, suppresses no same-tick duplicate and alerts only
  signals that it reports as active.
* `run_inv`: the composer's tables are in step.
* `own_tick_complete`: every event of a batch is composed into exactly one signal of its call.
-/

namespace MarketSentinel

open Lib Machine SignalComposer

variable {seen drawn : Set String}

/-! ## One call -/

theorem mapM_traceFor {c : SignalComposer} {l : List Signal}
    (hmem : ∀ s ∈ l, ∃ t, c.traceFor s.id = some t) :
    ∃ ts, l.mapM (fun item => c.traceFor item.id) = some ts := by
  induction l with
  | nil => exact ⟨[], rfl⟩
  | cons s l ih =>
    rw [List.forall_mem_cons] at hmem
    obtain ⟨⟨t, ht⟩, hl⟩ := hmem
    obtain ⟨ts, hts⟩ := ih hl
    exact ⟨t :: ts, by rw [List.mapM_cons, ht, hts]; rfl⟩

/-- The active signals of a composer in step have their traces. -/
theorem traces_of_active {c : SignalComposer} (h : Inv seen drawn c) (symbol : String) :
    ∃ ts, (c.activeSignals symbol).mapM (fun item => c.traceFor item.id) = some ts := by
  refine mapM_traceFor fun s hs => ?_
  obtain ⟨k, -, ha⟩ := mem_activeSignals.1 hs
  obtain ⟨t, ht, -⟩ := h.trace ha
  exact ⟨t, ht⟩

/-- What the environment of a `process` call offers is fresh. -/
structure FreshEnv (seen drawn : Set String) (symbol : String) (env : PipelineEnv) : Prop where
  types : (EventType.all.map env.eventId).Nodup
  unseen : ∀ t, env.eventId t ∉ seen
  draws : FreshDraws drawn symbol env.draws

namespace SignalPipeline

variable {p : SignalPipeline} {env : PipelineEnv} {current : MarketFeatures}

/-- The composer after the compose stage, and the signals it produced. -/
theorem composeStage_inv (previous : Option MarketFeatures) (h : Inv seen drawn p.composer)
    (hf : FreshEnv seen drawn current.symbol env) :
    let r := p.composeStage env previous current
    Inv (seen ∪ {i | i ∈ EventType.all.map env.eventId})
        (drawn ∪ drawsOf env.draws (keysOf current.symbol)) r.2.2.composer ∧
      (r.2.1.map (·.1.id)).Nodup ∧ ∀ q ∈ r.2.1, q.1 ∈ r.2.2.composer.activeSignals current.symbol := by
  obtain ⟨p₁, kept, -, hk, heq⟩ := composeStage_events p env previous current
  have hall : ∀ t : EventType, t ∈ EventType.all := by intro t; cases t <;> decide
  rw [heq]
  dsimp only
  by_cases hne : kept = []
  · rw [if_neg (not_not.2 hne)]
    refine ⟨?_, List.nodup_nil, by simp⟩
    exact (prune_inv h _ _).mono Set.subset_union_left Set.subset_union_left
  · rw [if_pos hne]
    have hb := detected_fresh hf.types hf.unseen hk
    have hinv := consumeSymbol_inv h hb hf.draws current
    obtain ⟨hnd, hact⟩ := consumeSymbol_produced h hb hf.draws current
    refine ⟨hinv.mono (Set.union_subset_union_right _ ?_) subset_rfl, hnd, fun q hq => ?_⟩
    · rintro i ⟨e, he, rfl⟩
      rw [(evaluate_stamp e (hk.subset he)).id]
      exact List.mem_map.2 ⟨_, hall _, rfl⟩
    · obtain ⟨k, hks, ha, -⟩ := hact q hq
      exact mem_activeSignals.2 ⟨k, hks, ha⟩

/-- **A `process` call with a fresh environment**: it returns, the signals it reports are the
active ones after it, no same-tick duplicate is suppressed, and every alert is reported. -/
theorem process_spec (previous : Option MarketFeatures) (h : Inv seen drawn p.composer)
    (hf : FreshEnv seen drawn current.symbol env) :
    Inv (seen ∪ {i | i ∈ EventType.all.map env.eventId})
        (drawn ∪ drawsOf env.draws (keysOf current.symbol)) (p.process env previous current).2.composer ∧
      ∃ res, (p.process env previous current).1 = some res ∧ res.duplicates = [] ∧
        res.result.signalUpdates =
          (p.process env previous current).2.composer.activeSignals current.symbol ∧
        ∀ a ∈ res.result.alertCandidates, a ∈ res.result.signalUpdates := by
  obtain ⟨hinv, hnd, hact⟩ := composeStage_inv previous h hf
  revert hinv hnd hact
  unfold process
  obtain ⟨acceptedEvents, produced, p'⟩ := p.composeStage env previous current
  dsimp only
  intro hinv hnd hact
  rw [observeEpisodes_composer]
  obtain ⟨ts, hts⟩ := traces_of_active hinv current.symbol
  rw [hts]
  dsimp only
  obtain ⟨hcomp, halerts⟩ := foldl_alertStep env produced
    { pipeline := p'.observeEpisodes (p.priorPriority current.symbol) produced }
  have hdup := foldl_alertStep_duplicates env produced
    { pipeline := p'.observeEpisodes (p.priorPriority current.symbol) produced } hnd (by simp)
  rw [hcomp, observeEpisodes_composer]
  refine ⟨hinv, _, rfl, hdup, rfl, ?_⟩
  intro a ha
  rcases halerts a ha with ha | ⟨q, hq, rfl⟩
  · cases ha
  · exact hact q hq

end SignalPipeline

/-! ## Whole runs -/

/-- A batch of a fresh run is fresh after the calls before it. -/
theorem FreshRun.batch {pre post : List SignalCall} {draws : Draws} {events : List MarketEvent}
    {features : MarketFeatures} (h : FreshRun (pre ++ .consumeBatch draws events features :: post)) :
    FreshCall (seenIn pre) (drawnIn pre) draws events := by
  obtain ⟨hnd, hne⟩ := nodup_split h.events
  obtain ⟨dnd, dne⟩ := nodup_split h.draws
  have hkeys : ∀ k : EpisodeKey, k.symbol ∈ symbolsOf events →
      k ∈ (symbolsOf events).flatMap keysOf := fun k hk =>
    List.mem_flatMap.2 ⟨k.symbol, hk, mem_keysOf.2 rfl⟩
  exact ⟨fun e he => hne _ (List.mem_map.2 ⟨e, he, rfl⟩),
    fun e he e' he' heq => List.inj_on_of_nodup_map hnd he he' heq,
    fun k hk => dne _ (List.mem_map.2 ⟨k, hkeys k hk, rfl⟩),
    fun k k' hk hk' heq => List.inj_on_of_nodup_map dnd (hkeys k hk) (hkeys k' hk') heq⟩

/-- So is the environment of a `process` call. -/
theorem FreshRun.env {pre post : List SignalCall} {env : PipelineEnv}
    {previous : Option MarketFeatures} {current : MarketFeatures}
    (h : FreshRun (pre ++ .process env previous current :: post)) :
    FreshEnv (seenIn pre) (drawnIn pre) current.symbol env := by
  obtain ⟨hnd, hne⟩ := nodup_split h.events
  obtain ⟨dnd, dne⟩ := nodup_split h.draws
  have hall : ∀ t : EventType, t ∈ EventType.all := by intro t; cases t <;> decide
  refine ⟨hnd, fun t => hne _ (List.mem_map.2 ⟨t, hall t, rfl⟩), ⟨fun k hk => ?_, ?_⟩⟩
  · exact dne _ (List.mem_map.2 ⟨k, mem_keysOf.2 hk, rfl⟩)
  · intro k k' hk hk' heq
    exact List.inj_on_of_nodup_map dnd (mem_keysOf.2 hk) (mem_keysOf.2 hk') heq

/-- One call of a fresh run. -/
theorem after_inv {pre post : List SignalCall} {call : SignalCall} {p : SignalPipeline}
    (hf : FreshRun (pre ++ call :: post)) (h : Inv (seenIn pre) (drawnIn pre) p.composer) :
    Inv (seenIn (pre ++ [call])) (drawnIn (pre ++ [call])) (p.after call).composer := by
  rw [seenIn_snoc, drawnIn_snoc]
  cases call with
  | process env previous current =>
    refine (SignalPipeline.process_spec previous h hf.env).1.mono subset_rfl
      (Set.union_subset_union_right _ ?_)
    rintro i ⟨k, hk, rfl⟩
    exact List.mem_map.2 ⟨k, hk, rfl⟩
  | consumeBatch draws events features =>
    refine (consumeBatch_inv features h hf.batch).mono (Set.union_subset_union_right _ ?_)
      (Set.union_subset_union_right _ ?_)
    · rintro i ⟨e, he, rfl⟩
      exact List.mem_map.2 ⟨e, he, rfl⟩
    · rintro i ⟨k, hk, rfl⟩
      exact List.mem_map.2 ⟨k, hk, rfl⟩
  | prune symbol nowTs =>
    exact (prune_inv h symbol nowTs).mono Set.subset_union_left Set.subset_union_left

/-- **The composer's tables are in step after every run with fresh ids.** -/
theorem run_inv_composer {p₀ p : SignalPipeline} {calls : List SignalCall} {lookbackS : ℚ}
    {hl : 0 ≤ lookbackS} (h₀ : p₀.composer = SignalComposer.new lookbackS hl)
    (hf : FreshRun calls) (hrun : run SignalPipeline.step p₀ calls = some p) :
    Inv (seenIn calls) (drawnIn calls) p.composer := by
  refine run_history (C := fun _ _ => True)
    (I := fun pre p => Inv (seenIn pre) (drawnIn pre) p.composer) ?_ ?_ (along_true _ _) hrun
  · rw [h₀]; exact inv_empty lookbackS hl
  · intro pre call post p₁ p₂ heq hinv _ hstep
    cases hstep
    exact after_inv (heq ▸ hf) hinv

theorem FreshRun.of_append {pre post : List SignalCall} (h : FreshRun (pre ++ post)) :
    FreshRun pre := by
  have he := h.events
  have hd := h.draws
  rw [List.flatMap_append] at he hd
  exact ⟨(List.nodup_append.1 he).1, (List.nodup_append.1 hd).1⟩

/-- A batch of one symbol, in a state where the tables are in step. -/
theorem consumeBatch_own {c : SignalComposer} {draws : Draws} {events : List MarketEvent}
    {symbol : String} {ts : ℚ} (features : MarketFeatures) (h : Inv seen drawn c)
    (hf : FreshCall seen drawn draws events) (hne : events ≠ [])
    (hsym : ∀ e ∈ events, e.symbol = symbol) (hts : ∀ e ∈ events, e.marketTimestamp = ts) :
    (∀ e ∈ events, ∃! q, q ∈ (c.consumeBatch draws events features).1 ∧ e.id ∈ q.1.eventIds) ∧
      (∀ q ∈ (c.consumeBatch draws events features).1,
        q.1 ∈ (c.consumeBatch draws events features).2.activeSignals symbol) ∧
      ((c.consumeBatch draws events features).1.map (·.1.id)).Nodup := by
  rw [consumeBatch_single c draws features hne hsym]
  have hs : symbol ∈ symbolsOf events := by
    obtain ⟨e, l, rfl⟩ := List.exists_cons_of_ne_nil hne
    exact mem_symbolsOf.2 ⟨e, List.mem_cons_self, hsym e List.mem_cons_self⟩
  have hb : FreshBatch seen symbol events := ⟨hsym, hf.unseen, hf.ids⟩
  have hd : FreshDraws drawn symbol draws := ⟨fun k hk => hf.undrawn k (hk ▸ hs),
    fun k k' hk hk' => hf.inj k k' (hk ▸ hs) (hk' ▸ hs)⟩
  obtain ⟨hnd, hact⟩ := consumeSymbol_produced h hb hd features
  refine ⟨fun e he => consumeSymbol_complete h hb hd features he ?_, fun q hq => ?_, hnd⟩
  · rw [latestTs_eq hne hts, hts e he]
    exact sub_le_self _ c.lookback_nonneg
  · obtain ⟨k, hk, ha, -⟩ := hact q hq
    exact mem_activeSignals.2 ⟨k, hk, ha⟩

/-- **Own-tick completeness.** In every state reached by a run with fresh ids: every event of a
batch of one symbol and one market time is in exactly one produced signal, and the produced
signals are active and distinct; so `consume` does not raise, and a `process` call returns,
suppresses no same-tick duplicate, and alerts only signals that it reports. -/
theorem own_tick_complete {p₀ p : SignalPipeline} {calls : List SignalCall} {lookbackS : ℚ}
    {hl : 0 ≤ lookbackS} (h₀ : p₀.composer = SignalComposer.new lookbackS hl)
    (hrun : run SignalPipeline.step p₀ calls = some p) :
    (∀ draws events features symbol ts,
      FreshRun (calls ++ [.consumeBatch draws events features]) → events ≠ [] →
      (∀ e ∈ events, e.symbol = symbol) → (∀ e ∈ events, e.marketTimestamp = ts) →
        (∀ e ∈ events, ∃! q, q ∈ (p.composer.consumeBatch draws events features).1 ∧
          e.id ∈ q.1.eventIds) ∧
        (∀ q ∈ (p.composer.consumeBatch draws events features).1,
          q.1 ∈ (p.composer.consumeBatch draws events features).2.activeSignals symbol) ∧
        ((p.composer.consumeBatch draws events features).1.map (·.1.id)).Nodup) ∧
    (∀ draws event features, FreshRun (calls ++ [.consumeBatch draws [event] features]) →
      (p.composer.consume draws event features).1.isSome) ∧
    (∀ env previous current, FreshRun (calls ++ [.process env previous current]) →
      ∃ res, (p.process env previous current).1 = some res ∧ res.duplicates = [] ∧
        ∀ a ∈ res.result.alertCandidates, a ∈ res.result.signalUpdates) := by
  have hinv : ∀ {call}, FreshRun (calls ++ [call]) → Inv (seenIn calls) (drawnIn calls) p.composer :=
    fun hf => run_inv_composer h₀ hf.of_append hrun
  refine ⟨?_, ?_, ?_⟩
  · intro draws events features symbol ts hf hne hsym hts
    exact consumeBatch_own features (hinv hf) hf.batch hne hsym hts
  · intro draws event features hf
    have hsym : ∀ e ∈ [event], e.symbol = event.symbol := by simp
    have hts : ∀ e ∈ [event], e.marketTimestamp = event.marketTimestamp := by simp
    -- A single event is a batch, whose signal has it.
    obtain ⟨hin, -, -⟩ := consumeBatch_own features (hinv hf) hf.batch (by simp) hsym hts
    obtain ⟨q, ⟨hq, hmem⟩, -⟩ := hin event (List.mem_singleton_self _)
    unfold SignalComposer.consume
    dsimp only
    rw [List.find?_isSome]
    exact ⟨q, hq, decide_eq_true hmem⟩
  · intro env previous current hf
    obtain ⟨-, res, hres, hdup, -, halerts⟩ :=
      SignalPipeline.process_spec previous (hinv hf) hf.env
    exact ⟨res, hres, hdup, halerts⟩

/-- A run with a NONE episode, an UP event next to it and a call for another symbol. -/
def mixedRun : List SignalCall :=
  [.consumeBatch (prefixDraws "a" 0) [bareEvent "e0" "A" .volumeSpike .none 0] (bareFeatures "A" 0),
    .prune "B" 5,
    .consumeBatch (prefixDraws "b" 10)
      [bareEvent "e1" "A" .rapidMove .up 10, bareEvent "e2" "B" .vwapCross .down 10]
      (bareFeatures "A" 10)]

theorem own_tick_complete_mixed :
    ∃ p, run SignalPipeline.step {} mixedRun = some p ∧
      (let events := [bareEvent "e3" "A" .volumeSpike .none 20, bareEvent "e4" "A" .rapidMove .down 20]
       let r := p.composer.consumeBatch (prefixDraws "c" 20) events (bareFeatures "A" 20)
       (∀ e ∈ events, ∃! q, q ∈ r.1 ∧ e.id ∈ q.1.eventIds) ∧
        (∀ q ∈ r.1, q.1 ∈ r.2.activeSignals "A") ∧ (r.1.map (·.1.id)).Nodup) ∧
      (p.composer.consume (prefixDraws "c" 20) (bareEvent "e3" "A" .volumeSpike .none 20)
        (bareFeatures "A" 20)).1.isSome ∧
      ∃ res, (p.process laterEnv none { bareFeatures "A" 20 with change1m := some (7 / 1000) }).1 =
        some res ∧ res.duplicates = [] ∧
        ∀ a ∈ res.result.alertCandidates, a ∈ res.result.signalUpdates := by
  obtain ⟨p, hp⟩ : ∃ p, run SignalPipeline.step {} mixedRun = some p := ⟨_, rfl⟩
  have h₀ : ({} : SignalPipeline).composer = .new clusterLookbackS clusterLookbackS_nonneg := rfl
  obtain ⟨h1, h2, h3⟩ := own_tick_complete h₀ hp
  refine ⟨p, hp, h1 _ _ _ "A" 20 (by decide) (by decide) (by decide) ?_, h2 _ _ _ (by decide),
    h3 _ _ _ (by decide)⟩
  simp [bareEvent]

end MarketSentinel
