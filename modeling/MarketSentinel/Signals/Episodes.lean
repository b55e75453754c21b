import MarketSentinel.Lib.Tables
import MarketSentinel.Signals.OwnTick

/-!
# Episodes over runs

The active table and the traces of a composer are two tables in step (`Lib.Tables`), with the signals
as entries, their ids as names and what was produced as the log. Nothing is asked of the events here:
only that `uuid4` offers no signal id twice.

* `Walk`: what a call does, as a path of those tables.
* `run_walk`: so does a run.
* `trace_identity`: the traces are those of the active signals.
* `episode_identity`: what stays the same of a signal id.
-/

namespace MarketSentinel

open Lib Machine SignalComposer

/-- The lineage of a signal, which its family tells. -/
def Signal.lineage (s : Signal) : Lineage := if s.family = "vwap" then .vwap else .tape

/-- A signal is filed under its own key. -/
structure Filed (p : EpisodeKey × Signal) : Prop where
  symbol : p.2.symbol = p.1.symbol
  lineage : p.2.lineage = p.1.lineage
  direction : p.2.direction = p.1.direction

/-- What a later signal of an episode has in common with an earlier one. -/
structure Continues (p q : EpisodeKey × Signal) : Prop where
  symbol : q.1.symbol = p.1.symbol
  lineage : q.1.lineage = p.1.lineage
  created : q.2.signalCreatedTimestamp = p.2.signalCreatedTimestamp
  direction : q.1.direction = p.1.direction ∨ p.1.direction = .none

theorem Continues.refl (p : EpisodeKey × Signal) : Continues p p := ⟨rfl, rfl, rfl, .inl rfl⟩

theorem Continues.trans (p q r : EpisodeKey × Signal) (h : Continues p q) (h' : Continues q r) :
    Continues p r where
  symbol := h'.symbol.trans h.symbol
  lineage := h'.lineage.trans h.lineage
  created := h'.created.trans h.created
  direction := by
    rcases h.direction with hpq | hp
    · rcases h'.direction with hqr | hq
      · exact .inl (hqr.trans hpq)
      · exact .inr (hpq.symm.trans hq)
    · exact .inr hp

/-- The tables of a composer. -/
def SignalComposer.tables (c : SignalComposer) (drawn : Set String) (log : List (EpisodeKey × Signal)) :
    Tables EpisodeKey Signal String SignalTrace where
  active := c.active.get?
  shadow := c.traces.get?
  used := drawn
  log := log

abbrev EpisodePath := Tables.Path Signal.id Agrees Continues

/-- From one composer to another, with what is produced on the way. -/
structure Walk (drawn : Set String) (c : SignalComposer) (produced : List (EpisodeKey × Signal))
    (drawn' : Set String) (c' : SignalComposer) : Prop where
  path : ∀ log, EpisodePath (c.tables drawn log) (c'.tables drawn' (log ++ produced))
  filed : ∀ p ∈ produced, Filed p

variable {drawn drawn' drawn'' : Set String} {c c' c'' : SignalComposer}
  {produced produced' : List (EpisodeKey × Signal)}

/-- Nothing is written. -/
theorem Walk.of_drops (h : ∀ log, Tables.Drops Signal.id (c.tables drawn log) (c'.tables drawn' log)) :
    Walk drawn c [] drawn' c' where
  path := fun log => by
    rw [List.append_nil]
    exact Relation.ReflTransGen.single (.drop (h log))
  filed := fun _ hp => absurd hp List.not_mem_nil

theorem Walk.refl (hd : drawn ⊆ drawn') : Walk drawn c [] drawn' c :=
  .of_drops fun _ =>
    ⟨⟨fun _ => False, fun _ _ => ⟨fun h => ⟨h, id⟩, And.left⟩,
        fun _ _ => ⟨fun h => ⟨h, fun _ _ _ hf => hf.elim⟩, And.left⟩⟩,
      hd, rfl⟩

/-- Only the two tables of a composer count. -/
theorem Walk.of_tables {c₀ : SignalComposer} (h : Walk drawn c produced drawn' c')
    (ha : c₀.active = c.active) (ht : c₀.traces = c.traces) : Walk drawn c₀ produced drawn' c' where
  path := fun log => by
    have htables : c₀.tables drawn log = c.tables drawn log := by
      unfold SignalComposer.tables
      rw [ha, ht]
    rw [htables]
    exact h.path log
  filed := h.filed

theorem Walk.trans (h : Walk drawn c produced drawn' c') (h' : Walk drawn' c' produced' drawn'' c'') :
    Walk drawn c (produced ++ produced') drawn'' c'' where
  path := fun log => by
    rw [← List.append_assoc]
    exact (h.path log).trans (h'.path (log ++ produced))
  filed := fun p hp => (List.mem_append.1 hp).elim (h.filed p) (h'.filed p)

theorem Walk.mono (h : Walk drawn c produced drawn' c') (hd : drawn' ⊆ drawn'') :
    Walk drawn c produced drawn'' c' := by
  have hwalk := h.trans (.refl hd)
  rwa [List.append_nil] at hwalk

/-! ## One composition -/

/-- Pruning drops the episodes that are out of the look-back. -/
theorem pruneActive_walk (c : SignalComposer) (nowTs : ℚ) (hd : drawn ⊆ drawn') :
    Walk drawn c [] drawn' (c.pruneActive nowTs) :=
  .of_drops fun _ => ⟨⟨c.Expired nowTs, fun _ _ => pruneActive_active, fun _ _ => pruneActive_traces⟩, hd, rfl⟩

theorem prune_walk (c : SignalComposer) (symbol : String) (nowTs : ℚ) (hd : drawn ⊆ drawn') :
    Walk drawn c [] drawn' (c.prune symbol nowTs) :=
  (pruneActive_walk (c.trimAccepted symbol (c.accepted.getD symbol []) nowTs) nowTs hd).of_tables rfl rfl

theorem accept_walk (c : SignalComposer) (symbol : String) (batch : List MarketEvent) (hd : drawn ⊆ drawn') :
    Walk drawn c [] drawn' (c.accept symbol batch) :=
  (pruneActive_walk (c.trimAccepted symbol (c.accepted.getD symbol [] ++ batch) (latestTs batch)) _
    hd).of_tables rfl rfl

/-- The family of an episode tells its lineage. -/
theorem classifyFamily_vwap {members : List MarketEvent} {l : Lineage} (hne : members ≠ [])
    (hl : ∀ e ∈ members, lineageOf e.type = l) : classifyFamily members = "vwap" ↔ l = .vwap := by
  have htype : ∀ t, t ∈ members.map (·.type) → lineageOf t = l := by
    intro t ht
    obtain ⟨e, he, rfl⟩ := List.mem_map.1 ht
    exact hl e he
  cases l with
  | vwap =>
    have hnot : ∀ t, t ≠ .vwapCross → t ∉ members.map (·.type) := by
      intro t ht hmem
      have hlin := htype t hmem
      cases t <;> simp_all [lineageOf]
    obtain ⟨e, rest, rfl⟩ := List.exists_cons_of_ne_nil hne
    have he : e.type = .vwapCross := by
      by_contra hne'
      exact hnot e.type hne' (List.mem_map_of_mem List.mem_cons_self)
    unfold classifyFamily
    dsimp only
    rw [decide_eq_false (fun h => (h.elim (hnot _ (by decide)) (hnot _ (by decide)) : False)),
      decide_eq_false (fun h => (h.elim (hnot _ (by decide)) (hnot _ (by decide)) : False)),
      if_neg (by decide), if_neg (hnot _ (by decide)), if_neg (hnot _ (by decide)), if_neg (by decide),
      if_neg (by decide), if_pos (by rw [← he]; exact List.mem_map_of_mem List.mem_cons_self)]
    simp
  | tape =>
    have hnot : .vwapCross ∉ members.map (·.type) := fun h => by
      have hlin := htype _ h
      cases hlin
    unfold classifyFamily
    dsimp only
    rw [if_neg hnot]
    split_ifs <;> simp

theorem signalOf_filed {key : EpisodeKey} {members : List MarketEvent} (features : MarketFeatures)
    (identity : String × ℚ) (hne : members ≠ []) (hl : ∀ e ∈ members, lineageOf e.type = key.lineage) :
    Filed (key, signalOf key members features identity) where
  symbol := rfl
  direction := rfl
  lineage := by
    have hfamily := classifyFamily_vwap hne hl
    unfold Signal.lineage
    change (if classifyFamily members = "vwap" then Lineage.vwap else .tape) = key.lineage
    by_cases hv : key.lineage = .vwap
    · rw [if_pos (hfamily.2 hv), hv]
    · rw [if_neg fun h => hv (hfamily.1 h)]
      cases hk : key.lineage with
      | tape => rfl
      | vwap => exact absurd hk hv

/-- **Composing an episode writes one entry.** -/
theorem Composes.walk {s s' : ComposeState} {draws : Draws} {key : EpisodeKey} {members : List MarketEvent}
    {features : MarketFeatures} {nowTs : ℚ} {identity : String × ℚ} {former : Option Signal}
    (h : Composes s s' draws key members features nowTs identity former) (hlive : AllLive nowTs s.composer)
    (hd : (draws key).1 ∉ drawn) (hne : members ≠ []) (hl : ∀ e ∈ members, lineageOf e.type = key.lineage) :
    Walk drawn s.composer [(key, signalOf key members features identity)]
      (insert (draws key).1 drawn) s'.composer where
  filed := by
    intro p hp
    rw [List.mem_singleton.1 hp]
    exact signalOf_filed features identity hne hl
  path := by
    intro log
    refine Relation.ReflTransGen.single (.write key (signalOf key members features identity) ?_)
    -- The trace that is written is the one of the signal, under its identity.
    have hshadow : ∀ n t', s'.composer.traces.get? n = some t' ↔
        n = identity.1 ∧ t' = traceOf members features (signalOf key members features identity) ∨
          n ≠ identity.1 ∧ s.composer.traces.get? n = some t' := by
      intro n t'
      rw [h.traces]
      by_cases hn : n = identity.1
      · simp [hn, eq_comm]
      · simp [hn]
    have hactive := h.active
    refine ⟨?_, ⟨_, traceOf_agrees .., hshadow⟩, Set.subset_insert .., ?_, rfl⟩
    · cases h.origin with
      | continued existing hk =>
        have ha := (live?_eq_some.1 hk).1
        refine ⟨none, .again existing ha rfl ⟨rfl, rfl, rfl, .inl rfl⟩, fun k v => ?_⟩
        change s'.composer.active.get? k = some v ↔ _
        rw [hactive]
        by_cases hkey : k = key <;> simp [hkey, eq_comm, SignalComposer.tables]
      -- The NONE episode moves to the key, so its own key is cleared in the same write.
      | taken noneSignal hk hdir _ hnone =>
        have ha := (live?_eq_some.1 hnone).1
        have hempty : s.composer.active.get? key = none := (hlive.live? key).symm.trans hk
        refine ⟨some key.noneKey, .moved key.noneKey noneSignal ha hempty rfl
          ⟨rfl, rfl, rfl, .inr rfl⟩, fun k v => ?_⟩
        change s'.composer.active.get? k = some v ↔ _
        rw [hactive]
        by_cases hkey : k = key
        · simp [hkey, eq_comm]
        · by_cases hn : k = key.noneKey
          · subst hn
            simp [hkey]
          · simp [hkey, hn, Ne.symm hn, SignalComposer.tables]
      | fresh hk _ =>
        have hempty : s.composer.active.get? key = none := (hlive.live? key).symm.trans hk
        refine ⟨none, .fresh hempty hd, fun k v => ?_⟩
        change s'.composer.active.get? k = some v ↔ _
        rw [hactive]
        by_cases hkey : k = key <;> simp [hkey, eq_comm, SignalComposer.tables]
    · -- An identity is drawn only for a new episode.
      cases h.origin with
      | continued existing hk => exact .inl ⟨key, existing, (live?_eq_some.1 hk).1, rfl⟩
      | taken noneSignal _ _ _ hnone => exact .inl ⟨_, noneSignal, (live?_eq_some.1 hnone).1, rfl⟩
      | fresh => exact .inr (Set.mem_insert ..)

/-! ## One call -/

section Call

variable {call : SymbolCall} {done : List EpisodeKey} {s s' : ComposeState}

/-- What holds in a `_consume_symbol` call that began with the composer `c`, when the keys in `done`
are treated. -/
structure Composing (call : SymbolCall) (drawn : Set String) (c : SignalComposer) (done : List EpisodeKey)
    (s : ComposeState) : Prop where
  walk : ∃ produced, Walk drawn c produced (drawn ∪ drawsOf call.draws done) s.composer ∧
    s.produced.map (·.1) = produced.map (·.2)
  live : AllLive call.nowTs s.composer
  lookback : s.composer.lookbackS = c.lookbackS

/-- **One key more.** -/
theorem Composing.step {lineage : Lineage} {start : SignalComposer} {d : EventDirection}
    (h : Composing call drawn c done s) (hdraws : FreshDraws drawn call.symbol call.draws)
    (hdone : ∀ k ∈ done, k.symbol = call.symbol) (hk : call.keyOf lineage d ∉ done)
    (hrecent : ∀ e ∈ call.recent, c.cutoff call.nowTs ≤ e.marketTimestamp)
    (hs : call.DirStep lineage start d s s') :
    Composing call drawn c (call.keyOf lineage d :: done) s' := by
  obtain ⟨⟨produced, hwalk, hproduced⟩, hlive, hlookback⟩ := h
  have hsub : drawsOf call.draws done ⊆ drawsOf call.draws (call.keyOf lineage d :: done) := by
    rintro i ⟨k, hk, rfl⟩
    exact ⟨k, List.mem_cons_of_mem _ hk, rfl⟩
  cases hs with
  | skip _ hs =>
    subst hs
    exact ⟨⟨produced, hwalk.mono (Set.union_subset_union_right _ hsub), hproduced⟩, hlive, hlookback⟩
  | compose hr identity former hc =>
    have hmem : ∀ e ∈ call.members lineage start d, e ∈ call.recent ∧ lineageOf e.type = lineage :=
      fun e he => (SymbolCall.mem_members.1 he).1
    have hne : call.members lineage start d ≠ [] := by
      obtain ⟨e, he, -⟩ := hr
      exact List.ne_nil_of_mem he
    -- The key draws its own id, which neither the calls before nor the other keys have drawn.
    have hfresh : (call.draws (call.keyOf lineage d)).1 ∉ drawn ∪ drawsOf call.draws done := by
      rintro (hd | ⟨k', hk', heq⟩)
      · exact hdraws.undrawn _ rfl hd
      · exact hk (hdraws.inj k' _ (hdone k' hk') rfl heq ▸ hk')
    have hone := hc.walk hlive hfresh hne fun e he => (hmem e he).2
    refine ⟨⟨_, (hwalk.trans hone).mono ?_, ?_⟩, ?_, hc.lookback.trans hlookback⟩
    · rintro i (rfl | hi | hi)
      · exact .inr ⟨_, List.mem_cons_self, rfl⟩
      · exact .inl hi
      · exact .inr (hsub hi)
    · rw [hc.produced, List.map_append, hproduced, List.map_append]
      rfl
    · refine hc.allLive hlive hne fun e he => ?_
      rw [cutoff_congr hlookback]
      exact hrecent e (hmem e he).1

/-- A lineage's turn. -/
theorem Composing.lineage {l : Lineage} (h : Composing call drawn c done s)
    (hdraws : FreshDraws drawn call.symbol call.draws) (hdone : ∀ k ∈ done, k.symbol = call.symbol)
    (hl : ∀ k ∈ done, k.lineage ≠ l)
    (hrecent : ∀ e ∈ call.recent, c.cutoff call.nowTs ≤ e.marketTimestamp) (hc : call.LineageChain l s s') :
    Composing call drawn c (call.keyOf l .none :: call.keyOf l .down :: call.keyOf l .up :: done) s' := by
  have hnot : ∀ d, call.keyOf l d ∉ done := fun d hd => hl _ hd rfl
  cases hc with
  | skip _ hs =>
    subst hs
    obtain ⟨⟨produced, hwalk, hproduced⟩, hlive, hlookback⟩ := h
    refine ⟨⟨produced, hwalk.mono (Set.union_subset_union_right _ ?_), hproduced⟩, hlive, hlookback⟩
    rintro i ⟨k, hk, rfl⟩
    exact ⟨k, by simp [hk], rfl⟩
  | turn _ s₁ s₂ up down none =>
    have h1 := h.step hdraws hdone (hnot .up) hrecent up
    have h2 := h1.step hdraws (by simpa [SymbolCall.keyOf] using hdone)
      (by simpa [SymbolCall.keyOf] using hnot .down) hrecent down
    exact h2.step hdraws (by simpa [SymbolCall.keyOf] using hdone)
      (by simpa [SymbolCall.keyOf] using hnot .none) hrecent none

/-- The recent events of a call are inside its look-back. -/
theorem callFor_recent {c : SignalComposer} {draws : Draws} {symbol : String} {batch : List MarketEvent}
    {features : MarketFeatures} {e : MarketEvent} (he : e ∈ (c.callFor draws symbol batch features).recent) :
    (c.accept symbol batch).cutoff (latestTs batch) ≤ e.marketTimestamp := by
  have hmem : e ∈ (c.accept symbol batch).accepted.getD symbol [] := he
  rw [accept_accepted, if_pos rfl, List.mem_filter, decide_eq_true_eq] at hmem
  rw [cutoff_congr accept_lookback]
  exact hmem.2

/-- After the batch is accepted, a `_consume_symbol` call is a walk. -/
theorem consumeSymbol_walk_accepted {draws : Draws} {symbol : String} (c : SignalComposer)
    (hdraws : FreshDraws drawn symbol draws) (batch : List MarketEvent) (features : MarketFeatures) :
    ∃ produced, Walk drawn (c.accept symbol batch) produced (drawn ∪ drawsOf draws (keysOf symbol))
        (c.consumeSymbol draws symbol batch features).2 ∧
      (c.consumeSymbol draws symbol batch features).1.map (·.1) = produced.map (·.2) := by
  obtain ⟨s₁, s₂, tape, vwap, heq⟩ := consumeSymbol_chain c draws symbol batch features
  have hrecent : ∀ e ∈ (c.callFor draws symbol batch features).recent,
      (c.accept symbol batch).cutoff (latestTs batch) ≤ e.marketTimestamp := fun _ => callFor_recent
  have h0 : Composing (c.callFor draws symbol batch features) drawn (c.accept symbol batch) []
      { composer := c.accept symbol batch } :=
    ⟨⟨[], .refl Set.subset_union_left, rfl⟩, fun _ _ ha => (live?_eq_some.1 (accept_live ha)).2, rfl⟩
  have h1 := h0.lineage hdraws (by simp) (by simp) hrecent tape
  have h2 := h1.lineage hdraws (by simp [SymbolCall.keyOf]) (by simp [SymbolCall.keyOf]) hrecent vwap
  obtain ⟨⟨produced, hwalk, hproduced⟩, -, -⟩ := h2
  rw [heq]
  refine ⟨produced, hwalk.mono (Set.union_subset_union_right _ ?_), hproduced⟩
  rintro i ⟨k, hk, rfl⟩
  refine ⟨k, mem_keysOf.2 ?_, rfl⟩
  simp only [SymbolCall.keyOf, callFor, List.mem_cons, List.not_mem_nil, or_false] at hk
  rcases hk with rfl | rfl | rfl | rfl | rfl | rfl <;> rfl

/-- **A `_consume_symbol` call is a walk.** -/
theorem consumeSymbol_walk {draws : Draws} {symbol : String} (c : SignalComposer)
    (hdraws : FreshDraws drawn symbol draws) (batch : List MarketEvent) (features : MarketFeatures) :
    ∃ produced, Walk drawn c produced (drawn ∪ drawsOf draws (keysOf symbol))
        (c.consumeSymbol draws symbol batch features).2 ∧
      (c.consumeSymbol draws symbol batch features).1.map (·.1) = produced.map (·.2) := by
  obtain ⟨produced, hwalk, hproduced⟩ := consumeSymbol_walk_accepted c hdraws batch features
  exact ⟨produced, (accept_walk c symbol batch subset_rfl).trans hwalk, hproduced⟩

end Call

/-- The draws of a call that may create episodes of several symbols. -/
structure FreshOffer (drawn : Set String) (symbols : List String) (draws : Draws) : Prop where
  undrawn : ∀ k, k.symbol ∈ symbols → (draws k).1 ∉ drawn
  inj : ∀ k k', k.symbol ∈ symbols → k'.symbol ∈ symbols → (draws k).1 = (draws k').1 → k = k'

theorem foldl_consumeSymbol_walk {draws : Draws} (features : MarketFeatures) :
    ∀ (es : List (String × List MarketEvent)) (r : List (Signal × SignalTrace) × SignalComposer)
      (drawn : Set String), (es.map Prod.fst).Nodup → FreshOffer drawn (es.map Prod.fst) draws →
      let r' := es.foldl (fun r e =>
        let (produced, c) := r.2.consumeSymbol draws e.1 e.2 features
        (r.1 ++ produced, c)) r
      ∃ produced, Walk drawn r.2 produced (drawn ∪ drawsOf draws ((es.map Prod.fst).flatMap keysOf)) r'.2 ∧
        r'.1.map (·.1) = r.1.map (·.1) ++ produced.map (·.2) := by
  intro es
  induction es with
  | nil =>
    intro r drawn _ _
    exact ⟨[], .refl Set.subset_union_left, by simp⟩
  | cons e es ih =>
    intro r drawn hnd hf
    rw [List.map_cons, List.nodup_cons] at hnd
    have hmem : ∀ s ∈ es.map Prod.fst, s ∈ (e :: es).map Prod.fst := fun s hs => by simp [hs]
    have hhead : e.1 ∈ (e :: es).map Prod.fst := by simp
    have hdraws : FreshDraws drawn e.1 draws := ⟨fun k hk => hf.undrawn k (hk ▸ hhead),
      fun k k' hk hk' => hf.inj k k' (hk ▸ hhead) (hk' ▸ hhead)⟩
    -- The draws of the first symbol are for its own keys, so those of the others are still fresh.
    have hrest : FreshOffer (drawn ∪ drawsOf draws (keysOf e.1)) (es.map Prod.fst) draws := by
      refine ⟨?_, fun k k' hk hk' => hf.inj k k' (hmem _ hk) (hmem _ hk')⟩
      rintro k hk (hd | ⟨k', hk', heq⟩)
      · exact hf.undrawn k (hmem _ hk) hd
      · have hsymbol := mem_keysOf.1 hk'
        have := hf.inj k' k (hsymbol ▸ hhead) (hmem _ hk) heq
        subst this
        exact hnd.1 (hsymbol ▸ hk)
    obtain ⟨produced, hwalk, hproduced⟩ := consumeSymbol_walk r.2 hdraws e.2 features
    obtain ⟨produced', hwalk', hproduced'⟩ := ih (r.1 ++ (r.2.consumeSymbol draws e.1 e.2 features).1,
      (r.2.consumeSymbol draws e.1 e.2 features).2) _ hnd.2 hrest
    refine ⟨produced ++ produced', (hwalk.trans hwalk').mono ?_, ?_⟩
    · rintro i ((hi | ⟨k, hk, rfl⟩) | ⟨k, hk, rfl⟩)
      · exact .inl hi
      · exact .inr ⟨k, by simp [hk], rfl⟩
      · refine .inr ⟨k, ?_, rfl⟩
        rw [List.map_cons, List.flatMap_cons]
        exact List.mem_append_right _ hk
    · rw [List.foldl_cons, hproduced', List.map_append, hproduced, List.map_append, List.append_assoc]

theorem mem_bySymbol_symbols {events : List MarketEvent} {symbol : String}
    (h : symbol ∈ (bySymbol events).entries.map Prod.fst) : symbol ∈ symbolsOf events := by
  obtain ⟨⟨s, batch⟩, hmem, rfl⟩ := List.mem_map.1 h
  obtain ⟨hbatch, hne⟩ := mem_bySymbol hmem
  obtain ⟨e, l, hel⟩ := List.exists_cons_of_ne_nil hne
  have he : e ∈ batch := hel ▸ List.mem_cons_self
  rw [hbatch, List.mem_filter, decide_eq_true_eq] at he
  exact mem_symbolsOf.2 ⟨e, he⟩

/-- **A `consume_batch` call is a walk.** -/
theorem consumeBatch_walk {draws : Draws} {events : List MarketEvent} (c : SignalComposer)
    (hf : FreshOffer drawn (symbolsOf events) draws) (features : MarketFeatures) :
    ∃ produced, Walk drawn c produced (drawn ∪ drawsOf draws ((symbolsOf events).flatMap keysOf))
        (c.consumeBatch draws events features).2 ∧
      (c.consumeBatch draws events features).1.map (·.1) = produced.map (·.2) := by
  have hf' : FreshOffer drawn ((bySymbol events).entries.map Prod.fst) draws :=
    ⟨fun k hk => hf.undrawn k (mem_bySymbol_symbols hk),
      fun k k' hk hk' => hf.inj k k' (mem_bySymbol_symbols hk) (mem_bySymbol_symbols hk')⟩
  obtain ⟨produced, hwalk, hproduced⟩ :=
    foldl_consumeSymbol_walk features (bySymbol events).entries ([], c) drawn (bySymbol events).nodup hf'
  refine ⟨produced, hwalk.mono (Set.union_subset_union_right _ ?_), hproduced⟩
  rintro i ⟨k, hk, rfl⟩
  obtain ⟨s, hs, hk⟩ := List.mem_flatMap.1 hk
  exact ⟨k, List.mem_flatMap.2 ⟨s, mem_bySymbol_symbols hs, hk⟩, rfl⟩

/-! ## Runs -/

namespace SignalPipeline

/-- The signals that a call produces. -/
def producedBy (p : SignalPipeline) : SignalCall → List Signal
  | .process env previous current => (p.composeStage env previous current).2.1.map (·.1)
  | .consumeBatch draws events features => (p.composer.consumeBatch draws events features).1.map (·.1)
  | .prune .. => []

/-- The signals that a run produces, in order. -/
def producedIn (p : SignalPipeline) : List SignalCall → List Signal
  | [] => []
  | call :: calls => p.producedBy call ++ (p.after call).producedIn calls

theorem producedIn_append (p : SignalPipeline) : ∀ pre post : List SignalCall,
    p.producedIn (pre ++ post) = p.producedIn pre ++ (pre.foldl after p).producedIn post := by
  intro pre
  induction pre generalizing p with
  | nil => intro post; rfl
  | cons call pre ih =>
    intro post
    rw [List.cons_append, producedIn, producedIn, ih, List.append_assoc, List.foldl_cons]

theorem run_eq_foldl {p p' : SignalPipeline} {calls : List SignalCall} :
    run step p calls = some p' ↔ calls.foldl after p = p' := by
  induction calls generalizing p with
  | nil => simp
  | cons call calls ih =>
    rw [run_cons, List.foldl_cons, ← ih]
    simp [step]

/-- **Every call is a walk.** -/
theorem after_walk (p : SignalPipeline) {call : SignalCall} (hnd : call.drawIds.Nodup)
    (hnew : ∀ i ∈ call.drawIds, i ∉ drawn) :
    ∃ produced, Walk drawn p.composer produced (drawn ∪ {i | i ∈ call.drawIds}) (p.after call).composer ∧
      p.producedBy call = produced.map (·.2) := by
  have hsub : ∀ (draws : Draws) (keys : List EpisodeKey),
      drawsOf draws keys ⊆ {i | i ∈ keys.map fun k => (draws k).1} := by
    rintro draws keys i ⟨k, hk, rfl⟩
    exact List.mem_map.2 ⟨k, hk, rfl⟩
  cases call with
  | process env previous current =>
    have hkey : ∀ k : EpisodeKey, k.symbol = current.symbol → (env.draws k).1 ∈
        (keysOf current.symbol).map fun k => (env.draws k).1 := fun k hk =>
      List.mem_map.2 ⟨k, mem_keysOf.2 hk, rfl⟩
    -- The ids of a call are drawn for its keys, without repetition.
    have hdraws : FreshDraws drawn current.symbol env.draws := ⟨fun k hk => hnew _ (hkey k hk),
      fun k k' hk hk' => List.inj_on_of_nodup_map hnd (mem_keysOf.2 hk) (mem_keysOf.2 hk')⟩
    unfold after producedBy
    dsimp only
    rw [process_composer, composeStage_eq]
    split
    · obtain ⟨produced, hwalk, hproduced⟩ :=
        consumeSymbol_walk p.composer hdraws (admitted p env previous current).2 current
      exact ⟨produced, hwalk.mono (Set.union_subset_union_right _ (hsub _ _)), hproduced⟩
    · exact ⟨[], prune_walk _ _ _ Set.subset_union_left, rfl⟩
  | consumeBatch draws events features =>
    have hkey : ∀ k : EpisodeKey, k.symbol ∈ symbolsOf events → k ∈ (symbolsOf events).flatMap keysOf :=
      fun k hk => List.mem_flatMap.2 ⟨_, hk, mem_keysOf.2 rfl⟩
    have hoffer : FreshOffer drawn (symbolsOf events) draws :=
      ⟨fun k hk => hnew _ (List.mem_map.2 ⟨k, hkey k hk, rfl⟩),
        fun k k' hk hk' => List.inj_on_of_nodup_map hnd (hkey k hk) (hkey k' hk')⟩
    obtain ⟨produced, hwalk, hproduced⟩ := consumeBatch_walk p.composer hoffer features
    exact ⟨produced, hwalk.mono (Set.union_subset_union_right _ (hsub _ _)), hproduced⟩
  | prune symbol nowTs => exact ⟨[], prune_walk _ _ _ Set.subset_union_left, rfl⟩

/-- **Every run is a walk.** -/
theorem run_walk {calls : List SignalCall} (hnd : (calls.flatMap (·.drawIds)).Nodup) :
    ∀ {p : SignalPipeline} {drawn : Set String}, (∀ i ∈ calls.flatMap (·.drawIds), i ∉ drawn) →
      ∃ produced, Walk drawn p.composer produced (drawn ∪ drawnIn calls) (calls.foldl after p).composer ∧
        p.producedIn calls = produced.map (·.2) := by
  induction calls with
  | nil =>
    intro p drawn _
    exact ⟨[], .refl Set.subset_union_left, rfl⟩
  | cons call calls ih =>
    intro p drawn hnew
    rw [List.flatMap_cons, List.nodup_append] at hnd
    obtain ⟨hcall, hcalls, hdisjoint⟩ := hnd
    obtain ⟨produced, hwalk, hproduced⟩ := p.after_walk hcall fun i hi =>
      hnew i (List.mem_append_left _ hi)
    obtain ⟨produced', hwalk', hproduced'⟩ := @ih hcalls (p.after call)
      (drawn ∪ {i | i ∈ call.drawIds}) (by
        rintro i hi (hd | hd)
        · exact hnew i (List.mem_append_right _ hi) hd
        · exact hdisjoint i hd i hi rfl)
    refine ⟨produced ++ produced', (hwalk.trans hwalk').mono ?_, ?_⟩
    · rintro i ((hi | hi) | hi)
      · exact .inl hi
      · exact .inr (List.mem_append_left _ hi)
      · exact .inr (List.mem_append_right _ hi)
    · rw [producedIn, hproduced, hproduced', List.map_append]

end SignalPipeline

open SignalPipeline

theorem lockstep_new {lookbackS : ℚ} {hl : 0 ≤ lookbackS} (log : List (EpisodeKey × Signal)) :
    Tables.Lockstep Signal.id Agrees ((SignalComposer.new lookbackS hl).tables ∅ log) where
  inj := fun h => by cases h
  used := fun h => by cases h
  shadowed := fun h => by cases h
  shadow := fun h => by cases h

/-- The tables after a run from an empty composer. -/
theorem run_logged {p₀ p : SignalPipeline} {calls : List SignalCall} {lookbackS : ℚ}
    {hl : 0 ≤ lookbackS} (h₀ : p₀.composer = SignalComposer.new lookbackS hl)
    (hnd : (calls.flatMap (·.drawIds)).Nodup) (hrun : run SignalPipeline.step p₀ calls = some p) :
    ∃ log, (∀ q ∈ log, Filed q) ∧ p₀.producedIn calls = log.map (·.2) ∧
      Tables.Lockstep Signal.id Agrees (p.composer.tables (drawnIn calls) log) ∧
      Tables.Logged Signal.id Continues (p.composer.tables (drawnIn calls) log) := by
  obtain ⟨log, hwalk, hproduced⟩ := @run_walk _ hnd p₀ ∅ (fun _ _ => id)
  rw [run_eq_foldl.1 hrun, Set.empty_union, h₀] at hwalk
  have hpath := hwalk.path []
  rw [List.nil_append] at hpath
  have hempty : Tables.Logged Signal.id Continues ((SignalComposer.new lookbackS hl).tables ∅ []) :=
    ⟨fun _ h => absurd h List.not_mem_nil, fun h => (by cases h), List.Pairwise.nil⟩
  exact ⟨log, hwalk.filed, hproduced, (lockstep_new _).of_path hpath,
    hempty.of_path Continues.refl Continues.trans (lockstep_new _) hpath⟩

/-- A `process` call returns when the active signals of its compose stage have their traces. -/
theorem SignalPipeline.process_returns (p : SignalPipeline) (env : PipelineEnv)
    (previous : Option MarketFeatures) (current : MarketFeatures)
    (h : ∀ k s, (p.process env previous current).2.composer.active.get? k = some s →
      ∃ t, (p.process env previous current).2.composer.traceFor s.id = some t) :
    (p.process env previous current).1.isSome := by
  rw [process_composer] at h
  revert h
  unfold process
  obtain ⟨acceptedEvents, produced, p'⟩ := p.composeStage env previous current
  dsimp only
  intro h
  rw [observeEpisodes_composer]
  obtain ⟨ts, hts⟩ := mapM_traceFor (c := p'.composer) (l := p'.composer.activeSignals current.symbol)
    (by
      intro s hs
      obtain ⟨k, -, ha⟩ := mem_activeSignals.1 hs
      exact h k s ha)
  rw [hts]
  rfl

/-- **Traces and identities.** After every run of `process`, `consume_batch` and `prune` calls in which
`uuid4` repeats no signal id: the active signals have distinct ids, the ids of the traces are exactly
those of the active signals, each trace agrees with its signal, and a next `process` call does not raise
at `trace_for`. -/
theorem trace_identity {p₀ p : SignalPipeline} {calls : List SignalCall} {lookbackS : ℚ}
    {hl : 0 ≤ lookbackS} (h₀ : p₀.composer = SignalComposer.new lookbackS hl)
    (hnd : (calls.flatMap (·.drawIds)).Nodup) (hrun : run SignalPipeline.step p₀ calls = some p) :
    (∀ k k' s s', p.composer.active.get? k = some s → p.composer.active.get? k' = some s' →
      s.id = s'.id → k = k') ∧
    (∀ id, id ∈ p.composer.traces.keys ↔ ∃ k s, p.composer.active.get? k = some s ∧ s.id = id) ∧
    (∀ k s, p.composer.active.get? k = some s → ∃ t, p.composer.traces.get? s.id = some t ∧ Agrees t s) ∧
    ∀ env previous current, ((calls ++ [SignalCall.process env previous current]).flatMap (·.drawIds)).Nodup →
      (p.process env previous current).1.isSome := by
  obtain ⟨log, -, -, hlock, -⟩ := run_logged h₀ hnd hrun
  refine ⟨fun _ _ _ _ => hlock.inj, fun id => ⟨fun hid => ?_, ?_⟩, fun _ _ => hlock.shadowed, ?_⟩
  · obtain ⟨t, ht⟩ := Dict.mem_keys.1 hid
    exact hlock.shadow ht
  · rintro ⟨k, s, ha, rfl⟩
    obtain ⟨t, ht, -⟩ := hlock.shadowed ha
    exact Dict.mem_keys.2 ⟨t, ht⟩
  · intro env previous current hnext
    have hrun' : run SignalPipeline.step p₀ (calls ++ [.process env previous current]) =
        some (p.process env previous current).2 := run_append.2 ⟨p, hrun, rfl⟩
    obtain ⟨log', -, -, hlock', -⟩ := run_logged h₀ hnext hrun'
    refine p.process_returns env previous current fun k s ha => ?_
    obtain ⟨t, ht, -⟩ := hlock'.shadowed ha
    exact ⟨t, ht⟩

/-- The run with a NONE episode, and a `process` call after it. -/
theorem trace_identity_mixed : ∃ p, run SignalPipeline.step {} mixedRun = some p ∧
    (∀ k k' s s', p.composer.active.get? k = some s → p.composer.active.get? k' = some s' →
      s.id = s'.id → k = k') ∧
    (p.process laterEnv none { bareFeatures "A" 20 with change1m := some (7 / 1000) }).1.isSome := by
  obtain ⟨p, hp⟩ : ∃ p, run SignalPipeline.step {} mixedRun = some p := ⟨_, rfl⟩
  have h₀ : ({} : SignalPipeline).composer = .new clusterLookbackS clusterLookbackS_nonneg := rfl
  obtain ⟨hinj, -, -, hreturns⟩ := trace_identity h₀ (by decide) hp
  exact ⟨p, hp, hinj, hreturns _ _ _ (by decide)⟩

/-- **Episode identity.** Along every run in which `uuid4` repeats no signal id, two signals that were
produced with one id have the same symbol, lineage and creation time, and the later one has the direction
of the earlier one unless that was NONE; and an id that was produced and is active no more is never
produced again. -/
theorem episode_identity {p₀ p : SignalPipeline} {pre post : List SignalCall} {lookbackS : ℚ}
    {hl : 0 ≤ lookbackS} (h₀ : p₀.composer = SignalComposer.new lookbackS hl)
    (hnd : ((pre ++ post).flatMap (·.drawIds)).Nodup) (hrun : run SignalPipeline.step p₀ pre = some p) :
    ((p₀.producedIn (pre ++ post)).Pairwise fun s s' => s.id = s'.id →
      s'.symbol = s.symbol ∧ s'.lineage = s.lineage ∧
        s'.signalCreatedTimestamp = s.signalCreatedTimestamp ∧
        (s'.direction = s.direction ∨ s.direction = .none ∧ s'.direction ≠ .none)) ∧
    ∀ s ∈ p₀.producedIn pre, (∀ k a, p.composer.active.get? k = some a → a.id ≠ s.id) →
      ∀ s' ∈ p.producedIn post, s'.id ≠ s.id := by
  have hsplit := hnd
  rw [List.flatMap_append, List.nodup_append] at hsplit
  obtain ⟨hpre, hpost, hdisjoint⟩ := hsplit
  constructor
  · obtain ⟨log, hfiled, hproduced, -, hlogged⟩ := run_logged h₀ hnd (run_eq_foldl.2 rfl)
    rw [hproduced, List.pairwise_map]
    refine hlogged.chain.imp_of_mem fun {q q'} hq hq' hchain hid => ?_
    have hc := hchain hid
    have hf := hfiled q hq
    have hf' := hfiled q' hq'
    refine ⟨by rw [hf'.symbol, hc.symbol, hf.symbol], by rw [hf'.lineage, hc.lineage, hf.lineage],
      hc.created, ?_⟩
    rw [hf'.direction, hf.direction]
    rcases hc.direction with heq | hnone
    · exact .inl heq
    · by_cases hq' : q'.1.direction = .none
      · exact .inl (hq'.trans hnone.symm)
      · exact .inr ⟨hnone, hq'⟩
  · intro s hs hgone s' hs'
    -- An id that was used and is active no more can only come back by a draw, and it is not drawn again.
    obtain ⟨log, -, hproduced, -, hlogged⟩ := run_logged h₀ hpre hrun
    rw [hproduced] at hs
    obtain ⟨q, hq, rfl⟩ := List.mem_map.1 hs
    obtain ⟨more, hwalk, hmore⟩ := @run_walk _ hpost p (drawnIn pre) fun i hi hd =>
      hdisjoint i hd i hi rfl
    have hleft : Tables.Gone Signal.id q.2.id (p.composer.tables (drawnIn pre) log) :=
      ⟨hlogged.used q hq, hgone⟩
    obtain ⟨-, more', hlog, hne⟩ := hleft.of_path (hwalk.path log)
    obtain rfl : more = more' := List.append_cancel_left hlog
    rw [hmore] at hs'
    obtain ⟨q', hq', rfl⟩ := List.mem_map.1 hs'
    exact hne q' hq'

/-- The signals of the run with a NONE episode, which its UP event takes over. -/
theorem episode_identity_mixed : ∃ p, run SignalPipeline.step {} mixedRun = some p ∧
    (({} : SignalPipeline).producedIn mixedRun).map (fun s => (s.id, s.direction)) =
      [("atnA", .none), ("atnA", .up), ("bvdB", .down)] ∧
    (({} : SignalPipeline).producedIn (mixedRun ++ [])).Pairwise fun s s' => s.id = s'.id →
      s'.symbol = s.symbol ∧ s'.lineage = s.lineage ∧
        s'.signalCreatedTimestamp = s.signalCreatedTimestamp ∧
        (s'.direction = s.direction ∨ s.direction = .none ∧ s'.direction ≠ .none) := by
  obtain ⟨p, hp⟩ : ∃ p, run SignalPipeline.step {} mixedRun = some p := ⟨_, rfl⟩
  have h₀ : ({} : SignalPipeline).composer = .new clusterLookbackS clusterLookbackS_nonneg := rfl
  exact ⟨p, hp, by decide +kernel, (episode_identity h₀ (by decide) hp).1⟩

end MarketSentinel
