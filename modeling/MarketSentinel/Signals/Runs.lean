import MarketSentinel.Lib.Machine
import MarketSentinel.Signals.Pipeline
import MarketSentinel.Signals.Turn

/-!
# Runs of the signal layer

A run is a list of `process`, `consume_batch` and `prune` calls, for any symbols in any order.
The ids that `uuid4` offers and the ids of the consumed events do not repeat (`FreshRun`).

* `consumeBatch_inv`: a batch over any symbols keeps the composer's tables in step.
* `composeStage_events`: a `process` call composes some of the detected events, as one call.
* `foldl_alertStep_duplicates`: signals with distinct ids are never same-tick duplicates.
-/

namespace MarketSentinel

open Lib Machine SignalComposer

/-- A composer with empty tables. -/
def SignalComposer.new (lookbackS : ℚ) (h : 0 ≤ lookbackS) : SignalComposer :=
  { lookbackS := lookbackS, lookback_nonneg := h }

/-- The calls that reach the signal layer. -/
inductive SignalCall
  | process (env : PipelineEnv) (previous : Option MarketFeatures) (current : MarketFeatures)
  | consumeBatch (draws : Draws) (events : List MarketEvent) (features : MarketFeatures)
  | prune (symbol : String) (nowTs : ℚ)

namespace SignalPipeline

/-- The pipeline after a call. -/
def after (p : SignalPipeline) : SignalCall → SignalPipeline
  | .process env previous current => (p.process env previous current).2
  | .consumeBatch draws events features =>
    { p with composer := (p.composer.consumeBatch draws events features).2 }
  | .prune symbol nowTs => { p with composer := p.composer.prune symbol nowTs }

/-- Every call is enabled in every state. -/
def step (p : SignalPipeline) (call : SignalCall) : Option SignalPipeline := some (p.after call)

end SignalPipeline

/-! ## Fresh ids -/

def EventType.all : List EventType :=
  [.rapidMove, .volumeSpike, .priceVolumeExpansion, .dayHighBreakout, .dayLowBreakdown, .vwapCross]

/-- The symbols of a list of events, each once. -/
def symbolsOf (events : List MarketEvent) : List String := (events.map (·.symbol)).eraseDups

namespace SignalCall

/-- The ids of the events a call brings. -/
def eventIds : SignalCall → List String
  | .process env _ _ => EventType.all.map env.eventId
  | .consumeBatch _ events _ => events.map (·.id)
  | .prune .. => []

/-- The ids a call may give to new episodes. -/
def drawIds : SignalCall → List String
  | .process env _ current => (keysOf current.symbol).map fun k => (env.draws k).1
  | .consumeBatch draws events _ =>
    ((symbolsOf events).flatMap keysOf).map fun k => (draws k).1
  | .prune .. => []

end SignalCall

/-- No event id comes twice, and no id is drawn twice. -/
structure FreshRun (calls : List SignalCall) : Prop where
  events : (calls.flatMap (·.eventIds)).Nodup
  draws : (calls.flatMap (·.drawIds)).Nodup

instance (calls : List SignalCall) : Decidable (FreshRun calls) :=
  decidable_of_iff (_ ∧ _) ⟨fun h => ⟨h.1, h.2⟩, fun h => ⟨h.events, h.draws⟩⟩

/-- The event ids of a run. -/
def seenIn (calls : List SignalCall) : Set String := {i | i ∈ calls.flatMap (·.eventIds)}

/-- The ids drawn in a run. -/
def drawnIn (calls : List SignalCall) : Set String := {i | i ∈ calls.flatMap (·.drawIds)}

theorem nodup_split {L : Type*} {f : L → List String} {pre post : List L} {l : L}
    (h : ((pre ++ l :: post).flatMap f).Nodup) :
    (f l).Nodup ∧ ∀ i ∈ f l, i ∉ pre.flatMap f := by
  rw [List.flatMap_append, List.flatMap_cons, List.nodup_append] at h
  refine ⟨(List.nodup_append.1 h.2.1).1, fun i hi hp => ?_⟩
  exact h.2.2 i hp i (List.mem_append_left _ hi) rfl

theorem seenIn_snoc (pre : List SignalCall) (l : SignalCall) :
    seenIn (pre ++ [l]) = seenIn pre ∪ {i | i ∈ l.eventIds} := by
  ext i; simp [seenIn]

theorem drawnIn_snoc (pre : List SignalCall) (l : SignalCall) :
    drawnIn (pre ++ [l]) = drawnIn pre ∪ {i | i ∈ l.drawIds} := by
  ext i; simp [drawnIn]

/-- A snapshot with nothing but its symbol and its time. -/
def bareFeatures (symbol : String) (ts : ℚ) : MarketFeatures where
  symbol := symbol
  marketTimestamp := ts
  receivedTimestamp := ts
  change1m := none
  change5m := none
  change15m := none
  changeDay := none
  dayRangePosition := none
  volume1m := none
  volume5m := none
  volumeRatio1m := none
  volumeRatio5m := none
  vwap := none
  aboveVwap := none
  ema5 := none
  ema20 := none
  rsi14 := none
  sessionHighRef := none
  sessionLowRef := none
  sessionHighObs := 0
  sessionLowObs := 0

/-- An event with nothing but its id, symbol, type, direction and time. -/
def bareEvent (id symbol : String) (type : EventType) (direction : EventDirection) (ts : ℚ) :
    MarketEvent where
  id := id
  symbol := symbol
  type := type
  direction := direction
  severity := 2
  marketTimestamp := ts
  receivedTimestamp := ts
  detectedTimestamp := ts
  metrics := []
  dedupeKey := dedupeKeyOf symbol type direction
  ttlS := ttlShortS
  ruleName := type.value

/-- Draws that tell the keys of a symbol apart, and the calls by a prefix. -/
def prefixDraws (pre : String) (wall : ℚ) : Draws := fun k =>
  (pre ++ (match k.lineage with | .tape => "t" | .vwap => "v") ++
    (match k.direction with | .up => "u" | .down => "d" | .none => "n") ++ k.symbol, wall)

/-- The environment of a `process` call at 20. -/
def laterEnv : PipelineEnv where
  detectedAt := 20
  eventId t := "f" ++ t.value
  draws := prefixDraws "c" 20
  monotonic _ := 20

/-! ## Batches -/

theorem mem_bySymbol {events : List MarketEvent} {s : String} {b : List MarketEvent}
    (h : (s, b) ∈ (bySymbol events).entries) : b = events.filter (·.symbol = s) ∧ b ≠ [] := by
  have hfold : ∀ (l : List MarketEvent) (d : Dict String (List MarketEvent)),
      (∀ s b, d.get? s = some b → b ≠ []) → ∀ s b,
        (l.foldl (fun d e => d.set e.symbol (d.getD e.symbol [] ++ [e])) d).get? s = some b →
          b ≠ [] := by
    intro l
    induction l with
    | nil => intro d hd; exact hd
    | cons e l ih =>
      intro d hd
      refine ih _ fun s b hb => ?_
      rw [Dict.get?_set] at hb
      split at hb
      · cases hb; simp
      · exact hd s b hb
  have hget := Dict.mem_entries.1 h
  refine ⟨?_, hfold events Dict.empty (by simp) s b hget⟩
  rw [← bySymbol_getD]
  unfold Dict.getD
  rw [hget]
  rfl

theorem mem_symbolsOf {events : List MarketEvent} {s : String} :
    s ∈ symbolsOf events ↔ ∃ e ∈ events, e.symbol = s := by
  simp [symbolsOf, List.mem_eraseDups]

/-- What a batch over several symbols relies on. -/
structure FreshCall (seen drawn : Set String) (draws : Draws) (events : List MarketEvent) : Prop where
  unseen : ∀ e ∈ events, e.id ∉ seen
  ids : ∀ e ∈ events, ∀ e' ∈ events, e.id = e'.id → e = e'
  undrawn : ∀ k, k.symbol ∈ symbolsOf events → (draws k).1 ∉ drawn
  inj : ∀ k k', k.symbol ∈ symbolsOf events → k'.symbol ∈ symbolsOf events →
    (draws k).1 = (draws k').1 → k = k'

/-- A part of the batch is fresh after the other parts. -/
theorem foldl_consumeSymbol_inv {draws : Draws} (features : MarketFeatures) :
    ∀ (es : List (String × List MarketEvent)) (r : List (Signal × SignalTrace) × SignalComposer)
      (seen drawn : Set String), Inv seen drawn r.2 → (es.map Prod.fst).Nodup →
      FreshCall seen drawn draws (es.flatMap Prod.snd) →
      (∀ p ∈ es, ∀ e ∈ p.2, e.symbol = p.1) → (∀ p ∈ es, p.2 ≠ []) →
      Inv (seen ∪ idsOf (es.flatMap Prod.snd))
        (drawn ∪ drawsOf draws ((es.map Prod.fst).flatMap keysOf))
        (es.foldl (fun r e =>
          let (produced, c) := r.2.consumeSymbol draws e.1 e.2 features
          (r.1 ++ produced, c)) r).2 := by
  intro es
  induction es with
  | nil =>
    intro r seen drawn h _ _ _ _
    exact h.mono Set.subset_union_left Set.subset_union_left
  | cons p es ih =>
    intro r seen drawn h hnd hf hsym hne
    rw [List.map_cons, List.nodup_cons] at hnd
    rw [List.forall_mem_cons] at hsym hne
    have hin : ∀ e ∈ p.2, e ∈ (p :: es).flatMap Prod.snd := fun e he => by simp [he]
    have hin' : ∀ e ∈ es.flatMap Prod.snd, e ∈ (p :: es).flatMap Prod.snd := fun e he =>
      List.mem_append_right _ he
    -- The symbol of the first part is a symbol of the call; those of the other parts differ from it.
    have hps : p.1 ∈ symbolsOf ((p :: es).flatMap Prod.snd) := by
      obtain ⟨e, l, he⟩ := List.exists_cons_of_ne_nil hne.1
      have hm : e ∈ p.2 := he ▸ List.mem_cons_self
      exact mem_symbolsOf.2 ⟨e, hin e hm, hsym.1 e hm⟩
    have hes : ∀ s, s ∈ symbolsOf (es.flatMap Prod.snd) →
        s ∈ symbolsOf ((p :: es).flatMap Prod.snd) ∧ s ≠ p.1 := by
      intro s hs
      obtain ⟨e, he, rfl⟩ := mem_symbolsOf.1 hs
      refine ⟨mem_symbolsOf.2 ⟨e, hin' e he, rfl⟩, fun heq => hnd.1 ?_⟩
      obtain ⟨q, hq, heq'⟩ := List.mem_flatMap.1 he
      exact List.mem_map.2 ⟨q, hq, (hsym.2 q hq e heq').symm.trans heq⟩
    have hb : FreshBatch seen p.1 p.2 := ⟨hsym.1, fun e he => hf.unseen e (hin e he),
      fun e he e' he' => hf.ids e (hin e he) e' (hin e' he')⟩
    have hd : FreshDraws drawn p.1 draws := ⟨fun k hk => hf.undrawn k (hk ▸ hps),
      fun k k' hk hk' => hf.inj k k' (hk ▸ hps) (hk' ▸ hps)⟩
    have hrest : FreshCall (seen ∪ idsOf p.2) (drawn ∪ drawsOf draws (keysOf p.1)) draws
        (es.flatMap Prod.snd) := by
      refine ⟨?_, fun e he e' he' => hf.ids e (hin' e he) e' (hin' e' he'), ?_,
        fun k k' hk hk' => hf.inj k k' (hes _ hk).1 (hes _ hk').1⟩
      · rintro e he (hs | ⟨e', he', heq⟩)
        · exact hf.unseen e (hin' e he) hs
        · -- equal ids are equal events, but the symbols differ
          have := hf.ids e' (hin e' he') e (hin' e he) heq
          subst this
          exact (hes _ (mem_symbolsOf.2 ⟨e', he, rfl⟩)).2 (hsym.1 e' he')
      · rintro k hk (hs | ⟨k', hk', heq⟩)
        · exact hf.undrawn k (hes _ hk).1 hs
        · have hk' := mem_keysOf.1 hk'
          have := hf.inj k' k (hk' ▸ hps) (hes _ hk).1 heq
          exact (hes _ hk).2 (this ▸ hk')
    have h1 := consumeSymbol_inv h hb hd features
    have h2 := ih (r.1 ++ (r.2.consumeSymbol draws p.1 p.2 features).1,
      (r.2.consumeSymbol draws p.1 p.2 features).2) _ _ h1 hnd.2 hrest hsym.2 hne.2
    refine h2.mono ?_ ?_
    · rintro i ((hi | ⟨e, he, rfl⟩) | ⟨e, he, rfl⟩)
      · exact .inl hi
      · exact .inr ⟨e, hin e he, rfl⟩
      · exact .inr ⟨e, hin' e he, rfl⟩
    · rintro i ((hi | ⟨k, hk, rfl⟩) | ⟨k, hk, rfl⟩)
      · exact .inl hi
      · exact .inr ⟨k, by simp [hk], rfl⟩
      · refine .inr ⟨k, ?_, rfl⟩
        rw [List.map_cons, List.flatMap_cons]
        exact List.mem_append_right _ hk

/-- The parts of a batch are the batch, rearranged. -/
theorem mem_flatMap_bySymbol {events : List MarketEvent} {e : MarketEvent} :
    e ∈ (bySymbol events).entries.flatMap Prod.snd ↔ e ∈ events := by
  rw [List.mem_flatMap]
  constructor
  · rintro ⟨⟨s, b⟩, hp, he⟩
    rw [(mem_bySymbol hp).1] at he
    exact List.mem_of_mem_filter he
  · intro he
    have hm : e ∈ (bySymbol events).getD e.symbol [] := by
      rw [bySymbol_getD]; exact List.mem_filter.2 ⟨he, decide_eq_true rfl⟩
    unfold Dict.getD at hm
    cases hg : (bySymbol events).get? e.symbol with
    | none => rw [hg] at hm; cases hm
    | some b => rw [hg] at hm; exact ⟨(e.symbol, b), Dict.mem_entries.2 hg, hm⟩

/-- **A `consume_batch` call keeps the tables in step.** -/
theorem consumeBatch_inv {c : SignalComposer} {seen drawn : Set String} {draws : Draws}
    {events : List MarketEvent} (features : MarketFeatures) (h : Inv seen drawn c)
    (hf : FreshCall seen drawn draws events) :
    Inv (seen ∪ idsOf events) (drawn ∪ drawsOf draws ((symbolsOf events).flatMap keysOf))
      (c.consumeBatch draws events features).2 := by
  -- The groups have the events of the batch, so what is fresh of the one is fresh of the other.
  have hsyms : ∀ s, s ∈ symbolsOf ((bySymbol events).entries.flatMap Prod.snd) ↔
      s ∈ symbolsOf events := by
    intro s; simp only [mem_symbolsOf, mem_flatMap_bySymbol]
  have hf' : FreshCall seen drawn draws ((bySymbol events).entries.flatMap Prod.snd) :=
    ⟨fun e he => hf.unseen e (mem_flatMap_bySymbol.1 he),
      fun e he e' he' => hf.ids e (mem_flatMap_bySymbol.1 he) e' (mem_flatMap_bySymbol.1 he'),
      fun k hk => hf.undrawn k ((hsyms _).1 hk),
      fun k k' hk hk' => hf.inj k k' ((hsyms _).1 hk) ((hsyms _).1 hk')⟩
  have key := foldl_consumeSymbol_inv features _ ([], c) seen drawn h
    (bySymbol events).nodup hf'
    (by
      rintro ⟨s, b⟩ hp e he
      simp only at he ⊢
      rw [(mem_bySymbol hp).1, List.mem_filter, decide_eq_true_eq] at he
      exact he.2)
    (fun p hp => (mem_bySymbol hp).2)
  refine key.mono ?_ ?_
  · rintro i (hi | ⟨e, he, rfl⟩)
    · exact .inl hi
    · exact .inr ⟨e, mem_flatMap_bySymbol.1 he, rfl⟩
  · rintro i (hi | ⟨k, hk, rfl⟩)
    · exact .inl hi
    · refine .inr ⟨k, ?_, rfl⟩
      obtain ⟨s, hs, hk⟩ := List.mem_flatMap.1 hk
      obtain ⟨⟨s', b⟩, hp, rfl⟩ := List.mem_map.1 hs
      refine List.mem_flatMap.2 ⟨s', mem_symbolsOf.2 ?_, hk⟩
      obtain ⟨hb, hne⟩ := mem_bySymbol hp
      obtain ⟨e, l, hel⟩ := List.exists_cons_of_ne_nil hne
      have he : e ∈ b := hel ▸ List.mem_cons_self
      rw [hb, List.mem_filter, decide_eq_true_eq] at he
      exact ⟨e, he⟩

/-! ## Processing a snapshot -/

theorem mem_activeSignals {c : SignalComposer} {symbol : String} {signal : Signal} :
    signal ∈ c.activeSignals symbol ↔ ∃ k, k.symbol = symbol ∧ c.active.get? k = some signal := by
  unfold activeSignals
  rw [List.mem_map]
  constructor
  · rintro ⟨e, he, rfl⟩
    rw [List.mem_insertionSort, List.mem_filter, decide_eq_true_eq] at he
    exact ⟨e.1, he.2, Dict.mem_entries.1 he.1⟩
  · rintro ⟨k, hk, ha⟩
    refine ⟨(k, signal), ?_, rfl⟩
    rw [List.mem_insertionSort, List.mem_filter, decide_eq_true_eq]
    exact ⟨Dict.mem_entries.2 ha, hk⟩

namespace SignalPipeline

variable {p : SignalPipeline} {env : PipelineEnv} {previous : Option MarketFeatures}
  {current : MarketFeatures}

@[simp] theorem emit_composer (fields : String → String → ℚ → TelemetryEvent) :
    (p.emit fields).composer = p.composer := rfl

/-- The dedupe loop keeps some of the events, in order, and leaves the composer alone. -/
theorem foldl_acceptEvent : ∀ (es : List MarketEvent) (r : SignalPipeline × List MarketEvent),
    (es.foldl acceptEvent r).1.composer = r.1.composer ∧
      ∃ kept, kept.Sublist es ∧ (es.foldl acceptEvent r).2 = r.2 ++ kept := by
  intro es
  induction es with
  | nil => intro r; exact ⟨rfl, [], .slnil, by simp⟩
  | cons e es ih =>
    intro r
    obtain ⟨h1, kept, h2, h3⟩ := ih (acceptEvent r e)
    rw [List.foldl_cons]
    have hcomp : (acceptEvent r e).1.composer = r.1.composer := by
      unfold acceptEvent; dsimp only; split <;> rfl
    have hkept : (acceptEvent r e).2 = r.2 ++ [e] ∨ (acceptEvent r e).2 = r.2 := by
      unfold acceptEvent; dsimp only; split
      · exact .inl rfl
      · exact .inr rfl
    refine ⟨h1.trans hcomp, ?_⟩
    rcases hkept with hk | hk
    · exact ⟨e :: kept, h2.cons_cons _, by rw [h3, hk, List.append_assoc]; rfl⟩
    · exact ⟨kept, h2.cons _, by rw [h3, hk]⟩

/-- Everything but the telemetry. -/
def core (p : SignalPipeline) : EventDeduper × SignalComposer × CooldownGate :=
  (p.deduper, p.composer, p.cooldown)

@[simp] theorem emit_core (fields : String → String → ℚ → TelemetryEvent) :
    (p.emit fields).core = p.core := rfl

theorem observeCluster_core (signal : Signal) : (p.observeCluster signal).core = p.core := by
  unfold observeCluster
  split
  · rfl
  · rename_i runtime _
    have hfold : ∀ (ids : List String) (q : SignalPipeline),
        (ids.foldl (fun p eventId => p.emit (clusteredFields signal eventId)) q).core = q.core := by
      intro ids
      induction ids with
      | nil => intro q; rfl
      | cons i ids ih => intro q; rw [List.foldl_cons, ih, emit_core]
    dsimp only
    rw [hfold]
    rfl

/-- Observing the episodes is telemetry only. -/
theorem observeEpisodes_core (prior : List (String × SignalPriority))
    (produced : List (Signal × SignalTrace)) :
    (p.observeEpisodes prior produced).core = p.core := by
  have hfold : ∀ (l : List (Signal × SignalTrace)) (r : SignalPipeline × List String),
      (l.foldl (observeEpisode prior) r).1.core = r.1.core := by
    intro l
    induction l with
    | nil => intro r; rfl
    | cons q l ih =>
      intro r
      rw [List.foldl_cons, ih]
      unfold observeEpisode
      dsimp only
      split
      · rfl
      · dsimp only
        rw [observeCluster_core]
        split
        · rfl
        · split <;> rfl
  exact hfold produced (p, [])

theorem observeEpisodes_composer (prior : List (String × SignalPriority))
    (produced : List (Signal × SignalTrace)) :
    (p.observeEpisodes prior produced).composer = p.composer :=
  congrArg (fun c => c.2.1) (observeEpisodes_core prior produced)

/-- The alert loop leaves the composer alone, and alerts only produced signals. -/
theorem foldl_alertStep (env : PipelineEnv) : ∀ (produced : List (Signal × SignalTrace)) (s : AlertState),
    (produced.foldl (alertStep env) s).pipeline.composer = s.pipeline.composer ∧
      ∀ a ∈ (produced.foldl (alertStep env) s).alerts, a ∈ s.alerts ∨ ∃ q ∈ produced, q.1 = a := by
  intro produced
  induction produced with
  | nil => intro s; exact ⟨rfl, fun a ha => .inl ha⟩
  | cons q produced ih =>
    intro s
    rw [List.foldl_cons]
    obtain ⟨h1, h2⟩ := ih (alertStep env s q)
    have hstep : (alertStep env s q).pipeline.composer = s.pipeline.composer ∧
        ∀ a ∈ (alertStep env s q).alerts, a ∈ s.alerts ∨ q.1 = a := by
      unfold alertStep
      dsimp only
      split
      · exact ⟨rfl, fun a ha => .inl ha⟩
      · split
        · refine ⟨rfl, fun a ha => ?_⟩
          rcases List.mem_append.1 ha with ha | ha
          · exact .inl ha
          · exact .inr (List.mem_singleton.1 ha).symm
        · exact ⟨rfl, fun a ha => .inl ha⟩
    refine ⟨h1.trans hstep.1, fun a ha => ?_⟩
    rcases h2 a ha with ha | ⟨q', hq', rfl⟩
    · rcases hstep.2 a ha with ha | rfl
      · exact .inl ha
      · exact .inr ⟨q, List.mem_cons_self, rfl⟩
    · exact .inr ⟨q', List.mem_cons_of_mem _ hq', rfl⟩

/-- Signals with distinct ids are never duplicates of the same tick. -/
theorem foldl_alertStep_duplicates (env : PipelineEnv) : ∀ (produced : List (Signal × SignalTrace)) (s : AlertState),
    (produced.map (·.1.id)).Nodup → (∀ q ∈ produced, q.1.id ∉ s.seen) →
      (produced.foldl (alertStep env) s).duplicates = s.duplicates := by
  intro produced
  induction produced with
  | nil => intro s _ _; rfl
  | cons q produced ih =>
    intro s hnd hs
    rw [List.map_cons, List.nodup_cons] at hnd
    rw [List.forall_mem_cons] at hs
    have hstep : (alertStep env s q).duplicates = s.duplicates ∧
        (alertStep env s q).seen = s.seen ++ [q.1.id] := by
      unfold alertStep
      dsimp only
      rw [if_neg hs.1]
      split <;> exact ⟨rfl, rfl⟩
    rw [List.foldl_cons, ih _ hnd.2, hstep.1]
    intro q' hq'
    rw [hstep.2, List.mem_append, List.mem_singleton, not_or]
    exact ⟨hs.2 q' hq', fun he => hnd.1 (List.mem_map.2 ⟨q', hq', he⟩)⟩

/-- The pipeline after the dedupe loop of a `process` call, and the events it kept. -/
def admitted (p : SignalPipeline) (env : PipelineEnv) (previous : Option MarketFeatures)
    (current : MarketFeatures) : SignalPipeline × List MarketEvent :=
  (evaluate env.eventId env.detectedAt previous current).foldl acceptEvent (p, [])

/-- The compose stage is one call for the snapshot's symbol, or a pruning. -/
theorem composeStage_eq (p : SignalPipeline) (env : PipelineEnv) (previous : Option MarketFeatures)
    (current : MarketFeatures) :
    p.composeStage env previous current =
      if (admitted p env previous current).2 ≠ [] then
        ((admitted p env previous current).2,
          (p.composer.consumeSymbol env.draws current.symbol
            (admitted p env previous current).2 current).1,
          { (admitted p env previous current).1 with
            composer := (p.composer.consumeSymbol env.draws current.symbol
              (admitted p env previous current).2 current).2 })
      else ((admitted p env previous current).2, [],
        { (admitted p env previous current).1 with
          composer := p.composer.prune current.symbol current.marketTimestamp }) := by
  obtain ⟨h1, kept, h2, h3⟩ :=
    foldl_acceptEvent (evaluate env.eventId env.detectedAt previous current) (p, [])
  rw [List.nil_append] at h3
  unfold composeStage admitted
  dsimp only
  rw [h1]
  split
  · rename_i hk
    have hs : ∀ e ∈ kept, e.symbol = current.symbol := fun e he =>
      (evaluate_stamp e (h2.subset he)).symbol
    rw [h3] at hk ⊢
    rw [consumeBatch_single _ _ _ hk hs]
  · rfl

/-- The composer after a `process` call is that of the compose stage. -/
theorem process_composer (p : SignalPipeline) (env : PipelineEnv) (previous : Option MarketFeatures)
    (current : MarketFeatures) :
    (p.process env previous current).2.composer = (p.composeStage env previous current).2.2.composer := by
  unfold process
  obtain ⟨acceptedEvents, produced, p'⟩ := p.composeStage env previous current
  dsimp only
  split
  · exact observeEpisodes_composer ..
  · exact (foldl_alertStep env produced _).1.trans (observeEpisodes_composer ..)

/-- The events that a `process` call composes: some of the detected ones. -/
theorem composeStage_events (p : SignalPipeline) (env : PipelineEnv)
    (previous : Option MarketFeatures) (current : MarketFeatures) : ∃ p₁ : SignalPipeline, ∃ kept : List MarketEvent,
    p₁.composer = p.composer ∧ kept.Sublist (evaluate env.eventId env.detectedAt previous current) ∧
      (p.composeStage env previous current) =
        if kept ≠ [] then
          (kept, (p.composer.consumeSymbol env.draws current.symbol kept current).1,
            { p₁ with
              composer := (p.composer.consumeSymbol env.draws current.symbol kept current).2 })
        else (kept, [],
          { p₁ with composer := p.composer.prune current.symbol current.marketTimestamp }) := by
  obtain ⟨h1, kept, h2, h3⟩ :=
    foldl_acceptEvent (evaluate env.eventId env.detectedAt previous current) (p, [])
  rw [List.nil_append] at h3
  refine ⟨_, kept, h1, h2, ?_⟩
  rw [composeStage_eq]
  unfold admitted
  rw [h3]

/-- The detected events are fresh when the offered ids are. -/
theorem detected_fresh {seen : Set String} (hnd : (EventType.all.map env.eventId).Nodup)
    (hs : ∀ t, env.eventId t ∉ seen) {kept : List MarketEvent}
    (hk : kept.Sublist (evaluate env.eventId env.detectedAt previous current)) :
    FreshBatch seen current.symbol kept where
  symbol := fun e he => (evaluate_stamp e (hk.subset he)).symbol
  unseen := fun e he => by rw [(evaluate_stamp e (hk.subset he)).id]; exact hs _
  ids := by
    intro e he e' he' heq
    have hall : ∀ t : EventType, t ∈ EventType.all := by intro t; cases t <;> decide
    rw [(evaluate_stamp e (hk.subset he)).id, (evaluate_stamp e' (hk.subset he')).id] at heq
    have ht : e.type = e'.type := List.inj_on_of_nodup_map hnd (hall _) (hall _) heq
    exact List.inj_on_of_nodup_map evaluate_types (hk.subset he) (hk.subset he') ht

end SignalPipeline

end MarketSentinel
