import MarketSentinel.Signals.OwnTick
import MarketSentinel.Signals.View

/-!
# Symbol isolation

A run of calls for many symbols is compared, for one symbol `A`, with the run of `A`'s calls
only, each with the same environment. The calls are taken apart into steps of one symbol
(`SignalCall.steps`), and each step's output is logged under its symbol (`Observed`).

* `foreign_perform`: a step for another symbol that spares `A`'s episodes does not show to `A`.
* `same_perform`: a step for `A` gives the same output in two pipelines that look alike from `A`.
* `symbol_isolated`: if every step for another symbol spares `A`'s episodes, `A`'s outputs, active
  signals and traces are those of the run of `A`'s calls only.
-/

namespace MarketSentinel

open Lib Machine SignalComposer SignalPipeline

/-! ## Steps of one symbol -/

/-- A call for one symbol: `process`, `prune`, or the `_consume_symbol` call for one symbol of a
batch. -/
inductive SymbolStep
  | process (env : PipelineEnv) (previous : Option MarketFeatures) (current : MarketFeatures)
  | consume (draws : Draws) (symbol : String) (batch : List MarketEvent) (features : MarketFeatures)
  | prune (symbol : String) (nowTs : ℚ)

namespace SymbolStep

def symbol : SymbolStep → String
  | .process _ _ current => current.symbol
  | .consume _ symbol _ _ => symbol
  | .prune symbol _ => symbol

/-- The market time of a step. -/
def time : SymbolStep → ℚ
  | .process _ _ current => current.marketTimestamp
  | .consume _ _ batch _ => latestTs batch
  | .prune _ nowTs => nowTs

end SymbolStep

/-- What a step returns. -/
inductive Output
  | processed (r : Option ProcessResult)
  | produced (l : List (Signal × SignalTrace))
  | pruned

/-- A step: its output, and the pipeline after it. -/
def SignalPipeline.perform (p : SignalPipeline) : SymbolStep → Output × SignalPipeline
  | .process env previous current =>
    (.processed (p.process env previous current).1, (p.process env previous current).2)
  | .consume draws symbol batch features =>
    (.produced (p.composer.consumeSymbol draws symbol batch features).1,
      { p with composer := (p.composer.consumeSymbol draws symbol batch features).2 })
  | .prune symbol nowTs => (.pruned, { p with composer := p.composer.prune symbol nowTs })

/-- A pipeline with the outputs of its steps, each under the symbol of its step. -/
structure Observed where
  pipeline : SignalPipeline
  log : List (String × Output) := []

def Observed.step (s : Observed) (st : SymbolStep) : Option Observed :=
  some ⟨(s.pipeline.perform st).2, s.log ++ [(st.symbol, (s.pipeline.perform st).1)]⟩

namespace SignalCall

/-- The steps of a call. -/
def steps : SignalCall → List SymbolStep
  | .process env previous current => [.process env previous current]
  | .consumeBatch draws events features =>
    (bySymbol events).entries.map fun e => .consume draws e.1 e.2 features
  | .prune symbol nowTs => [.prune symbol nowTs]

/-- The part of a call that is for `A`. -/
def only (A : String) : SignalCall → Option SignalCall
  | .process env previous current =>
    if current.symbol = A then some (.process env previous current) else none
  | .consumeBatch draws events features =>
    if (events.filter (·.symbol = A)) = [] then none
    else some (.consumeBatch draws (events.filter (·.symbol = A)) features)
  | .prune symbol nowTs => if symbol = A then some (.prune symbol nowTs) else none

/-- **The steps of a call are the call.** -/
theorem run_steps (call : SignalCall) (s : Observed) :
    ∃ s', run Observed.step s call.steps = some s' ∧ s'.pipeline = s.pipeline.after call := by
  cases call with
  | process env previous current => exact ⟨_, rfl, rfl⟩
  | prune symbol nowTs => exact ⟨_, rfl, rfl⟩
  | consumeBatch draws events features =>
    have hfold : ∀ (es : List (String × List MarketEvent)) (s : Observed)
        (l : List (Signal × SignalTrace)), ∃ s',
        run Observed.step s (es.map fun e => .consume draws e.1 e.2 features) = some s' ∧
          s'.pipeline = { s.pipeline with composer := (es.foldl (fun r e =>
            (r.1 ++ (r.2.consumeSymbol draws e.1 e.2 features).1,
              (r.2.consumeSymbol draws e.1 e.2 features).2)) (l, s.pipeline.composer)).2 } := by
      intro es
      induction es with
      | nil => intro s l; exact ⟨s, rfl, rfl⟩
      | cons e es ih =>
        intro s l
        obtain ⟨s', hs', hp⟩ := ih
          ⟨(s.pipeline.perform (.consume draws e.1 e.2 features)).2, s.log ++ [_]⟩ (l ++ _)
        exact ⟨s', hs', hp⟩
    exact hfold _ s []

/-- The steps of the part for `A` are the steps for `A`. -/
theorem only_steps (A : String) (call : SignalCall) :
    (call.only A).toList.flatMap steps = call.steps.filter fun st => st.symbol = A := by
  cases call with
  | process env previous current =>
    unfold only steps
    by_cases h : current.symbol = A <;> simp [h, SymbolStep.symbol]
  | prune symbol nowTs =>
    unfold only steps
    by_cases h : symbol = A <;> simp [h, SymbolStep.symbol]
  | consumeBatch draws events features =>
    have hright : ((bySymbol events).entries.map fun e =>
        SymbolStep.consume draws e.1 e.2 features).filter (fun st => st.symbol = A) =
          ((bySymbol events).entries.filter fun e => e.1 = A).map fun e =>
            .consume draws e.1 e.2 features := by
      rw [List.filter_map]; rfl
    have hgetD := bySymbol_getD events A
    unfold only steps
    dsimp only
    rw [hright, Dict.filter_entries]
    unfold Dict.getD at hgetD
    -- A batch without events of `A` has no group for it, and the part for `A` is no call.
    by_cases hnil : events.filter (·.symbol = A) = []
    · rw [if_pos hnil]
      cases hg : (bySymbol events).get? A with
      | none => rfl
      | some b =>
        obtain ⟨-, hne⟩ := mem_bySymbol (Dict.mem_entries.2 hg)
        rw [hg] at hgetD
        exact absurd (hgetD.trans hnil) hne
    · rw [if_neg hnil]
      cases hg : (bySymbol events).get? A with
      | none =>
        rw [hg] at hgetD
        exact absurd hgetD.symm hnil
      | some b =>
        rw [hg] at hgetD
        have hb : b = events.filter (·.symbol = A) := hgetD
        have hs : ∀ e ∈ events.filter (·.symbol = A), e.symbol = A := fun e he =>
          of_decide_eq_true (List.mem_filter.1 he).2
        simp only [Option.toList_some, List.flatMap_cons, List.flatMap_nil, List.append_nil,
          bySymbol_single hnil hs, hb]
        rfl

end SignalCall

/-- **The steps of a run of calls are the run of the calls.** -/
theorem run_calls (calls : List SignalCall) : ∀ s : Observed, ∃ s',
    run Observed.step s (calls.flatMap (·.steps)) = some s' ∧
      run SignalPipeline.step s.pipeline calls = some s'.pipeline := by
  induction calls with
  | nil => intro s; exact ⟨s, rfl, rfl⟩
  | cons call calls ih =>
    intro s
    obtain ⟨s₁, h1, hp⟩ := call.run_steps s
    obtain ⟨s₂, h2, hp2⟩ := ih s₁
    refine ⟨s₂, run_append.2 ⟨s₁, h1, h2⟩, run_cons.2 ⟨s₁.pipeline, ?_, hp2⟩⟩
    rw [hp]
    rfl

theorem filterMap_only_steps (A : String) (calls : List SignalCall) :
    (calls.filterMap (·.only A)).flatMap (·.steps) =
      (calls.flatMap (·.steps)).filter fun st => st.symbol = A := by
  induction calls with
  | nil => rfl
  | cons call calls ih =>
    rw [List.flatMap_cons, List.filter_append, ← ih, ← SignalCall.only_steps]
    cases h : call.only A with
    | none => rw [List.filterMap_cons_none h]; rfl
    | some call' => rw [List.filterMap_cons_some h]; simp

/-! ## Deduplication keys -/

/-- A text after its last separator is determined, and so is the text before. -/
theorem sep_inj {x : Char} : ∀ {xs ys a b : List Char}, x ∉ a → x ∉ b →
    xs ++ x :: a = ys ++ x :: b → xs = ys ∧ a = b := by
  intro xs
  induction xs with
  | nil =>
    intro ys a b ha hb h
    cases ys with
    | nil => simpa using h
    | cons y ys =>
      simp only [List.nil_append, List.cons_append, List.cons.injEq] at h
      exact absurd (by rw [h.2]; simp) ha
  | cons z xs ih =>
    intro ys a b ha hb h
    cases ys with
    | nil =>
      simp only [List.nil_append, List.cons_append, List.cons.injEq] at h
      exact absurd (by rw [← h.2]; simp) hb
    | cons y ys =>
      simp only [List.cons_append, List.cons.injEq] at h
      obtain ⟨h1, h2⟩ := ih ha hb h.2
      exact ⟨by rw [h.1, h1], h2⟩

/-- **A deduplication key tells its symbol and its type.** -/
theorem dedupeKeyOf_inj {s s' : String} {t t' : EventType} {d d' : EventDirection}
    (h : dedupeKeyOf s t d = dedupeKeyOf s' t' d') : s = s' ∧ t = t' := by
  have ht : ∀ t : EventType, '|' ∉ t.value.toList := by intro t; cases t <;> decide
  have hd : ∀ d : EventDirection, '|' ∉ d.value.toList := by intro d; cases d <;> decide
  have hl := congrArg String.toList h
  have hsep : "|".toList = ['|'] := rfl
  simp only [dedupeKeyOf, String.toList_append, hsep] at hl
  have hl' : (s.toList ++ '|' :: t.value.toList) ++ '|' :: d.value.toList =
      (s'.toList ++ '|' :: t'.value.toList) ++ '|' :: d'.value.toList := by
    simpa using hl
  obtain ⟨hsymbol, htype⟩ := sep_inj (ht t) (ht t') (sep_inj (hd d) (hd d') hl').1
  have hvalue : t.value = t'.value := String.toList_inj.1 htype
  refine ⟨String.toList_inj.1 hsymbol, ?_⟩
  revert hvalue
  cases t <;> cases t' <;> decide

/-- **Two symbols never share a deduplication key.** -/
theorem dedupeKeyOf_symbol {s s' : String} {t t' : EventType} {d d' : EventDirection}
    (h : dedupeKeyOf s t d = dedupeKeyOf s' t' d') : s = s' := (dedupeKeyOf_inj h).1

/-! ## What a symbol sees of the pipeline -/

/-- Two pipelines look alike from `A`. The telemetry is not looked at. -/
structure PipelineView (o : Owners) (A : String) (p q : SignalPipeline) : Prop where
  composer : SameView o A p.composer q.composer
  records : ∀ t d, q.deduper.records.get? (dedupeKeyOf A t d) =
    p.deduper.records.get? (dedupeKeyOf A t d)
  cooldownS : q.cooldown.cooldownS = p.cooldown.cooldownS
  last : ∀ i, o.signal i = A → q.cooldown.last.get? i = p.cooldown.last.get? i

variable {o : Owners} {A : String} {p q : SignalPipeline}

theorem PipelineView.refl : PipelineView o A p p := ⟨.refl, fun _ _ => rfl, rfl, fun _ _ => rfl⟩

theorem PipelineView.trans {r : SignalPipeline} (h : PipelineView o A p q)
    (h' : PipelineView o A q r) : PipelineView o A p r :=
  ⟨h.composer.trans h'.composer, fun t d => (h'.records t d).trans (h.records t d),
    h'.cooldownS.trans h.cooldownS, fun i hi => (h'.last i hi).trans (h.last i hi)⟩

theorem PipelineView.of_core {p' q' : SignalPipeline} (h : PipelineView o A p q)
    (hp : p'.core = p.core) (hq : q'.core = q.core) : PipelineView o A p' q' := by
  unfold SignalPipeline.core at hp hq
  simp only [Prod.mk.injEq] at hp hq
  obtain ⟨hp1, hp2, hp3⟩ := hp
  obtain ⟨hq1, hq2, hq3⟩ := hq
  exact ⟨by rw [hp2, hq2]; exact h.composer, by rw [hp1, hq1]; exact h.records,
    by rw [hp3, hq3]; exact h.cooldownS, by rw [hp3, hq3]; exact h.last⟩

theorem PipelineView.with_composer (h : PipelineView o A p q) {c c' : SignalComposer}
    (hc : SameView o A c c') :
    PipelineView o A { p with composer := c } { q with composer := c' } :=
  ⟨hc, h.records, h.cooldownS, h.last⟩

/-- The active signals of a symbol are read off its episodes. -/
theorem activeSignals_eq {c c' : SignalComposer}
    (h : ∀ k, k.symbol = A → c'.active.get? k = c.active.get? k) :
    c'.activeSignals A = c.activeSignals A := by
  have hrank : ∀ l l' : Lineage, lineageRank l = lineageRank l' → l = l' := by
    intro l l'; cases l <;> cases l' <;> simp [lineageRank]
  have hdrank : ∀ d d' : EventDirection, directionRank d = directionRank d' → d = d' := by
    intro d d'; cases d <;> cases d' <;> simp [directionRank]
  have hnodup : ∀ c : SignalComposer, (c.active.entries.filter fun e => e.1.symbol = A).Nodup :=
    fun c => (List.Nodup.of_map _ c.active.nodup).filter _
  unfold SignalComposer.activeSignals
  congr 1
  -- Both are sorted by lineage and direction, which tell the episodes of a symbol apart: the tables' order is lost.
  refine List.Perm.eq_of_pairwise ?_ (List.pairwise_insertionSort RowLe _)
    (List.pairwise_insertionSort RowLe _) ?_
  · rintro ⟨⟨s, l, d⟩, sig⟩ ⟨⟨s', l', d'⟩, sig'⟩ hm hm' hle hle'
    rw [List.mem_insertionSort, List.mem_filter, decide_eq_true_eq] at hm hm'
    obtain ⟨hm, rfl⟩ := hm
    obtain ⟨hm', hs⟩ := hm'
    have hlin : l = l' := hrank _ _ (by
      rcases hle with h1 | h1 <;> rcases hle' with h2 | h2 <;> simp only at h1 h2 <;> omega)
    subst hlin
    have hdir : d = d' := hdrank _ _ (by
      rcases hle with h1 | ⟨-, h1 | h1⟩ <;> rcases hle' with h2 | ⟨-, h2 | h2⟩ <;>
        simp only at h1 h2 <;> omega)
    subst hdir
    have ha := Dict.mem_entries.1 hm
    have ha' := Dict.mem_entries.1 hm'
    simp only at hs
    rw [hs, ← h _ rfl] at ha'
    rw [ha] at ha'
    cases ha'
    rw [hs]
  · refine (List.perm_insertionSort _ _).trans (List.Perm.trans ?_ (List.perm_insertionSort _ _).symm)
    rw [List.perm_ext_iff_of_nodup (hnodup c') (hnodup c)]
    rintro ⟨k, sig⟩
    simp only [List.mem_filter, Dict.mem_entries, decide_eq_true_eq]
    exact and_congr_left fun hk => by rw [h k hk]

/-! ## The loops of `process` -/

/-- Deduplicating an event of another symbol. -/
theorem foreign_acceptEvent {acc : List MarketEvent} {e : MarketEvent}
    (he : ∀ t d, dedupeKeyOf A t d ≠ e.dedupeKey) : PipelineView o A p (acceptEvent (p, acc) e).1 := by
  unfold acceptEvent EventDeduper.accept
  dsimp only
  split
  · rw [if_pos rfl]
    refine ⟨.refl, fun t d => ?_, rfl, fun _ _ => rfl⟩
    exact Dict.get?_set_ne _ (he t d) _
  · rw [if_neg Bool.false_ne_true]
    exact PipelineView.refl.of_core rfl rfl

theorem foreign_foldl_acceptEvent : ∀ (es : List MarketEvent) (p : SignalPipeline) (acc : List MarketEvent),
    (∀ e ∈ es, ∀ t d, dedupeKeyOf A t d ≠ e.dedupeKey) →
      PipelineView o A p (es.foldl acceptEvent (p, acc)).1 := by
  intro es
  induction es with
  | nil => intro p acc _; exact .refl
  | cons e es ih =>
    intro p acc he
    rw [List.forall_mem_cons] at he
    exact (foreign_acceptEvent he.1).trans (ih (acceptEvent (p, acc) e).1 (acceptEvent (p, acc) e).2 he.2)

/-- Deduplicating an event of `A` in two pipelines that look alike. -/
theorem same_acceptEvent (acc : List MarketEvent) (h : PipelineView o A p q) {e : MarketEvent}
    {t : EventType} {d : EventDirection} (he : e.dedupeKey = dedupeKeyOf A t d) :
    (acceptEvent (q, acc) e).2 = (acceptEvent (p, acc) e).2 ∧
      PipelineView o A (acceptEvent (p, acc) e).1 (acceptEvent (q, acc) e).1 := by
  have hrec : q.deduper.records.get? e.dedupeKey = p.deduper.records.get? e.dedupeKey := by
    rw [he]; exact h.records t d
  unfold acceptEvent EventDeduper.accept
  dsimp only [SignalPipeline.emit]
  rw [hrec]
  split
  · rw [if_pos rfl, if_pos rfl]
    refine ⟨rfl, h.composer, fun t d => ?_, h.cooldownS, h.last⟩
    simp only [EventDeduper.store, Dict.get?_set, h.records t d]
  · rw [if_neg Bool.false_ne_true, if_neg Bool.false_ne_true]
    exact ⟨rfl, h.composer, h.records, h.cooldownS, h.last⟩

theorem same_foldl_acceptEvent : ∀ (es : List MarketEvent) (p q : SignalPipeline) (acc : List MarketEvent),
    PipelineView o A p q → (∀ e ∈ es, e.dedupeKey = dedupeKeyOf A e.type e.direction) →
      (es.foldl acceptEvent (q, acc)).2 = (es.foldl acceptEvent (p, acc)).2 ∧
        PipelineView o A (es.foldl acceptEvent (p, acc)).1 (es.foldl acceptEvent (q, acc)).1 := by
  intro es
  induction es with
  | nil => intro p q acc h _; exact ⟨rfl, h⟩
  | cons e es ih =>
    intro p q acc h he
    rw [List.forall_mem_cons] at he
    obtain ⟨h1, h2⟩ := same_acceptEvent acc h he.1
    rw [List.foldl_cons, List.foldl_cons]
    have hq : acceptEvent (q, acc) e = ((acceptEvent (q, acc) e).1, (acceptEvent (p, acc) e).2) := Prod.ext rfl h1
    rw [hq]
    exact ih (acceptEvent (p, acc) e).1 (acceptEvent (q, acc) e).1 (acceptEvent (p, acc) e).2 h2 he.2

variable {env : PipelineEnv}

/-- Asking the cooldown gate about a signal of another symbol. -/
theorem foreign_alertStep {s : AlertState} {produced : Signal × SignalTrace}
    (hid : o.signal produced.1.id ≠ A) :
    PipelineView o A s.pipeline (alertStep env s produced).pipeline := by
  unfold alertStep CooldownGate.allow
  dsimp only
  split
  · exact PipelineView.refl.of_core rfl rfl
  · split
    · rw [if_pos rfl]
      refine ⟨.refl, fun _ _ => rfl, rfl, fun i hi => ?_⟩
      exact Dict.get?_set_ne _ (fun he : i = produced.1.id => hid (he ▸ hi)) _
    · rw [if_neg Bool.false_ne_true]
      exact PipelineView.refl.of_core rfl rfl

theorem foreign_foldl_alertStep : ∀ (l : List (Signal × SignalTrace)) (s : AlertState),
    (∀ r ∈ l, o.signal r.1.id ≠ A) →
      PipelineView o A s.pipeline (l.foldl (alertStep env) s).pipeline := by
  intro l
  induction l with
  | nil => intro s _; exact .refl
  | cons r l ih =>
    intro s hl
    rw [List.forall_mem_cons] at hl
    exact (foreign_alertStep hl.1).trans (ih _ hl.2)

/-- Two states of the alert loop that look alike. -/
structure SameAlerts (o : Owners) (A : String) (s s' : AlertState) : Prop where
  view : PipelineView o A s.pipeline s'.pipeline
  seen : s'.seen = s.seen
  alerts : s'.alerts = s.alerts
  duplicates : s'.duplicates = s.duplicates

theorem same_alertStep {s s' : AlertState} {produced : Signal × SignalTrace}
    (h : SameAlerts o A s s') (hid : o.signal produced.1.id = A) :
    SameAlerts o A (alertStep env s produced) (alertStep env s' produced) := by
  unfold alertStep CooldownGate.allow
  dsimp only
  have hpass : ∀ x, s'.pipeline.cooldown.passes (env.monotonic produced.1.id) produced.1.priority x =
      s.pipeline.cooldown.passes (env.monotonic produced.1.id) produced.1.priority x := by
    intro x
    unfold CooldownGate.passes
    rw [h.view.cooldownS]
  rw [h.seen, h.view.last _ hid, hpass]
  by_cases hs : produced.1.id ∈ s.seen
  · rw [if_pos hs, if_pos hs]
    exact ⟨h.view.of_core rfl rfl, rfl, h.alerts, by simp only [h.duplicates]⟩
  · rw [if_neg hs, if_neg hs]
    split
    · rw [if_pos rfl, if_pos rfl]
      refine ⟨⟨h.view.composer, h.view.records, h.view.cooldownS, fun i hi => ?_⟩, rfl, ?_, h.duplicates⟩
      · simp only [SignalPipeline.emit, Dict.get?_set, h.view.last i hi]
      · simp only [h.alerts]
    · rw [if_neg Bool.false_ne_true, if_neg Bool.false_ne_true]
      exact ⟨h.view.of_core rfl rfl, rfl, h.alerts, h.duplicates⟩

theorem same_foldl_alertStep : ∀ (l : List (Signal × SignalTrace)) (s s' : AlertState)
    (env : PipelineEnv), SameAlerts o A s s' → (∀ r ∈ l, o.signal r.1.id = A) →
      SameAlerts o A (l.foldl (alertStep env) s) (l.foldl (alertStep env) s') := by
  intro l
  induction l with
  | nil => intro s s' env h _; exact h
  | cons r l ih =>
    intro s s' env h hl
    rw [List.forall_mem_cons] at hl
    exact ih _ _ env (same_alertStep h hl.1) hl.2

/-! ## Steps -/

/-- The ids that come with a step belong to its symbol. -/
def OwnStep (o : Owners) : SymbolStep → Prop
  | .process env _ current =>
    (∀ t, o.event (env.eventId t) = current.symbol) ∧
      ∀ k, k.symbol = current.symbol → o.signal (env.draws k).1 = current.symbol
  | .consume draws symbol batch _ => OwnCall o symbol draws batch
  | .prune _ _ => True

section Process

variable {previous : Option MarketFeatures} {current : MarketFeatures}

theorem admitted_sub : ∀ e ∈ (admitted p env previous current).2,
    Stamped env.eventId env.detectedAt current e := by
  obtain ⟨-, kept, hsub, heq⟩ :=
    foldl_acceptEvent (evaluate env.eventId env.detectedAt previous current) (p, [])
  intro e he
  unfold admitted at he
  rw [heq, List.nil_append] at he
  exact evaluate_stamp e (hsub.subset he)

/-- The call on the admitted events. -/
theorem admitted_ownCall (h : OwnStep o (.process env previous current)) :
    OwnCall o current.symbol env.draws (admitted p env previous current).2 :=
  ⟨fun e he => by rw [(admitted_sub e he).id]; exact h.1 _, h.2⟩

/-- The compose stage keeps the owners; the produced signals belong to the snapshot's symbol. -/
theorem own_composeStage (ho : Own o p.composer) (h : OwnStep o (.process env previous current)) :
    Own o (p.composeStage env previous current).2.2.composer ∧
      ∀ r ∈ (p.composeStage env previous current).2.1, o.signal r.1.id = current.symbol := by
  rw [composeStage_eq]
  dsimp only
  split
  · obtain ⟨h1, h2, -⟩ := ownState_consumeSymbol ho current (admitted_ownCall (p := p) h)
    exact ⟨h1, h2⟩
  · exact ⟨own_prune ho _ _, by simp⟩

/-- The compose stage for another symbol that spares `A`'s episodes. -/
theorem foreign_composeStage (ho : Own o p.composer) (h : OwnStep o (.process env previous current))
    (hne : current.symbol ≠ A) (hs : p.composer.Spares A current.marketTimestamp) :
    PipelineView o A p (p.composeStage env previous current).2.2 := by
  have hadm : PipelineView o A p (admitted p env previous current).1 := by
    refine foreign_foldl_acceptEvent _ p [] fun e he t d heq => hne ?_
    rw [(evaluate_stamp e he).dedupe] at heq
    exact (dedupeKeyOf_symbol heq).symm
  rw [composeStage_eq]
  dsimp only
  split
  · rename_i hk
    refine ⟨foreign_consumeSymbol ho current (admitted_ownCall (p := p) h) hne ?_, hadm.records,
      hadm.cooldownS, hadm.last⟩
    rw [latestTs_eq hk fun e he => (admitted_sub e he).market]
    exact hs
  · exact ⟨foreign_prune ho hne hs, hadm.records, hadm.cooldownS, hadm.last⟩

/-- The compose stage for `A` in two pipelines that look alike. -/
theorem same_composeStage (hv : PipelineView o A p q) (ho : Own o p.composer)
    (ho' : Own o q.composer) (h : OwnStep o (.process env previous current))
    (hA : current.symbol = A) :
    (q.composeStage env previous current).1 = (p.composeStage env previous current).1 ∧
      (q.composeStage env previous current).2.1 = (p.composeStage env previous current).2.1 ∧
      PipelineView o A (p.composeStage env previous current).2.2
        (q.composeStage env previous current).2.2 := by
  subst hA
  have hadm := same_foldl_acceptEvent (evaluate env.eventId env.detectedAt previous current) p q [] hv
    fun e he => (evaluate_stamp e he).dedupe
  have hkept : (admitted q env previous current).2 = (admitted p env previous current).2 := hadm.1
  have hview : PipelineView o current.symbol (admitted p env previous current).1
      (admitted q env previous current).1 := hadm.2
  rw [composeStage_eq, composeStage_eq, hkept]
  split
  · obtain ⟨h1, h2⟩ := same_consumeSymbol hv.composer ho ho' current (admitted_ownCall (p := p) h)
    exact ⟨rfl, h1, hview.with_composer h2⟩
  · exact ⟨rfl, rfl, hview.with_composer (same_prune hv.composer ho ho')⟩

/-- A fallible map is determined by its values on the list. -/
theorem mapM_congr {α β : Type*} {f g : α → Option β} : ∀ {l : List α}, (∀ a ∈ l, f a = g a) →
    l.mapM f = l.mapM g := by
  intro l
  induction l with
  | nil => intro _; rfl
  | cons a l ih =>
    intro h
    rw [List.forall_mem_cons] at h
    rw [List.mapM_cons, List.mapM_cons, h.1, ih h.2]

theorem process_own (ho : Own o p.composer) (h : OwnStep o (.process env previous current)) :
    Own o (p.process env previous current).2.composer := by
  obtain ⟨hown, -⟩ := own_composeStage ho h
  unfold process
  dsimp only
  split
  · rw [observeEpisodes_composer]; exact hown
  · dsimp only
    rw [(foldl_alertStep env _ _).1, observeEpisodes_composer]
    exact hown

theorem foreign_process (ho : Own o p.composer) (h : OwnStep o (.process env previous current))
    (hne : current.symbol ≠ A) (hs : p.composer.Spares A current.marketTimestamp) :
    PipelineView o A p (p.process env previous current).2 := by
  have hstage := foreign_composeStage ho h hne hs
  obtain ⟨-, hprod⟩ := own_composeStage ho h
  have hobs := hstage.of_core rfl (observeEpisodes_core (p.priorPriority current.symbol)
    (p.composeStage env previous current).2.1)
  unfold process
  dsimp only
  split
  · exact hobs
  · exact hobs.trans (foreign_foldl_alertStep _ { pipeline := _ } fun r hr he =>
      hne ((hprod r hr).symm.trans he))

/-- **A `process` call for `A` in two pipelines that look alike.** -/
theorem same_process (hv : PipelineView o A p q) (ho : Own o p.composer) (ho' : Own o q.composer)
    (h : OwnStep o (.process env previous current)) (hA : current.symbol = A) :
    (q.process env previous current).1 = (p.process env previous current).1 ∧
      PipelineView o A (p.process env previous current).2 (q.process env previous current).2 := by
  obtain ⟨hacc, hprod, hstage⟩ := same_composeStage hv ho ho' h hA
  subst hA
  obtain ⟨hown, hids⟩ := own_composeStage ho h
  have hobs := hstage.of_core
    (observeEpisodes_core (p.priorPriority current.symbol) (p.composeStage env previous current).2.1)
    (observeEpisodes_core (q.priorPriority current.symbol) (q.composeStage env previous current).2.1)
  have hactive := activeSignals_eq hstage.composer.active
  -- The traces that are read are those of the symbol's own signals.
  have htraces : ((q.composeStage env previous current).2.2.composer.activeSignals
      current.symbol).mapM
        (fun item => (q.composeStage env previous current).2.2.composer.traceFor item.id) =
      ((p.composeStage env previous current).2.2.composer.activeSignals current.symbol).mapM
        fun item => (p.composeStage env previous current).2.2.composer.traceFor item.id := by
    rw [hactive]
    refine mapM_congr fun signal hs => ?_
    obtain ⟨k, hk, ha⟩ := mem_activeSignals.1 hs
    exact hstage.composer.traces _ ((hown.signal ha).trans hk)
  have hloop := same_foldl_alertStep (p.composeStage env previous current).2.1
    { pipeline := (p.composeStage env previous current).2.2.observeEpisodes
        (p.priorPriority current.symbol) (p.composeStage env previous current).2.1 }
    { pipeline := (q.composeStage env previous current).2.2.observeEpisodes
        (q.priorPriority current.symbol) (q.composeStage env previous current).2.1 }
    env ⟨hobs, rfl, rfl, rfl⟩ hids
  unfold process
  dsimp only
  rw [observeEpisodes_composer, observeEpisodes_composer, htraces, hactive, hacc, hprod]
  rw [hprod] at hobs hloop
  cases ((p.composeStage env previous current).2.2.composer.activeSignals current.symbol).mapM
      fun item => (p.composeStage env previous current).2.2.composer.traceFor item.id with
  | none => exact ⟨rfl, hobs⟩
  | some traces =>
    dsimp only
    rw [hloop.alerts, hloop.duplicates]
    exact ⟨rfl, hloop.view⟩

end Process

/-- A step keeps the owners. -/
theorem own_perform (ho : Own o p.composer) {st : SymbolStep} (h : OwnStep o st) :
    Own o (p.perform st).2.composer := by
  cases st with
  | process env previous current => exact process_own ho h
  | consume draws symbol batch features => exact (ownState_consumeSymbol ho features h).1
  | prune symbol nowTs => exact own_prune ho symbol nowTs

/-- **A step for another symbol that spares `A`'s episodes does not show to `A`.** -/
theorem foreign_perform (ho : Own o p.composer) {st : SymbolStep} (h : OwnStep o st)
    (hne : st.symbol ≠ A) (hs : p.composer.Spares A st.time) : PipelineView o A p (p.perform st).2 := by
  cases st with
  | process env previous current => exact foreign_process ho h hne hs
  | consume draws symbol batch features =>
    exact ⟨foreign_consumeSymbol ho features h hne hs, fun _ _ => rfl, rfl, fun _ _ => rfl⟩
  | prune symbol nowTs => exact ⟨foreign_prune ho hne hs, fun _ _ => rfl, rfl, fun _ _ => rfl⟩

/-- **A step for `A` in two pipelines that look alike.** -/
theorem same_perform (hv : PipelineView o A p q) (ho : Own o p.composer) (ho' : Own o q.composer)
    {st : SymbolStep} (h : OwnStep o st) (hA : st.symbol = A) :
    (q.perform st).1 = (p.perform st).1 ∧ PipelineView o A (p.perform st).2 (q.perform st).2 := by
  cases st with
  | process env previous current =>
    obtain ⟨h1, h2⟩ := same_process hv ho ho' h hA
    exact ⟨congrArg Output.processed h1, h2⟩
  | consume draws symbol batch features =>
    subst hA
    obtain ⟨h1, h2⟩ := same_consumeSymbol hv.composer ho ho' features h
    exact ⟨congrArg Output.produced h1, hv.with_composer h2⟩
  | prune symbol nowTs =>
    subst hA
    exact ⟨rfl, hv.with_composer (same_prune hv.composer ho ho')⟩

/-! ## Owners of a fresh run -/

namespace SignalCall

/-- The event ids of a call with their symbols. -/
def eventOwners : SignalCall → List (String × String)
  | .process env _ current => EventType.all.map fun t => (env.eventId t, current.symbol)
  | .consumeBatch _ events _ => events.map fun e => (e.id, e.symbol)
  | .prune .. => []

/-- The ids a call may give to new episodes, with their symbols. -/
def drawOwners : SignalCall → List (String × String)
  | .process env _ current => (keysOf current.symbol).map fun k => ((env.draws k).1, k.symbol)
  | .consumeBatch draws events _ =>
    ((symbolsOf events).flatMap keysOf).map fun k => ((draws k).1, k.symbol)
  | .prune .. => []

theorem eventOwners_fst (call : SignalCall) : call.eventOwners.map Prod.fst = call.eventIds := by
  cases call <;> simp [eventOwners, eventIds]

theorem drawOwners_fst (call : SignalCall) : call.drawOwners.map Prod.fst = call.drawIds := by
  cases call <;> simp [drawOwners, drawIds]

end SignalCall

/-- The owner of an id in a list without repeated ids. -/
theorem lookup_owner {l : List (String × String)} (h : (l.map Prod.fst).Nodup) {i s : String}
    (hm : (i, s) ∈ l) : (l.lookup i).getD "" = s := by
  have : (⟨l, h⟩ : Dict String String).get? i = some s := Dict.mem_entries.1 hm
  unfold Dict.get? at this
  rw [this]
  rfl

/-- The owners of the ids of a run. -/
def ownersOf (calls : List SignalCall) : Owners where
  event i := ((calls.flatMap (·.eventOwners)).lookup i).getD ""
  signal i := ((calls.flatMap (·.drawOwners)).lookup i).getD ""

/-- **In a fresh run, the ids of every step belong to its symbol.** -/
theorem ownStep_of_fresh {calls : List SignalCall} (hf : FreshRun calls) :
    ∀ st ∈ calls.flatMap (·.steps), OwnStep (ownersOf calls) st := by
  have hev : ((calls.flatMap (·.eventOwners)).map Prod.fst).Nodup := by
    rw [List.map_flatMap]
    simpa only [SignalCall.eventOwners_fst] using hf.events
  have hdr : ((calls.flatMap (·.drawOwners)).map Prod.fst).Nodup := by
    rw [List.map_flatMap]
    simpa only [SignalCall.drawOwners_fst] using hf.draws
  have hall : ∀ t : EventType, t ∈ EventType.all := by intro t; cases t <;> decide
  intro st hst
  obtain ⟨call, hcall, hst⟩ := List.mem_flatMap.1 hst
  -- Every id of a call was entered for the symbol of its step, and no id was entered twice.
  cases call with
  | process env previous current =>
    rw [SignalCall.steps, List.mem_singleton] at hst
    subst hst
    refine ⟨fun t => ?_, fun k hk => ?_⟩
    · refine lookup_owner hev (List.mem_flatMap.2 ⟨_, hcall, ?_⟩)
      exact List.mem_map.2 ⟨t, hall t, rfl⟩
    · refine lookup_owner hdr (List.mem_flatMap.2 ⟨_, hcall, ?_⟩)
      exact List.mem_map.2 ⟨k, mem_keysOf.2 hk, by rw [hk]⟩
  | consumeBatch draws events features =>
    obtain ⟨⟨s, b⟩, he, rfl⟩ := List.mem_map.1 hst
    obtain ⟨hb, hne⟩ := mem_bySymbol he
    have hmem : ∀ e ∈ b, e ∈ events ∧ e.symbol = s := by
      intro e he
      rw [hb, List.mem_filter, decide_eq_true_eq] at he
      exact he
    refine ⟨fun e he => ?_, fun k hk => ?_⟩
    · refine lookup_owner hev (List.mem_flatMap.2 ⟨_, hcall, ?_⟩)
      exact List.mem_map.2 ⟨e, (hmem e he).1, by rw [(hmem e he).2]⟩
    · refine lookup_owner hdr (List.mem_flatMap.2 ⟨_, hcall, ?_⟩)
      obtain ⟨e, l, hel⟩ := List.exists_cons_of_ne_nil hne
      have he := hmem e (hel ▸ List.mem_cons_self)
      refine List.mem_map.2 ⟨k, List.mem_flatMap.2 ⟨s, mem_symbolsOf.2 ⟨e, he⟩, mem_keysOf.2 hk⟩, ?_⟩
      rw [hk]
  | prune symbol nowTs =>
    rw [SignalCall.steps, List.mem_singleton] at hst
    subst hst
    trivial

/-! ## Isolation -/

/-- Each symbol's market times do not decrease. -/
def TimesOrdered (calls : List SignalCall) : Prop :=
  (calls.flatMap (·.steps)).Pairwise fun a b => a.symbol = b.symbol → a.time ≤ b.time

/-- What `A` gets is the same in two runs: its outputs, its active signals and their traces. -/
def SameFor (A : String) (s t : Observed) : Prop :=
  t.log = s.log.filter (·.1 = A) ∧
    t.pipeline.composer.activeSignals A = s.pipeline.composer.activeSignals A ∧
    ∀ signal ∈ s.pipeline.composer.activeSignals A,
      t.pipeline.composer.traceFor signal.id = s.pipeline.composer.traceFor signal.id

/-- **Symbol isolation.** When every step for another symbol spares `A`'s episodes, `A` gets what
the run of its own calls gives. -/
theorem symbol_isolated {A : String} {calls : List SignalCall} {p₀ : SignalPipeline} {s t : Observed}
    {lookbackS : ℚ} {hl : 0 ≤ lookbackS} (h₀ : p₀.composer = SignalComposer.new lookbackS hl)
    (hf : FreshRun calls)
    (hspare : Along Observed.step
      (fun s st => st.symbol ≠ A → s.pipeline.composer.Spares A st.time) ⟨p₀, []⟩
      (calls.flatMap (·.steps)))
    (hs : run Observed.step ⟨p₀, []⟩ (calls.flatMap (·.steps)) = some s)
    (ht : run Observed.step ⟨p₀, []⟩ ((calls.filterMap (·.only A)).flatMap (·.steps)) = some t) :
    SameFor A s t := by
  set o := ownersOf calls
  let R : Observed → Observed → Prop := fun s t => PipelineView o A s.pipeline t.pipeline ∧
    Own o s.pipeline.composer ∧ Own o t.pipeline.composer ∧ t.log = s.log.filter (·.1 = A)
  have hown₀ : Own o p₀.composer := by
    rw [h₀]
    constructor <;> intros <;> simp_all [SignalComposer.new]
  -- The run of the own calls is simulated by the full run: a step of another symbol is matched by no step.
  have hsim : ∃ t', run Observed.step ⟨p₀, []⟩
      ((calls.flatMap (·.steps)).filterMap (Option.guard fun st => st.symbol = A)) = some t' ∧
        R s t' := by
    refine run_sim (R := R) ?_ ?_ ⟨.refl, hown₀, hown₀, rfl⟩
      (hspare.and_mem (ownStep_of_fresh hf)) hs
    · rintro s st s₁ t ⟨hv, ho, ho', hlog⟩ ⟨hsp, hst⟩ hstep hproj
      cases hstep
      have hne : st.symbol ≠ A := by
        intro he
        simp [Option.guard, he] at hproj
      have hforeign := foreign_perform ho hst hne (hsp hne)
      refine ⟨?_, own_perform ho hst, ho', ?_⟩
      · -- the step shows neither in the full run's view nor in the other run
        exact ⟨hforeign.composer.symm.trans hv.composer,
          fun ty d => (hv.records ty d).trans (hforeign.records ty d).symm,
          hv.cooldownS.trans hforeign.cooldownS.symm,
          fun i hi => (hv.last i hi).trans (hforeign.last i hi).symm⟩
      · rw [List.filter_append, hlog]
        simp [hne]
    · rintro s st s₁ t st' ⟨hv, ho, ho', hlog⟩ ⟨-, hst⟩ hstep hproj
      -- A step of `A` is taken by both runs, on states that look the same to `A`.
      cases hstep
      simp only [Option.guard, decide_eq_true_eq, Option.ite_none_right_eq_some,
        Option.some.injEq] at hproj
      obtain ⟨hA, rfl⟩ := hproj
      obtain ⟨hout, hview⟩ := same_perform hv ho ho' hst hA
      refine ⟨_, rfl, hview, own_perform ho hst, own_perform ho' hst, ?_⟩
      dsimp only
      rw [List.filter_append, hlog, hout]
      simp [hA]
  obtain ⟨t', ht', hv, ho, -, hlog⟩ := hsim
  rw [List.filterMap_eq_filter, ← filterMap_only_steps, ht] at ht'
  cases ht'
  refine ⟨hlog, activeSignals_eq hv.composer.active, fun signal hs => ?_⟩
  obtain ⟨k, hk, ha⟩ := mem_activeSignals.1 hs
  exact hv.composer.traces _ ((ho.signal ha).trans hk)

/-- `A`'s episode at time 0, and `B`'s clock far ahead. -/
def skewedRun : List SignalCall :=
  [.consumeBatch (prefixDraws "a" 0) [bareEvent "e0" "A" .rapidMove .up 0] (bareFeatures "A" 0),
    .prune "B" 1000]

/-- `B`'s call drops `A`'s episode. -/
theorem symbol_not_isolated :
    ¬ ∀ (A : String) (calls : List SignalCall) (s t : Observed), FreshRun calls → TimesOrdered calls →
      run Observed.step ⟨{}, []⟩ (calls.flatMap (·.steps)) = some s →
      run Observed.step ⟨{}, []⟩ ((calls.filterMap (·.only A)).flatMap (·.steps)) = some t →
        SameFor A s t := by
  intro h
  have htimes : TimesOrdered skewedRun := by
    simp [TimesOrdered, skewedRun, SignalCall.steps, bySymbol, Dict.set, Dict.empty, Dict.keys,
      SymbolStep.symbol, bareEvent]
  have hactive := (h "A" skewedRun _ _ (by decide) htimes rfl rfl).2.1
  revert hactive
  decide +kernel

/-- A run of two symbols whose clocks are close together. -/
def closeRun : List SignalCall :=
  [.consumeBatch (prefixDraws "a" 0) [bareEvent "e0" "A" .rapidMove .up 0, bareEvent "e1" "B" .volumeSpike .none 5]
      (bareFeatures "A" 0),
    .prune "B" 60,
    .consumeBatch (prefixDraws "b" 70) [bareEvent "e2" "A" .volumeSpike .none 70] (bareFeatures "A" 70)]

theorem symbol_isolated_close : ∃ s t : Observed,
    run Observed.step ⟨{}, []⟩ (closeRun.flatMap (·.steps)) = some s ∧
      run Observed.step ⟨{}, []⟩ ((closeRun.filterMap (·.only "A")).flatMap (·.steps)) = some t ∧
      SameFor "A" s t := by
  have h₀ : ({} : SignalPipeline).composer = .new clusterLookbackS clusterLookbackS_nonneg := rfl
  have hs : run Observed.step ⟨{}, []⟩ (closeRun.flatMap (·.steps)) = some _ := rfl
  have ht : run Observed.step ⟨{}, []⟩ ((closeRun.filterMap (·.only "A")).flatMap (·.steps)) = some _ :=
    rfl
  exact ⟨_, _, hs, ht, symbol_isolated h₀ (by decide) (by decide +kernel) hs ht⟩

end MarketSentinel
