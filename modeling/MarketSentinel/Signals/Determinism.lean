import Mathlib.Data.List.Pairwise
import MarketSentinel.Signals.Isolation
import MarketSentinel.Signals.Renaming

/-!
# Runs that differ in their ids

Two runs of one symbol's `process` calls, on the same snapshots and clock readings, draw different ids for
their events and signals (`Uuids`). Their outcomes are compared under a renaming of the ids.

* `renamed_process`: a call keeps two pipelines alike, and gives the same outcome, as long as the events it
  admits have no ties with the look-back that the ids would break (`UntiedCall`).
* `process_deterministic`: so do runs.
* `process_not_deterministic`: a quote delivered again at a later wall time breaks a tie by the ids.
-/

namespace MarketSentinel

open Lib Machine SignalComposer SignalPipeline

variable {ρ σ : Equiv.Perm String} {P : MarketEvent → Prop}

/-! ## Detection and deduplication -/

/-- A rule draws ids and nothing else from them. -/
def RuleRenames (rule : EventRule) : Prop :=
  ∀ (ρ : Equiv.Perm String) newId previous current detectedAt,
    rule (fun t => ρ (newId t)) previous current detectedAt =
      (rule newId previous current detectedAt).map (·.rename ρ)

theorem defaultRules_rename : ∀ rule ∈ defaultRules, RuleRenames rule := by
  -- No rule reads the ids it stamps, so the branches that are taken are the same.
  have hmove : RuleRenames rapidMoveRule := by
    intro ρ newId previous current detectedAt
    unfold rapidMoveRule
    split <;> rfl
  have hvolume : RuleRenames volumeSpikeRule := by
    intro ρ newId previous current detectedAt
    unfold volumeSpikeRule
    split <;> rfl
  have hexpansion : RuleRenames priceVolumeExpansionRule := by
    intro ρ newId previous current detectedAt
    unfold priceVolumeExpansionRule
    dsimp only
    split
    · split <;> rfl
    · rfl
  have hhigh : RuleRenames dayHighBreakoutRule := by
    intro ρ newId previous current detectedAt
    unfold dayHighBreakoutRule
    dsimp only
    split
    · rfl
    · split_ifs <;> rfl
  have hlow : RuleRenames dayLowBreakdownRule := by
    intro ρ newId previous current detectedAt
    unfold dayLowBreakdownRule
    dsimp only
    split
    · rfl
    · split_ifs <;> rfl
  have hvwap : RuleRenames vwapCrossRule := by
    intro ρ newId previous current detectedAt
    unfold vwapCrossRule
    dsimp only
    split
    · rfl
    · split
      · split <;> rfl
      · rfl
  intro rule hrule
  simp only [defaultRules, List.mem_cons, List.not_mem_nil, or_false] at hrule
  rcases hrule with rfl | rfl | rfl | rfl | rfl | rfl
  · exact hmove
  · exact hvolume
  · exact hexpansion
  · exact hhigh
  · exact hlow
  · exact hvwap

/-- **Detection under other ids.** -/
theorem evaluate_rename (newId : EventType → String) (detectedAt : ℚ) (previous : Option MarketFeatures)
    (current : MarketFeatures) :
    evaluate (fun t => ρ (newId t)) detectedAt previous current =
      (evaluate newId detectedAt previous current).map (·.rename ρ) := by
  unfold evaluate
  rw [List.map_flatMap]
  exact List.flatMap_congr fun rule hrule => defaultRules_rename rule hrule ρ newId previous current detectedAt

/-- Two pipelines whose tables correspond under a renaming. The telemetry is not looked at. -/
structure RenamedPipeline (ρ σ : Equiv.Perm String) (P : MarketEvent → Prop) (p q : SignalPipeline) : Prop where
  composer : Renamed ρ σ P p.composer q.composer
  deduper : q.deduper = p.deduper
  cooldownS : q.cooldown.cooldownS = p.cooldown.cooldownS
  last : ∀ i, q.cooldown.last.get? (σ i) = p.cooldown.last.get? i

variable {p q : SignalPipeline}

theorem RenamedPipeline.of_core {p' q' : SignalPipeline} (h : RenamedPipeline ρ σ P p q)
    (hp : p'.core = p.core) (hq : q'.core = q.core) : RenamedPipeline ρ σ P p' q' := by
  unfold SignalPipeline.core at hp hq
  simp only [Prod.mk.injEq] at hp hq
  obtain ⟨hp1, hp2, hp3⟩ := hp
  obtain ⟨hq1, hq2, hq3⟩ := hq
  refine ⟨?_, ?_, ?_, ?_⟩
  · rw [hp2, hq2]; exact h.composer
  · rw [hp1, hq1]; exact h.deduper
  · rw [hp3, hq3]; exact h.cooldownS
  · rw [hp3, hq3]; exact h.last

theorem RenamedPipeline.with_composer (h : RenamedPipeline ρ σ P p q) {c c' : SignalComposer}
    (hc : Renamed ρ σ P c c') :
    RenamedPipeline ρ σ P { p with composer := c } { q with composer := c' } :=
  ⟨hc, h.deduper, h.cooldownS, h.last⟩

theorem renamed_acceptEvent (h : RenamedPipeline ρ σ P p q) (acc : List MarketEvent) (e : MarketEvent) :
    (acceptEvent (q, acc.map (·.rename ρ)) (e.rename ρ)).2 = (acceptEvent (p, acc) e).2.map (·.rename ρ) ∧
      RenamedPipeline ρ σ P (acceptEvent (p, acc) e).1
        (acceptEvent (q, acc.map (·.rename ρ)) (e.rename ρ)).1 := by
  have hadmits : ∀ o, EventDeduper.admits (e.rename ρ) o = EventDeduper.admits e o := fun _ => rfl
  have hkey : (e.rename ρ).dedupeKey = e.dedupeKey := rfl
  unfold acceptEvent EventDeduper.accept
  dsimp only [SignalPipeline.emit]
  rw [h.deduper, hadmits, hkey]
  split
  · rw [if_pos rfl, if_pos rfl]
    refine ⟨?_, h.composer, rfl, h.cooldownS, h.last⟩
    rw [List.map_append]
    rfl
  · rw [if_neg Bool.false_ne_true, if_neg Bool.false_ne_true]
    exact ⟨rfl, h.composer, rfl, h.cooldownS, h.last⟩

theorem renamed_foldl_acceptEvent : ∀ (es : List MarketEvent) (p q : SignalPipeline) (acc : List MarketEvent),
    RenamedPipeline ρ σ P p q →
      ((es.map (·.rename ρ)).foldl acceptEvent (q, acc.map (·.rename ρ))).2 =
          (es.foldl acceptEvent (p, acc)).2.map (·.rename ρ) ∧
        RenamedPipeline ρ σ P (es.foldl acceptEvent (p, acc)).1
          ((es.map (·.rename ρ)).foldl acceptEvent (q, acc.map (·.rename ρ))).1 := by
  intro es
  induction es with
  | nil => intro p q acc h; exact ⟨rfl, h⟩
  | cons e es ih =>
    intro p q acc h
    obtain ⟨hkept, hnext⟩ := renamed_acceptEvent h acc e
    rw [List.map_cons, List.foldl_cons, List.foldl_cons]
    have hq : acceptEvent (q, acc.map (·.rename ρ)) (e.rename ρ) =
        ((acceptEvent (q, acc.map (·.rename ρ)) (e.rename ρ)).1,
          (acceptEvent (p, acc) e).2.map (·.rename ρ)) := Prod.ext rfl hkept
    rw [hq]
    exact ih (acceptEvent (p, acc) e).1 _ (acceptEvent (p, acc) e).2 hnext

/-- An event is kept by what the deduper held before the loop, when no other event of the loop has its key. -/
theorem foldl_acceptEvent_admits : ∀ (es : List MarketEvent) (p : SignalPipeline) (acc : List MarketEvent),
    (es.map (·.dedupeKey)).Nodup → ∀ e ∈ (es.foldl acceptEvent (p, acc)).2,
      e ∈ acc ∨ e ∈ es ∧ EventDeduper.admits e (p.deduper.records.get? e.dedupeKey) = true := by
  intro es
  induction es with
  | nil => intro p acc _ e he; exact .inl he
  | cons e₀ es ih =>
    intro p acc hnd e he
    rw [List.map_cons, List.nodup_cons] at hnd
    rw [List.foldl_cons] at he
    rcases ih (acceptEvent (p, acc) e₀).1 (acceptEvent (p, acc) e₀).2 hnd.2 e he with hacc | ⟨hes, hadm⟩
    · revert hacc
      unfold acceptEvent EventDeduper.accept
      dsimp only [SignalPipeline.emit]
      split
      · rename_i hkept
        rw [if_pos rfl]
        intro hacc
        rcases List.mem_append.1 hacc with hacc | hacc
        · exact .inl hacc
        · rw [List.mem_singleton] at hacc
          subst hacc
          exact .inr ⟨List.mem_cons_self, hkept⟩
      · rw [if_neg Bool.false_ne_true]
        exact .inl
    · -- The first event writes under another key.
      have hne : e.dedupeKey ≠ e₀.dedupeKey := fun heq => hnd.1 (heq ▸ List.mem_map_of_mem hes)
      have hrec : (acceptEvent (p, acc) e₀).1.deduper.records.get? e.dedupeKey =
          p.deduper.records.get? e.dedupeKey := by
        unfold acceptEvent EventDeduper.accept
        dsimp only [SignalPipeline.emit]
        split
        · rw [if_pos rfl]
          exact Dict.get?_set_ne _ hne _
        · rw [if_neg Bool.false_ne_true]
      rw [hrec] at hadm
      exact .inr ⟨List.mem_cons_of_mem _ hes, hadm⟩

variable {env env' : PipelineEnv} {previous : Option MarketFeatures} {current : MarketFeatures}

/-- The deduper admits the composed events in the state before the call. -/
theorem admitted_admits {e : MarketEvent} (he : e ∈ (admitted p env previous current).2) :
    e ∈ evaluate env.eventId env.detectedAt previous current ∧
      EventDeduper.admits e (p.deduper.records.get? e.dedupeKey) = true := by
  have hnd : ((evaluate env.eventId env.detectedAt previous current).map (·.dedupeKey)).Nodup := by
    rw [List.Nodup, List.pairwise_map]
    have htypes : ((evaluate env.eventId env.detectedAt previous current).map (·.type)).Nodup := evaluate_types
    rw [List.Nodup, List.pairwise_map] at htypes
    refine htypes.imp_of_mem fun {a b} ha hb hne heq => hne ?_
    rw [(evaluate_stamp a ha).dedupe, (evaluate_stamp b hb).dedupe] at heq
    exact (dedupeKeyOf_inj heq).2
  rcases foldl_acceptEvent_admits _ p [] hnd e he with hnil | h
  · cases hnil
  · exact h

/-! ## Active signals -/

/-- The keys of a symbol, in the order of the rows of `active_signals`. -/
def rankedKeys (symbol : String) : List EpisodeKey :=
  [⟨symbol, .tape, .none⟩, ⟨symbol, .tape, .up⟩, ⟨symbol, .tape, .down⟩,
    ⟨symbol, .vwap, .none⟩, ⟨symbol, .vwap, .up⟩, ⟨symbol, .vwap, .down⟩]

/-- **The active signals, key by key.** -/
theorem activeSignals_eq_filterMap (c : SignalComposer) (symbol : String) :
    c.activeSignals symbol = (rankedKeys symbol).filterMap c.active.get? := by
  have hmem : ∀ k, k ∈ rankedKeys symbol ↔ k.symbol = symbol := by
    rintro ⟨s, l, d⟩
    cases l <;> cases d <;> simp [rankedKeys]
  have hranks : (rankedKeys symbol).Pairwise fun k k' =>
      lineageRank k.lineage < lineageRank k'.lineage ∨
        (lineageRank k.lineage = lineageRank k'.lineage ∧
          directionRank k.direction < directionRank k'.direction) := by
    simp [rankedKeys, lineageRank, directionRank]
  let row : EpisodeKey → Option (EpisodeKey × Signal) := fun k => (c.active.get? k).map fun s => (k, s)
  have hrow : ∀ k r, row k = some r ↔ r.1 = k ∧ c.active.get? k = some r.2 := by
    rintro k ⟨k', s⟩
    simp only [row, Option.map_eq_some_iff, Prod.mk.injEq]
    constructor
    · rintro ⟨s', hs', rfl, rfl⟩
      exact ⟨rfl, hs'⟩
    · rintro ⟨rfl, hs⟩
      exact ⟨s, hs, rfl, rfl⟩
  -- Both lists of rows are sorted, by ranks that tell the rows apart.
  have hsorted : ((rankedKeys symbol).filterMap row).Pairwise fun a b => RowLe a b ∧ ¬ RowLe b a := by
    rw [List.pairwise_filterMap]
    refine hranks.imp fun {k k'} hlt r hr r' hr' => ?_
    obtain ⟨rfl, -⟩ := (hrow k r).1 hr
    obtain ⟨rfl, -⟩ := (hrow k' r').1 hr'
    unfold RowLe
    omega
  have hperm : (c.active.entries.filter fun e => e.1.symbol = symbol).Perm ((rankedKeys symbol).filterMap row) := by
    have hnd : ((rankedKeys symbol).filterMap row).Nodup :=
      hsorted.imp fun {a b} hab heq => by
        subst heq
        exact hab.2 hab.1
    rw [List.perm_ext_iff_of_nodup ((List.Nodup.of_map _ c.active.nodup).filter _) hnd]
    rintro ⟨k, s⟩
    rw [List.mem_filter, Dict.mem_entries, decide_eq_true_eq, List.mem_filterMap]
    constructor
    · rintro ⟨ha, hk⟩
      exact ⟨k, (hmem k).2 hk, (hrow k (k, s)).2 ⟨rfl, ha⟩⟩
    · rintro ⟨k', hk', hr⟩
      obtain ⟨rfl, ha⟩ := (hrow k' (k, s)).1 hr
      exact ⟨ha, (hmem _).1 hk'⟩
  have hrows : (c.active.entries.filter fun e => e.1.symbol = symbol).insertionSort RowLe =
      (rankedKeys symbol).filterMap row := by
    have hp := (List.perm_insertionSort RowLe _).trans hperm
    have hanti : ∀ a ∈ (rankedKeys symbol).filterMap row, ∀ b ∈ (rankedKeys symbol).filterMap row,
        a = b ∨ ¬ (RowLe a b ∧ RowLe b a) := by
      have hboth : ((rankedKeys symbol).filterMap row).Pairwise fun a b => ¬ (RowLe a b ∧ RowLe b a) :=
        hsorted.imp fun hab h => hab.2 h.2
      intro a ha b hb
      by_cases heq : a = b
      · exact .inl heq
      · have : Std.Symm fun a b : EpisodeKey × Signal => ¬ (RowLe a b ∧ RowLe b a) := ⟨fun _ _ hn h => hn h.symm⟩
        exact .inr (hboth.forall ha hb heq)
    refine hp.eq_of_pairwise ?_ (List.pairwise_insertionSort RowLe _) (hsorted.imp And.left)
    intro a b ha hb hab hba
    exact (hanti a (hp.mem_iff.1 ha) b hb).resolve_right fun hn => hn ⟨hab, hba⟩
  unfold SignalComposer.activeSignals
  rw [hrows, List.map_filterMap]
  refine List.filterMap_congr fun k _ => ?_
  simp only [row, Option.map_map]
  exact congrFun Option.map_id _

variable {c c' : SignalComposer} {symbol : String}

theorem Renamed.activeSignals (h : Renamed ρ σ P c c') (symbol : String) :
    List.Forall₂ (SameSignal ρ σ P) (c.activeSignals symbol) (c'.activeSignals symbol) := by
  rw [activeSignals_eq_filterMap, activeSignals_eq_filterMap]
  exact forall₂_filterMap fun k _ => h.active k

theorem Renamed.traces_of_active (h : Renamed ρ σ P c c') (symbol : String) :
    Option.Rel (List.Forall₂ (SameTrace ρ σ P))
      ((c.activeSignals symbol).mapM fun item => c.traceFor item.id)
      ((c'.activeSignals symbol).mapM fun item => c'.traceFor item.id) := by
  refine rel_mapM (fun s s' hs => ?_) (h.activeSignals symbol)
  unfold traceFor
  rw [hs.id_eq]
  exact h.traces s.id

/-! ## The compose stage -/

/-- The environments of one call in the two runs. -/
structure RenamedEnv (ρ σ : Equiv.Perm String) (env env' : PipelineEnv) : Prop where
  detectedAt : env'.detectedAt = env.detectedAt
  eventId : ∀ t, env'.eventId t = ρ (env.eventId t)
  draws : RenamedDraws σ env.draws env'.draws

/-- No event that the call admits has a tie with the look-back that the ids would break. -/
def UntiedCall (p : SignalPipeline) (env : PipelineEnv) (previous : Option MarketFeatures)
    (current : MarketFeatures) : Prop :=
  ∀ e ∈ evaluate env.eventId env.detectedAt previous current,
    EventDeduper.admits e (p.deduper.records.get? e.dedupeKey) = true →
      ∀ e' ∈ p.composer.accepted.getD current.symbol [], Untied e e'

/-- The look-back with the events of a call. -/
theorem settled_append (hs : Settled P current.symbol (p.composer.accepted.getD current.symbol []))
    (hP : ∀ e ∈ evaluate env.eventId env.detectedAt previous current, P e)
    (hu : UntiedCall p env previous current) :
    Settled P current.symbol
      (p.composer.accepted.getD current.symbol [] ++ (admitted p env previous current).2) where
  known := by
    intro e he
    rcases List.mem_append.1 he with he | he
    · exact hs.known e he
    · exact hP e (admitted_admits he).1
  symbol := by
    intro e he
    rcases List.mem_append.1 he with he | he
    · exact hs.symbol e he
    · exact (admitted_sub e he).symbol
  untied := by
    intro e he e' he'
    rcases List.mem_append.1 he with hold | hnew <;> rcases List.mem_append.1 he' with hold' | hnew'
    · exact hs.untied e hold e' hold'
    · obtain ⟨hdet, hadm⟩ := admitted_admits hnew'
      exact (hu e' hdet hadm e hold).symm
    · obtain ⟨hdet, hadm⟩ := admitted_admits hnew
      exact hu e hdet hadm e' hold'
    · intro _ _ _
      have hstamp := admitted_sub e hnew
      have hstamp' := admitted_sub e' hnew'
      exact ⟨hstamp.received.trans hstamp'.received.symm, hstamp.detected.trans hstamp'.detected.symm⟩

theorem consumeSymbol_accepted (c : SignalComposer) (draws : Draws) (symbol : String)
    (batch : List MarketEvent) (features : MarketFeatures) :
    (c.consumeSymbol draws symbol batch features).2.accepted = (c.accept symbol batch).accepted := by
  obtain ⟨s₁, s₂, tape, vwap, heq⟩ := consumeSymbol_chain c draws symbol batch features
  have hstep : ∀ l c₀ d t t', t.composer.accepted = (c.accept symbol batch).accepted →
      (c.callFor draws symbol batch features).DirStep l c₀ d t t' →
        t'.composer.accepted = (c.accept symbol batch).accepted := by
    intro l c₀ d t t' ht hst
    cases hst with
    | skip _ hs => exact hs ▸ ht
    | compose _ _ _ hc => exact hc.accepted.trans ht
  have htape : s₁.composer.accepted = (c.accept symbol batch).accepted := tape.inv (hstep .tape) rfl
  rw [heq]
  exact vwap.inv (hstep .vwap) htape

theorem admitted_rename (h : RenamedPipeline ρ σ P p q) (he : RenamedEnv ρ σ env env') :
    (admitted q env' previous current).2 = (admitted p env previous current).2.map (·.rename ρ) ∧
      RenamedPipeline ρ σ P (admitted p env previous current).1 (admitted q env' previous current).1 := by
  have hids : env'.eventId = fun t => ρ (env.eventId t) := funext he.eventId
  unfold admitted
  rw [hids, he.detectedAt, evaluate_rename]
  exact renamed_foldl_acceptEvent _ p q [] h

/-- **The compose stage** under other ids. -/
theorem renamed_composeStage (h : RenamedPipeline ρ σ P p q) (he : RenamedEnv ρ σ env env')
    (hs : Settled P current.symbol (p.composer.accepted.getD current.symbol []))
    (hP : ∀ e ∈ evaluate env.eventId env.detectedAt previous current, P e)
    (hu : UntiedCall p env previous current) :
    (q.composeStage env' previous current).1 = (p.composeStage env previous current).1.map (·.rename ρ) ∧
      List.Forall₂ (fun a b => SameSignal ρ σ P a.1 b.1 ∧ SameTrace ρ σ P a.2 b.2)
        (p.composeStage env previous current).2.1 (q.composeStage env' previous current).2.1 ∧
      RenamedPipeline ρ σ P (p.composeStage env previous current).2.2
        (q.composeStage env' previous current).2.2 ∧
      Settled P current.symbol
        ((p.composeStage env previous current).2.2.composer.accepted.getD current.symbol []) := by
  obtain ⟨hkept, hnext⟩ := admitted_rename h he
  have happ := settled_append hs hP hu
  have hnil : (admitted q env' previous current).2 ≠ [] ↔ (admitted p env previous current).2 ≠ [] := by
    rw [hkept, ne_eq, List.map_eq_nil_iff]
  rw [composeStage_eq, composeStage_eq]
  by_cases hne : (admitted p env previous current).2 ≠ []
  · rw [if_pos hne, if_pos (hnil.2 hne)]
    dsimp only
    rw [hkept]
    obtain ⟨hproduced, hcomposer⟩ := renamed_consumeSymbol h.composer he.draws _ current happ
    refine ⟨rfl, hproduced, hnext.with_composer hcomposer, happ.mono fun e hm => ?_⟩
    rw [consumeSymbol_accepted, accept_accepted, if_pos rfl] at hm
    exact List.mem_of_mem_filter hm
  · rw [if_neg hne, if_neg (mt hnil.1 hne)]
    dsimp only
    rw [hkept]
    refine ⟨rfl, .nil, hnext.with_composer (renamed_prune h.composer _ _), hs.mono fun e hm => ?_⟩
    unfold SignalComposer.prune at hm
    rw [pruneActive_accepted, trimAccepted_accepted, if_pos rfl] at hm
    exact List.mem_of_mem_filter hm

/-! ## The alert loop -/

/-- The states of the alert loop in the two runs. -/
structure RenamedAlerts (ρ σ : Equiv.Perm String) (P : MarketEvent → Prop) (s s' : AlertState) : Prop where
  pipeline : RenamedPipeline ρ σ P s.pipeline s'.pipeline
  seen : s'.seen = s.seen.map σ
  alerts : List.Forall₂ (SameSignal ρ σ P) s.alerts s'.alerts
  duplicates : List.Forall₂ (SameSignal ρ σ P) s.duplicates s'.duplicates

theorem renamed_alertStep {s s' : AlertState} {a b : Signal × SignalTrace} (h : RenamedAlerts ρ σ P s s')
    (hm : ∀ i, env'.monotonic (σ i) = env.monotonic i) (hab : SameSignal ρ σ P a.1 b.1) :
    RenamedAlerts ρ σ P (alertStep env s a) (alertStep env' s' b) := by
  have hseen : b.1.id ∈ s'.seen ↔ a.1.id ∈ s.seen := by
    rw [hab.id_eq, h.seen, List.mem_map_of_injective σ.injective]
  have hlast : s'.pipeline.cooldown.last.get? b.1.id = s.pipeline.cooldown.last.get? a.1.id := by
    rw [hab.id_eq]
    exact h.pipeline.last a.1.id
  have hnow : env'.monotonic b.1.id = env.monotonic a.1.id := by rw [hab.id_eq, hm]
  have hpass : ∀ x, s'.pipeline.cooldown.passes (env'.monotonic b.1.id) b.1.priority x =
      s.pipeline.cooldown.passes (env.monotonic a.1.id) a.1.priority x := by
    intro x
    unfold CooldownGate.passes
    rw [h.pipeline.cooldownS, hnow, hab.priority_eq]
  have hsnoc : s'.seen ++ [b.1.id] = (s.seen ++ [a.1.id]).map σ := by
    rw [h.seen, hab.id_eq, List.map_append]
    rfl
  unfold alertStep CooldownGate.allow
  dsimp only
  rw [hlast, hpass]
  by_cases hs : a.1.id ∈ s.seen
  · rw [if_pos hs, if_pos (hseen.2 hs)]
    exact ⟨h.pipeline.of_core rfl rfl, h.seen, h.alerts, List.rel_append h.duplicates (.cons hab .nil)⟩
  · rw [if_neg hs, if_neg (mt hseen.1 hs)]
    split
    · rw [if_pos rfl, if_pos rfl]
      refine ⟨⟨h.pipeline.composer, h.pipeline.deduper, h.pipeline.cooldownS, fun i => ?_⟩, hsnoc,
        List.rel_append h.alerts (.cons hab .nil), h.duplicates⟩
      dsimp only [SignalPipeline.emit]
      rw [Dict.get?_set, Dict.get?_set, hnow, hab.priority_eq, hab.id_eq, h.pipeline.last i]
      simp only [σ.injective.eq_iff]
    · rw [if_neg Bool.false_ne_true, if_neg Bool.false_ne_true]
      exact ⟨h.pipeline.of_core rfl rfl, hsnoc, h.alerts, h.duplicates⟩

theorem renamed_foldl_alertStep (hm : ∀ i, env'.monotonic (σ i) = env.monotonic i)
    {l l' : List (Signal × SignalTrace)}
    (hl : List.Forall₂ (fun a b => SameSignal ρ σ P a.1 b.1 ∧ SameTrace ρ σ P a.2 b.2) l l') :
    ∀ {s s' : AlertState}, RenamedAlerts ρ σ P s s' →
      RenamedAlerts ρ σ P (l.foldl (alertStep env) s) (l'.foldl (alertStep env') s') := by
  induction hl with
  | nil => intro s s' h; exact h
  | cons hab _ ih => intro s s' h; exact ih (renamed_alertStep h hm hab.1)

/-! ## Calls -/

/-- The results of one call in the two runs. -/
structure SameResult (ρ σ : Equiv.Perm String) (P : MarketEvent → Prop) (r r' : ProcessResult) : Prop where
  acceptedEvents : r'.result.acceptedEvents = r.result.acceptedEvents.map (·.rename ρ)
  signalUpdates : List.Forall₂ (SameSignal ρ σ P) r.result.signalUpdates r'.result.signalUpdates
  traces : List.Forall₂ (SameTrace ρ σ P) r.result.traces r'.result.traces
  alertCandidates : List.Forall₂ (SameSignal ρ σ P) r.result.alertCandidates r'.result.alertCandidates
  duplicates : List.Forall₂ (SameSignal ρ σ P) r.duplicates r'.duplicates

/-- **A `process` call** under other ids. -/
theorem renamed_process (h : RenamedPipeline ρ σ P p q) (he : RenamedEnv ρ σ env env')
    (hm : ∀ i, env'.monotonic (σ i) = env.monotonic i)
    (hs : Settled P current.symbol (p.composer.accepted.getD current.symbol []))
    (hP : ∀ e ∈ evaluate env.eventId env.detectedAt previous current, P e)
    (hu : UntiedCall p env previous current) :
    Option.Rel (SameResult ρ σ P) (p.process env previous current).1 (q.process env' previous current).1 ∧
      RenamedPipeline ρ σ P (p.process env previous current).2 (q.process env' previous current).2 ∧
      Settled P current.symbol
        ((p.process env previous current).2.composer.accepted.getD current.symbol []) := by
  obtain ⟨hevents, hproduced, hstage, hsettled⟩ := renamed_composeStage h he hs hP hu
  have hobs := hstage.of_core
    (observeEpisodes_core (p.priorPriority current.symbol) (p.composeStage env previous current).2.1)
    (observeEpisodes_core (q.priorPriority current.symbol) (q.composeStage env' previous current).2.1)
  have hinit : RenamedAlerts ρ σ P
      { pipeline := (p.composeStage env previous current).2.2.observeEpisodes
          (p.priorPriority current.symbol) (p.composeStage env previous current).2.1 }
      { pipeline := (q.composeStage env' previous current).2.2.observeEpisodes
          (q.priorPriority current.symbol) (q.composeStage env' previous current).2.1 } :=
    ⟨hobs, rfl, .nil, .nil⟩
  have hloop := renamed_foldl_alertStep hm hproduced hinit
  have hactive := hstage.composer.activeSignals current.symbol
  have htraces := hstage.composer.traces_of_active current.symbol
  unfold process
  dsimp only
  rw [observeEpisodes_composer, observeEpisodes_composer]
  -- Both runs find the traces of the active signals, or both fail to.
  generalize ((p.composeStage env previous current).2.2.composer.activeSignals current.symbol).mapM
    (fun item => (p.composeStage env previous current).2.2.composer.traceFor item.id) = o at htraces ⊢
  generalize ((q.composeStage env' previous current).2.2.composer.activeSignals current.symbol).mapM
    (fun item => (q.composeStage env' previous current).2.2.composer.traceFor item.id) = o' at htraces ⊢
  cases htraces with
  | none =>
    refine ⟨.none, hobs, ?_⟩
    dsimp only
    rw [observeEpisodes_composer]
    exact hsettled
  | some hts =>
    refine ⟨.some ⟨hevents, hactive, hts, hloop.alerts, hloop.duplicates⟩, hloop.pipeline, ?_⟩
    dsimp only
    rw [(foldl_alertStep env _ _).1, observeEpisodes_composer]
    exact hsettled

/-! ## Runs -/

/-- A `process` call of a run, with the readings of its clocks: of the detector, of each episode it creates,
and of the cooldown gate, one after the other. -/
structure ClockedSnapshot where
  previous : Option MarketFeatures
  current : MarketFeatures
  detectedAt : ℚ
  createdAt : EpisodeKey → ℚ
  monotonic : ℕ → ℚ

/-- The ids that a call draws for the symbol's events and episodes. -/
structure Uuids where
  event : EventType → String
  signal : Lineage → EventDirection → String

namespace SignalPipeline

/-- The environment of a call up to the alert loop. -/
def stageEnv (call : ClockedSnapshot × Uuids) : PipelineEnv where
  detectedAt := call.1.detectedAt
  eventId := call.2.event
  draws k := (call.2.signal k.lineage k.direction, call.1.createdAt k)
  monotonic _ := 0

/-- The signals that a call produces. -/
def composedBy (p : SignalPipeline) (call : ClockedSnapshot × Uuids) : List (Signal × SignalTrace) :=
  (p.composeStage (stageEnv call) call.1.previous call.1.current).2.1

/-- The environment of a call. The cooldown gate is asked about the produced signals in order. -/
def envFor (p : SignalPipeline) (call : ClockedSnapshot × Uuids) : PipelineEnv :=
  { stageEnv call with
    monotonic := fun i => call.1.monotonic (((p.composedBy call).map (·.1.id)).idxOf i) }

end SignalPipeline

/-- What a call gives. -/
structure Outcome where
  produced : List (Signal × SignalTrace)
  result : Option ProcessResult

/-- A pipeline with the outcomes of its calls. -/
structure Watched where
  pipeline : SignalPipeline
  outcomes : List Outcome := []

def Watched.step (s : Watched) (call : ClockedSnapshot × Uuids) : Option Watched :=
  let r := s.pipeline.process (s.pipeline.envFor call) call.1.previous call.1.current
  some ⟨r.2, s.outcomes ++ [⟨s.pipeline.composedBy call, r.1⟩]⟩

/-- No id comes twice in a run. -/
structure FreshUuids (calls : List (ClockedSnapshot × Uuids)) : Prop where
  events : (calls.flatMap fun call => EventType.all.map call.2.event).Nodup
  signals : (calls.flatMap fun call => (keysOf "").map fun k => call.2.signal k.lineage k.direction).Nodup

/-- The events that a run detects. -/
def Detected (calls : List (ClockedSnapshot × Uuids)) (e : MarketEvent) : Prop :=
  ∃ call ∈ calls, e ∈ evaluate call.2.event call.1.detectedAt call.1.previous call.1.current

/-- The outcomes of one call in the two runs. -/
structure SameOutcome (ρ σ : Equiv.Perm String) (P : MarketEvent → Prop) (o o' : Outcome) : Prop where
  produced : List.Forall₂ (fun a b => SameSignal ρ σ P a.1 b.1 ∧ SameTrace ρ σ P a.2 b.2) o.produced o'.produced
  result : Option.Rel (SameResult ρ σ P) o.result o'.result

/-- No event that a call of the run admits has a tie with the look-back that the ids would break. -/
def UntiedStep (s : Watched) (call : ClockedSnapshot × Uuids) : Prop :=
  UntiedCall s.pipeline (stageEnv call) call.1.previous call.1.current

/-- The calls of the two runs. -/
structure SameCall (ρ σ : Equiv.Perm String) (call call' : ClockedSnapshot × Uuids) : Prop where
  snapshot : call'.1 = call.1
  event : ∀ t, call'.2.event t = ρ (call.2.event t)
  signal : ∀ l d, call'.2.signal l d = σ (call.2.signal l d)

/-- **The renaming of two runs**: it takes the ids that one draws to the ids that the other draws. -/
theorem exists_renaming {calls calls' : List (ClockedSnapshot × Uuids)} (hf : FreshUuids calls)
    (hf' : FreshUuids calls') (hsame : calls'.map Prod.fst = calls.map Prod.fst) :
    ∃ ρ σ : Equiv.Perm String, List.Forall₂ (SameCall ρ σ) calls calls' := by
  have hlen : calls.length = calls'.length := by
    have h := congrArg List.length hsame
    rw [List.length_map, List.length_map] at h
    exact h.symm
  -- Both runs draw as many ids, all different, so a permutation takes the one list to the other.
  have hflat : ∀ (f : Uuids → List String) (n : ℕ), (∀ u, (f u).length = n) →
      (calls.flatMap fun call => f call.2).length = (calls'.flatMap fun call => f call.2).length := by
    intro f n hn
    have hsum : ∀ l : List (ClockedSnapshot × Uuids), (l.flatMap fun call => f call.2).length = l.length * n := by
      intro l
      rw [List.length_flatMap, List.map_congr_left fun call _ => hn call.2, List.map_const',
        List.sum_replicate_nat]
    rw [hsum, hsum, hlen]
  have hevlen := hflat (fun u => EventType.all.map u.event) 6 fun _ => rfl
  have hsiglen := hflat (fun u => (keysOf "").map fun k => u.signal k.lineage k.direction) 6 fun _ => rfl
  obtain ⟨ρ, hρ⟩ := exists_perm_map_eq hf.events hf'.events hevlen
  obtain ⟨σ, hσ⟩ := exists_perm_map_eq hf.signals hf'.signals hsiglen
  have hsnap : List.Forall₂ (fun a b : ClockedSnapshot × Uuids => b.1 = a.1) calls calls' := by
    have heq : List.Forall₂ Eq (calls'.map Prod.fst) (calls.map Prod.fst) := List.forall₂_eq_eq_eq ▸ hsame
    rw [List.forall₂_map_left_iff, List.forall₂_map_right_iff] at heq
    exact heq.flip
  -- Every call draws the same number of them, so it takes the ids of a call to those of its counterpart.
  have hevents : List.Forall₂ (fun a b : ClockedSnapshot × Uuids =>
      (EventType.all.map a.2.event).map ρ = EventType.all.map b.2.event) calls calls' := by
    refine forall₂_of_flatMap ?_ hlen hρ
    exact fun _ _ => rfl
  have hsignals : List.Forall₂ (fun a b : ClockedSnapshot × Uuids =>
      ((keysOf "").map fun k => a.2.signal k.lineage k.direction).map σ =
        (keysOf "").map fun k => b.2.signal k.lineage k.direction) calls calls' := by
    refine forall₂_of_flatMap ?_ hlen hσ
    exact fun _ _ => rfl
  have hall : ∀ t : EventType, t ∈ EventType.all := by intro t; cases t <;> decide
  refine ⟨ρ, σ, List.Forall₂.mp (fun a b hab h => ?_) (List.Forall₂.mp (fun a b hab h => And.intro hab h) hevents
    hsignals) hsnap⟩
  obtain ⟨hev, hsig⟩ := hab
  rw [List.map_map, List.map_inj_left] at hev hsig
  exact ⟨h, fun t => (hev t (hall t)).symm, fun l d => (hsig ⟨"", l, d⟩ (mem_keysOf.2 rfl)).symm⟩

/-- Two pipelines of the two runs, with the outcomes so far. -/
structure RenamedWatched (ρ σ : Equiv.Perm String) (P : MarketEvent → Prop) (symbol : String) (s t : Watched) :
    Prop where
  pipeline : RenamedPipeline ρ σ P s.pipeline t.pipeline
  settled : Settled P symbol (s.pipeline.composer.accepted.getD symbol [])
  outcomes : List.Forall₂ (SameOutcome ρ σ P) s.outcomes t.outcomes

/-- **A call of the two runs** gives the same outcome. -/
theorem renamed_step {s t s₁ : Watched} {call call' : ClockedSnapshot × Uuids}
    (h : RenamedWatched ρ σ P symbol s t) (hu : UntiedStep s call) (hone : call.1.current.symbol = symbol)
    (hP : ∀ e ∈ evaluate call.2.event call.1.detectedAt call.1.previous call.1.current, P e)
    (hcall : SameCall ρ σ call call') (hstep : s.step call = some s₁) :
    ∃ t₁, t.step call' = some t₁ ∧ RenamedWatched ρ σ P symbol s₁ t₁ := by
  subst hone
  have hstage : RenamedEnv ρ σ (stageEnv call) (stageEnv call') :=
    ⟨by unfold stageEnv; rw [hcall.snapshot], hcall.event, fun k => by
      unfold stageEnv
      dsimp only
      rw [hcall.snapshot, hcall.signal]⟩
  have henv : RenamedEnv ρ σ (s.pipeline.envFor call) (t.pipeline.envFor call') :=
    ⟨hstage.detectedAt, hstage.eventId, hstage.draws⟩
  have hproduced : List.Forall₂ (fun a b => SameSignal ρ σ P a.1 b.1 ∧ SameTrace ρ σ P a.2 b.2)
      (s.pipeline.composedBy call) (t.pipeline.composedBy call') := by
    unfold composedBy
    rw [hcall.snapshot]
    exact (renamed_composeStage h.pipeline hstage h.settled hP hu).2.1
  have hasked : (t.pipeline.composedBy call').map (·.1.id) =
      ((s.pipeline.composedBy call).map (·.1.id)).map σ := by
    generalize s.pipeline.composedBy call = l at hproduced ⊢
    generalize t.pipeline.composedBy call' = l' at hproduced ⊢
    induction hproduced with
    | nil => rfl
    | cons hab _ ih => rw [List.map_cons, List.map_cons, List.map_cons, ih, hab.1.id_eq]
  -- The clock readings go by the position of a signal, which the other ids do not change.
  have hmono : ∀ i, (t.pipeline.envFor call').monotonic (σ i) = (s.pipeline.envFor call).monotonic i := by
    intro i
    unfold envFor
    dsimp only
    rw [hasked, idxOf_map_of_injective σ.injective, hcall.snapshot]
  obtain ⟨hresult, hpipeline, hsettled⟩ := renamed_process h.pipeline henv hmono h.settled hP hu
  unfold Watched.step at hstep ⊢
  simp only [Option.some.injEq] at hstep
  subst hstep
  refine ⟨_, rfl, ?_⟩
  rw [hcall.snapshot]
  exact ⟨hpipeline, hsettled, List.rel_append h.outcomes (.cons ⟨hproduced, hresult⟩ .nil)⟩

/-- **`process` is deterministic but for the ids.** Two runs of one symbol on the same snapshots and clock
readings give the same outcomes under a renaming of the ids they draw, when no admitted event has a tie with
the look-back that the ids would break. -/
theorem process_deterministic {lookbackS : ℚ} {hl : 0 ≤ lookbackS} {symbol : String} {p : SignalPipeline}
    {calls calls' : List (ClockedSnapshot × Uuids)} {s s' : Watched} (h₀ : p.composer = .new lookbackS hl)
    (hlast : p.cooldown.last = Dict.empty) (hone : ∀ call ∈ calls, call.1.current.symbol = symbol)
    (hfresh : FreshUuids calls) (hfresh' : FreshUuids calls')
    (hsame : calls'.map Prod.fst = calls.map Prod.fst) (huntied : Along Watched.step UntiedStep ⟨p, []⟩ calls)
    (hrun : run Watched.step ⟨p, []⟩ calls = some s) (hrun' : run Watched.step ⟨p, []⟩ calls' = some s') :
    ∃ ρ σ : Equiv.Perm String,
      List.Forall₂ (SameOutcome ρ σ (Detected calls)) s.outcomes s'.outcomes := by
  obtain ⟨ρ, σ, hcalls⟩ := exists_renaming hfresh hfresh' hsame
  have hinit : RenamedWatched ρ σ (Detected calls) symbol ⟨p, []⟩ ⟨p, []⟩ := by
    refine ⟨⟨?_, rfl, rfl, fun i => ?_⟩, ?_, .nil⟩
    · rw [h₀]
      exact ⟨rfl, fun _ => rfl, fun _ => .none, fun _ => .none, fun _ => rfl⟩
    · rw [hlast]
      rfl
    · rw [h₀]
      have hnil : ∀ e, e ∉ (SignalComposer.new lookbackS hl).accepted.getD symbol [] := fun _ => List.not_mem_nil
      exact ⟨fun e he => absurd he (hnil e), fun e he => absurd he (hnil e), fun e he => absurd he (hnil e)⟩
  have halong := huntied.and_mem (D := fun call => call ∈ calls) fun call hc => hc
  obtain ⟨t, ht, hR⟩ := run_lockstep (Q := SameCall ρ σ) (R := RenamedWatched ρ σ (Detected calls) symbol)
    (fun u call u₁ v call' hR hC hQ hs =>
      renamed_step hR hC.1 (hone call hC.2) (fun e he => ⟨call, hC.2, he⟩) hQ hs) hcalls hinit halong hrun
  rw [hrun'] at ht
  cases ht
  exact ⟨ρ, σ, hR.outcomes⟩

/-! ## Two runs -/

/-- Ids with a prefix. -/
def prefixUuids (pre : String) : Uuids where
  event t := pre ++ t.value
  signal l d := (prefixDraws pre 0 ⟨"", l, d⟩).1

/-- A snapshot with a move up. -/
def risingSnapshot (ts : ℚ) : ClockedSnapshot where
  previous := none
  current := { bareFeatures "A" ts with change1m := some (7 / 1000) }
  detectedAt := ts
  createdAt _ := ts
  monotonic _ := ts

/-- A snapshot with a new day high, seen at a wall time. -/
def breakoutSnapshot (ts wall : ℚ) : ClockedSnapshot where
  previous := none
  current :=
    { bareFeatures "A" ts with
      receivedTimestamp := wall
      sessionHighRef := some 10
      sessionHighObs := 11 }
  detectedAt := wall
  createdAt _ := wall
  monotonic _ := wall

instance (s : Watched) (call : ClockedSnapshot × Uuids) : Decidable (UntiedStep s call) :=
  inferInstanceAs (Decidable (∀ e ∈ evaluate _ _ _ _, _ → ∀ e' ∈ _, Untied e e'))

instance (calls : List (ClockedSnapshot × Uuids)) : Decidable (FreshUuids calls) :=
  decidable_of_iff (_ ∧ _) ⟨fun h => ⟨h.1, h.2⟩, fun h => ⟨h.events, h.signals⟩⟩

theorem process_deterministic_rising : ∃ (s s' : Watched) (ρ σ : Equiv.Perm String),
    run Watched.step ⟨{}, []⟩ [(risingSnapshot 100, prefixUuids "a"), (breakoutSnapshot 130 131, prefixUuids "b")] =
        some s ∧
      run Watched.step ⟨{}, []⟩
        [(risingSnapshot 100, prefixUuids "d"), (breakoutSnapshot 130 131, prefixUuids "c")] = some s' ∧
      List.Forall₂ (SameOutcome ρ σ (Detected
        [(risingSnapshot 100, prefixUuids "a"), (breakoutSnapshot 130 131, prefixUuids "b")]))
        s.outcomes s'.outcomes := by
  have hs : run Watched.step ⟨{}, []⟩
      [(risingSnapshot 100, prefixUuids "a"), (breakoutSnapshot 130 131, prefixUuids "b")] = some _ := rfl
  have hs' : run Watched.step ⟨{}, []⟩
      [(risingSnapshot 100, prefixUuids "d"), (breakoutSnapshot 130 131, prefixUuids "c")] = some _ := rfl
  have h₀ : ({} : SignalPipeline).composer = .new clusterLookbackS clusterLookbackS_nonneg := rfl
  obtain ⟨ρ, σ, h⟩ := @process_deterministic _ _ "A" _ _ _ _ _ h₀ rfl (by decide) (by decide) (by decide) (by rfl)
    (by decide +kernel) hs hs'
  exact ⟨_, _, ρ, σ, hs, hs', h⟩

/-- Signals that are the same were detected at the same time. -/
theorem SameOutcome.detected {o o' : Outcome} (h : SameOutcome ρ σ P o o') :
    o'.produced.map (·.1.detectedTimestamp) = o.produced.map (·.1.detectedTimestamp) := by
  have hp := h.produced
  generalize o.produced = l at hp ⊢
  generalize o'.produced = l' at hp ⊢
  induction hp with
  | nil => rfl
  | cons hab _ ih => rw [List.map_cons, List.map_cons, ih, hab.1.detected_eq]

/-- **Not for every run**: a quote that comes again with the same market timestamp gives an event that ties
with one of the look-back, and the ids decide whose detection time the signal has. -/
theorem process_not_deterministic :
    ¬ ∀ (symbol : String) (p : SignalPipeline) (calls calls' : List (ClockedSnapshot × Uuids)) (s s' : Watched),
      p.composer = .new clusterLookbackS clusterLookbackS_nonneg → p.cooldown.last = Dict.empty →
      (∀ call ∈ calls, call.1.current.symbol = symbol) → FreshUuids calls → FreshUuids calls' →
      calls'.map Prod.fst = calls.map Prod.fst → run Watched.step ⟨p, []⟩ calls = some s →
      run Watched.step ⟨p, []⟩ calls' = some s' →
        ∃ ρ σ : Equiv.Perm String, List.Forall₂ (SameOutcome ρ σ (Detected calls)) s.outcomes s'.outcomes := by
  intro h
  obtain ⟨ρ, σ, hsame⟩ := h "A" {} [(risingSnapshot 100, prefixUuids "a"), (breakoutSnapshot 100 105, prefixUuids "b")]
    [(risingSnapshot 100, prefixUuids "b"), (breakoutSnapshot 100 105, prefixUuids "a")] _ _ rfl rfl (by decide)
    (by decide) (by decide) rfl rfl rfl
  cases hsame with
  | cons _ hrest =>
    cases hrest with
    | cons hlast _ =>
      have hdetected := hlast.detected
      revert hdetected
      decide +kernel

end MarketSentinel
