import MarketSentinel.Signals.Determinism
import MarketSentinel.Telemetry.Funnel

/-!
# The market time of the pipeline's event records

`event_generated` and `event_deduped` carry the market time of their event. `event_clustered` is emitted from
inside the loop over the produced signals and carries the market time of the signal, that is, of its latest
member.

* `records_process`: what a call may append to the runtime.
* `event_market_time`: every event record of a run carries its event's market time, as long as no event that
  was alone in its episode is joined at another market time (`JoinedInTime`).
* `event_market_time_not`: an event that is joined later is recorded with two market times.
-/

namespace MarketSentinel

open Lib Machine SignalComposer SignalPipeline

/-! ## What a call appends -/

/-- Every record of the runtime meets `Q`. -/
def Records (Q : TelemetryEvent → Prop) (p : SignalPipeline) : Prop := ∀ t ∈ p.telemetry, ∀ r ∈ t.events, Q r

variable {Q : TelemetryEvent → Prop} {p : SignalPipeline}

theorem Records.of_telemetry {p' : SignalPipeline} (h : Records Q p) (heq : p'.telemetry = p.telemetry) :
    Records Q p' := by
  unfold Records
  rw [heq]
  exact h

theorem records_emit (h : Records Q p) {fields : String → String → ℚ → TelemetryEvent}
    (hf : ∀ i r w, Q (fields i r w)) : Records Q (p.emit fields) := by
  intro t' ht' r hr
  obtain ⟨t, ht, rfl⟩ := Option.map_eq_some_iff.1 ht'
  rcases t.emit_events fields with hkept | ⟨i, run, w, hnew⟩
  · rw [hkept] at hr
    exact h t ht r hr
  · rw [hnew, List.mem_append, List.mem_singleton] at hr
    rcases hr with hr | rfl
    · exact h t ht r hr
    · exact hf i run w

/-- The dedupe loop appends records of the detected events. -/
theorem records_foldl_acceptEvent : ∀ (events : List MarketEvent) (r : SignalPipeline × List MarketEvent),
    Records Q r.1 →
      (∀ e ∈ events, ∀ i run w, Q (eventFields .eventGenerated e i run w) ∧
        Q (eventFields .eventDeduped e i run w)) →
      Records Q (events.foldl acceptEvent r).1 ∧
        (events.foldl acceptEvent r).1.clusteredIds = r.1.clusteredIds := by
  intro events
  induction events with
  | nil => intro r h _; exact ⟨h, rfl⟩
  | cons e events ih =>
    intro r h hQ
    rw [List.forall_mem_cons] at hQ
    have hgenerated := records_emit h fun i run w => (hQ.1 i run w).1
    have hstep : Records Q (acceptEvent r e).1 := by
      unfold acceptEvent
      dsimp only
      split
      · exact hgenerated.of_telemetry rfl
      · exact records_emit (hgenerated.of_telemetry rfl) fun i run w => (hQ.1 i run w).2
    obtain ⟨hrest, hids⟩ := ih (acceptEvent r e) hstep hQ.2
    exact ⟨hrest, hids.trans (acceptEvent_emits r e).2.2.1⟩

/-- One signal of the loop over the produced signals: the records of its cluster are about members that the
tracker did not know. -/
theorem records_observeCluster {signal : Signal} (h : Records Q p)
    (hQ : ∀ i ∈ signal.eventIds, i ∉ p.clusteredIds → (∃ j ∈ signal.eventIds, j ≠ i) →
      ∀ t run w, Q (clusteredFields signal i t run w)) :
    Records Q (p.observeCluster signal) ∧ ∀ i ∈ p.clusteredIds, i ∈ (p.observeCluster signal).clusteredIds := by
  -- The records go to the collector only, so the tracker is the same for all of them.
  have hfold : ∀ (ids : List String) (q : SignalPipeline), Records Q q →
      (∀ i ∈ ids, ∀ t run w, Q (clusteredFields signal i t run w)) →
        Records Q (ids.foldl (fun q i => q.emit (clusteredFields signal i)) q) ∧
          (ids.foldl (fun q i => q.emit (clusteredFields signal i)) q).clusteredIds = q.clusteredIds := by
    intro ids
    induction ids with
    | nil => intro q hq _; exact ⟨hq, rfl⟩
    | cons i ids ih =>
      intro q hq hids
      rw [List.forall_mem_cons] at hids
      obtain ⟨hrest, hsame⟩ := ih (q.emit (clusteredFields signal i)) (records_emit hq hids.1) hids.2
      exact ⟨hrest, hsame.trans (emit_clusteredIds ..)⟩
  unfold observeCluster
  split
  · exact ⟨h, fun i hi => hi⟩
  · rename_i runtime hruntime
    have hids : p.clusteredIds = runtime.clustered := by simp [clusteredIds, hruntime]
    dsimp only
    obtain ⟨hrecords, hsame⟩ := hfold (newlyClustered runtime.clustered signal.eventIds).1
      { p with telemetry := some { runtime with clustered := (newlyClustered runtime.clustered signal.eventIds).2 } }
      (fun t ht r hr => by
        obtain rfl := Option.some.inj ht
        exact h runtime hruntime r hr)
      (fun i hi => by
        obtain ⟨hnew, hmem, hother⟩ := mem_newlyClustered.1 hi
        exact hQ i hmem (hids ▸ hnew) hother)
    refine ⟨hrecords, fun i hi => ?_⟩
    rw [hsame]
    show i ∈ (newlyClustered runtime.clustered signal.eventIds).2
    rw [newlyClustered_tracked]
    exact List.mem_append_left _ (hids ▸ hi)

/-- The loop over the produced signals. -/
theorem records_observeEpisodes (prior : List (String × SignalPriority)) (produced : List (Signal × SignalTrace))
    (h : Records Q p)
    (hsignal : ∀ q ∈ produced, ∀ i run w, Q (signalFields .signalEpisodeCreated q.1 i run w) ∧
      Q (signalFields .signalEscalated q.1 i run w))
    (hcluster : ∀ q ∈ produced, ∀ i ∈ q.1.eventIds, i ∉ p.clusteredIds → (∃ j ∈ q.1.eventIds, j ≠ i) →
      ∀ t run w, Q (clusteredFields q.1 i t run w)) :
    Records Q (p.observeEpisodes prior produced) := by
  -- The tracker only grows, so that what is new to it in the loop was new before the loop.
  have hfold : ∀ (l : List (Signal × SignalTrace)) (r : SignalPipeline × List String), Records Q r.1 →
      (∀ i ∈ p.clusteredIds, i ∈ r.1.clusteredIds) → l ⊆ produced →
        Records Q (l.foldl (observeEpisode prior) r).1 := by
    intro l
    induction l with
    | nil => intro r hr _ _; exact hr
    | cons q l ih =>
      intro r hr hgrown hsub
      have hq := hsub List.mem_cons_self
      rw [List.foldl_cons]
      have hstep : Records Q (observeEpisode prior r q).1 ∧
          ∀ i ∈ r.1.clusteredIds, i ∈ (observeEpisode prior r q).1.clusteredIds := by
        have hcl : ∀ p₁ : SignalPipeline, Records Q p₁ → p₁.clusteredIds = r.1.clusteredIds →
            Records Q (p₁.observeCluster q.1) ∧
              ∀ i ∈ r.1.clusteredIds, i ∈ (p₁.observeCluster q.1).clusteredIds := by
          intro p₁ hp₁ hids
          obtain ⟨hrec, hsub'⟩ := @records_observeCluster _ _ q.1 hp₁ fun i hi hnew hother =>
            hcluster q hq i hi (fun hin => hnew (hids ▸ hgrown i hin)) hother
          exact ⟨hrec, fun i hi => hsub' i (hids.symm ▸ hi)⟩
        unfold observeEpisode
        dsimp only
        split
        · exact ⟨hr, fun i hi => hi⟩
        · split
          · exact hcl _ (records_emit hr fun i run w => (hsignal q hq i run w).1) (emit_clusteredIds ..)
          · split
            · exact hcl _ (records_emit hr fun i run w => (hsignal q hq i run w).2) (emit_clusteredIds ..)
            · exact hcl _ hr rfl
      exact ih _ hstep.1 (fun i hi => hstep.2 i (hgrown i hi)) fun q' hq' => hsub (List.mem_cons_of_mem _ hq')
  exact hfold produced (p, []) h (fun i hi => hi) fun _ hq => hq

/-- The alert loop appends records of the produced signals. -/
theorem records_foldl_alertStep (env : PipelineEnv) : ∀ (produced : List (Signal × SignalTrace)) (s : AlertState),
    Records Q s.pipeline →
      (∀ q ∈ produced, ∀ i run w, Q (signalFields .alertCandidate q.1 i run w) ∧
        ∀ reason, Q (suppressedFields q.1 reason i run w)) →
      Records Q (produced.foldl (alertStep env) s).pipeline := by
  intro produced
  induction produced with
  | nil => intro s h _; exact h
  | cons q produced ih =>
    intro s h hQ
    rw [List.forall_mem_cons] at hQ
    rw [List.foldl_cons]
    refine ih _ ?_ hQ.2
    unfold alertStep
    dsimp only
    split
    · exact records_emit h fun i run w => (hQ.1 i run w).2 _
    · split
      · exact records_emit (h.of_telemetry rfl) fun i run w => (hQ.1 i run w).1
      · exact records_emit (h.of_telemetry rfl) fun i run w => (hQ.1 i run w).2 _

variable {env : PipelineEnv} {previous : Option MarketFeatures} {current : MarketFeatures}

theorem composeStage_telemetry :
    (p.composeStage env previous current).2.2.telemetry = (admitted p env previous current).1.telemetry := by
  rw [composeStage_eq]
  split <;> rfl

/-- **What a call appends**: records of the detected events, of the produced signals, and of the members that
the tracker did not know. -/
theorem records_process (h : Records Q p)
    (hevent : ∀ e ∈ evaluate env.eventId env.detectedAt previous current, ∀ i run w,
      Q (eventFields .eventGenerated e i run w) ∧ Q (eventFields .eventDeduped e i run w))
    (hsignal : ∀ name ∈ [TelemetryName.signalEpisodeCreated, .signalEscalated, .alertCandidate],
      ∀ s i run w, Q (signalFields name s i run w))
    (hsuppressed : ∀ s reason i run w, Q (suppressedFields s reason i run w))
    (hcluster : ∀ q ∈ (p.composeStage env previous current).2.1, ∀ i ∈ q.1.eventIds, i ∉ p.clusteredIds →
      (∃ j ∈ q.1.eventIds, j ≠ i) → ∀ t run w, Q (clusteredFields q.1 i t run w)) :
    Records Q (p.process env previous current).2 := by
  obtain ⟨hdetect, hids⟩ :=
    records_foldl_acceptEvent (evaluate env.eventId env.detectedAt previous current) (p, []) h hevent
  have hstage : Records Q (p.composeStage env previous current).2.2 := hdetect.of_telemetry composeStage_telemetry
  have htracked : (p.composeStage env previous current).2.2.clusteredIds = p.clusteredIds := by
    have hsame : (admitted p env previous current).1.clusteredIds = p.clusteredIds := hids
    unfold clusteredIds at hsame ⊢
    rw [composeStage_telemetry, hsame]
  have hobserved := records_observeEpisodes (p.priorPriority current.symbol)
    (p.composeStage env previous current).2.1 hstage
    (fun q _ i run w => ⟨hsignal _ (by simp) _ _ _ _, hsignal _ (by simp) _ _ _ _⟩)
    (fun q hq i hi hnew => hcluster q hq i hi (htracked ▸ hnew))
  unfold process
  dsimp only
  split
  · exact hobserved
  · exact records_foldl_alertStep env _ { pipeline := _ } hobserved fun q _ i run w =>
      ⟨hsignal _ (by simp) _ _ _ _, fun reason => hsuppressed ..⟩

/-! ## The members of a produced signal -/

/-- **What a call composes**: episodes with a new member. -/
theorem consumeSymbol_members (c : SignalComposer) (draws : Draws) (symbol : String) (batch : List MarketEvent)
    (features : MarketFeatures) : ∀ q ∈ (c.consumeSymbol draws symbol batch features).1,
      ∃ l c₀ d identity, (c.callFor draws symbol batch features).Renews l c₀ d ∧
        q.1 = signalOf ((c.callFor draws symbol batch features).keyOf l d)
          ((c.callFor draws symbol batch features).members l c₀ d) features identity := by
  obtain ⟨s₁, s₂, tape, vwap, heq⟩ := consumeSymbol_chain c draws symbol batch features
  let Composed : Signal × SignalTrace → Prop := fun q =>
    ∃ l c₀ d identity, (c.callFor draws symbol batch features).Renews l c₀ d ∧
      q.1 = signalOf ((c.callFor draws symbol batch features).keyOf l d)
        ((c.callFor draws symbol batch features).members l c₀ d) features identity
  have hstep : ∀ l c₀ d t t', (∀ q ∈ t.produced, Composed q) →
      (c.callFor draws symbol batch features).DirStep l c₀ d t t' → ∀ q ∈ t'.produced, Composed q := by
    intro l c₀ d t t' ht hst q hq
    cases hst with
    | skip _ hs => exact ht q (hs ▸ hq)
    | compose hnew identity former hc =>
      rw [hc.produced, List.mem_append, List.mem_singleton] at hq
      rcases hq with hq | rfl
      · exact ht q hq
      · exact ⟨l, c₀, d, identity, hnew, rfl⟩
  have htape : ∀ q ∈ s₁.produced, Composed q := tape.inv (hstep .tape) fun q hq => nomatch hq
  rw [heq]
  exact vwap.inv (hstep .vwap) htape

/-- Members of one episode have one lineage and no opposite directions. -/
theorem members_compatible {call : SymbolCall} {l : Lineage} {c : SignalComposer} {d : EventDirection}
    {e e' : MarketEvent} (he : e ∈ call.members l c d) (he' : e' ∈ call.members l c d) :
    lineageOf e.type = lineageOf e'.type ∧ ¬ Opposite e.direction e'.direction := by
  obtain ⟨⟨-, hl⟩, -⟩ := SymbolCall.mem_members.1 he
  obtain ⟨⟨-, hl'⟩, -⟩ := SymbolCall.mem_members.1 he'
  exact ⟨hl.trans hl'.symm, not_opposite_members he he'⟩

/-- The market time of a signal is that of its latest members. -/
theorem signalOf_market_latest {key : EpisodeKey} {members : List MarketEvent} {features : MarketFeatures}
    {identity : String × ℚ} {l : List MarketEvent} (hsorted : members = sortMembers l) {t : ℚ}
    (hle : ∀ e ∈ members, e.marketTimestamp ≤ t) {b : MarketEvent} (hb : b ∈ members)
    (hbt : b.marketTimestamp = t) : (signalOf key members features identity).marketTimestamp = t := by
  subst hsorted
  have hne : sortMembers l ≠ [] := List.ne_nil_of_mem hb
  obtain ⟨hlast, hmax⟩ := sortMembers_getLast hne
  have hlatest : ((sortMembers l).getLast hne).marketTimestamp = t := by
    refine le_antisymm (hle _ (mem_sortMembers.2 hlast)) ?_
    rw [← hbt]
    exact hmax b (mem_sortMembers.1 hb)
  unfold signalOf
  dsimp only
  rw [List.getLast?_eq_some_getLast hne]
  exact hlatest

/-! ## Runs -/

/-- An event of the look-back that an admitted event of the call can join has the call's market time, or it is
earlier and was reported as clustered before. -/
def JoinedInTime (p : SignalPipeline) (env : PipelineEnv) (previous : Option MarketFeatures)
    (current : MarketFeatures) : Prop :=
  ∀ b ∈ evaluate env.eventId env.detectedAt previous current,
    EventDeduper.admits b (p.deduper.records.get? b.dedupeKey) = true →
      ∀ e ∈ p.composer.accepted.getD current.symbol [],
        p.composer.cutoff current.marketTimestamp ≤ e.marketTimestamp →
        lineageOf e.type = lineageOf b.type → ¬ Opposite e.direction b.direction →
          e.marketTimestamp = current.marketTimestamp ∨
            e.marketTimestamp < current.marketTimestamp ∧ e.id ∈ p.clusteredIds

/-- The condition on a call of a run. -/
def CallJoinsInTime (p : SignalPipeline) : SignalCall → Prop
  | .process env previous current => JoinedInTime p env previous current
  | _ => True

/-- An event that a run detects. -/
def DetectedIn (calls : List SignalCall) (e : MarketEvent) : Prop :=
  ∃ env previous current, .process env previous current ∈ calls ∧
    e ∈ evaluate env.eventId env.detectedAt previous current

/-- The names of the records about events. -/
def TelemetryEvent.isEventRecord (r : TelemetryEvent) : Bool :=
  r.isNamed .eventGenerated || r.isNamed .eventDeduped || r.isNamed .eventClustered

/-- An event record names an event of the run and carries the event's market time. -/
def OwnMarketTime (calls : List SignalCall) (r : TelemetryEvent) : Prop :=
  r.isEventRecord = true → ∃ e, DetectedIn calls e ∧ r.eventId = some e.id ∧ r.marketTimestamp = some e.marketTimestamp

theorem DetectedIn.mono {calls calls' : List SignalCall} (h : calls ⊆ calls') {e : MarketEvent}
    (he : DetectedIn calls e) : DetectedIn calls' e := by
  obtain ⟨env, previous, current, hcall, hdet⟩ := he
  exact ⟨env, previous, current, h hcall, hdet⟩

/-- **The members that a call clusters first have its market time.** -/
theorem clustered_market {seen drawn : Set String} (hinv : Inv seen drawn p.composer)
    (hf : FreshEnv seen drawn current.symbol env) (hjoin : JoinedInTime p env previous current)
    {q : Signal × SignalTrace} (hq : q ∈ (p.composeStage env previous current).2.1) {i : String}
    (hi : i ∈ q.1.eventIds) (hnew : i ∉ p.clusteredIds) :
    ∃ e, e.id = i ∧ e.marketTimestamp = q.1.marketTimestamp ∧
      (e ∈ p.composer.accepted.getD current.symbol [] ∨
        e ∈ evaluate env.eventId env.detectedAt previous current) := by
  rw [composeStage_eq] at hq
  split at hq
  case isFalse => cases hq
  rename_i hne
  obtain ⟨l, c₀, d, identity, ⟨b, hb, hbid⟩, hsignal⟩ := consumeSymbol_members _ _ _ _ _ q hq
  have hlatest : latestTs (admitted p env previous current).2 = current.marketTimestamp :=
    latestTs_eq hne fun e he => (admitted_sub e he).market
  have hrecent : ∀ e ∈ (p.composer.callFor env.draws current.symbol (admitted p env previous current).2
      current).members l c₀ d, (e ∈ p.composer.accepted.getD current.symbol [] ∨
        e ∈ (admitted p env previous current).2) ∧
        p.composer.cutoff current.marketTimestamp ≤ e.marketTimestamp := by
    intro e he
    have hr := (SymbolCall.mem_members.1 he).1.1
    change e ∈ (p.composer.accept current.symbol (admitted p env previous current).2).accepted.getD _ [] at hr
    rw [accept_accepted, if_pos rfl, List.mem_filter, List.mem_append, decide_eq_true_eq, hlatest] at hr
    exact hr
  -- The new member is one of the call's events: the older ones have other ids.
  have hbnew : b ∈ (admitted p env previous current).2 := by
    obtain ⟨b', hb', hid⟩ := List.mem_map.1 hbid
    rcases (hrecent b hb).1 with hold | hnew'
    · have hseen := (hinv.accepted hold).1
      rw [← hid, (admitted_sub b' hb').id] at hseen
      exact absurd hseen (hf.unseen _)
    · exact hnew'
  obtain ⟨hbdet, hbadm⟩ := admitted_admits hbnew
  have hbts : b.marketTimestamp = current.marketTimestamp := (admitted_sub b hbnew).market
  have hmember : ∀ e ∈ (p.composer.callFor env.draws current.symbol (admitted p env previous current).2
      current).members l c₀ d, e.marketTimestamp = current.marketTimestamp ∨
        e.marketTimestamp < current.marketTimestamp ∧ e.id ∈ p.clusteredIds := by
    intro e he
    obtain ⟨hor, hcut⟩ := hrecent e he
    obtain ⟨hlin, hdir⟩ := members_compatible he hb
    rcases hor with hold | hadm
    · exact hjoin b hbdet hbadm e hold hcut hlin hdir
    · exact .inl (admitted_sub e hadm).market
  have hmarket : q.1.marketTimestamp = current.marketTimestamp := by
    rw [hsignal]
    refine signalOf_market_latest rfl (fun e he => ?_) hb hbts
    rcases hmember e he with heq | ⟨hlt, -⟩
    · exact heq.le
    · exact hlt.le
  rw [hsignal] at hi
  obtain ⟨e, he, rfl⟩ := List.mem_map.1 hi
  have hets : e.marketTimestamp = current.marketTimestamp :=
    (hmember e he).resolve_right fun h => hnew h.2
  refine ⟨e, rfl, hets.trans hmarket.symm, ?_⟩
  rcases (hrecent e he).1 with hold | hadm
  · exact .inl hold
  · exact .inr (admitted_admits hadm).1

/-- What holds along a run: the look-back holds events of the run, and the records carry their own time. -/
structure InTime (calls done : List SignalCall) (p : SignalPipeline) : Prop where
  lookback : ∀ s, ∀ e ∈ p.composer.accepted.getD s [], DetectedIn done e
  records : Records (OwnMarketTime calls) p

/-- The look-back after a call. -/
theorem process_lookback {s : String} {e : MarketEvent}
    (he : e ∈ (p.process env previous current).2.composer.accepted.getD s []) :
    e ∈ p.composer.accepted.getD s [] ∨ e ∈ evaluate env.eventId env.detectedAt previous current := by
  rw [process_composer, composeStage_eq] at he
  split at he
  · dsimp only at he
    rw [consumeSymbol_accepted, accept_accepted] at he
    split at he
    · rename_i hs
      rw [hs]
      rcases List.mem_append.1 (List.mem_of_mem_filter he) with hold | hnew
      · exact .inl hold
      · exact .inr (admitted_admits hnew).1
    · exact .inl he
  · dsimp only at he
    unfold SignalComposer.prune at he
    rw [pruneActive_accepted, trimAccepted_accepted] at he
    split at he
    · rename_i hs
      rw [hs]
      exact .inl (List.mem_of_mem_filter he)
    · exact .inl he

/-- **One call.** -/
theorem InTime.step {calls done post : List SignalCall} (h : InTime calls done p)
    (heq : calls = done ++ .process env previous current :: post)
    (hinv : Inv (seenIn done) (drawnIn done) p.composer)
    (hf : FreshEnv (seenIn done) (drawnIn done) current.symbol env)
    (hjoin : JoinedInTime p env previous current) :
    InTime calls (done ++ [.process env previous current]) (p.process env previous current).2 := by
  have hdone : done ⊆ calls := heq ▸ List.subset_append_left _ _
  have hself : ∀ e ∈ evaluate env.eventId env.detectedAt previous current,
      DetectedIn (done ++ [.process env previous current]) e := fun e he =>
    ⟨env, previous, current, List.mem_append_right _ (List.mem_singleton_self _), he⟩
  have hsub : done ++ [.process env previous current] ⊆ calls := by
    rw [heq, ← List.singleton_append (l := post), ← List.append_assoc]
    exact List.subset_append_left _ _
  refine ⟨fun s e he => ?_, records_process h.records ?_ ?_ ?_ ?_⟩
  · rcases process_lookback he with hold | hnew
    · exact (h.lookback s e hold).mono (List.subset_append_left _ _)
    · exact hself e hnew
  · intro e he i run w
    exact ⟨fun _ => ⟨e, (hself e he).mono hsub, rfl, rfl⟩, fun _ => ⟨e, (hself e he).mono hsub, rfl, rfl⟩⟩
  · -- Signal records are no event records.
    intro name hname s i run w hevent
    simp only [List.mem_cons, List.not_mem_nil, or_false] at hname
    rcases hname with rfl | rfl | rfl <;> cases hevent
  · intro s reason i run w hevent
    cases hevent
  · -- A clustered event is one of the look-back or of this call.
    intro q hq i hi hnew _ t run w _
    obtain ⟨e, rfl, hts, hor⟩ := clustered_market hinv hf hjoin hq hi hnew
    refine ⟨e, ?_, rfl, by rw [hts]; rfl⟩
    rcases hor with hold | hdet
    · exact (h.lookback _ e hold).mono hdone
    · exact (hself e hdet).mono hsub

/-- In a run with fresh ids, an id names one event. -/
theorem DetectedIn.unique {calls : List SignalCall} (hf : FreshRun calls) {e e' : MarketEvent}
    (he : DetectedIn calls e) (he' : DetectedIn calls e') (hid : e.id = e'.id) : e = e' := by
  obtain ⟨env, previous, current, hcall, hdet⟩ := he
  obtain ⟨env', previous', current', hcall', hdet'⟩ := he'
  have hall : ∀ t : EventType, t ∈ EventType.all := by intro t; cases t <;> decide
  have hmem : e.id ∈ (SignalCall.process env previous current).eventIds :=
    List.mem_map.2 ⟨_, hall _, (evaluate_stamp e hdet).id.symm⟩
  have hmem' : e'.id ∈ (SignalCall.process env' previous' current').eventIds :=
    List.mem_map.2 ⟨_, hall _, (evaluate_stamp e' hdet').id.symm⟩
  obtain ⟨hnd, hpairs⟩ := List.nodup_flatMap.1 hf.events
  have hsymm : Std.Symm (Function.onFun List.Disjoint SignalCall.eventIds) := ⟨fun _ _ h => h.symm⟩
  by_cases hsame : SignalCall.process env previous current = .process env' previous' current'
  · obtain ⟨rfl, rfl, rfl⟩ := SignalCall.process.inj hsame
    have htype : e.type = e'.type := by
      rw [(evaluate_stamp e hdet).id, (evaluate_stamp e' hdet').id] at hid
      exact List.inj_on_of_nodup_map (hnd _ hcall) (hall _) (hall _) hid
    exact List.inj_on_of_nodup_map evaluate_types hdet hdet' htype
  · exact absurd (hid ▸ hmem') (hpairs.forall hcall hcall' hsame hmem)

/-- **The market time of event records.** Along every run of `process` calls from a new pipeline, with fresh
ids, in which no event that was alone in its episode is joined at another market time: every event record
carries the market time of its event, and all records of one event agree. -/
theorem event_market_time {p₀ : SignalPipeline} {calls : List SignalCall} (h₀ : Started p₀)
    (hprocess : OnlyProcess calls) (hf : FreshRun calls) (hjoin : Along SignalPipeline.step CallJoinsInTime p₀ calls)
    (hrun : run SignalPipeline.step p₀ calls = some p) :
    (∀ r ∈ p.telemetryEvents, OwnMarketTime calls r) ∧
      ∀ r ∈ p.telemetryEvents, ∀ r' ∈ p.telemetryEvents, r.isEventRecord = true → r'.isEventRecord = true →
        r.eventId = r'.eventId → r.marketTimestamp = r'.marketTimestamp := by
  obtain ⟨lookbackS, hl, hcomposer⟩ := h₀.composer
  obtain ⟨runId, stamps, htelemetry⟩ := h₀.telemetry
  have hinit : InTime calls [] p₀ := by
    refine ⟨fun s e he => ?_, fun t ht r hr => ?_⟩
    · rw [hcomposer] at he
      exact absurd he List.not_mem_nil
    · rw [htelemetry] at ht
      obtain rfl := Option.some.inj ht
      exact absurd hr List.not_mem_nil
  have hintime : Inv (seenIn calls) (drawnIn calls) p.composer ∧ InTime calls calls p := by
    -- The invariant is about the calls so far, with ids that are fresh among all of them.
    refine run_history (I := fun done p => Inv (seenIn done) (drawnIn done) p.composer ∧ InTime calls done p)
      ⟨?_, hinit⟩ ?_ hjoin hrun
    · rw [hcomposer]
      exact inv_empty lookbackS hl
    · rintro done call post p₁ p₂ heq ⟨hinv, hin⟩ hC hstep
      obtain ⟨env, previous, current, rfl⟩ := hprocess call (heq ▸ List.mem_append_right _ List.mem_cons_self)
      cases hstep
      have hf' : FreshRun (done ++ .process env previous current :: post) := heq ▸ hf
      exact ⟨after_inv hf' hinv, hin.step heq hinv hf'.env hC⟩
  have hrecords : ∀ r ∈ p.telemetryEvents, OwnMarketTime calls r := by
    intro r hr
    unfold telemetryEvents at hr
    cases ht : p.telemetry with
    | none => simp [ht] at hr
    | some t =>
      rw [ht] at hr
      exact hintime.2.records t ht r hr
  refine ⟨hrecords, fun r hr r' hr' hname hname' hid => ?_⟩
  obtain ⟨e, he, heid, hets⟩ := hrecords r hr hname
  obtain ⟨e', he', heid', hets'⟩ := hrecords r' hr' hname'
  have hsame : e = e' := DetectedIn.unique hf he he' (Option.some.inj (heid.symm.trans (hid.trans heid')))
  rw [hets, hets', hsame]

/-- A move and a volume spike in one tick. -/
def togetherRun : List SignalCall :=
  [.process (prefixEnv "a" 20) none
    { bareFeatures "A" 20 with change1m := some (7 / 1000), volumeRatio1m := some 6 }]

instance : DecidableRel CallJoinsInTime := fun _ call =>
  match call with
  | .process _ _ _ => inferInstanceAs (Decidable (∀ b ∈ evaluate _ _ _ _, _ → ∀ e ∈ _, _ → _ → _ → _ ∨ _ ∧ _))
  | .consumeBatch _ _ _ => isTrue trivial
  | .prune _ _ => isTrue trivial

theorem event_market_time_together : ∃ p, run SignalPipeline.step recordingPipeline togetherRun = some p ∧
    ∀ r ∈ p.telemetryEvents, OwnMarketTime togetherRun r := by
  have h₀ : Started recordingPipeline :=
    ⟨⟨clusterLookbackS, clusterLookbackS_nonneg, rfl⟩, rfl, "r", fun _ => ("t", 0), rfl⟩
  have hprocess : OnlyProcess togetherRun := by
    intro call hcall
    rw [List.mem_singleton.1 hcall]
    exact ⟨_, _, _, rfl⟩
  have hrun : run SignalPipeline.step recordingPipeline togetherRun = some _ := rfl
  exact ⟨_, hrun, (event_market_time h₀ hprocess (by decide) (by decide +kernel) hrun).1⟩

/-- **Not in every run**: the move of `escalatingRun` is generated at 20 and, joined by the volume spike,
recorded as clustered at 30. -/
theorem event_market_time_not :
    ¬ ∀ (p₀ p : SignalPipeline) (calls : List SignalCall), Started p₀ → OnlyProcess calls → FreshRun calls →
      run SignalPipeline.step p₀ calls = some p → ∀ r ∈ p.telemetryEvents, OwnMarketTime calls r := by
  intro h
  have h₀ : Started recordingPipeline :=
    ⟨⟨clusterLookbackS, clusterLookbackS_nonneg, rfl⟩, rfl, "r", fun _ => ("t", 0), rfl⟩
  have hprocess : OnlyProcess escalatingRun := by
    intro call hcall
    rcases List.mem_pair.1 hcall with rfl | rfl <;> exact ⟨_, _, _, rfl⟩
  have hreading : (run SignalPipeline.step recordingPipeline escalatingRun).map (fun p =>
      decide (∃ r ∈ p.telemetryEvents, ∃ r' ∈ p.telemetryEvents, r.isEventRecord = true ∧
        r'.isEventRecord = true ∧ r.eventId = r'.eventId ∧ r.marketTimestamp ≠ r'.marketTimestamp)) = some true := by
    decide +kernel
  obtain ⟨p, hp, hdisagree⟩ := Option.map_eq_some_iff.1 hreading
  obtain ⟨r, hr, r', hr', hname, hname', hid, hne⟩ := of_decide_eq_true hdisagree
  have hall := h _ p _ h₀ hprocess (by decide) hp
  obtain ⟨e, he, heid, hets⟩ := hall r hr hname
  obtain ⟨e', he', heid', hets'⟩ := hall r' hr' hname'
  have hsame : e = e' :=
    DetectedIn.unique (by decide) he he' (Option.some.inj (heid.symm.trans (hid.trans heid')))
  exact hne (by rw [hets, hets', hsame])

end MarketSentinel
