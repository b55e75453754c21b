import MarketSentinel.Signals.Episodes

/-!
# What a `process` call reports

The telemetry of a call is a list of notes, each emitted once. A runtime drops a record that its
validation refuses; when it dropped none, its records are those of the notes, in order.

* `callNotes`: the notes of a call, as a function of the pipeline before it.
* `process_reports`: a call that returns emits its notes.
-/

namespace MarketSentinel

open Lib SignalComposer

/-- What the pipeline reports. -/
inductive Note
  | generated (event : MarketEvent)
  | deduped (event : MarketEvent)
  | created (signal : Signal)
  | escalated (signal : Signal)
  | clustered (signal : Signal) (eventId : String)
  | candidate (signal : Signal)
  | suppressed (signal : Signal) (reason : SuppressionReason)

/-- A record without its id, run and time. -/
def TelemetryEvent.bare (e : TelemetryEvent) : TelemetryEvent :=
  { e with telemetryId := "", runId := "", createdTimestamp := 0 }

namespace Note

open SignalPipeline

def fields : Note → String → String → ℚ → TelemetryEvent
  | generated event => eventFields .eventGenerated event
  | deduped event => eventFields .eventDeduped event
  | created signal => signalFields .signalEpisodeCreated signal
  | escalated signal => signalFields .signalEscalated signal
  | clustered signal eventId => clusteredFields signal eventId
  | candidate signal => signalFields .alertCandidate signal
  | suppressed signal reason => suppressedFields signal reason

/-- The record of a note, without its id, run and time. -/
def record (n : Note) : TelemetryEvent := n.fields "" "" 0

theorem fields_bare (n : Note) (i r : String) (w : ℚ) : (n.fields i r w).bare = n.record := by
  cases n <;> rfl

def isDeduped : Note → Bool
  | deduped _ => true
  | _ => false

end Note

namespace SignalPipeline

/-- The events that the cluster tracker has seen. -/
def clusteredIds (p : SignalPipeline) : List String := (p.telemetry.map (·.clustered)).getD []

/-! ## Emitting -/

/-- From one pipeline to another, some notes are emitted, each once; a refused record is dropped. -/
structure Emits (p : SignalPipeline) (notes : List Note) (p' : SignalPipeline) : Prop where
  runtime : ∀ t ∈ p.telemetry, ∃ t' ∈ p'.telemetry, t'.emitted = t.emitted + notes.length ∧
    ∃ kept, t'.events = t.events ++ kept ∧ kept.length ≤ notes.length ∧
      (kept.length = notes.length → kept.map (·.bare) = notes.map (·.record))
  silent : p.telemetry = none → p'.telemetry = none

variable {p p' p'' : SignalPipeline} {notes notes' : List Note}

theorem Emits.of_telemetry (h : p'.telemetry = p.telemetry) : Emits p [] p' where
  runtime := fun t ht => ⟨t, h ▸ ht, by simp, [], by simp, le_rfl, fun _ => rfl⟩
  silent := fun hp => h.trans hp

theorem Emits.refl : Emits p [] p := .of_telemetry rfl

theorem Emits.trans (h : Emits p notes p') (h' : Emits p' notes' p'') : Emits p (notes ++ notes') p'' where
  runtime := by
    intro t ht
    obtain ⟨t', ht', hemitted, kept, hkept, hle, hbare⟩ := h.runtime t ht
    obtain ⟨t'', ht'', hemitted', kept', hkept', hle', hbare'⟩ := h'.runtime t' ht'
    refine ⟨t'', ht'', ?_, kept ++ kept', ?_, ?_, fun hlength => ?_⟩
    · rw [hemitted', hemitted, List.length_append]
      omega
    · rw [hkept', hkept, List.append_assoc]
    · simp only [List.length_append]
      omega
    · -- Nothing was dropped in either part.
      simp only [List.length_append] at hlength
      rw [List.map_append, List.map_append, hbare (by omega), hbare' (by omega)]
  silent := fun hp => h'.silent (h.silent hp)

theorem emits_emit (p : SignalPipeline) (n : Note) : Emits p [n] (p.emit n.fields) where
  runtime := by
    intro t ht
    have ht' : p.telemetry = some t := ht
    refine ⟨t.emit n.fields, by simp [emit, ht'], rfl, ?_⟩
    unfold TelemetryRuntime.emit
    dsimp only
    split
    · exact ⟨[_], rfl, le_rfl, fun _ => by simp [n.fields_bare]⟩
    · exact ⟨[], by simp, Nat.zero_le _, fun hlength => by cases hlength⟩
  silent := fun hp => by simp [emit, hp]

/-! ## Detection -/

/-- The notes of the dedupe loop, the events it accepts, and the deduper after it. -/
def detectNotes : EventDeduper → List MarketEvent → List Note
  | _, [] => []
  | d, event :: events =>
    .generated event ::
      ((if (d.accept event).1 then [] else [.deduped event]) ++ detectNotes (d.accept event).2 events)

/-- Emitting leaves the tracker alone. -/
theorem emit_clusteredIds (p : SignalPipeline) (fields : String → String → ℚ → TelemetryEvent) :
    (p.emit fields).clusteredIds = p.clusteredIds := by
  unfold clusteredIds emit
  cases p.telemetry <;> rfl

theorem acceptEvent_emits (r : SignalPipeline × List MarketEvent) (event : MarketEvent) :
    Emits r.1 (.generated event :: if (r.1.deduper.accept event).1 then [] else [.deduped event])
        (acceptEvent r event).1 ∧
      (acceptEvent r event).1.deduper = (r.1.deduper.accept event).2 ∧
      (acceptEvent r event).1.clusteredIds = r.1.clusteredIds ∧
      (acceptEvent r event).2.length + (if (r.1.deduper.accept event).1 then 0 else 1) = r.2.length + 1 := by
  have hgen := emits_emit r.1 (.generated event)
  have hids := emit_clusteredIds r.1 (eventFields .eventGenerated event)
  have hdeduper : (r.1.emit (eventFields .eventGenerated event)).deduper = r.1.deduper := rfl
  unfold acceptEvent
  dsimp only
  rw [hdeduper]
  by_cases hkept : (r.1.deduper.accept event).1 = true
  · rw [if_pos hkept, if_pos hkept, if_pos hkept]
    exact ⟨hgen.trans (.of_telemetry rfl), rfl, hids, by simp⟩
  · rw [if_neg hkept, if_neg hkept, if_neg hkept]
    have hstored : Emits r.1 [.generated event]
        { r.1.emit (eventFields .eventGenerated event) with deduper := (r.1.deduper.accept event).2 } :=
      hgen.trans (.of_telemetry rfl)
    refine ⟨hstored.trans (emits_emit _ (.deduped event)), rfl, ?_, rfl⟩
    rw [emit_clusteredIds]
    exact hids

/-- The dedupe loop: a generated event is deduped or accepted. -/
theorem foldl_acceptEvent_emits : ∀ (events : List MarketEvent) (r : SignalPipeline × List MarketEvent),
    Emits r.1 (detectNotes r.1.deduper events) (events.foldl acceptEvent r).1 ∧
      (events.foldl acceptEvent r).1.clusteredIds = r.1.clusteredIds ∧
      (events.foldl acceptEvent r).2.length +
          (detectNotes r.1.deduper events).countP Note.isDeduped =
        r.2.length + events.length := by
  intro events
  induction events with
  | nil => intro r; exact ⟨.refl, rfl, rfl⟩
  | cons event events ih =>
    intro r
    obtain ⟨hemits, hdeduper, hids, hcount⟩ := acceptEvent_emits r event
    obtain ⟨hrest, hids', hcounts⟩ := ih (acceptEvent r event)
    rw [hdeduper] at hrest hcounts
    rw [List.foldl_cons]
    refine ⟨?_, hids'.trans hids, ?_⟩
    · have hall := hemits.trans hrest
      rwa [List.cons_append] at hall
    · unfold detectNotes
      rw [List.countP_cons, List.countP_append, List.length_cons]
      by_cases hkept : (r.1.deduper.accept event).1 = true
      · simp only [hkept, if_true] at hcount ⊢
        simp [Note.isDeduped]
        omega
      · simp only [hkept] at hcount ⊢
        simp [Note.isDeduped]
        simp at hcount
        omega

/-! ## Episodes -/

/-- The notes of the events that a signal is the first to cluster. -/
def clusterNotes (clustered : List String) (signal : Signal) : List Note :=
  (newlyClustered clustered signal.eventIds).1.map (.clustered signal)

/-- What is reported of a produced signal itself. -/
def episodeNote (prior : List (String × SignalPriority)) (signal : Signal) : List Note :=
  match prior.lookup signal.id with
  | none => [.created signal]
  | some previous => if priorityRank previous < priorityRank signal.priority then [.escalated signal] else []

/-- The notes of `_observe_episodes` on signals with distinct ids. -/
def episodeNotes (prior : List (String × SignalPriority)) : List String → List Signal → List Note
  | _, [] => []
  | clustered, signal :: signals =>
    episodeNote prior signal ++ clusterNotes clustered signal ++
      episodeNotes prior (newlyClustered clustered signal.eventIds).2 signals

/-- The tracked ids after some signals. -/
def trackedAfter (clustered : List String) (signals : List Signal) : List String :=
  signals.foldl (fun ids signal => (newlyClustered ids signal.eventIds).2) clustered

theorem foldl_emit_emits (f : String → Note) : ∀ (ids : List String) (p : SignalPipeline),
    Emits p (ids.map f) (ids.foldl (fun p eventId => p.emit (f eventId).fields) p) ∧
      (ids.foldl (fun p eventId => p.emit (f eventId).fields) p).clusteredIds = p.clusteredIds := by
  intro ids
  induction ids with
  | nil => intro p; exact ⟨.refl, rfl⟩
  | cons i ids ih =>
    intro p
    obtain ⟨hrest, hids⟩ := ih (p.emit (f i).fields)
    rw [List.foldl_cons]
    exact ⟨(emits_emit p (f i)).trans hrest, hids.trans (emit_clusteredIds ..)⟩

theorem observeCluster_emits {p : SignalPipeline} (hp : p.telemetry.isSome) (signal : Signal) :
    Emits p (clusterNotes p.clusteredIds signal) (p.observeCluster signal) ∧
      (p.observeCluster signal).clusteredIds = (newlyClustered p.clusteredIds signal.eventIds).2 := by
  obtain ⟨t, ht⟩ := Option.isSome_iff_exists.1 hp
  have hids : p.clusteredIds = t.clustered := by simp [clusteredIds, ht]
  unfold observeCluster clusterNotes
  rw [ht, hids]
  dsimp only
  -- The tracker is updated before the records are emitted.
  have hupdate : Emits p []
      { p with telemetry := some { t with clustered := (newlyClustered t.clustered signal.eventIds).2 } } := by
    refine ⟨fun t' ht' => ?_, fun hnone => ?_⟩
    · obtain rfl : t = t' := Option.some.inj (ht.symm.trans ht')
      exact ⟨_, rfl, rfl, [], by simp, le_rfl, fun _ => rfl⟩
    · rw [ht] at hnone
      cases hnone
  obtain ⟨hemits, htracked⟩ :=
    foldl_emit_emits (.clustered signal) (newlyClustered t.clustered signal.eventIds).1 _
  exact ⟨hupdate.trans hemits, htracked⟩

theorem Emits.isSome (h : Emits p notes p') (hp : p.telemetry.isSome) : p'.telemetry.isSome := by
  obtain ⟨t, ht⟩ := Option.isSome_iff_exists.1 hp
  obtain ⟨t', ht', -⟩ := h.runtime t ht
  exact Option.isSome_iff_exists.2 ⟨t', ht'⟩

theorem observeEpisode_emits {p : SignalPipeline} (hp : p.telemetry.isSome)
    (prior : List (String × SignalPriority)) {seen : List String} {q : Signal × SignalTrace}
    (hq : q.1.id ∉ seen) :
    Emits p (episodeNote prior q.1 ++ clusterNotes p.clusteredIds q.1) (observeEpisode prior (p, seen) q).1 ∧
      (observeEpisode prior (p, seen) q).1.clusteredIds = (newlyClustered p.clusteredIds q.1.eventIds).2 ∧
      (observeEpisode prior (p, seen) q).2 = seen ++ [q.1.id] := by
  unfold observeEpisode episodeNote
  dsimp only
  rw [if_neg hq]
  have hcluster : ∀ {p₁ : SignalPipeline} {notes : List Note}, Emits p notes p₁ →
      p₁.clusteredIds = p.clusteredIds →
        Emits p (notes ++ clusterNotes p.clusteredIds q.1) (p₁.observeCluster q.1) ∧
          (p₁.observeCluster q.1).clusteredIds = (newlyClustered p.clusteredIds q.1.eventIds).2 := by
    intro p₁ notes hemits hids
    obtain ⟨hnotes, htracked⟩ := observeCluster_emits (hemits.isSome hp) q.1
    rw [hids] at hnotes htracked
    exact ⟨hemits.trans hnotes, htracked⟩
  cases prior.lookup q.1.id with
  | none =>
    obtain ⟨hemits, hids⟩ := hcluster (emits_emit p (.created q.1)) (emit_clusteredIds ..)
    exact ⟨hemits, hids, rfl⟩
  | some previous =>
    dsimp only
    split
    · obtain ⟨hemits, hids⟩ := hcluster (emits_emit p (.escalated q.1)) (emit_clusteredIds ..)
      exact ⟨hemits, hids, rfl⟩
    · obtain ⟨hemits, hids⟩ := hcluster .refl rfl
      exact ⟨hemits, hids, rfl⟩

/-- **`_observe_episodes`**, on produced signals with distinct ids. -/
theorem foldl_observeEpisode_emits (prior : List (String × SignalPriority)) :
    ∀ (produced : List (Signal × SignalTrace)) (p : SignalPipeline) (seen : List String),
      p.telemetry.isSome → (produced.map (·.1.id)).Nodup → (∀ q ∈ produced, q.1.id ∉ seen) →
        Emits p (episodeNotes prior p.clusteredIds (produced.map (·.1)))
            (produced.foldl (observeEpisode prior) (p, seen)).1 ∧
          (produced.foldl (observeEpisode prior) (p, seen)).1.clusteredIds =
            trackedAfter p.clusteredIds (produced.map (·.1)) := by
  intro produced
  induction produced with
  | nil => intro p seen _ _ _; exact ⟨.refl, rfl⟩
  | cons q produced ih =>
    intro p seen hp hnd hseen
    rw [List.map_cons, List.nodup_cons] at hnd
    rw [List.forall_mem_cons] at hseen
    obtain ⟨hemits, hids, hseen'⟩ := observeEpisode_emits hp prior hseen.1
    obtain ⟨hrest, htracked⟩ := ih (observeEpisode prior (p, seen) q).1 (seen ++ [q.1.id])
      (hemits.isSome hp) hnd.2 (by
        intro q' hq'
        rw [List.mem_append, List.mem_singleton, not_or]
        exact ⟨hseen.2 q' hq', fun heq => hnd.1 (List.mem_map.2 ⟨q', hq', heq⟩)⟩)
    rw [hids] at hrest htracked
    have hstep : observeEpisode prior (p, seen) q = ((observeEpisode prior (p, seen) q).1, seen ++ [q.1.id]) :=
      Prod.ext rfl hseen'
    rw [List.foldl_cons, hstep]
    exact ⟨hemits.trans hrest, htracked⟩

/-! ## Alerts -/

/-- The notes of the alert loop on signals with distinct ids. -/
def alertNotes (monotonic : String → ℚ) : CooldownGate → List Signal → List Note
  | _, [] => []
  | gate, signal :: signals =>
    let (allowed, gate) := gate.allow (monotonic signal.id) signal.id signal.priority
    (if allowed then .candidate signal else .suppressed signal .cooldown) :: alertNotes monotonic gate signals

theorem alertStep_emits (env : PipelineEnv) {s : AlertState} {q : Signal × SignalTrace}
    (hq : q.1.id ∉ s.seen) :
    let allow := s.pipeline.cooldown.allow (env.monotonic q.1.id) q.1.id q.1.priority
    Emits s.pipeline [if allow.1 then .candidate q.1 else .suppressed q.1 .cooldown]
        (alertStep env s q).pipeline ∧
      (alertStep env s q).pipeline.cooldown = allow.2 ∧
      (alertStep env s q).pipeline.clusteredIds = s.pipeline.clusteredIds ∧
      (alertStep env s q).seen = s.seen ++ [q.1.id] := by
  unfold alertStep
  dsimp only
  rw [if_neg hq]
  obtain ⟨allowed, gate⟩ := s.pipeline.cooldown.allow (env.monotonic q.1.id) q.1.id q.1.priority
  dsimp only
  have hgate : Emits s.pipeline [] { s.pipeline with cooldown := gate } := .of_telemetry rfl
  cases allowed with
  | true => exact ⟨hgate.trans (emits_emit _ (.candidate q.1)), rfl, emit_clusteredIds .., rfl⟩
  | false => exact ⟨hgate.trans (emits_emit _ (.suppressed q.1 .cooldown)), rfl, emit_clusteredIds .., rfl⟩

/-- The cooldown gate after it was asked about some signals. -/
def gateAfter (monotonic : String → ℚ) (gate : CooldownGate) (signals : List Signal) : CooldownGate :=
  signals.foldl (fun g s => (g.allow (monotonic s.id) s.id s.priority).2) gate

/-- **The alert loop**, on produced signals with distinct ids. -/
theorem foldl_alertStep_emits (env : PipelineEnv) :
    ∀ (produced : List (Signal × SignalTrace)) (s : AlertState), (produced.map (·.1.id)).Nodup →
      (∀ q ∈ produced, q.1.id ∉ s.seen) →
        Emits s.pipeline (alertNotes env.monotonic s.pipeline.cooldown (produced.map (·.1)))
            (produced.foldl (alertStep env) s).pipeline ∧
          (produced.foldl (alertStep env) s).pipeline.clusteredIds = s.pipeline.clusteredIds ∧
          (produced.foldl (alertStep env) s).pipeline.cooldown =
            gateAfter env.monotonic s.pipeline.cooldown (produced.map (·.1)) := by
  intro produced
  induction produced with
  | nil => intro s _ _; exact ⟨.refl, rfl, rfl⟩
  | cons q produced ih =>
    intro s hnd hseen
    rw [List.map_cons, List.nodup_cons] at hnd
    rw [List.forall_mem_cons] at hseen
    obtain ⟨hemits, hgate, hids, hseen'⟩ := alertStep_emits env hseen.1
    obtain ⟨hrest, hids', hgate'⟩ := ih (alertStep env s q) hnd.2 (by
      intro q' hq'
      rw [hseen', List.mem_append, List.mem_singleton, not_or]
      exact ⟨hseen.2 q' hq', fun heq => hnd.1 (List.mem_map.2 ⟨q', hq', heq⟩)⟩)
    rw [hgate] at hrest hgate'
    rw [List.foldl_cons]
    exact ⟨hemits.trans hrest, hids'.trans hids, hgate'⟩

/-! ## One call -/

/-- The notes of a `process` call. -/
def callNotes (p : SignalPipeline) (env : PipelineEnv) (previous : Option MarketFeatures)
    (current : MarketFeatures) : List Note :=
  let produced := (p.composeStage env previous current).2.1.map (·.1)
  detectNotes p.deduper (evaluate env.eventId env.detectedAt previous current) ++
    (episodeNotes (p.priorPriority current.symbol) p.clusteredIds produced ++
      alertNotes env.monotonic p.cooldown produced)

theorem admitted_cooldown (p : SignalPipeline) (env : PipelineEnv) (previous : Option MarketFeatures)
    (current : MarketFeatures) : (admitted p env previous current).1.cooldown = p.cooldown := by
  have hfold : ∀ (events : List MarketEvent) (r : SignalPipeline × List MarketEvent),
      (events.foldl acceptEvent r).1.cooldown = r.1.cooldown := by
    intro events
    induction events with
    | nil => intro r; rfl
    | cons event events ih =>
      intro r
      rw [List.foldl_cons, ih]
      unfold acceptEvent
      dsimp only
      split <;> rfl
  exact hfold _ (p, [])

/-- A `process` call that returns went through the alert loop. -/
theorem process_pipeline {p : SignalPipeline} {env : PipelineEnv} {previous : Option MarketFeatures}
    {current : MarketFeatures} (hreturns : (p.process env previous current).1.isSome) :
    let stage := p.composeStage env previous current
    (p.process env previous current).2 =
      (stage.2.1.foldl (alertStep env)
        { pipeline := stage.2.2.observeEpisodes (p.priorPriority current.symbol) stage.2.1 }).pipeline := by
  revert hreturns
  unfold process
  obtain ⟨acceptedEvents, produced, p'⟩ := p.composeStage env previous current
  dsimp only
  split
  · intro hreturns
    cases hreturns
  · exact fun _ => rfl

/-- What a `process` call reports, and what it leaves in the tracker and the gate. -/
structure Reports (p : SignalPipeline) (env : PipelineEnv) (previous : Option MarketFeatures)
    (current : MarketFeatures) (p' : SignalPipeline) : Prop where
  emits : Emits p (p.callNotes env previous current) p'
  tracked : p'.clusteredIds =
    trackedAfter p.clusteredIds ((p.composeStage env previous current).2.1.map (·.1))
  gate : p'.cooldown =
    gateAfter env.monotonic p.cooldown ((p.composeStage env previous current).2.1.map (·.1))
  accepted : (p.composeStage env previous current).1.length +
      (detectNotes p.deduper (evaluate env.eventId env.detectedAt previous current)).countP Note.isDeduped =
    (evaluate env.eventId env.detectedAt previous current).length

/-- **A `process` call that returns and composes signals with distinct ids.** -/
theorem process_reports {p : SignalPipeline} {env : PipelineEnv} {previous : Option MarketFeatures}
    {current : MarketFeatures} (hp : p.telemetry.isSome)
    (hnd : ((p.composeStage env previous current).2.1.map (·.1.id)).Nodup)
    (hreturns : (p.process env previous current).1.isSome) :
    Reports p env previous current (p.process env previous current).2 := by
  obtain ⟨hdetect, hids, hcount⟩ :=
    foldl_acceptEvent_emits (evaluate env.eventId env.detectedAt previous current) (p, [])
  have hcooldown := p.admitted_cooldown env previous current
  -- The compose stage adds nothing to the telemetry.
  have hstage : Emits p (detectNotes p.deduper (evaluate env.eventId env.detectedAt previous current))
        (p.composeStage env previous current).2.2 ∧
      (p.composeStage env previous current).2.2.clusteredIds = p.clusteredIds ∧
      (p.composeStage env previous current).2.2.cooldown = p.cooldown ∧
      (p.composeStage env previous current).1 = (admitted p env previous current).2 := by
    rw [composeStage_eq]
    have hkeep : ∀ c : SignalComposer,
        Emits p (detectNotes p.deduper (evaluate env.eventId env.detectedAt previous current))
          { (admitted p env previous current).1 with composer := c } := by
      intro c
      have hsame : Emits (admitted p env previous current).1 []
          { (admitted p env previous current).1 with composer := c } := .of_telemetry rfl
      have hall := hdetect.trans hsame
      rwa [List.append_nil] at hall
    split
    · exact ⟨hkeep _, hids, hcooldown, rfl⟩
    · exact ⟨hkeep _, hids, hcooldown, rfl⟩
  obtain ⟨hemits, hids', hgate', haccepted⟩ := hstage
  have hcounted : (p.composeStage env previous current).1.length +
      (detectNotes p.deduper (evaluate env.eventId env.detectedAt previous current)).countP Note.isDeduped =
      (evaluate env.eventId env.detectedAt previous current).length := by
    rw [haccepted]
    simpa [admitted] using hcount
  obtain ⟨hepisodes, htracked⟩ := foldl_observeEpisode_emits (p.priorPriority current.symbol)
    (p.composeStage env previous current).2.1 (p.composeStage env previous current).2.2 []
    (hemits.isSome hp) hnd (fun _ _ => List.not_mem_nil)
  have hcore := congrArg (fun c => c.2.2) (observeEpisodes_core (p := (p.composeStage env previous current).2.2)
    (p.priorPriority current.symbol) (p.composeStage env previous current).2.1)
  obtain ⟨halerts, hkept, hgate⟩ := foldl_alertStep_emits env (p.composeStage env previous current).2.1
    { pipeline := (p.composeStage env previous current).2.2.observeEpisodes (p.priorPriority current.symbol)
        (p.composeStage env previous current).2.1 } hnd (fun _ _ => List.not_mem_nil)
  have hsame : ((p.composeStage env previous current).2.2.observeEpisodes (p.priorPriority current.symbol)
      (p.composeStage env previous current).2.1).cooldown = p.cooldown := hcore.trans hgate'
  dsimp only at halerts hkept hgate
  rw [hsame] at halerts hgate
  rw [hids'] at hepisodes htracked
  rw [process_pipeline hreturns]
  exact ⟨hemits.trans (hepisodes.trans halerts), hkept.trans htracked, hgate, hcounted⟩

end SignalPipeline

end MarketSentinel
