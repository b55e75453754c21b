import MarketSentinel.Intelligence.Liveness

/-!
# What becomes of a work item

* `ending`: the item that a step takes to its end, and how it ends. It reads the item, the outcome of its
  call and whether the item is live, and no counter.
* `tally_step`: what a step adds to the counters and to the succeeded records is what its ending says.
* `ledger_step`: the items that were there and the new ones have ended in the step or are still there.
* `item_outcomes`: along a run each item ends once, as a success, a failure or a discard, and a call that
  fails for an item that is no longer live counts as a failure and as a discard.
-/

namespace MarketSentinel

open Lib Machine

/-- How an item ends; a call may fail for an item that is no longer live. -/
inductive ItemEnd
  | succeeded | failed | discarded | failedRetired
  deriving DecidableEq, Repr

/-- Among the failures. -/
def ItemEnd.fails : ItemEnd → Bool
  | .failed | .failedRetired => true
  | .succeeded | .discarded => false

/-- Among the discards. -/
def ItemEnd.isStale : ItemEnd → Bool
  | .discarded | .failedRetired => true
  | .succeeded | .failed => false

/-- The end of an item whose call ends. -/
def CallOutcome.itemEnd (live : Bool) : CallOutcome → ItemEnd
  | .cancelled => .discarded
  | .returned .. => if live then .succeeded else .discarded
  | .raised _ => if live then .failed else .failedRetired

/-- The `intelligence_succeeded` records. -/
def TelemetryRuntime.succeededRecords (t : TelemetryRuntime) : ℕ :=
  t.events.countP fun e => decide (e.name = .intelligenceSucceeded)

/-- The run and the records have ids. -/
structure TelemetryRuntime.Identified (t : TelemetryRuntime) : Prop where
  run : isBlank t.runId = false
  stamp : ∀ n, isBlank (t.stamps n).1 = false

namespace IntelligenceCoordinator

/-- The item that a step takes to its end, and how. -/
def ending (c : IntelligenceCoordinator) : CoordinatorStep → Option (IntelligenceWork × ItemEnd)
  | .observe .. => none
  | .take =>
    match c.queue, c.waiting with
    | some (work :: _), _ + 1 => if c.workIsLive work then none else some (work, .discarded)
    | _, _ => none
  | .settle i outcome _ _ => (c.busy[i]?).map fun call => (call.work, outcome.itemEnd (c.workIsLive call.work))

/-- The items that a run takes to their end, in order. -/
def endings (c : IntelligenceCoordinator) : List CoordinatorStep → List (IntelligenceWork × ItemEnd)
  | [] => []
  | l :: ls =>
    match c.step l with
    | none => []
    | some c' => (c.ending l).toList ++ c'.endings ls

/-- The succeeded records of a coordinator. -/
def succeededRecords (c : IntelligenceCoordinator) : ℕ := (c.telemetry.map (·.succeededRecords)).getD 0

/-- A success that leaves a record: its signal has an id. -/
def recorded (e : IntelligenceWork × ItemEnd) : Bool := decide (e.2 = .succeeded ∧ e.1.signalId ≠ "")

/-! ## The counters -/

/-- The counters of a step that ends these items. -/
structure Tallied (c c' : IntelligenceCoordinator) (ends : List (IntelligenceWork × ItemEnd)) : Prop where
  fallback : c'.diagnostics.fallbackCount = c.diagnostics.fallbackCount + ends.countP fun e => e.2.fails
  stale : c'.diagnostics.staleDiscard = c.diagnostics.staleDiscard + ends.countP fun e => e.2.isStale
  identity : c'.telemetry.map (fun t => (t.runId, t.stamps)) = c.telemetry.map fun t => (t.runId, t.stamps)
  records : (∀ t ∈ c.telemetry, t.Identified) → c.telemetry.isSome →
    c'.succeededRecords = c.succeededRecords + ends.countP recorded

section Tally

variable {c c₁ c₂ : IntelligenceCoordinator} {ends ends' : List (IntelligenceWork × ItemEnd)}

/-- Ids stay. -/
theorem Tallied.identified (h : Tallied c c₁ ends) (hid : ∀ t ∈ c.telemetry, t.Identified) :
    ∀ t ∈ c₁.telemetry, t.Identified := by
  intro t₁ ht₁
  have hsame := h.identity
  rw [Option.mem_def.1 ht₁] at hsame
  cases ht : c.telemetry with
  | none =>
    rw [ht] at hsame
    cases hsame
  | some t =>
    rw [ht, Option.map_some, Option.map_some, Option.some.injEq, Prod.mk.injEq] at hsame
    have hids := hid t ht
    refine ⟨?_, fun n => ?_⟩
    · rw [hsame.1]; exact hids.run
    · rw [hsame.2]; exact hids.stamp n

theorem Tallied.isSome (h : Tallied c c₁ ends) (hsome : c.telemetry.isSome) : c₁.telemetry.isSome := by
  have hsame := congrArg Option.isSome h.identity
  rw [Option.isSome_map, Option.isSome_map] at hsame
  rw [hsame]
  exact hsome

theorem Tallied.refl (c : IntelligenceCoordinator) : Tallied c c [] := ⟨rfl, rfl, rfl, fun _ _ => rfl⟩

/-- Steps add up. -/
theorem Tallied.trans (h : Tallied c c₁ ends) (h' : Tallied c₁ c₂ ends') : Tallied c c₂ (ends ++ ends') := by
  refine ⟨?_, ?_, h'.identity.trans h.identity, fun hid hsome => ?_⟩
  · have h1 := h.fallback
    have h2 := h'.fallback
    rw [List.countP_append]
    omega
  · have h1 := h.stale
    have h2 := h'.stale
    rw [List.countP_append]
    omega
  · have h1 := h.records hid hsome
    have h2 := h'.records (h.identified hid) (h.isSome hsome)
    rw [List.countP_append]
    omega

/-- Between steps that end nothing. -/
theorem Tallied.quiet (h : Tallied c c₁ []) (h' : Tallied c₁ c₂ ends) : Tallied c c₂ ends := h.trans h'

theorem Tallied.quiet_right (h : Tallied c c₁ ends) (h' : Tallied c₁ c₂ []) : Tallied c c₂ ends := by
  have hboth := h.trans h'
  rw [List.append_nil] at hboth
  exact hboth

/-- Telemetry and the two counters are as they were. -/
theorem tallied_of_eq (ht : c₁.telemetry = c.telemetry)
    (hf : c₁.diagnostics.fallbackCount = c.diagnostics.fallbackCount)
    (hs : c₁.diagnostics.staleDiscard = c.diagnostics.staleDiscard) : Tallied c c₁ [] := by
  refine ⟨hf, hs, by rw [ht], fun _ _ => ?_⟩
  unfold succeededRecords
  rw [ht]
  rfl

/-- A record of another name. -/
theorem tallied_emit {fields : String → String → ℚ → TelemetryEvent}
    (ht : c₁.telemetry = c.telemetry.map fun t => t.emit fields)
    (hname : ∀ i r w, (fields i r w).name ≠ .intelligenceSucceeded) (hd : c₁.diagnostics = c.diagnostics) :
    Tallied c c₁ [] := by
  refine ⟨by rw [hd]; rfl, by rw [hd]; rfl, ?_, fun _ _ => ?_⟩
  · rw [ht, Option.map_map]
    rfl
  · unfold succeededRecords
    rw [ht, Option.map_map]
    cases c.telemetry with
    | none => rfl
    | some t =>
      simp only [Option.map_some, Option.getD_some, Function.comp_apply, List.countP_nil, Nat.add_zero]
      obtain hsame | ⟨i, r, w, hnew⟩ := t.emit_events fields
      · rw [TelemetryRuntime.succeededRecords, hsame]
        rfl
      · rw [TelemetryRuntime.succeededRecords, hnew, List.countP_append]
        simp [TelemetryRuntime.succeededRecords, hname i r w]

end Tally

section Steps

variable {c c₁ : IntelligenceCoordinator}

theorem tallied_emitWork {work : IntelligenceWork} {name : TelemetryName} {extra : TelemetryEvent → TelemetryEvent}
    (hname : name ≠ .intelligenceSucceeded) (hextra : ∀ e, (extra e).name = e.name) :
    Tallied c (c.emitWork work name extra) [] := by
  refine tallied_emit rfl (fun i r w => ?_) rfl
  unfold episodeFields
  rw [hextra]
  exact hname

/-- The record of a success is kept if its signal has an id. -/
theorem tallied_succeeded (work : IntelligenceWork) (completion : ModelCompletion) (elapsed parseS : ℚ) :
    Tallied c (c.emitSucceeded work completion elapsed parseS) [(work, .succeeded)] := by
  have hfirst : Tallied c (c.emitWork work .intelligenceSucceeded fun e =>
      { e with intelligenceStatus := some IntelligenceStatus.enriched.value }) [(work, .succeeded)] := by
    refine ⟨rfl, rfl, ?_, fun hid hsome => ?_⟩
    · unfold emitWork
      rw [Option.map_map]
      rfl
    · obtain ⟨t, ht⟩ := Option.isSome_iff_exists.1 hsome
      have hids := hid t ht
      have hrun := hids.run
      have hstamp := hids.stamp t.emitted
      unfold succeededRecords emitWork
      rw [ht]
      by_cases hempty : work.signalId = ""
      · simp [TelemetryRuntime.emit, TelemetryRuntime.succeededRecords, episodeFields, TelemetryEvent.valid,
          TelemetryEvent.correlated, TelemetryEvent.truthy, recorded, hempty]
      · simp [TelemetryRuntime.emit, TelemetryRuntime.succeededRecords, episodeFields, TelemetryEvent.valid,
          TelemetryEvent.correlated, TelemetryEvent.truthy, TelemetryEvent.nonNegative, recorded, hempty, hrun,
          hstamp]
  unfold emitSucceeded
  have hmodel := hfirst.quiet_right (@tallied_emitWork _ work .intelligenceLatency (fun e =>
    { e with latencyS := some (max 0 elapsed), latencyStage := some .model }) (by decide) fun _ => rfl)
  have hparse := hmodel.quiet_right (@tallied_emitWork _ work .intelligenceLatency (fun e =>
    { e with latencyS := some (max 0 parseS), latencyStage := some .parse }) (by decide) fun _ => rfl)
  dsimp only
  split
  · exact hparse.quiet_right (tallied_emitWork (by decide) fun _ => rfl)
  · exact hparse

theorem tallied_fallback (work : IntelligenceWork) (error : CallError) (elapsed : ℚ) :
    Tallied c (c.emitFallback work error elapsed) [] := by
  have hrecord := @tallied_emitWork c work .intelligenceFallback (fun e =>
    { e with
      intelligenceStatus := some IntelligenceStatus.fallback.value
      fallbackReason := some (reasonFor error).value }) (by decide) fun _ => rfl
  unfold emitFallback
  exact hrecord.quiet (tallied_emitWork (by decide) fun _ => rfl)

theorem tallied_countFallback (work : IntelligenceWork) (error : CallError) :
    Tallied c (c.countFallback error) [(work, .failed)] := by
  cases error <;> exact ⟨rfl, rfl, rfl, fun _ _ => rfl⟩

theorem tallied_discard (work : IntelligenceWork) : Tallied c c.discard [(work, .discarded)] :=
  ⟨rfl, rfl, rfl, fun _ _ => rfl⟩

theorem tallied_store (work : IntelligenceWork) (r : IntelligenceResult) : Tallied c (c.store work r) [] := by
  unfold store
  split
  · exact tallied_of_eq rfl rfl rfl
  · exact Tallied.refl c

/-- **The end of a call** is counted as its item ends. -/
theorem tallied_conclude (work : IntelligenceWork) (outcome : CallOutcome) (wall elapsed : ℚ) :
    Tallied c (c.conclude work outcome wall elapsed) [(work, outcome.itemEnd (c.workIsLive work))] := by
  unfold conclude
  cases outcome with
  | cancelled => exact tallied_discard work
  | returned completion parseS =>
    unfold CallOutcome.itemEnd
    dsimp only
    split
    · exact (tallied_store work _).quiet (tallied_succeeded work completion elapsed parseS)
    · exact tallied_discard work
  | raised error =>
    have hsame : (c.countFallback error).workIsLive work = c.workIsLive work := rfl
    have hcount := @tallied_countFallback c work error
    unfold CallOutcome.itemEnd
    dsimp only
    rw [hsame]
    split
    · exact (hcount.quiet_right (tallied_store work _)).quiet_right (tallied_fallback work error elapsed)
    · -- The failure is counted, and then the discard.
      have hboth := hcount.trans (tallied_discard work)
      exact ⟨hboth.fallback, hboth.stale, hboth.identity, hboth.records⟩

theorem tallied_maybeForget (id : String) : Tallied c (c.maybeForget id) [] := by
  unfold maybeForget
  split
  · exact Tallied.refl c
  · split
    · exact Tallied.refl c
    · exact tallied_of_eq rfl rfl rfl

theorem tallied_release (work : IntelligenceWork) : Tallied c (c.release work) [] := by
  have hdischarge : Tallied c (c.discharge work.signalId) [] := tallied_of_eq rfl rfl rfl
  exact (hdischarge.quiet (tallied_maybeForget _)).quiet (tallied_of_eq rfl rfl rfl)

theorem tallied_invalidate (id : String) : Tallied c (c.invalidate id) [] := by
  have hcancel : ∀ c' : IntelligenceCoordinator, Tallied c' (c'.cancelInFlight id) [] := by
    intro c'
    unfold cancelInFlight
    split
    · exact Tallied.refl c'
    · exact tallied_of_eq rfl rfl rfl
  have hadvance : Tallied c (c.advance id) [] := tallied_of_eq rfl rfl rfl
  exact (hadvance.quiet (hcancel _)).quiet (tallied_maybeForget id)

theorem tallied_retireInactive (activeIds : List String) : Tallied c (c.retireInactive activeIds) [] := by
  have hfold : ∀ (ids : List String) (c' : IntelligenceCoordinator),
      Tallied c' (ids.foldl invalidate c') [] := by
    intro ids
    induction ids with
    | nil => intro c'; exact Tallied.refl c'
    | cons id ids ih => intro c'; exact (tallied_invalidate id).quiet (ih _)
  have hprune : Tallied c (c.prune activeIds) [] := tallied_of_eq rfl rfl rfl
  exact hprune.quiet (hfold _ _)

theorem tallied_observeSignal (env : ObserveEnv) (row : SymbolTickResult) (c : IntelligenceCoordinator)
    (signal : Signal) : Tallied c (observeSignal env row c signal) [] := by
  -- No record of this method is one of a success, so none of them settles anything.
  have hemit : ∀ (c' : IntelligenceCoordinator) (name : TelemetryName) (extra : TelemetryEvent → TelemetryEvent),
      name ≠ .intelligenceSucceeded → (∀ e, (extra e).name = e.name) → Tallied c' (c'.emit name signal extra) [] := by
    intro c' name extra hname hextra
    refine tallied_emit rfl (fun i r w => ?_) rfl
    unfold episodeFields
    rw [hextra]
    exact hname
  have hlatency : ∀ (c' : IntelligenceCoordinator) (latencyS : ℚ) (stage : LatencyStage),
      Tallied c' (c'.emitLatency signal latencyS stage) [] := fun c' _ _ =>
    hemit c' _ _ (by decide) fun _ => rfl
  have hskipped : ∀ (c' : IntelligenceCoordinator) (skip : DecisionReason),
      Tallied c' (c'.emit .intelligenceSkipped signal fun e => { e with decisionReason := some skip }) [] :=
    fun c' _ => hemit c' _ _ (by decide) fun _ => rfl
  have hrouted : ∀ c' : IntelligenceCoordinator, Tallied c' (c'.emit .intelligenceRouted signal) [] :=
    fun c' => hemit c' _ _ (by decide) fun _ => rfl
  have hdecision : Tallied c c.countDecision [] := tallied_of_eq rfl rfl rfl
  unfold observeSignal
  split
  · exact Tallied.refl c
  · dsimp only
    split
    · have hsuppressed : Tallied c c.countDecision.countSuppressed [] := tallied_of_eq rfl rfl rfl
      split
      · exact hsuppressed
      · exact (hsuppressed.quiet (hskipped _ _)).quiet (hlatency _ _ _)
    · have henqueue : ∀ payload, Tallied c (c.countDecision.enqueue payload signal).2 [] := by
        intro payload
        refine hdecision.quiet ?_
        unfold enqueue
        split
        · exact Tallied.refl _
        · split
          · exact tallied_of_eq rfl rfl rfl
          · exact tallied_of_eq rfl rfl rfl
      split
      · exact ((henqueue _).quiet (hrouted _)).quiet (hlatency _ _ _)
      · exact henqueue _

theorem tallied_observeTick (env : ObserveEnv) (tick : EngineTickResult) (activeIds : Option (List String)) :
    Tallied c (c.observeTick env tick activeIds) [] := by
  have hsignals : ∀ (row : SymbolTickResult) (signals : List Signal) (c' : IntelligenceCoordinator),
      Tallied c' (signals.foldl (observeSignal env row) c') [] := by
    intro row signals
    induction signals with
    | nil => intro c'; exact Tallied.refl c'
    | cons signal signals ih => intro c'; exact (tallied_observeSignal env row c' signal).quiet (ih _)
  have hrows : ∀ (rows : List SymbolTickResult) (c' : IntelligenceCoordinator),
      Tallied c' (rows.foldl (observeRow env) c') [] := by
    intro rows
    induction rows with
    | nil => intro c'; exact Tallied.refl c'
    | cons row rows ih => intro c'; exact (hsignals row row.signalUpdates c').quiet (ih _)
  have hmeasure : ∀ c' : IntelligenceCoordinator, Tallied c' c'.measureDepth [] := by
    intro c'
    unfold measureDepth
    split
    · exact Tallied.refl c'
    · exact tallied_of_eq rfl rfl rfl
  exact ((tallied_retireInactive _).quiet (hrows _ _)).quiet (hmeasure _)

/-- **A step counts what it ends.** -/
theorem tally_step {l : CoordinatorStep} (hs : c.step l = some c₁) : Tallied c c₁ (c.ending l).toList := by
  cases l with
  | observe env tick activeIds =>
    obtain rfl := Option.some.inj hs
    exact tallied_observeTick env tick activeIds
  | take =>
    obtain ⟨work, queue, waiting, hq, hwaiting, ⟨hlive, rfl⟩ | ⟨hdead, rfl⟩⟩ := take_cases hs
    · have hending : c.ending .take = none := by simp [ending, hq, hwaiting, hlive]
      have hcall : Tallied c ((c.dequeue queue waiting).call work) [] := tallied_of_eq rfl rfl rfl
      rw [hending]
      exact hcall.quiet (tallied_store work _)
    · have hending : c.ending .take = some (work, .discarded) := by simp [ending, hq, hwaiting, hdead]
      have hdequeue : Tallied c (c.dequeue queue waiting) [] := tallied_of_eq rfl rfl rfl
      rw [hending]
      exact (hdequeue.quiet (tallied_discard work)).quiet_right (tallied_release work)
  | settle i outcome wall elapsed =>
    obtain ⟨call, hcall, rfl⟩ := settle_cases hs
    have hending : c.ending (.settle i outcome wall elapsed) =
        some (call.work, outcome.itemEnd (c.workIsLive call.work)) := by simp [ending, hcall]
    have hconclude := @tallied_conclude c call.work outcome wall elapsed
    have hhangUp : ∀ c' : IntelligenceCoordinator, Tallied c' (c'.hangUp i call.work) [] := fun c' =>
      tallied_of_eq rfl rfl rfl
    rw [hending]
    exact (hconclude.quiet_right (hhangUp _)).quiet_right (tallied_release call.work)

end Steps

/-! ## The items -/

/-- The items that were outstanding, and the new ones, have ended or are outstanding. -/
structure Ledger (c c' : IntelligenceCoordinator) (ends new : List IntelligenceWork) : Prop where
  items : (ends ++ c'.outstanding).Perm (c.outstanding ++ new)
  submitted : c'.history.submitted.length = c.history.submitted.length + new.length
  fresh : ∀ work ∈ new, c.history.nextSerial ≤ work.serial ∧ work.serial < c'.history.nextSerial
  distinct : (new.map (·.serial)).Nodup
  later : c.history.nextSerial ≤ c'.history.nextSerial

section Items

variable {c c₁ c₂ : IntelligenceCoordinator} {ends ends' new new' : List IntelligenceWork}

/-- Ledgers of steps are put together. -/
theorem Ledger.trans (h : Ledger c c₁ ends new) (h' : Ledger c₁ c₂ ends' new') :
    Ledger c c₂ (ends ++ ends') (new ++ new') := by
  have hlater := h.later
  have hlater' := h'.later
  refine ⟨?_, ?_, fun work hwork => ?_, ?_, by omega⟩
  · calc (ends ++ ends' ++ c₂.outstanding).Perm (ends ++ (c₁.outstanding ++ new')) := by
          rw [List.append_assoc]
          exact h'.items.append_left ends
      _ |>.Perm (c.outstanding ++ (new ++ new')) := by
          rw [← List.append_assoc, ← List.append_assoc]
          exact h.items.append_right new'
  · have h1 := h.submitted
    have h2 := h'.submitted
    rw [List.length_append]
    omega
  · rcases List.mem_append.1 hwork with hwork | hwork
    · have := h.fresh work hwork
      omega
    · have := h'.fresh work hwork
      omega
  · rw [List.map_append, List.nodup_append]
    refine ⟨h.distinct, h'.distinct, ?_⟩
    rintro s hs _ hs' rfl
    obtain ⟨w, hw, rfl⟩ := List.mem_map.1 hs
    obtain ⟨w', hw', heq⟩ := List.mem_map.1 hs'
    have h1 := h.fresh w hw
    have h2 := h'.fresh w' hw'
    omega

/-- A step that submits nothing. -/
theorem ledger_of_perm (h : (ends ++ c₁.outstanding).Perm c.outstanding)
    (hsubmitted : c₁.history.submitted = c.history.submitted)
    (hserial : c₁.history.nextSerial = c.history.nextSerial) : Ledger c c₁ ends [] := by
  refine ⟨by rw [List.append_nil]; exact h, by rw [hsubmitted]; rfl, fun _ hw => absurd hw List.not_mem_nil,
    List.nodup_nil, by rw [hserial]⟩

theorem ledger_observeTick (h : c.Coordinated) (env : ObserveEnv) (tick : EngineTickResult)
    (activeIds : Option (List String)) : ∃ new, Ledger c (c.observeTick env tick activeIds) [] new := by
  refine observeTick_rule (P := fun c' => ∃ new, Ledger c c' [] new) ?_ ?_ ?_
  · rintro c' t d ⟨new, hnew⟩
    exact ⟨new, hnew.items, hnew.submitted, hnew.fresh, hnew.distinct, hnew.later⟩
  · rintro c' queue payload signal ⟨new, hnew⟩ hq _ _ _ _
    have hsubmit : Ledger c' (c'.submit queue (c'.workFor payload signal)) [] [c'.workFor payload signal] := by
      refine ⟨?_, ?_, fun work hwork => ?_, List.nodup_singleton _, Nat.le_succ _⟩
      · simp only [outstanding, submit, hq, Option.getD_some, List.append_assoc, List.nil_append]
        exact List.Perm.append_left _ List.perm_append_comm
      · simp [submit]
      · obtain rfl := List.mem_singleton.1 hwork
        exact ⟨le_refl c'.history.nextSerial, Nat.lt_succ_self c'.history.nextSerial⟩
    exact ⟨_, hnew.trans hsubmit⟩
  · have hretire := retiring_retireInactive h (currentActive env.now tick activeIds)
    refine ⟨[], ?_, ?_, fun _ hw => absurd hw List.not_mem_nil, List.nodup_nil, ?_⟩
    · rw [hretire.outstanding, List.append_nil]
      exact List.Perm.refl _
    · rw [hretire.history]
      rfl
    · rw [hretire.history]
      exact le_refl c.history.nextSerial

theorem history_release (c : IntelligenceCoordinator) (work : IntelligenceWork) :
    (c.release work).history = c.history := (sameWork_releasePending c work.signalId).history

theorem outstanding_release (c : IntelligenceCoordinator) (work : IntelligenceWork) :
    (c.release work).outstanding = c.outstanding := (sameWork_releasePending c work.signalId).outstanding

/-- **A step keeps the ledger.** -/
theorem ledger_step (h : c.Coordinated) {l : CoordinatorStep} (hs : c.step l = some c₁) :
    ∃ new, Ledger c c₁ ((c.ending l).toList.map (·.1)) new := by
  cases l with
  | observe env tick activeIds =>
    obtain rfl := Option.some.inj hs
    exact ledger_observeTick h env tick activeIds
  | take =>
    obtain ⟨work, queue, waiting, hq, hwaiting, ⟨hlive, rfl⟩ | ⟨hdead, rfl⟩⟩ := take_cases hs
    · have hending : c.ending .take = none := by simp [ending, hq, hwaiting, hlive]
      -- Live work goes from the queue to the worker and stays outstanding.
      have hsame := sameWork_store ((c.dequeue queue waiting).call work) work
        (plainResult work.signalId .running (c.calls.getD work.signalId 0))
      rw [hending]
      refine ⟨[], ledger_of_perm ?_ (by rw [hsame.history]; rfl) (by rw [hsame.history]; rfl)⟩
      · rw [hsame.outstanding]
        simp only [outstanding, call, dequeue, hq, Option.getD_some, Option.toList_none, List.map_nil,
          List.nil_append, List.map_append, List.map_cons, ← List.append_assoc]
        exact List.perm_append_singleton work _
    · -- Dead work is discarded, which is how its item ends.
      have hending : c.ending .take = some (work, .discarded) := by simp [ending, hq, hwaiting, hdead]
      rw [hending]
      refine ⟨[], ledger_of_perm ?_ (by rw [history_release]; rfl) (by rw [history_release]; rfl)⟩
      · rw [outstanding_release]
        simp only [outstanding, discard, dequeue, hq, Option.getD_some, Option.toList_some, List.map_cons,
          List.map_nil, List.cons_append, List.nil_append]
        exact List.Perm.refl _
  | settle i outcome wall elapsed =>
    obtain ⟨call, hcall, rfl⟩ := settle_cases hs
    have hending : c.ending (.settle i outcome wall elapsed) =
        some (call.work, outcome.itemEnd (c.workIsLive call.work)) := by simp [ending, hcall]
    have hsame := sameWork_conclude c call.work outcome wall elapsed
    rw [hending]
    have hhistory : (((c.conclude call.work outcome wall elapsed).hangUp i call.work).release call.work).history =
        c.history := (history_release _ _).trans hsame.history
    refine ⟨[], ledger_of_perm ?_ (by rw [hhistory]) (by rw [hhistory])⟩
    rw [outstanding_release, ← hsame.outstanding]
    exact (outstanding_hangUp (hsame.busy ▸ hcall)).symm

end Items

/-! ## Runs -/

section Runs

variable {c c₁ : IntelligenceCoordinator}

/-- **Along a run** the counters and the ledger add up over its endings. -/
theorem endings_of_run : ∀ {steps : List CoordinatorStep} {c : IntelligenceCoordinator}, c.Coordinated →
    run step c steps = some c₁ →
      Tallied c c₁ (c.endings steps) ∧ ∃ new, Ledger c c₁ ((c.endings steps).map (·.1)) new := by
  intro steps
  induction steps with
  | nil =>
    intro c _ hrun
    obtain rfl := Option.some.inj hrun
    exact ⟨Tallied.refl c, [], ledger_of_perm (List.Perm.refl _) rfl rfl⟩
  | cons l steps ih =>
    intro c h hrun
    obtain ⟨c', hs, hrest⟩ := run_cons.1 hrun
    obtain ⟨htallied, new', hledger'⟩ := ih (h.of_step hs) hrest
    obtain ⟨new, hledger⟩ := ledger_step h hs
    have hendings : c.endings (l :: steps) = (c.ending l).toList ++ c'.endings steps := by
      rw [endings, hs]
    rw [hendings, List.map_append]
    exact ⟨(tally_step hs).trans htallied, _, hledger.trans hledger'⟩

/-- Failures and discards share the items that fail when they are no longer live. -/
theorem count_ends (ends : List (IntelligenceWork × ItemEnd)) :
    (ends.countP fun e => decide (e.2 = .succeeded)) + (ends.countP fun e => e.2.fails) +
        (ends.countP fun e => e.2.isStale) =
      ends.length + ends.countP fun e => decide (e.2 = .failedRetired) := by
  induction ends with
  | nil => rfl
  | cons e ends ih =>
    have hone : (if decide (e.2 = ItemEnd.succeeded) then 1 else 0) + (if e.2.fails then 1 else 0) +
        (if e.2.isStale then 1 else 0) = 1 + if decide (e.2 = ItemEnd.failedRetired) then 1 else 0 := by
      cases e.2 <;> rfl
    simp only [List.countP_cons, List.length_cons]
    omega

/-- What the items of a run come to. -/
structure ItemOutcomes (telemetry : Option TelemetryRuntime) (c : IntelligenceCoordinator)
    (ends : List (IntelligenceWork × ItemEnd)) : Prop where
  /-- An item ends once. -/
  once : (ends.map (·.1.serial)).Nodup
  /-- The items that have not ended are in the queue or with a worker. -/
  rest : ends.length + c.outstanding.length = c.history.submitted.length
  fallback : c.diagnostics.fallbackCount = ends.countP fun e => e.2.fails
  stale : c.diagnostics.staleDiscard = ends.countP fun e => e.2.isStale
  /-- A success leaves one record. -/
  records : ∀ t ∈ telemetry, t.Identified → c.succeededRecords = t.succeededRecords + ends.countP recorded
  /-- An item is counted once, and once more if its call failed when it was no longer live. -/
  total : (ends.countP fun e => decide (e.2 = .succeeded)) + c.diagnostics.fallbackCount +
    c.diagnostics.staleDiscard = ends.length + ends.countP fun e => decide (e.2 = .failedRetired)

/-- **One outcome for each item.** Along any run of ticks and worker steps, each item that is taken and run to
its end is a success, a failure or a discard, by the outcome of its call and whether it is still live; a success
leaves one record, a failure one `fallback_count`, a discard one `stale_discard`, and the call that fails for an
item that is no longer live counts as a failure and as a discard. -/
theorem item_outcomes {queueSize : ℤ} {concurrency : ℕ} {budget : EpisodeCallBudget} {policy : RouterPolicy}
    {telemetry : Option TelemetryRuntime} {steps : List CoordinatorStep}
    (hrun : run step (new queueSize concurrency budget policy telemetry).start steps = some c) :
    Along step (fun c l => ∀ c', c.step l = some c' → Tallied c c' (c.ending l).toList)
        (new queueSize concurrency budget policy telemetry).start steps ∧
      ItemOutcomes telemetry c ((new queueSize concurrency budget policy telemetry).start.endings steps) := by
  have hstart := coordinated_start queueSize concurrency budget policy telemetry
  obtain ⟨htallied, new', hledger⟩ := endings_of_run hstart hrun
  have hlength := hledger.items.length_eq
  have hsubmitted := hledger.submitted
  have hserials := (hledger.items.map (·.serial)).nodup_iff.2 hledger.distinct
  have hfallback := htallied.fallback
  have hstale := htallied.stale
  have hzero : (new queueSize concurrency budget policy telemetry).start.outstanding.length = 0 := rfl
  have hnone : (new queueSize concurrency budget policy telemetry).start.history.submitted.length = 0 := rfl
  -- The counters are compared with the ends of the run; the rest is counting.
  have hcounts := count_ends ((new queueSize concurrency budget policy telemetry).start.endings steps)
  change c.diagnostics.fallbackCount = 0 + _ at hfallback
  change c.diagnostics.staleDiscard = 0 + _ at hstale
  rw [List.map_append, List.map_map] at hserials
  simp only [List.length_append, List.length_map] at hlength
  refine ⟨along_of_forall (fun c l c' hs => tally_step hs) _ _, ?_, by omega, by omega, by omega,
    fun t ht hid => ?_, by omega⟩
  · exact (List.nodup_append.1 hserials).1
  · have htelemetry : (new queueSize concurrency budget policy telemetry).start.telemetry = some t := ht
    have hrecords := htallied.records (fun t' ht' => by
      rw [htelemetry] at ht'
      exact Option.some.inj ht' ▸ hid) (by rw [htelemetry]; rfl)
    rw [hrecords, succeededRecords, htelemetry]
    rfl

/-- A run that ends two items: the call of the first is answered, the call of the second fails when its signal
is retired. -/
def retiredFailure : List CoordinatorStep :=
  [.observe liveEnv (alertTick "r") none, .take, .settle 0 (.returned ⟨true, "", 1, "", none, none⟩ 0) 1 1,
    .observe liveEnv (alertTick "s") none, .take, .observe liveEnv ⟨[]⟩ none, .settle 0 (.raised .timeout) 1 1]

/-- A runtime that draws one id. -/
def namedRuntime : TelemetryRuntime where
  runId := "run"
  stamps _ := ("id", 0)

theorem item_outcomes_retired : ∃ c, run step (new 8 1 {} {} (some namedRuntime)).start retiredFailure = some c ∧
    ItemOutcomes (some namedRuntime) c ((new 8 1 {} {} (some namedRuntime)).start.endings retiredFailure) := by
  obtain ⟨c, hc⟩ : ∃ c, run step (new 8 1 {} {} (some namedRuntime)).start retiredFailure = some c :=
    Option.isSome_iff_exists.1 (by decide +kernel)
  exact ⟨c, hc, (item_outcomes hc).2⟩

/-- Two items have ended, and their outcomes are three. -/
theorem retired_failure_counts_twice :
    ∃ c, run step (new 8 1 {} {} (some namedRuntime)).start retiredFailure = some c ∧
      ((new 8 1 {} {} (some namedRuntime)).start.endings retiredFailure).length = 2 ∧
      c.succeededRecords = 1 ∧ c.diagnostics.fallbackCount = 1 ∧ c.diagnostics.staleDiscard = 1 ∧
      c.succeededRecords + c.diagnostics.fallbackCount + c.diagnostics.staleDiscard ≠
        ((new 8 1 {} {} (some namedRuntime)).start.endings retiredFailure).length := by
  obtain ⟨c, hc⟩ : ∃ c, run step (new 8 1 {} {} (some namedRuntime)).start retiredFailure = some c :=
    Option.isSome_iff_exists.1 (by decide +kernel)
  have hcounts : (run step (new 8 1 {} {} (some namedRuntime)).start retiredFailure).map (fun c =>
      (c.succeededRecords, c.diagnostics.fallbackCount, c.diagnostics.staleDiscard)) = some (1, 1, 1) := by
    decide +kernel
  have hends : ((new 8 1 {} {} (some namedRuntime)).start.endings retiredFailure).length = 2 := by decide +kernel
  rw [hc, Option.map_some, Option.some.injEq, Prod.mk.injEq, Prod.mk.injEq] at hcounts
  obtain ⟨hrecords, hfallback, hstale⟩ := hcounts
  exact ⟨c, hc, hends, hrecords, hfallback, hstale, by omega⟩

end Runs

end IntelligenceCoordinator

end MarketSentinel
