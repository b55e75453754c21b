import MarketSentinel.Intelligence.Lifecycle

/-!
# One life of the coordinator after another

* `Since`: what is outstanding or has a row was submitted since a point of the run; `Since.step`, `since_of_step`.
* `lifetimes_apart`: nothing that was submitted before a shutdown is handled, or listed, after it.
* `shutdown_drains`: no call begins during a shutdown, and each call that ends brings it one nearer to its end.
-/

namespace MarketSentinel

open Lib Machine

namespace IntelligenceCoordinator

/-- What is outstanding, or has a row, was submitted since then. -/
structure Since (serial submitted : ℕ) (c : IntelligenceCoordinator) : Prop where
  later : serial ≤ c.history.nextSerial ∧ submitted ≤ c.history.submitted.length
  items : ∀ work ∈ c.outstanding, serial ≤ work.serial
  rows : ∀ id, c.row id ≠ EpisodeRow.empty → id ∈ c.history.submitted.drop submitted

section Since

variable {c c' : IntelligenceCoordinator} {serial submitted : ℕ}

/-- Live work has a row. -/
theorem row_ne_empty_of_live {work : IntelligenceWork} (h : c.workIsLive work = true) :
    c.row work.signalId ≠ EpisodeRow.empty := by
  intro hempty
  have hgen := congrArg EpisodeRow.generation hempty
  rw [show (c.row work.signalId).generation = c.generation.get? work.signalId from rfl,
    (mem_activeIds_of_live h).2] at hgen
  cases hgen

/-- A stored result makes no row. -/
theorem row_store_ne_empty {work : IntelligenceWork} {r : IntelligenceResult} (hr : r.signalId = work.signalId)
    {id : String} (h : (c.store work r).row id ≠ EpisodeRow.empty) : c.row id ≠ EpisodeRow.empty := by
  rw [row_store] at h
  split at h
  · next hlive => exact hlive.2 ▸ hr ▸ row_ne_empty_of_live hlive.1
  · exact h

/-- A release makes no row. -/
theorem row_releasePending_ne_empty {id id' : String} (h : (c.releasePending id).row id' ≠ EpisodeRow.empty) :
    c.row id' ≠ EpisodeRow.empty := by
  rw [row_releasePending] at h
  split at h
  · next heq =>
    subst heq
    intro hempty
    apply h
    rw [hempty]
    cases c.isActive id' <;> rfl
  · exact h

/-- The end of a call makes no row. -/
theorem row_conclude_ne_empty {work : IntelligenceWork} {outcome : CallOutcome} {wall elapsed : ℚ} {id : String}
    (h : (c.conclude work outcome wall elapsed).row id ≠ EpisodeRow.empty) : c.row id ≠ EpisodeRow.empty := by
  obtain ⟨t, d, ⟨heq, -⟩ | ⟨r, heq, hlive, hr, -⟩⟩ := conclude_cases c work outcome wall elapsed
  · rw [heq] at h
    exact h
  · rw [heq, ← store_of_live hlive] at h
    exact row_store_ne_empty hr h

/-- A step that submits nothing and fills no empty row. -/
theorem Since.sublist (h : Since serial submitted c) (hhistory : c'.history = c.history)
    (hout : ∀ work ∈ c'.outstanding, work ∈ c.outstanding)
    (hrows : ∀ id, c'.row id ≠ EpisodeRow.empty → c.row id ≠ EpisodeRow.empty) : Since serial submitted c' := by
  refine ⟨by rw [hhistory]; exact h.later, fun work hwork => h.items work (hout work hwork), fun id hid => ?_⟩
  rw [hhistory]
  exact h.rows id (hrows id hid)

/-- What a tick submits is new. -/
theorem Since.observe (hc : c.Coordinated) (h : Since serial submitted c) (env : ObserveEnv)
    (tick : EngineTickResult) (activeIds : Option (List String)) :
    Since serial submitted (c.observeTick env tick activeIds) := by
  apply observeTick_submits (P := Since serial submitted)
  · intro c' t d hc'
    exact ⟨hc'.later, hc'.items, hc'.rows⟩
  · intro c' queue payload signal hc' hq _ _
    obtain ⟨hserial, hsubmitted⟩ := hc'.later
    refine ⟨⟨Nat.le_succ_of_le hserial, ?_⟩, fun work hwork => ?_, fun id hid => ?_⟩
    · simp only [submit, List.length_append, List.length_singleton]
      omega
    · simp only [outstanding, submit, Option.getD_some, List.append_assoc, List.mem_append,
        List.mem_singleton] at hwork
      rcases hwork with hwork | rfl | hwork
      · exact hc'.items work (by simp [outstanding, hq, hwork])
      · exact hserial
      · exact hc'.items work (List.mem_append_right _ hwork)
    · rw [row_submit _ _ rfl] at hid
      simp only [submit, List.drop_append_of_le_length hsubmitted, List.mem_append, List.mem_singleton]
      split at hid
      · next heq => exact .inr heq
      · exact .inl (hc'.rows id hid)
  · have hretire := retiring_retireInactive hc (currentActive env.now tick activeIds)
    refine ⟨?_, ?_, fun id hid => ?_⟩
    · rw [hretire.history]
      exact h.later
    · rw [hretire.outstanding]
      exact h.items
    · rw [hretire.history]
      apply h.rows id
      intro hempty
      apply hid
      rw [row_retireInactive, hempty]
      split
      · rfl
      · exact EpisodeRow.invalidate_of_pending rfl

/-- A step of the coordinator makes nothing old. -/
theorem Since.step (hc : c.Coordinated) (h : Since serial submitted c) {s : CoordinatorStep}
    (hs : c.step s = some c') : Since serial submitted c' := by
  cases s with
  | observe env tick activeIds =>
    obtain rfl := Option.some.inj hs
    exact h.observe hc env tick activeIds
  | take =>
    obtain ⟨work, queue, waiting, hq, -, ⟨-, rfl⟩ | ⟨-, rfl⟩⟩ := take_cases hs
    · have hsame := sameWork_store ((c.dequeue queue waiting).call work) work
        (plainResult work.signalId .running (c.calls.getD work.signalId 0))
      have hcall : Since serial submitted ((c.dequeue queue waiting).call work) := by
        refine ⟨h.later, fun work' hwork' => h.items work' ?_, h.rows⟩
        simp only [outstanding, call, dequeue, Option.getD_some, List.map_append, List.map_cons, List.map_nil,
          List.mem_append, List.mem_singleton] at hwork'
        rcases hwork' with hwork' | hwork' | rfl
        · simp [outstanding, hq, hwork']
        · exact List.mem_append_right _ hwork'
        · simp [outstanding, hq]
      exact hcall.sublist hsame.history (by rw [hsame.outstanding]; exact fun _ hw => hw)
        fun id hid => row_store_ne_empty rfl hid
    · apply h.sublist
      · exact history_release _ work
      · rw [outstanding_release]
        intro work' hwork'
        simp only [outstanding, discard, dequeue, Option.getD_some, List.mem_append] at hwork'
        rcases hwork' with hwork' | hwork'
        · simp [outstanding, hq, hwork']
        · exact List.mem_append_right _ hwork'
      · intro id hid
        exact row_releasePending_ne_empty (c := (c.dequeue queue waiting).discard) hid
  | settle i outcome wall elapsed =>
    obtain ⟨call, hcall, rfl⟩ := settle_cases hs
    have hsame := sameWork_conclude c call.work outcome wall elapsed
    apply h.sublist
    · exact (history_release _ _).trans hsame.history
    · rw [outstanding_release]
      intro work hwork
      rw [← hsame.outstanding]
      exact (outstanding_hangUp (hsame.busy ▸ hcall)).mem_iff.2 (List.mem_cons_of_mem _ hwork)
    · intro id hid
      have hleft := row_releasePending_ne_empty
        (c := (c.conclude call.work outcome wall elapsed).hangUp i call.work) hid
      exact row_conclude_ne_empty hleft

/-- Nor does a call that is cut off. -/
theorem Since.abort (h : Since serial submitted c) {i : ℕ} (hs : c.abort i = some c') :
    Since serial submitted c' := by
  obtain ⟨call, hcall, rfl⟩ := abort_cases hs
  have hsame := sameWork_releasePending (c.hangUp i call.work) call.work.signalId
  apply h.sublist hsame.history
  · rw [hsame.outstanding]
    intro work hwork
    exact (outstanding_hangUp hcall).mem_iff.2 (List.mem_cons_of_mem _ hwork)
  · intro id hid
    exact row_releasePending_ne_empty (c := c.hangUp i call.work) hid

end Since

end IntelligenceCoordinator

namespace CoordinatorLife

section Lifetimes

variable {queueSize : ℤ} {concurrency : ℕ} {budget : EpisodeCallBudget} {policy : RouterPolicy}
  {telemetry : Option TelemetryRuntime} {l l' l₁ l₂ : CoordinatorLife} {serial submitted : ℕ}

/-- **Every step of a life keeps to what is new.** -/
theorem since_of_step (h : l.Sound) (hsince : l.coordinator.Since serial submitted) {s : LifeStep}
    (hs : l.step s = some l') : l'.coordinator.Since serial submitted := by
  have hreset : ∀ c : IntelligenceCoordinator, c.outstanding = [] → c.history = l.coordinator.history →
      c.resetRuntimeState.Since serial submitted := by
    intro c hout hhistory
    refine ⟨?_, fun work hwork => ?_, fun id hid => absurd rfl hid⟩
    · rw [show c.resetRuntimeState.history = c.history from rfl, hhistory]
      exact hsince.later
    · rw [show c.resetRuntimeState.outstanding = c.outstanding from rfl, hout] at hwork
      exact absurd hwork List.not_mem_nil
  cases s with
  | start =>
    obtain rfl := Option.some.inj hs
    unfold CoordinatorLife.start IntelligenceCoordinator.start
    cases hq : l.coordinator.queue with
    | some queue => exact hsince
    | none =>
      refine hsince.sublist rfl (fun work hwork => ?_) fun _ hid => hid
      simpa [IntelligenceCoordinator.outstanding, hq] using hwork
  | shutdown =>
    change l.shutdown = some l' at hs
    unfold CoordinatorLife.shutdown at hs
    split at hs
    · next hq =>
      obtain rfl := Option.some.inj hs
      apply hreset
      · simp [IntelligenceCoordinator.outstanding, hq, (h.stopped hq).1]
      · rfl
    · split at hs
      · cases hs
      · obtain rfl := Option.some.inj hs
        exact hsince.sublist rfl (fun _ hw => hw) fun _ hid => hid
  | finishShutdown =>
    obtain ⟨-, -, hbusy, rfl⟩ := finishShutdown_cases hs
    apply hreset
    · simp [IntelligenceCoordinator.outstanding, hbusy]
    · rfl
  | act s =>
    obtain ⟨c', hc', rfl⟩ := Option.map_eq_some_iff.1 hs
    rcases act_cases hc' with ⟨i, wall, elapsed, rfl, -, habort⟩ | hstep
    · exact hsince.abort habort
    · exact hsince.step h.coordinated hstep

/-- **Lifetimes apart.** From the end of a shutdown on, whatever comes next (starts, ticks, workers, late answers,
further shutdowns), every item in the queue or with a worker was submitted after it, and an id has a row in a table
or in the registry only if it was submitted after it. The shutdown itself leaves no row and keeps the counters and
the telemetry, and there is no row again before the next start. -/
theorem lifetimes_apart {pre post : List LifeStep}
    (hpre : run step (new queueSize concurrency budget policy telemetry) pre = some l)
    (hfinish : l.step .finishShutdown = some l₁) (hpost : run step l₁ post = some l₂) :
    ((∀ id, l₁.coordinator.row id = EpisodeRow.empty) ∧ l₁.coordinator.outstanding = [] ∧
        l₁.coordinator.diagnostics = l.coordinator.diagnostics ∧
        l₁.coordinator.telemetry = l.coordinator.telemetry) ∧
      (∀ work ∈ l₂.coordinator.outstanding, l.coordinator.history.nextSerial ≤ work.serial) ∧
      (∀ id, l₂.coordinator.row id ≠ EpisodeRow.empty →
        id ∈ l₂.coordinator.history.submitted.drop l.coordinator.history.submitted.length) ∧
      (l₂.coordinator.queue = none → ∀ id, l₂.coordinator.row id = EpisodeRow.empty) := by
  have h := sound_of_run (sound_new queueSize concurrency budget policy telemetry) hpre
  have h₁ := h.of_step hfinish
  obtain ⟨-, -, hbusy, rfl⟩ := finishShutdown_cases hfinish
  set l₁ : CoordinatorLife :=
    ⟨({ l.coordinator with queue := none } : IntelligenceCoordinator).resetRuntimeState, l.closed, false⟩ with hl₁
  have hout : l₁.coordinator.outstanding = [] := by
    simp [hl₁, IntelligenceCoordinator.outstanding, IntelligenceCoordinator.resetRuntimeState, hbusy]
  have hsince₁ : l₁.coordinator.Since l.coordinator.history.nextSerial l.coordinator.history.submitted.length := by
    refine ⟨⟨le_refl _, le_refl _⟩, fun work hwork => ?_, fun id hid => absurd rfl hid⟩
    rw [hout] at hwork
    exact absurd hwork List.not_mem_nil
  have hkept := run_inv (I := fun l' : CoordinatorLife => l'.Sound ∧
      l'.coordinator.Since l.coordinator.history.nextSerial l.coordinator.history.submitted.length)
    (fun _ _ _ hl hs => ⟨hl.1.of_step hs, since_of_step hl.1 hl.2 hs⟩) ⟨h₁, hsince₁⟩ hpost
  obtain ⟨h₂, hsince₂⟩ := hkept
  exact ⟨⟨fun _ => rfl, hout, rfl, rfl⟩, hsince₂.items, hsince₂.rows, fun hq => (h₂.stopped hq).2.2⟩

/-! ## The end of a shutdown -/

/-- The steps while a `shutdown` awaits its workers, and each call that was asked to cancel does. -/
def Draining : LifeStep → Prop
  | .finishShutdown => False
  | .act (.settle _ outcome _ _) => outcome = .cancelled
  | _ => True

/-- The calls that end in these steps. -/
def settles : List LifeStep → ℕ
  | [] => 0
  | .act (.settle ..) :: steps => settles steps + 1
  | _ :: steps => settles steps

/-- A coordinator that is closing and whose workers have no call but those they had. -/
structure Drains (l : CoordinatorLife) (called : List String) (busy : ℕ) : Prop where
  closing : l.closing = true
  closed : l.closed = true
  queue : l.coordinator.queue ≠ none
  waiting : l.coordinator.waiting = 0
  called : l.coordinator.history.called = called
  busy : l.coordinator.busy.length = busy

/-- A call that ends for a closed coordinator stores and emits nothing. -/
theorem abort_quiet {c c' : IntelligenceCoordinator} {i : ℕ} (h : c.abort i = some c') :
    c'.registry = c.registry ∧ c'.telemetry = c.telemetry ∧ c'.diagnostics = c.diagnostics ∧
      c'.history = c.history := by
  obtain ⟨call, -, rfl⟩ := IntelligenceCoordinator.abort_cases h
  unfold IntelligenceCoordinator.releasePending IntelligenceCoordinator.maybeForget
  split
  · exact ⟨rfl, rfl, rfl, rfl⟩
  · split <;> exact ⟨rfl, rfl, rfl, rfl⟩

/-- A tick calls no provider; workers do. -/
theorem called_observeTick {c : IntelligenceCoordinator} (h : c.Coordinated) (env : ObserveEnv)
    (tick : EngineTickResult) (activeIds : Option (List String)) :
    (c.observeTick env tick activeIds).history.called = c.history.called := by
  apply IntelligenceCoordinator.observeTick_submits (P := fun c' => c'.history.called = c.history.called)
  · exact fun _ _ _ hc => hc
  · exact fun _ _ _ _ hc _ _ _ => hc
  · rw [(IntelligenceCoordinator.retiring_retireInactive h _).history]
    rfl

/-- **A step of a draining coordinator** ends one of its calls, or none. -/
theorem drains_step {called : List String} {busy : ℕ} (h : l.Sound) (hdrains : l.Drains called busy)
    {s : LifeStep} (hdrain : Draining s) (hs : l.step s = some l') :
    ∃ left, l'.Drains called left ∧ left + settles [s] = busy := by
  cases s with
  | start =>
    obtain rfl := Option.some.inj hs
    refine ⟨busy, ?_, rfl⟩
    unfold CoordinatorLife.start
    cases hq : l.coordinator.queue with
    | some queue => exact hdrains
    | none => exact absurd hq hdrains.queue
  | shutdown =>
    change l.shutdown = some l' at hs
    unfold CoordinatorLife.shutdown at hs
    split at hs
    · next hq => exact absurd hq hdrains.queue
    · rw [hdrains.closing] at hs
      cases hs
  | finishShutdown => exact absurd hdrain id
  | act s =>
    obtain ⟨c', hc', rfl⟩ := Option.map_eq_some_iff.1 hs
    cases s with
    | observe env tick activeIds =>
      obtain rfl := Option.some.inj hc'
      have hsame := l.coordinator.sameStaff_observeTick env tick activeIds
      have hq := IntelligenceCoordinator.queue_observeTick h.coordinated env tick activeIds
      refine ⟨busy, ⟨hdrains.closing, hdrains.closed, fun hn => hdrains.queue (hq.1 hn), ?_, ?_, ?_⟩, rfl⟩
      · exact hsame.waiting.trans hdrains.waiting
      · exact (called_observeTick h.coordinated env tick activeIds).trans hdrains.called
      · exact hsame.busy.trans hdrains.busy
    | take =>
      -- No worker waits for an item.
      obtain ⟨waiting, hwaiting, -⟩ := IntelligenceCoordinator.staff_take hc'
      rw [hdrains.waiting] at hwaiting
      omega
    | settle i outcome wall elapsed =>
      obtain rfl : outcome = .cancelled := hdrain
      have habort : l.coordinator.abort i = some c' := by
        simpa [CoordinatorLife.act, hdrains.closed] using hc'
      have hleft := IntelligenceCoordinator.left_abort habort
      have hquiet := abort_quiet habort
      refine ⟨c'.busy.length, ⟨hdrains.closing, hdrains.closed, ?_, ?_, ?_, rfl⟩, ?_⟩
      · rw [hleft.queue]
        exact hdrains.queue
      · exact hleft.waiting.trans hdrains.waiting
      · rw [hquiet.2.2.2]
        exact hdrains.called
      · exact hleft.busy.trans hdrains.busy

/-- The calls that end are counted step by step. -/
theorem settles_cons (s : LifeStep) (steps : List LifeStep) : settles (s :: steps) = settles [s] + settles steps := by
  cases s with
  | act s => cases s <;> simp only [settles] <;> omega
  | start => simp [settles]
  | shutdown => simp [settles]
  | finishShutdown => simp [settles]

/-- A draining run stays one. -/
theorem drains_run {called : List String} : ∀ {steps : List LifeStep} {l : CoordinatorLife} {busy : ℕ}, l.Sound →
    l.Drains called busy → (∀ s ∈ steps, Draining s) → run step l steps = some l' →
    ∃ left, l'.Drains called left ∧ left + settles steps = busy := by
  intro steps
  induction steps with
  | nil =>
    intro l busy _ hdrains _ hrun
    obtain rfl := Option.some.inj hrun
    exact ⟨busy, hdrains, rfl⟩
  | cons s steps ih =>
    intro l busy h hdrains hall hrun
    rw [List.forall_mem_cons] at hall
    obtain ⟨l₁, hs, hrest⟩ := run_cons.1 hrun
    obtain ⟨busy₁, hdrains₁, hone⟩ := drains_step h hdrains hall.1 hs
    obtain ⟨left, hleft, hmany⟩ := ih (h.of_step hs) hdrains₁ hall.2 hrest
    refine ⟨left, hleft, ?_⟩
    rw [settles_cons]
    omega

/-- **A shutdown drains.** From a `shutdown` of a started coordinator on, while ticks are observed and the calls end
in any order, each cancelled, no provider call begins; exactly the calls that have not ended are left; a call that
ends leaves the registry, the telemetry and the counters as they are; and the shutdown can finish if and only if no
call is left, while otherwise the first of them can end. -/
theorem shutdown_drains {pre post : List LifeStep}
    (hpre : run step (new queueSize concurrency budget policy telemetry) pre = some l)
    (hstarted : l.coordinator.queue ≠ none) (hshutdown : l.step .shutdown = some l₁)
    (hdrain : ∀ s ∈ post, Draining s) (hpost : run step l₁ post = some l₂) :
    l₂.coordinator.history.called = l.coordinator.history.called ∧
      l₂.coordinator.busy.length + settles post = l.coordinator.busy.length ∧
      (∀ i wall elapsed l₃, l₂.step (.act (.settle i .cancelled wall elapsed)) = some l₃ →
        l₃.coordinator.registry = l₂.coordinator.registry ∧
          l₃.coordinator.telemetry = l₂.coordinator.telemetry ∧
          l₃.coordinator.diagnostics = l₂.coordinator.diagnostics) ∧
      ((l₂.step .finishShutdown).isSome ↔ l₂.coordinator.busy = []) ∧
      (l₂.coordinator.busy ≠ [] → ∀ wall elapsed, (l₂.step (.act (.settle 0 .cancelled wall elapsed))).isSome) := by
  have h := sound_of_run (sound_new queueSize concurrency budget policy telemetry) hpre
  have h₁ := h.of_step hshutdown
  have hdrains₁ : l₁.Drains l.coordinator.history.called l.coordinator.busy.length := by
    change l.shutdown = some l₁ at hshutdown
    unfold CoordinatorLife.shutdown at hshutdown
    split at hshutdown
    · next hq => exact absurd hq hstarted
    · split at hshutdown
      · cases hshutdown
      · obtain rfl := Option.some.inj hshutdown
        exact ⟨rfl, rfl, hstarted, rfl, rfl, rfl⟩
  obtain ⟨left, hdrains, hcount⟩ := drains_run h₁ hdrains₁ hdrain hpost
  refine ⟨hdrains.called, ?_, fun i wall elapsed l₃ hs => ?_, ?_, fun hbusy wall elapsed => ?_⟩
  · rw [hdrains.busy]
    exact hcount
  · obtain ⟨c', hc', rfl⟩ := Option.map_eq_some_iff.1 hs
    have habort : l₂.coordinator.abort i = some c' := by simpa [act, hdrains.closed] using hc'
    have hquiet := abort_quiet habort
    exact ⟨hquiet.1, hquiet.2.1, hquiet.2.2.1⟩
  · simp [step, finishShutdown, hdrains.closing, hdrains.waiting]
  · obtain ⟨call, calls, hcalls⟩ := List.exists_cons_of_ne_nil hbusy
    simp [step, act, hdrains.closed, IntelligenceCoordinator.abort, hcalls]

/-- The next life after the call was cut off. -/
def nextLife : List LifeStep :=
  [.start, .act (.observe IntelligenceCoordinator.liveEnv (IntelligenceCoordinator.alertTick "t") none),
    .act .take]

theorem lifetimes_apart_cutOff : ∃ l l₁ l₂, run step (new 8 1 {} {} none) cutOffRun = some l ∧
    l.step .finishShutdown = some l₁ ∧ run step l₁ nextLife = some l₂ ∧
      (∀ work ∈ l₂.coordinator.outstanding, l.coordinator.history.nextSerial ≤ work.serial) := by
  obtain ⟨l₂, hl₂⟩ : ∃ l₂, run step (new 8 1 {} {} none) (cutOffRun ++ .finishShutdown :: nextLife) = some l₂ :=
    Option.isSome_iff_exists.1 (by decide +kernel)
  obtain ⟨l, hpre, hrest⟩ := run_append.1 hl₂
  obtain ⟨l₁, hfinish, hpost⟩ := run_cons.1 hrest
  exact ⟨l, l₁, l₂, hpre, hfinish, hpost, (lifetimes_apart hpre hfinish hpost).2.1⟩

/-- A started coordinator with a call under way. -/
def busyRun : List LifeStep :=
  [.start, .act (.observe IntelligenceCoordinator.liveEnv (IntelligenceCoordinator.alertTick "s") none),
    .act .take]

theorem shutdown_drains_busy : ∃ l l₁ l₂, run step (new 8 1 {} {} none) busyRun = some l ∧
    l.step .shutdown = some l₁ ∧ run step l₁ [.act (.settle 0 .cancelled 1 1)] = some l₂ ∧
      l₂.coordinator.busy.length + 1 = l.coordinator.busy.length := by
  obtain ⟨l₂, hl₂⟩ : ∃ l₂, run step (new 8 1 {} {} none)
      (busyRun ++ .shutdown :: [.act (.settle 0 .cancelled 1 1)]) = some l₂ :=
    Option.isSome_iff_exists.1 (by decide +kernel)
  have hqueue : ((run step (new 8 1 {} {} none) busyRun).map fun l => l.coordinator.queue.isSome) = some true := by
    decide +kernel
  obtain ⟨l, hpre, hrest⟩ := run_append.1 hl₂
  obtain ⟨l₁, hshutdown, hpost⟩ := run_cons.1 hrest
  rw [hpre, Option.map_some, Option.some.injEq] at hqueue
  have hstarted : l.coordinator.queue ≠ none := Option.isSome_iff_ne_none.1 hqueue
  have hdrain : ∀ s ∈ [LifeStep.act (.settle 0 .cancelled 1 1)], Draining s := by
    intro s hs
    obtain rfl := List.mem_singleton.1 hs
    rfl
  exact ⟨l, l₁, l₂, hpre, hshutdown, hpost, (shutdown_drains hpre hstarted hshutdown hdrain hpost).2.1⟩

end Lifetimes

end CoordinatorLife

end MarketSentinel
