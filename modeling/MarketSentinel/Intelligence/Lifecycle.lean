import MarketSentinel.Intelligence.Outcomes

/-!
# The coordinator from start to shutdown, and again

`start` and `shutdown` of `intelligence/coordinator.py` over the steps of `CoordinatorStep`. `shutdown` cancels
every worker: one that waits at `queue.get()` ends at once, one that awaits a model call ends when the call does,
unless the provider keeps the cancellation to itself and answers, and then that worker goes on. What observes
ticks may do so in the meantime; a second `shutdown` is not called before the first is over.

* `CoordinatorLife.Sound`: what holds in every state, started or not; `Sound.of_step`, `sound_of_run`.
* `bounded_episodes`: the tables and the queue stay bounded by the active ids and the configuration.
-/

namespace MarketSentinel

open Lib Machine

/-- The coordinator with the members that only `start` and `shutdown` write. -/
structure CoordinatorLife where
  coordinator : IntelligenceCoordinator
  closed : Bool := false
  /-- A `shutdown` awaits the workers it has cancelled. -/
  closing : Bool := false

namespace IntelligenceCoordinator

/-- `tracked_episode_count`. -/
def trackedEpisodeCount (c : IntelligenceCoordinator) : ℕ :=
  (c.calls.keys ++ c.generation.keys ++ c.lastPriority.keys ++ c.pending.keys).dedup.length

/-- `_reset_runtime_state_after_shutdown`. The counters of the diagnostics are left as they are. -/
def resetRuntimeState (c : IntelligenceCoordinator) : IntelligenceCoordinator :=
  { c with
    calls := Dict.empty
    lastPriority := Dict.empty
    generation := Dict.empty
    pending := Dict.empty
    activeIds := []
    inFlightTasks := Dict.empty
    inFlight := 0
    registry := Dict.empty }

/-- The call of the `i`-th busy worker is cancelled and the coordinator is closed: `_execute` raises,
the `finally` clauses run, and the worker ends. -/
def abort (c : IntelligenceCoordinator) (i : ℕ) : Option IntelligenceCoordinator :=
  match c.busy[i]? with
  | none => none
  | some call => some ((c.hangUp i call.work).releasePending call.work.signalId)

end IntelligenceCoordinator

namespace CoordinatorLife

/-- `start`. -/
def start (l : CoordinatorLife) : CoordinatorLife :=
  match l.coordinator.queue with
  | some _ => l
  | none => { l with coordinator := l.coordinator.start, closed := false }

/-- `shutdown` up to its first `await worker`. The calls are asked to cancel, which `closing` stands for. -/
def shutdown (l : CoordinatorLife) : Option CoordinatorLife :=
  match l.coordinator.queue with
  | none => some { l with coordinator := l.coordinator.resetRuntimeState }
  | some _ =>
    if l.closing then none
    else some { coordinator := { l.coordinator with waiting := 0 }, closed := true, closing := true }

/-- The rest of `shutdown`, once all workers have ended. -/
def finishShutdown (l : CoordinatorLife) : Option CoordinatorLife :=
  if l.closing && decide (l.coordinator.waiting = 0) && l.coordinator.busy.isEmpty then
    some { l with coordinator := { l.coordinator with queue := none }.resetRuntimeState, closing := false }
  else none

/-- A step of the coordinator; `_execute` reads `_closed` when its call was cancelled. -/
def act (l : CoordinatorLife) : CoordinatorStep → Option IntelligenceCoordinator
  | .settle i .cancelled wall elapsed =>
    if l.closed then l.coordinator.abort i else l.coordinator.settle i .cancelled wall elapsed
  | s => l.coordinator.step s

/-- A coordinator as it is constructed. -/
def new (queueSize : ℤ) (concurrency : ℕ) (budget : EpisodeCallBudget) (policy : RouterPolicy)
    (telemetry : Option TelemetryRuntime) : CoordinatorLife where
  coordinator := IntelligenceCoordinator.new queueSize concurrency budget policy telemetry

end CoordinatorLife

inductive LifeStep
  | start
  | shutdown
  | finishShutdown
  | act (step : CoordinatorStep)

namespace CoordinatorLife

def step (l : CoordinatorLife) : LifeStep → Option CoordinatorLife
  | .start => some l.start
  | .shutdown => l.shutdown
  | .finishShutdown => l.finishShutdown
  | .act s => (l.act s).map fun c => { l with coordinator := c }

end CoordinatorLife

/-! ## The workers -/

namespace IntelligenceCoordinator

/-- The workers, the size of the queue and whether there is one are as they were. -/
structure SameStaff (c c' : IntelligenceCoordinator) : Prop where
  waiting : c'.waiting = c.waiting
  busy : c'.busy.length = c.busy.length
  inFlight : c'.inFlight = c.inFlight
  queueSize : c'.queueSize = c.queueSize
  concurrency : c'.concurrency = c.concurrency

section Staff

variable {c c' c'' : IntelligenceCoordinator}

theorem SameStaff.refl (c : IntelligenceCoordinator) : SameStaff c c := ⟨rfl, rfl, rfl, rfl, rfl⟩

theorem SameStaff.trans (h : SameStaff c c') (h' : SameStaff c' c'') : SameStaff c c'' :=
  ⟨h'.waiting.trans h.waiting, h'.busy.trans h.busy, h'.inFlight.trans h.inFlight,
    h'.queueSize.trans h.queueSize, h'.concurrency.trans h.concurrency⟩

theorem sameStaff_maybeForget (c : IntelligenceCoordinator) (id : String) : SameStaff c (c.maybeForget id) := by
  unfold maybeForget
  split
  · exact SameStaff.refl c
  · split <;> exact ⟨rfl, rfl, rfl, rfl, rfl⟩

theorem sameStaff_releasePending (c : IntelligenceCoordinator) (id : String) :
    SameStaff c (c.releasePending id) := by
  have hdischarge : SameStaff c (c.discharge id) := ⟨rfl, rfl, rfl, rfl, rfl⟩
  exact hdischarge.trans (sameStaff_maybeForget _ id)

theorem sameStaff_cancelInFlight (c : IntelligenceCoordinator) (id : String) :
    SameStaff c (c.cancelInFlight id) := by
  unfold cancelInFlight
  split
  · exact SameStaff.refl c
  · exact ⟨rfl, by simp, rfl, rfl, rfl⟩

theorem sameStaff_retireInactive (c : IntelligenceCoordinator) (activeIds : List String) :
    SameStaff c (c.retireInactive activeIds) := by
  have hinvalidate : ∀ (c : IntelligenceCoordinator) (id : String), SameStaff c (c.invalidate id) := by
    intro c id
    have hadvance : SameStaff c (c.advance id) := ⟨rfl, rfl, rfl, rfl, rfl⟩
    exact (hadvance.trans (sameStaff_cancelInFlight _ id)).trans (sameStaff_maybeForget _ id)
  have hprune : SameStaff c (c.prune activeIds) := ⟨rfl, rfl, rfl, rfl, rfl⟩
  unfold retireInactive
  exact List.foldlRecOn (motive := fun c' => SameStaff c c') _ _ hprune fun c' hc' id _ =>
    hc'.trans (hinvalidate c' id)

/-- A rule for what `observe_tick` keeps, with the room there is in the queue when an item is submitted. -/
theorem observeTick_submits {P : IntelligenceCoordinator → Prop} {env : ObserveEnv} {tick : EngineTickResult}
    {activeIds : Option (List String)} (hquiet : ∀ c t d, P c → P (c.quiet t d))
    (hsubmit : ∀ c queue payload signal, P c → c.queue = some queue → c.queueFull queue = false →
      payload.signalId ∈ c.activeIds → P (c.submit queue (c.workFor payload signal)))
    (hc : P (c.retireInactive (currentActive env.now tick activeIds))) : P (c.observeTick env tick activeIds) := by
  have hsignal : ∀ row signal c, P c → P (observeSignal env row c signal) := by
    intro row signal c hc
    obtain ⟨t, d, heq | ⟨d', queue, payload, heq, hq, hroom, hid, hactive, -⟩⟩ :=
      observeSignal_cases env row c signal
    · rw [heq]
      exact hquiet c t d hc
    · have hc' := hquiet c c.telemetry d' hc
      rw [heq]
      exact hquiet _ t d (hsubmit _ queue payload signal hc' hq hroom (hid ▸ hactive))
  have hfold : P (tick.symbolResults.foldl (observeRow env)
      (c.retireInactive (currentActive env.now tick activeIds))) :=
    List.foldlRecOn (motive := P) _ _ hc fun c hc row _ =>
      List.foldlRecOn (motive := P) _ _ hc fun c hc signal _ => hsignal row signal c hc
  unfold observeTick measureDepth
  split
  · exact hfold
  · exact hquiet _ _ _ hfold

theorem sameStaff_observeTick (c : IntelligenceCoordinator) (env : ObserveEnv) (tick : EngineTickResult)
    (activeIds : Option (List String)) : SameStaff c (c.observeTick env tick activeIds) := by
  apply observeTick_submits (P := fun c' => SameStaff c c')
  · intro c' t d h
    exact h.trans ⟨rfl, rfl, rfl, rfl, rfl⟩
  · intro c' queue payload signal h _ _ _
    exact h.trans ⟨rfl, rfl, rfl, rfl, rfl⟩
  · exact sameStaff_retireInactive c _

theorem sameStaff_conclude (c : IntelligenceCoordinator) (work : IntelligenceWork) (outcome : CallOutcome)
    (wall elapsed : ℚ) : SameStaff c (c.conclude work outcome wall elapsed) := by
  obtain ⟨t, d, ⟨heq, -⟩ | ⟨r, heq, -⟩⟩ := conclude_cases c work outcome wall elapsed <;>
    rw [heq] <;> exact ⟨rfl, rfl, rfl, rfl, rfl⟩

/-- What `take` does to the workers: one of them is busy now, or none. -/
theorem staff_take (h : c.take = some c') : ∃ waiting, c.waiting = waiting + 1 ∧
    ((c'.waiting = waiting ∧ c'.busy.length = c.busy.length + 1 ∧ c'.inFlight = c.inFlight + 1) ∨
      (c'.waiting = c.waiting ∧ c'.busy.length = c.busy.length ∧ c'.inFlight = c.inFlight)) ∧
    c'.queueSize = c.queueSize ∧ c'.concurrency = c.concurrency := by
  obtain ⟨work, queue, waiting, -, hwaiting, ⟨-, rfl⟩ | ⟨-, rfl⟩⟩ := take_cases h
  · have hstore : ∀ (c : IntelligenceCoordinator) r, SameStaff c (c.store work r) := by
      intro c r
      unfold store
      split <;> exact ⟨rfl, rfl, rfl, rfl, rfl⟩
    have hs := hstore ((c.dequeue queue waiting).call work)
      (plainResult work.signalId .running (c.calls.getD work.signalId 0))
    refine ⟨waiting, hwaiting, .inl ⟨hs.waiting, ?_, hs.inFlight⟩, hs.queueSize, hs.concurrency⟩
    rw [hs.busy]
    simp [call, dequeue]
  · have hs := sameStaff_releasePending (c.dequeue queue waiting).discard work.signalId
    refine ⟨waiting, hwaiting, .inr ⟨?_, hs.busy, hs.inFlight⟩, hs.queueSize, hs.concurrency⟩
    have hrelease : ((c.dequeue queue waiting).discard.release work).waiting =
        ((c.dequeue queue waiting).discard.releasePending work.signalId).waiting + 1 := rfl
    rw [hrelease, hs.waiting, hwaiting]
    rfl

/-- A busy worker is done with its call; `n` says whether it waits again or has ended. -/
structure Left (n : ℕ) (c c' : IntelligenceCoordinator) : Prop where
  waiting : c'.waiting = c.waiting + n
  busy : c'.busy.length + 1 = c.busy.length
  inFlight : c'.inFlight = c.inFlight - 1
  queue : c'.queue = c.queue
  queueSize : c'.queueSize = c.queueSize
  concurrency : c'.concurrency = c.concurrency

theorem left_hangUp {i : ℕ} {call : ModelCall} (hcall : c.busy[i]? = some call) (work : IntelligenceWork)
    (id : String) : Left 0 c ((c.hangUp i work).releasePending id) := by
  obtain ⟨hi, -⟩ := List.getElem?_eq_some_iff.1 hcall
  have hlen := List.length_eraseIdx_of_lt hi
  have hs := sameStaff_releasePending (c.hangUp i work) id
  refine ⟨hs.waiting, ?_, hs.inFlight, (sameWork_releasePending _ id).queue, hs.queueSize, hs.concurrency⟩
  rw [hs.busy]
  simp only [hangUp]
  omega

theorem left_settle {i : ℕ} {outcome : CallOutcome} {wall elapsed : ℚ}
    (h : c.settle i outcome wall elapsed = some c') : Left 1 c c' := by
  obtain ⟨call, hcall, rfl⟩ := settle_cases h
  have hs := sameStaff_conclude c call.work outcome wall elapsed
  have hw := sameWork_conclude c call.work outcome wall elapsed
  have hleft := left_hangUp (hw.busy ▸ hcall) call.work call.work.signalId
  have hwaiting := hleft.waiting.trans hs.waiting
  exact ⟨congrArg (· + 1) hwaiting, hleft.busy.trans hs.busy, hleft.inFlight.trans (by rw [hs.inFlight]),
    hleft.queue.trans hw.queue, hleft.queueSize.trans hs.queueSize, hleft.concurrency.trans hs.concurrency⟩

end Staff

end IntelligenceCoordinator

/-! ## What holds in every state -/

namespace IntelligenceCoordinator

/-- The queue is within its size; a size of zero or less is no bound. -/
def Roomy (c : IntelligenceCoordinator) : Prop :=
  0 < c.queueSize → ((c.queue.getD []).length : ℤ) ≤ c.queueSize

section Queue

variable {c c' : IntelligenceCoordinator}

theorem queue_observeTick (h : c.Coordinated) (env : ObserveEnv) (tick : EngineTickResult)
    (activeIds : Option (List String)) : (c.observeTick env tick activeIds).queue = none ↔ c.queue = none := by
  apply observeTick_submits (P := fun c' => c'.queue = none ↔ c.queue = none)
  · intro c' t d hc
    exact hc
  · intro c' queue payload signal hc hq _ _
    have hsome : c.queue ≠ none := fun hn => by simp [hc.2 hn] at hq
    constructor
    · intro hn
      cases hn
    · intro hn
      exact absurd hn hsome
  · rw [(retiring_retireInactive h _).queue]
    rfl

theorem roomy_observeTick (h : c.Coordinated) (hr : c.Roomy) (env : ObserveEnv) (tick : EngineTickResult)
    (activeIds : Option (List String)) : (c.observeTick env tick activeIds).Roomy := by
  apply observeTick_submits (P := Roomy)
  · intro c' t d hc
    exact hc
  · intro c' queue payload signal hc hq hroom _ hsize
    have hpos : 0 < c'.queueSize := hsize
    have hlt : (queue.length : ℤ) < c'.queueSize := by
      simp only [queueFull, hpos, decide_true, Bool.true_and, decide_eq_false_iff_not] at hroom
      omega
    simp only [submit, Option.getD_some, List.length_append, List.length_singleton]
    omega
  · have hq := (retiring_retireInactive h (currentActive env.now tick activeIds)).queue
    have hs := (sameStaff_retireInactive c (currentActive env.now tick activeIds)).queueSize
    intro hsize
    rw [hs] at hsize ⊢
    rw [hq]
    exact hr hsize

/-- Without a queue a tick leaves every row empty. -/
theorem empty_observeTick (h : c.Coordinated) (hq : c.queue = none) (hrow : ∀ id, c.row id = EpisodeRow.empty)
    (env : ObserveEnv) (tick : EngineTickResult) (activeIds : Option (List String)) :
    ∀ id, (c.observeTick env tick activeIds).row id = EpisodeRow.empty := by
  have hkept : (c.observeTick env tick activeIds).queue = none ∧
      ∀ id, (c.observeTick env tick activeIds).row id = EpisodeRow.empty := by
    apply observeTick_submits (P := fun c' => c'.queue = none ∧ ∀ id, c'.row id = EpisodeRow.empty)
    · intro c' t d hc
      exact hc
    · intro c' queue payload signal hc hq' _ _
      rw [hc.1] at hq'
      cases hq'
    · refine ⟨(retiring_retireInactive h _).queue.trans hq, fun id => ?_⟩
      rw [row_retireInactive, hrow]
      split
      · rfl
      · exact EpisodeRow.invalidate_of_pending rfl
  exact hkept.2

/-- A worker takes the head of the queue, which gets shorter by one. -/
theorem queue_take (h : c.take = some c') :
    ∃ work queue, c.queue = some (work :: queue) ∧ c'.queue = some queue := by
  obtain ⟨work, queue, waiting, hq, -, ⟨-, rfl⟩ | ⟨-, rfl⟩⟩ := take_cases h
  · refine ⟨work, queue, hq, ?_⟩
    rw [(sameWork_store _ _ _).queue]
    rfl
  · exact ⟨work, queue, hq, (sameWork_releasePending _ work.signalId).queue⟩

/-- What an aborted call leaves. -/
theorem abort_cases {i : ℕ} (h : c.abort i = some c') : ∃ call, c.busy[i]? = some call ∧
    c' = (c.hangUp i call.work).releasePending call.work.signalId := by
  unfold abort at h
  split at h
  · cases h
  · next call hcall => exact ⟨call, hcall, (Option.some.inj h).symm⟩

theorem left_abort {i : ℕ} (h : c.abort i = some c') : Left 0 c c' := by
  obtain ⟨call, hcall, rfl⟩ := abort_cases h
  exact left_hangUp hcall call.work call.work.signalId

theorem Coordinated.abort (h : c.Coordinated) {i : ℕ} (hs : c.abort i = some c') : c'.Coordinated := by
  obtain ⟨call, hcall, rfl⟩ := abort_cases hs
  have hrelease : ((c.hangUp i call.work).release call.work).Coordinated := by
    apply h.release (outstanding_hangUp hcall) (fun _ => rfl) rfl rfl
    · intro id s ht
      simp only [hangUp, Dict.get?_pop] at ht
      split at ht
      · cases ht
      · exact ht
    · intro call' hmem
      exact List.mem_of_mem_eraseIdx hmem
  exact ⟨hrelease.rows, hrelease.distinct, hrelease.fresh, hrelease.past, hrelease.tasks, hrelease.cancelled⟩

/-- A coordinator with nothing outstanding and an empty row for each id. -/
theorem coordinated_of_empty (hout : c.outstanding = []) (hrow : ∀ id, c.row id = EpisodeRow.empty)
    (hbusy : c.busy = []) (htasks : ∀ id s, c.inFlightTasks.get? id = some s → s < c.history.nextSerial)
    (hpast : ∀ s ∈ c.history.retired, s < c.history.nextSerial) : c.Coordinated where
  rows id := by
    have hworks : c.works id = [] := by simp [works, hout]
    rw [hrow, hworks]
    exact rowInv_empty
  distinct := by simp [hout]
  fresh := by simp [hout]
  past := hpast
  tasks id s hs := ⟨htasks id s hs, by simp [hout]⟩
  cancelled := by simp [hbusy]

end Queue

end IntelligenceCoordinator

namespace CoordinatorLife

/-- What holds of a coordinator, started or not. -/
structure Sound (l : CoordinatorLife) : Prop where
  coordinated : l.coordinator.Coordinated
  closing : l.closing = true → l.coordinator.queue ≠ none
  closed : l.coordinator.queue ≠ none → l.closed = l.closing
  /-- Before `start` and after `shutdown` there is no worker and no episode. -/
  stopped : l.coordinator.queue = none → l.coordinator.busy = [] ∧ l.coordinator.waiting = 0 ∧
    ∀ id, l.coordinator.row id = EpisodeRow.empty
  staff : l.coordinator.waiting + l.coordinator.busy.length ≤ max 1 l.coordinator.concurrency
  staffed : l.coordinator.queue ≠ none → l.closing = false →
    l.coordinator.waiting + l.coordinator.busy.length = max 1 l.coordinator.concurrency
  inFlight : l.coordinator.inFlight = l.coordinator.busy.length
  room : l.coordinator.Roomy

theorem sound_new (queueSize : ℤ) (concurrency : ℕ) (budget : EpisodeCallBudget) (policy : RouterPolicy)
    (telemetry : Option TelemetryRuntime) : (new queueSize concurrency budget policy telemetry).Sound where
  coordinated := IntelligenceCoordinator.coordinated_of_empty rfl (fun _ => rfl) rfl (fun _ _ h => by cases h)
    fun _ h => absurd h List.not_mem_nil
  closing h := by cases h
  closed h := absurd rfl h
  stopped _ := ⟨rfl, rfl, fun _ => rfl⟩
  staff := Nat.zero_le _
  staffed h := absurd rfl h
  inFlight := rfl
  room h := h.le

section Sound

variable {l l' : CoordinatorLife} {c' : IntelligenceCoordinator}

theorem Sound.observe (h : l.Sound) (env : ObserveEnv) (tick : EngineTickResult)
    (activeIds : Option (List String)) :
    ({ l with coordinator := l.coordinator.observeTick env tick activeIds } : CoordinatorLife).Sound := by
  have hs := l.coordinator.sameStaff_observeTick env tick activeIds
  have hq := IntelligenceCoordinator.queue_observeTick h.coordinated env tick activeIds
  constructor
  · exact h.coordinated.observeTick env tick activeIds
  · intro hclosing hn
    exact h.closing hclosing (hq.1 hn)
  · intro hn
    exact h.closed fun hn' => hn (hq.2 hn')
  · intro hn
    obtain ⟨hbusy, hwaiting, hrow⟩ := h.stopped (hq.1 hn)
    have hempty := IntelligenceCoordinator.empty_observeTick h.coordinated (hq.1 hn) hrow env tick activeIds
    refine ⟨?_, hs.waiting.trans hwaiting, hempty⟩
    rw [← List.length_eq_zero_iff, hs.busy, hbusy]
    rfl
  · rw [hs.waiting, hs.busy, hs.concurrency]
    exact h.staff
  · intro hn hclosing
    rw [hs.waiting, hs.busy, hs.concurrency]
    exact h.staffed (fun hn' => hn (hq.2 hn')) hclosing
  · rw [hs.inFlight, hs.busy]
    exact h.inFlight
  · exact IntelligenceCoordinator.roomy_observeTick h.coordinated h.room env tick activeIds

theorem Sound.take (h : l.Sound) (ht : l.coordinator.take = some c') :
    ({ l with coordinator := c' } : CoordinatorLife).Sound := by
  obtain ⟨work, queue, hq, hq'⟩ := IntelligenceCoordinator.queue_take ht
  obtain ⟨waiting, hwaiting, hstaff, hsize, hconcurrency⟩ := IntelligenceCoordinator.staff_take ht
  have hsome : l.coordinator.queue ≠ none := by simp [hq]
  have hinFlight := h.inFlight
  have hle := h.staff
  have heq := h.staffed hsome
  constructor
  · exact h.coordinated.take ht
  · intro _ hn
    rw [hq'] at hn
    cases hn
  · exact fun _ => h.closed hsome
  · intro hn
    rw [hq'] at hn
    cases hn
  · rw [hconcurrency]
    dsimp only
    omega
  · intro _ hclosing
    have heq' := heq hclosing
    rw [hconcurrency]
    dsimp only
    omega
  · dsimp only
    omega
  · intro hpos
    have hroom := h.room (hsize ▸ hpos)
    rw [hq, Option.getD_some, List.length_cons] at hroom
    rw [hq', hsize, Option.getD_some]
    omega

/-- A worker has left its call; it has ended only if the coordinator is closing. -/
theorem Sound.leave (h : l.Sound) {n : ℕ} (hcoordinated : c'.Coordinated)
    (hleft : IntelligenceCoordinator.Left n l.coordinator c') (hn : n = 1 ∨ n = 0 ∧ l.closing = true) :
    ({ l with coordinator := c' } : CoordinatorLife).Sound := by
  have hwaiting := hleft.waiting
  have hbusy := hleft.busy
  have hinFlight := hleft.inFlight
  have hflight := h.inFlight
  have hstaff := h.staff
  constructor
  · exact hcoordinated
  · intro hclosing
    rw [hleft.queue]
    exact h.closing hclosing
  · rw [hleft.queue]
    exact h.closed
  · -- Without a queue no worker was busy.
    rw [hleft.queue]
    intro hnone
    have hempty := (h.stopped hnone).1
    rw [hempty, List.length_nil] at hbusy
    omega
  · rw [hleft.concurrency]
    dsimp only
    omega
  · rw [hleft.queue, hleft.concurrency]
    intro hsome hclosing
    have hstaffed := h.staffed hsome hclosing
    have hone : n = 1 := by
      rcases hn with hn | ⟨-, hn⟩
      · exact hn
      · rw [hclosing] at hn
        cases hn
    dsimp only
    omega
  · dsimp only
    omega
  · have hroom := h.room
    unfold IntelligenceCoordinator.Roomy at hroom ⊢
    rw [hleft.queue, hleft.queueSize]
    exact hroom

theorem act_cases {s : CoordinatorStep} (h : l.act s = some c') :
    (∃ i wall elapsed, s = .settle i .cancelled wall elapsed ∧ l.closed = true ∧ l.coordinator.abort i = some c') ∨
      l.coordinator.step s = some c' := by
  unfold act at h
  split at h
  · next i wall elapsed =>
    split at h
    · next hclosed => exact .inl ⟨i, wall, elapsed, rfl, hclosed, h⟩
    · exact .inr h
  · exact .inr h

theorem Sound.act (h : l.Sound) {s : CoordinatorStep} (hs : l.act s = some c') :
    ({ l with coordinator := c' } : CoordinatorLife).Sound := by
  rcases act_cases hs with ⟨i, wall, elapsed, rfl, hclosed, habort⟩ | hstep
  · have hleft := IntelligenceCoordinator.left_abort habort
    -- There was a call, so there is a queue, and the coordinator is closed because it is closing.
    have hsome : l.coordinator.queue ≠ none := by
      intro hnone
      have hbusy := hleft.busy
      rw [(h.stopped hnone).1, List.length_nil] at hbusy
      omega
    exact h.leave (h.coordinated.abort habort) hleft (.inr ⟨rfl, (h.closed hsome) ▸ hclosed⟩)
  · cases s with
    | observe env tick activeIds =>
      obtain rfl := Option.some.inj hstep
      exact h.observe env tick activeIds
    | take => exact h.take hstep
    | settle i outcome wall elapsed =>
      exact h.leave (h.coordinated.settle hstep) (IntelligenceCoordinator.left_settle hstep) (.inl rfl)

theorem Sound.start (h : l.Sound) : l.start.Sound := by
  unfold CoordinatorLife.start IntelligenceCoordinator.start
  cases hq : l.coordinator.queue with
  | some queue => exact h
  | none =>
    obtain ⟨hbusy, -, hrow⟩ := h.stopped hq
    have hflight := h.inFlight
    rw [hbusy, List.length_nil] at hflight
    have hclosing : l.closing = false := by
      cases hc : l.closing with
      | false => rfl
      | true => exact absurd hq (h.closing hc)
    dsimp only
    constructor
    · exact IntelligenceCoordinator.coordinated_of_empty
        (by simp [IntelligenceCoordinator.outstanding, hbusy]) hrow hbusy
        (fun id s hs => (h.coordinated.tasks id s hs).1) h.coordinated.past
    · intro _ hn
      cases hn
    · exact fun _ => hclosing.symm
    · intro hn
      cases hn
    · simp [hbusy]
    · simp [hbusy]
    · simp [hbusy, hflight]
    · intro hpos
      exact hpos.le

/-- After the reset there is nothing left of the episodes. -/
theorem Sound.reset {c : IntelligenceCoordinator} (closed : Bool) (hqueue : c.queue = none) (hbusy : c.busy = [])
    (hwaiting : c.waiting = 0) (hpast : ∀ s ∈ c.history.retired, s < c.history.nextSerial) :
    (CoordinatorLife.mk c.resetRuntimeState closed false).Sound := by
  constructor
  · apply IntelligenceCoordinator.coordinated_of_empty
    · simp [IntelligenceCoordinator.outstanding, IntelligenceCoordinator.resetRuntimeState, hqueue, hbusy]
    · exact fun _ => rfl
    · exact hbusy
    · exact fun _ _ hs => by cases hs
    · exact hpast
  · intro hclosing
    cases hclosing
  · intro hn
    exact absurd hqueue hn
  · exact fun _ => ⟨hbusy, hwaiting, fun _ => rfl⟩
  · simp [IntelligenceCoordinator.resetRuntimeState, hbusy, hwaiting]
  · intro hn
    exact absurd hqueue hn
  · simp [IntelligenceCoordinator.resetRuntimeState, hbusy]
  · intro hpos
    simpa [IntelligenceCoordinator.resetRuntimeState, hqueue] using (le_of_lt hpos : (0 : ℤ) ≤ c.queueSize)

theorem Sound.shutdown (h : l.Sound) (hs : l.shutdown = some l') : l'.Sound := by
  unfold CoordinatorLife.shutdown at hs
  split at hs
  · next hq =>
    obtain rfl := Option.some.inj hs
    obtain ⟨hbusy, hwaiting, -⟩ := h.stopped hq
    have hclosing : l.closing = false := by
      cases hc : l.closing with
      | false => rfl
      | true => exact absurd hq (h.closing hc)
    rw [hclosing]
    exact Sound.reset l.closed hq hbusy hwaiting h.coordinated.past
  · next queue hq =>
    split at hs
    · cases hs
    · obtain rfl := Option.some.inj hs
      have hc := h.coordinated
      have hstaff := h.staff
      have hsome : l.coordinator.queue ≠ none := by simp [hq]
      constructor
      · exact ⟨hc.rows, hc.distinct, hc.fresh, hc.past, hc.tasks, hc.cancelled⟩
      · exact fun _ => hsome
      · exact fun _ => rfl
      · exact fun hn => absurd hn hsome
      · dsimp only
        omega
      · intro _ hclosing
        cases hclosing
      · exact h.inFlight
      · exact h.room

theorem finishShutdown_cases (hs : l.finishShutdown = some l') :
    l.closing = true ∧ l.coordinator.waiting = 0 ∧ l.coordinator.busy = [] ∧
      l' = ⟨({ l.coordinator with queue := none } : IntelligenceCoordinator).resetRuntimeState, l.closed, false⟩ := by
  unfold CoordinatorLife.finishShutdown at hs
  split at hs
  · next hif =>
    simp only [Bool.and_eq_true, decide_eq_true_eq, List.isEmpty_iff] at hif
    exact ⟨hif.1.1, hif.1.2, hif.2, (Option.some.inj hs).symm⟩
  · cases hs

theorem Sound.finishShutdown (h : l.Sound) (hs : l.finishShutdown = some l') : l'.Sound := by
  obtain ⟨-, hwaiting, hbusy, rfl⟩ := finishShutdown_cases hs
  exact Sound.reset l.closed rfl hbusy hwaiting h.coordinated.past

/-- **Every step keeps what holds.** -/
theorem Sound.of_step (h : l.Sound) {s : LifeStep} (hs : l.step s = some l') : l'.Sound := by
  cases s with
  | start =>
    obtain rfl := Option.some.inj hs
    exact h.start
  | shutdown => exact h.shutdown hs
  | finishShutdown => exact h.finishShutdown hs
  | act s =>
    obtain ⟨c', hc', rfl⟩ := Option.map_eq_some_iff.1 hs
    exact h.act hc'

end Sound

section Runs

variable {queueSize : ℤ} {concurrency : ℕ} {budget : EpisodeCallBudget} {policy : RouterPolicy}
  {telemetry : Option TelemetryRuntime} {l l' l₁ : CoordinatorLife}

/-- **Every run keeps what holds.** -/
theorem sound_of_run {steps : List LifeStep} (h : l.Sound) (hrun : run step l steps = some l') : l'.Sound :=
  run_inv (I := Sound) (fun _ _ _ hl hs => hl.of_step hs) h hrun

/-- The configuration stays. -/
theorem configured_of_run {steps : List LifeStep} (hrun : run step l steps = some l') :
    l'.coordinator.queueSize = l.coordinator.queueSize ∧ l'.coordinator.concurrency = l.coordinator.concurrency := by
  have hkept : ∀ (l₀ : CoordinatorLife) (s : LifeStep) (l₁ : CoordinatorLife), l₀.step s = some l₁ →
      l₁.coordinator.queueSize = l₀.coordinator.queueSize ∧
        l₁.coordinator.concurrency = l₀.coordinator.concurrency := by
    intro l₀ s l₁ hs
    cases s with
    | start =>
      obtain rfl := Option.some.inj hs
      unfold CoordinatorLife.start IntelligenceCoordinator.start
      cases hq : l₀.coordinator.queue <;> exact ⟨rfl, rfl⟩
    | shutdown =>
      change l₀.shutdown = some l₁ at hs
      unfold CoordinatorLife.shutdown at hs
      split at hs
      · obtain rfl := Option.some.inj hs
        exact ⟨rfl, rfl⟩
      · split at hs
        · cases hs
        · obtain rfl := Option.some.inj hs
          exact ⟨rfl, rfl⟩
    | finishShutdown =>
      obtain ⟨-, -, -, rfl⟩ := finishShutdown_cases hs
      exact ⟨rfl, rfl⟩
    | act s =>
      obtain ⟨c', hc', rfl⟩ := Option.map_eq_some_iff.1 hs
      rcases act_cases hc' with ⟨i, wall, elapsed, rfl, -, habort⟩ | hstep
      · have hleft := IntelligenceCoordinator.left_abort habort
        exact ⟨hleft.queueSize, hleft.concurrency⟩
      · cases s with
        | observe env tick activeIds =>
          obtain rfl := Option.some.inj hstep
          have hsame := l₀.coordinator.sameStaff_observeTick env tick activeIds
          exact ⟨hsame.queueSize, hsame.concurrency⟩
        | take =>
          obtain ⟨-, -, -, hsize, hconcurrency⟩ := IntelligenceCoordinator.staff_take hstep
          exact ⟨hsize, hconcurrency⟩
        | settle i outcome wall elapsed =>
          have hleft := IntelligenceCoordinator.left_settle hstep
          exact ⟨hleft.queueSize, hleft.concurrency⟩
  refine run_inv (I := fun l₁ : CoordinatorLife => l₁.coordinator.queueSize = l.coordinator.queueSize ∧
    l₁.coordinator.concurrency = l.coordinator.concurrency) (fun l₀ s l₁ hl hs => ?_) ⟨rfl, rfl⟩ hrun
  exact ⟨(hkept l₀ s l₁ hs).1.trans hl.1, (hkept l₀ s l₁ hs).2.trans hl.2⟩

/-- A row that is not empty is the row of an active id, or of an id with outstanding work. -/
theorem Sound.tracked (h : l.Sound) {id : String} (hrow : l.coordinator.row id ≠ EpisodeRow.empty) :
    id ∈ l.coordinator.activeIds ∨ id ∈ l.coordinator.outstanding.map (·.signalId) := by
  by_contra hnot
  rw [not_or] at hnot
  apply hrow
  apply (h.coordinated.rows id).kept
  · simp [IntelligenceCoordinator.isActive, hnot.1]
  · rw [List.eq_nil_iff_forall_not_mem]
    intro work hwork
    obtain ⟨hout, hid⟩ := IntelligenceCoordinator.mem_works.1 hwork
    exact hnot.2 (List.mem_map.2 ⟨work, hout, hid⟩)

theorem Sound.trackedEpisodeCount_le (h : l.Sound) : l.coordinator.trackedEpisodeCount ≤
    l.coordinator.activeIds.dedup.length + l.coordinator.outstanding.length := by
  have hsub : (l.coordinator.calls.keys ++ l.coordinator.generation.keys ++ l.coordinator.lastPriority.keys ++
      l.coordinator.pending.keys).dedup ⊆
        l.coordinator.activeIds.dedup ++ l.coordinator.outstanding.map (·.signalId) := by
    intro id hid
    rw [List.mem_append, List.mem_dedup]
    apply h.tracked
    intro hempty
    simp only [IntelligenceCoordinator.row, EpisodeRow.empty, EpisodeRow.mk.injEq] at hempty
    simp only [List.mem_dedup, List.mem_append, Dict.mem_keys, hempty.1, hempty.2.1, hempty.2.2.1,
      hempty.2.2.2.1, reduceCtorEq, exists_false, or_self] at hid
  have hle := ((List.nodup_dedup _).subperm hsub).length_le
  rw [List.length_append, List.length_map] at hle
  exact hle

/-- The bounds of a coordinator of this configuration. -/
structure Bounded (queueSize : ℤ) (concurrency : ℕ) (c : IntelligenceCoordinator) : Prop where
  /-- What is tracked of ids that are not active is bounded by the outstanding work. -/
  episodes : c.trackedEpisodeCount ≤ c.activeIds.dedup.length + c.outstanding.length
  registry : ∀ id ∈ c.registry.keys, id ∈ c.activeIds
  workers : c.waiting + c.busy.length ≤ max 1 concurrency
  inFlight : c.inFlight = c.busy.length
  outstanding : 0 < queueSize → (c.outstanding.length : ℤ) ≤ queueSize + (max 1 concurrency : ℕ)

/-- **Bounded episodes.** In every state of every life (started, shut down and started again, with any
interleaving of ticks, workers and provider answers) the tables hold the active ids and at most as many others as
there are outstanding items; these are at most the size of the queue and one for each worker; and the registry
lists active ids only. -/
theorem bounded_episodes {steps : List LifeStep}
    (hrun : run step (new queueSize concurrency budget policy telemetry) steps = some l) :
    Bounded queueSize concurrency l.coordinator := by
  have hnew := sound_new queueSize concurrency budget policy telemetry
  have h := sound_of_run hnew hrun
  obtain ⟨hsize, hconcurrency⟩ := configured_of_run hrun
  have hstaff := h.staff
  rw [show l.coordinator.concurrency = concurrency from hconcurrency] at hstaff
  refine ⟨h.trackedEpisodeCount_le, h.coordinated.registry_active, hstaff, h.inFlight, fun hpos => ?_⟩
  have hroom := h.room
  unfold IntelligenceCoordinator.Roomy at hroom
  rw [show l.coordinator.queueSize = queueSize from hsize] at hroom
  have hqueue := hroom hpos
  simp only [IntelligenceCoordinator.outstanding, List.length_append, List.length_map]
  omega

/-- A request whose call is cut off by a shutdown. -/
def cutOffRun : List LifeStep :=
  [.start, .act (.observe IntelligenceCoordinator.liveEnv (IntelligenceCoordinator.alertTick "s") none),
    .act .take, .shutdown, .act (.settle 0 .cancelled 1 1)]

theorem bounded_episodes_cutOff : ∃ l, run step (new 8 1 {} {} none) cutOffRun = some l ∧
    Bounded 8 1 l.coordinator := by
  obtain ⟨l, hl⟩ : ∃ l, run step (new 8 1 {} {} none) cutOffRun = some l :=
    Option.isSome_iff_exists.1 (by decide +kernel)
  exact ⟨l, hl, bounded_episodes hl⟩

end Runs

end CoordinatorLife

end MarketSentinel
