import MarketSentinel.Extension.Coherence
import MarketSentinel.Extension.Leaves

/-!
# Pause is respected

`pause` notes what is desired and asks the core that is held. `restartCore` and the restart loop look at what is
desired before they start a core. A start that is in progress does not: it goes on, starts its core after the pause
and sets `RUNNING` at its end (`start_outruns_pause`).

* `Heeded`: while `PAUSED` is desired and the state is `RUNNING`, a task is in progress that sets the state or pauses.
* `Tended`: while `PAUSED` is desired, a core that will run is still being started, or will be disposed of.
* `pause_respected`: the property, where what sets `RUNNING` or starts a core leaves these to another task
  (`PauseKept`).
-/

namespace MarketSentinel.Extension

open Lib Lib.Machine

/-- The manager whose start ends with the job of the task. -/
def Task.started : Task → Option ℕ
  | ⟨.getState m _, .ready _ 0 _⟩ => some m
  | _ => none

/-- The job of the task ends a pause that failed. -/
def Task.pauseFails : Task → Bool
  | ⟨.pause _, .ready outcome 0 _⟩ => outcome = .failed
  | _ => false

namespace Host

variable {s s' s₀ : Host} {i m : ℕ} {e : HostEvent}

/-- `pause` sends the core its command. -/
def PauseReaches (s : Host) (m : ℕ) : Prop :=
  s.control.actual ≠ .disconnected ∧ s.control.actual ≠ .stopped ∧ s.ipc = some m

instance (s : Host) (m : ℕ) : Decidable (s.PauseReaches m) := inferInstanceAs (Decidable (_ ∧ _ ∧ _))

/-- The job of the task sets `RUNNING`, or leaves it where a pause has failed. -/
def LeavesRunning (s : Host) (task : Task) : Prop :=
  task.settles = some .running ∨ task.pauseFails = true ∧ s.control.actual = .running

instance (s : Host) (task : Task) : Decidable (s.LeavesRunning task) := inferInstanceAs (Decidable (_ ∨ _))

/-- The job of the task leaves `RUNNING` to another task that sets the state or pauses, and a core that will run to
another that starts it or disposes of it. -/
def HandsOver (s : Host) (i : ℕ) (task : Task) : Prop :=
  (s.LeavesRunning task → ∃ j < s.called, j ≠ i ∧ (s.Decides j ∨ s.Pauses j)) ∧
  (∀ m ∈ task.started, s.WillRun m → ∃ j < s.called, j ≠ i ∧ s.Minds m j) ∧
  (task.creates = true → ∀ m ∈ s.control.manager, s.WillRun m → ∃ j < s.called, s.Starts m j)

instance (s : Host) (i : ℕ) (task : Task) : Decidable (s.HandsOver i task) := inferInstanceAs (Decidable (_ ∧ _ ∧ _))

/-- A core that a pause does not reach, and that will run, is left to a task; while `PAUSED` is desired, so is what
sets `RUNNING` or starts a core. -/
def PauseKept (s : Host) : HostEvent → Prop
  | .pause => ∀ m < s.control.created, s.WillRun m → s.PauseReaches m ∨ ∃ i < s.called, s.Minds m i
  | .job i => s.control.desired = .paused → ∀ task ∈ s.tasks i, s.HandsOver i task
  | _ => True

instance (s : Host) (e : HostEvent) : Decidable (s.PauseKept e) :=
  match e with
  | .pause => inferInstanceAs (Decidable (∀ m < s.control.created, s.WillRun m → s.PauseReaches m ∨
      ∃ i < s.called, s.Minds m i))
  | .job i => inferInstanceAs (Decidable (s.control.desired = .paused → ∀ task ∈ s.tasks i, s.HandsOver i task))
  | .start | .resume | .restartCore | .shutdown | .feedback _ | .chunk .. | .timeout _ | .delayOver _
  | .shutdownUnanswered _ | .shutdownOver .. | .exit _ | .stdoutClosed _ | .childError _ | .work ..
  | .writeState .. | .writeAlert .. | .settings _ | .spawnable _ =>
    isTrue trivial

/-- While `PAUSED` is desired and the state is `RUNNING`, a task is in progress that sets the state or pauses. -/
def Heeded (s : Host) : Prop :=
  s.control.desired = .paused → s.control.actual = .running → ∃ j, s.Decides j ∨ s.Pauses j

/-- While `PAUSED` is desired, a core that will run is still being started, or will be disposed of. -/
def Tended (s : Host) : Prop := s.control.desired = .paused → ∀ m, s.WillRun m → ∃ i, s.Minds m i

/-- No operation, restart or message is in flight. -/
def AtRest (s : Host) : Prop :=
  s.Quiescent ∧ ∀ m, (s.managers m).connected = true → (s.cores m).inbox = [] ∧ (s.cores m).outbox = []

/-! ## Cores that are tended -/

/-- What a task that is gone had charge of is in the charge of another. -/
theorem Tended.leaves {gone : ℕ → Prop} (h : s.Tended) (hl : s.Leaves s' gone)
    (hgone : s.control.desired = .paused → ∀ m i, s'.WillRun m → gone i → s.Minds m i → ∃ j, s'.Minds m j) :
    s'.Tended := by
  intro hdesired m hm
  rw [hl.desired] at hdesired
  obtain ⟨i, hi⟩ := h hdesired m (hl.runs m hm)
  by_cases hg : gone i
  · exact hgone hdesired m i hm hg hi
  · exact ⟨i, hl.minds hg hi⟩

/-- A task goes on that has charge of no core. -/
theorem Tended.aside (h : s.Tended) (hl : s.Leaves s' (· = i)) (hi : ∀ m, ¬ s.Minds m i) : s'.Tended :=
  h.leaves hl fun _ m _ _ he hj => absurd (he ▸ hj) (hi m)

theorem Tended.called (h : s.Tended) (hs : s.Sound) (hl : s.Leaves s' (· = s.called)) : s'.Tended :=
  h.aside hl fun _ hm => absurd (hs.minds_lt hm) (lt_irrefl _)

/-- Nobody goes anywhere. -/
theorem Tended.stays (h : s.Tended) (hl : s.Leaves s' fun _ => False) : s'.Tended :=
  h.leaves hl fun _ _ _ _ hgone _ => hgone.elim

/-- The manager that is taken was held. -/
theorem Tended.take {disposer : Disposer} (h : s.Tended) (hi : s.point i = some (.disposeQueue disposer)) :
    (s.takeManager i disposer).Tended := by
  intro hdesired m hm
  rw [takeManager_control] at hdesired
  obtain ⟨hheld, hwill⟩ := willRun_takeManager hm
  obtain ⟨_, hgoes, _⟩ := @takeManager_goes s i disposer
  obtain ⟨j, hstarts | ⟨hheld', -⟩⟩ := h hdesired m hwill
  · refine ⟨j, .inl (hstarts.point_eq fun _ => hgoes.point_eq ?_)⟩
    rintro rfl
    rcases Minds.of_point (.inl hstarts) hi with hstarts | ⟨hheld', -⟩
    · cases hstarts
    · exact hheld hheld'
  · exact absurd hheld' hheld

/-- A manager that is replaced is still being started by someone. -/
theorem Tended.create {spawner : Spawner} (h : s.Tended) (hi : ∀ m, ¬ s.Starts m i)
    (hreplaced : s.control.desired = .paused → ∀ m, s.control.manager = some m → s.WillRun m → ∃ j, s.Starts m j) :
    (s.createManager i spawner).Tended := by
  intro hdesired m hm
  rw [createManager_control] at hdesired
  obtain ⟨-, hwill⟩ := willRun_createManager hm
  have hstays : ∀ j, s.Starts m j → (s.createManager i spawner).Starts m j := fun j hj =>
    hj.point_eq fun _ => createManager_goes.point_eq (by rintro rfl; exact hi m hj)
  obtain ⟨j, hj | ⟨hheld, -⟩⟩ := h hdesired m hwill
  · exact ⟨j, .inl (hstays j hj)⟩
  · obtain ⟨j, hj⟩ := hreplaced hdesired m hheld hwill
    exact ⟨j, .inl (hstays j hj)⟩

/-- A start that goes on keeps its charge, also of the core that it starts now. -/
theorem Tended.handshake {spawner : Spawner} {step : HandshakeStep} (h : s.Tended)
    (hi : s.point i = some (.handshake m spawner step)) : (s.handshakeNext i m spawner step).Tended := by
  have hself : (s.handshakeNext i m spawner step).Minds m i := by
    refine .inl (starts_iff.2 ⟨step.next m spawner, handshakeNext_goes.self, ?_⟩)
    cases step <;> exact decide_eq_true rfl
  intro hdesired m' hm'
  by_cases he : m' = m
  · exact ⟨i, he ▸ hself⟩
  · rw [handshakeNext_control] at hdesired
    have hwill : s.WillRun m' := by
      cases step with
      | hello => exact (leaves_request (by decide) (by decide)).runs m' hm'
      | setWatchlist => exact ((willRun_request hm').resolve_left fun hsame => he hsame.1).2
      | start =>
        have hlive : s.Leaves (s.setManager m fun pm => { pm with live := true }) (· = i) :=
          leaves_setManager (by exact fun _ => id)
        exact (hlive.trans (leaves_request (by decide) (by decide))).runs m' hm'
    obtain ⟨j, hj⟩ := h hdesired m' hwill
    by_cases hji : j = i
    · subst hji
      rcases hj.of_point hi with hstarts | ⟨-, hdisposes⟩
      · exact absurd (of_decide_eq_true hstarts).symm he
      · cases hdisposes
    · exact ⟨j, handshakeNext_goes.minds (by rw [handshakeNext_control]) hji hj⟩

/-- A core that a pause does not reach was left to a task. -/
theorem Tended.pause (hs : s.Sound)
    (hc : ∀ m < s.control.created, s.WillRun m → s.PauseReaches m ∨ ∃ i < s.called, s.Minds m i) : s.pause.Tended := by
  intro _ m hm
  have hmissed : ¬ s.PauseReaches m → s.WillRun m → ∃ i < s.called, s.Minds m i := fun hnot hwill =>
    (hc m (hs.lt_created hwill.1) hwill).resolve_left hnot
  unfold Host.pause at hm ⊢
  split at hm
  · next hstate =>
    rw [if_pos hstate]
    obtain ⟨j, -, hj⟩ := hmissed (fun hreaches => hstate.elim hreaches.1 hreaches.2.1) hm
    exact ⟨j, hj⟩
  · next hstate =>
    rw [if_neg hstate]
    unfold Host.pauseManager at hm ⊢
    split at hm
    · next hnone =>
      have hnot : ¬ s.PauseReaches m := fun hreaches => by
        cases hnone.symm.trans hreaches.2.2
      obtain ⟨j, -, hj⟩ := hmissed hnot hm
      exact ⟨j, hj⟩
    · -- The core that is asked will pause; any other one is not reached.
      next m' hm' =>
      rcases willRun_request hm with ⟨-, -, hphase⟩ | ⟨hne, hwill⟩
      · exact absurd hphase (nextPhase_pause _)
      · have hnot : ¬ s.PauseReaches m := fun hreaches => hne (Option.some.inj (hreaches.2.2.symm.trans hm'))
        obtain ⟨j, hlt, hj⟩ := hmissed hnot hwill
        exact ⟨j, request_goes.minds (by rw [request_control]) hlt.ne hj⟩

/-- The manager that is lost was the one that is held, if it tells the controller. -/
theorem Tended.exitHandler {s₁ : Host} (h : s.Tended) (hs : s.Sound) (hh : s.Hears m e s₁) :
    (s₁.exitHandler m).Tended := by
  have hclosed : s.Leaves (s₁.cleanup m) fun _ => False := hh.leaves.trans leaves_cleanup
  unfold Host.exitHandler
  split
  · exact h.stays hh.leaves
  · next hrunning =>
    rw [not_or, Bool.not_eq_false] at hrunning
    split
    · next hquiet =>
      have hs' : ((s₁.cleanup m).update HostController.onDisconnect).Sound :=
        (hs.hears hh).cleanup.update nofun rfl le_rfl
      refine Tended.called (fun hdesired m' hm' => ?_) hs' leaves_autoRestart
      have hne : m' ≠ m := (cleanup_closes hm'.1).1
      obtain ⟨j, hj | ⟨hheld, -⟩⟩ := h (hclosed.desired ▸ hdesired) m' (hclosed.runs m' hm')
      · exact ⟨j, .inl (hj.point_eq (hclosed.points j id))⟩
      · have hheld' : s₁.control.manager = some m' := by rw [hh.control]; exact hheld
        exact absurd ((hs.hears hh).current_held hrunning.2 hquiet.2 hheld') hne
    · exact h.stays hclosed

section

variable {spawner : Spawner} {disposer : Disposer}

theorem Tended.afterDispose (h : s.Tended) (hi : ∀ m, ¬ s.Minds m i)
    (hreplaced : ∀ spawner, disposer = .spawnAndStart spawner → s.control.desired = .paused →
      ∀ m, s.control.manager = some m → s.WillRun m → ∃ j, s.Starts m j) : (s.afterDispose i disposer).Tended := by
  have hstopped : s.Leaves ((s.update fun c => c.setActual .stopped).finish i) (· = i) :=
    Leaves.trans (leaves_update rfl rfl) leaves_finish
  cases disposer with
  | spawnAndStart spawner => exact h.create (fun m hm => hi m (.inl hm)) (hreplaced spawner rfl)
  | shutdown => exact h.aside hstopped hi
  | restartCore =>
    show Host.Tended (if s.control.desired = .paused then (s.update fun c => c.setActual .stopped).finish i
      else s.connectFromSettings i .restartCore)
    split
    · exact h.aside hstopped hi
    · exact h.aside leaves_connectFromSettings hi

theorem Tended.disposeFails (h : s.Tended) (hi : ∀ m, ¬ s.Minds m i) : (s.disposeFails i disposer).Tended := by
  cases disposer with
  | spawnAndStart spawner => exact h.aside leaves_catchSpawn hi
  | restartCore => exact h.aside leaves_finish hi
  | shutdown => exact h.aside leaves_finish hi

/-- A shutdown disposes of the manager, where one is held. -/
theorem Tended.shutdown {ticket : Ticket} (h : s.Tended) (ht : s.tasks i = some ⟨.shutdown, ticket⟩)
    (outcome : Outcome) : (s.advance i .shutdown outcome).Tended := by
  have hheld : ∀ m, s.Minds m i → s.control.manager = some m := by
    intro m hm
    rcases hm.of_point (congrArg (Option.map Task.point) ht) with hstarts | ⟨hheld, -⟩
    · cases hstarts
    · exact hheld
  show Host.Tended (if s.control.actual = .stopped ∧ s.control.manager = none then s.finish i
    else (s.update fun c => c.setActual .stopping).disposeManager i .shutdown)
  split
  · next hstopped =>
    refine h.aside leaves_finish fun m hm => ?_
    cases hstopped.2.symm.trans (hheld m hm)
  · have hl : s.Leaves ((s.update fun c => c.setActual .stopping).disposeManager i .shutdown) (· = i) :=
      Leaves.trans (leaves_update rfl rfl) leaves_disposeManager
    refine h.leaves hl fun _ m j _ he hj => ?_
    subst he
    refine ⟨j, .inr ⟨hl.manager.trans (hheld m hj), willDispose_iff.2 ⟨_, disposeManager_goes.self, rfl⟩⟩⟩

/-- A core whose start ends is left to another task. -/
theorem Tended.spawnDone {ticket : Ticket} {market : Option MarketStateView} (h : s.Tended)
    (ht : s.tasks i = some ⟨.getState m spawner, ticket⟩)
    (hstarted : s.control.desired = .paused → s.WillRun m → ∃ j < s.called, j ≠ i ∧ s.Minds m j) :
    ((s.update fun c => { c with lastMarket := market }).spawnDone i spawner).Tended := by
  have hl : s.Leaves ((s.update fun c => { c with lastMarket := market }).spawnDone i spawner) (· = i) :=
    leaves_spawnDone
  refine h.leaves hl fun hdesired m' j hm' he hj => ?_
  subst he
  rcases hj.of_point (congrArg (Option.map Task.point) ht) with hstarts | ⟨-, hdisposes⟩
  · obtain rfl : m = m' := of_decide_eq_true hstarts
    obtain ⟨j', -, hne, hj'⟩ := hstarted hdesired (hl.runs m hm')
    exact ⟨j', hl.minds hne hj'⟩
  · cases hdisposes

/-- A start that fails has closed its manager. -/
theorem Tended.failStart {step : HandshakeStep} {ticket : Ticket} (h : s.Tended)
    (ht : s.tasks i = some ⟨.handshake m spawner step, ticket⟩) :
    ((s.failStart m).catchSpawn i spawner).Tended := by
  have hl : s.Leaves ((s.failStart m).catchSpawn i spawner) (· = i) := leaves_failStart.trans leaves_catchSpawn
  refine h.leaves hl fun _ m' j hm' he hj => ?_
  subst he
  have hopen : ((s.failStart m).managers m').connected = true :=
    (leaves_catchSpawn.runs m' hm' : (s.failStart m).WillRun m').1
  rcases hj.of_point (congrArg (Option.map Task.point) ht) with hstarts | ⟨-, hdisposes⟩
  · exact absurd (of_decide_eq_true hstarts).symm (failStart_closes hopen).1
  · cases hdisposes

end

/-! ## Steps -/

theorem Tended.advance {point : Point} {outcome : Outcome} {time : ℕ} (h : s.Tended)
    (ht : s.tasks i = some ⟨point, .ready outcome 0 time⟩)
    (hc : s.control.desired = .paused → s.HandsOver i ⟨point, .ready outcome 0 time⟩) :
    (s.advance i point outcome).Tended := by
  have hpoint : s.point i = some point := congrArg (Option.map Task.point) ht
  -- By `HandsOver`, a task that would create a manager leaves the one that runs to another.
  have hreplaced : s.control.desired = .paused → Task.creates ⟨point, .ready outcome 0 time⟩ = true →
      ∀ m, s.control.manager = some m → s.WillRun m → ∃ j, s.Starts m j := by
    intro hdesired hcreates m hm hwill
    obtain ⟨j, -, hj⟩ := (hc hdesired).2.2 hcreates m hm hwill
    exact ⟨j, hj⟩
  -- By `HandsOver` again, a start that ends leaves its core to another task.
  have hended : ∀ {m spawner} market, point = .getState m spawner →
      ((s.update fun c => { c with lastMarket := market }).spawnDone i spawner).Tended := by
    rintro m spawner market rfl
    exact h.spawnDone ht fun hdesired => (hc hdesired).2.1 m rfl
  -- A task goes aside unless its job is a start, a disposal or the end of one.
  cases point with
  | shutdown => exact h.shutdown ht outcome
  | disposeQueue disposer => exact h.take hpoint
  | managerShutdown m disposer =>
    have hi := not_minds ht (fun _ => rfl) rfl
    cases outcome with
    | failed => exact h.disposeFails hi
    | done => exact h.afterDispose hi fun _ he hdesired => hreplaced hdesired (by rw [he]; rfl)
    | state market => exact h.afterDispose hi fun _ he hdesired => hreplaced hdesired (by rw [he]; rfl)
  | disposed disposer =>
    exact h.afterDispose (not_minds ht (fun _ => rfl) rfl) fun _ he hdesired => hreplaced hdesired (by rw [he]; rfl)
  | thrown spawner => exact h.aside leaves_catchSpawn (not_minds ht (fun _ => rfl) rfl)
  | handshake m spawner step =>
    cases outcome with
    | failed => exact h.failStart ht
    | done => exact h.handshake hpoint
    | state market => exact h.handshake hpoint
  | getState m spawner =>
    cases outcome with
    | state market => exact hended (some market) rfl
    | done => exact hended s.control.lastMarket rfl
    | failed => exact hended s.control.lastMarket rfl
  | backoff =>
    have hi := not_minds ht (fun _ => rfl) rfl
    show Host.Tended (if s.control.Stays then s.endLoop i else s.connectWithRuntimeWatchlist i)
    split
    · exact h.aside leaves_endLoop hi
    · exact h.aside leaves_connectWithRuntimeWatchlist hi
  | pause m =>
    have hi := not_minds ht (fun _ => rfl) rfl
    have hpaused : s.Leaves ((s.update fun c => c.setActual .paused).finish i) (· = i) :=
      Leaves.trans (leaves_update rfl rfl) leaves_finish
    cases outcome with
    | failed => exact h.aside leaves_finish hi
    | done => exact h.aside hpaused hi
    | state market => exact h.aside hpaused hi
  | resume m =>
    have hi := not_minds ht (fun _ => rfl) rfl
    have hfails : s.Leaves ((s.update fun c => c.setActual .disconnected).connectFromSettings i .resume) (· = i) :=
      Leaves.trans (leaves_update rfl rfl) leaves_connectFromSettings
    have hresumed : s.Leaves ((s.update fun c => c.setActual .running).finish i) (· = i) :=
      Leaves.trans (leaves_update rfl rfl) leaves_finish
    cases outcome with
    | failed => exact h.aside hfails hi
    | done => exact h.aside hresumed hi
    | state market => exact h.aside hresumed hi
  | flushTurn origin ids => exact h.aside leaves_flushNext (not_minds ht (fun _ => rfl) rfl)
  | flush m ids => exact h.aside leaves_flushNext (not_minds ht (fun _ => rfl) rfl)
  | feedback m => exact h.aside leaves_finish (not_minds ht (fun _ => rfl) rfl)

theorem Tended.receive (h : s.Tended) (n : ℕ) (hs : s.Sound) (hopen : (s.managers m).connected = true) :
    (s.receive m n).Tended := by
  induction n generalizing s with
  | zero => exact h
  | succ n ih =>
    unfold Host.receive
    split
    · exact h
    · next output outbox hout =>
      have hpop : (s.pop m outbox).Tended := h.stays (leaves_setCore (by exact fun _ => id))
      have hspop : (s.pop m outbox).Sound := hs.setCore (by exact fun _ ha => ha)
      have hparts : s.Parts .start s ((s.pop m outbox).read m output) := parts_read hopen hout
      refine ih (hpop.called hspop leaves_read) (hs.parts hparts) ?_
      rw [read_managers]
      exact hopen

theorem connectFromSettings_desired {spawner : Spawner} :
    (s.connectFromSettings i spawner).control.desired = s.control.desired := leaves_connectFromSettings.desired

theorem start_desired : s.start.control.desired = .running := connectFromSettings_desired

theorem resume_desired : s.resume.control.desired = .running := by
  unfold Host.resume Host.call
  dsimp only
  split
  · exact congrArg HostController.desired request_control
  · exact connectFromSettings_desired

theorem Tended.step (h : s.Tended) (hs : s.Sound) (hc : s.PauseKept e) (hstep : s.step e = some s') : s'.Tended := by
  have hrunning : s'.control.desired = .running → s'.Tended := fun hrunning hpaused => by
    cases hrunning.symm.trans hpaused
  have hcalled : ∀ {f : HostController → HostController}, (f s.control).desired = s.control.desired →
      (f s.control).manager = s.control.manager →
        s.Leaves { s.update f with called := s.called + 1 } (· = s.called) := fun hdesired hmanager =>
    (leaves_update hdesired hmanager).trans (.same rfl rfl rfl rfl)
  cases step_effect hstep with
  | start => exact hrunning start_desired
  | pause => exact .pause hs hc
  | resume => exact hrunning resume_desired
  | restartCore => exact h.called hs ((hcalled rfl rfl).trans leaves_disposeManager)
  | shutdown => exact h.called hs ((hcalled rfl rfl).trans leaves_awaitPresentations)
  | feedback signalId => exact h.called hs (leaves_submitSignalFeedback signalId)
  | job ht _ => exact h.advance ht fun hdesired => hc hdesired _ ht
  | round ht _ => exact h.stays ⟨rfl, rfl, fun _ => WillRun.of_eq rfl rfl, fun j _ _ => parkReady_point ht j⟩
  | work hin _ => exact h.stays (leaves_work hin)
  | writeState _ => exact h.stays leaves_write
  | writeAlert _ => exact h.stays leaves_write
  | settings ok => exact h.stays (.same rfl rfl rfl rfl)
  | spawnable ok => exact h.stays (.same rfl rfl rfl rfl)
  | chunk n _ hopen => exact h.receive n hs hopen
  | timeout _ _ => exact h.stays leaves_settle
  | delayOver _ ht =>
    -- The loop is woken after its delay, as by a job.
    have hi := not_minds ht (fun _ => rfl) rfl
    show Host.Tended (if s.control.Stays then s.endLoop _ else s.connectWithRuntimeWatchlist _)
    split
    · exact h.aside leaves_endLoop hi
    · exact h.aside leaves_connectWithRuntimeWatchlist hi
  | shutdownOver _ _ =>
    exact h.stays (((leaves_kill.trans leaves_cleanup).trans leaves_setStopping).trans leaves_settle)
  | shutdownThrows _ _ _ => exact h.stays (leaves_setStopping.trans leaves_settle)
  | shutdownUnanswered _ _ _ => exact h.stays leaves_kill
  | heard _ hh => exact h.exitHandler hs hh

/-- Whoever leaves the controller `RUNNING` has handed that over. -/
theorem Heeded.step (h : s.Heeded) (hs : s.Sound) (ha : s.Attended) (hc : s.PauseKept e) (hstep : s.step e = some s') :
    s'.Heeded := by
  have hkeeps : ∀ {gone : ℕ → Prop}, s.Keeps s' gone → s'.control.desired = .paused →
      (∃ j, ¬ gone j ∧ (s.Decides j ∨ s.Pauses j)) → ∃ j, s'.Decides j ∨ s'.Pauses j := by
    rintro gone hk - ⟨j, hgone, hj⟩
    exact ⟨j, hj.imp (hk.decides j hgone) (hk.pauses j hgone)⟩
  have hstays : s.Keeps s' (fun _ => False) → s'.control.actual = s.control.actual → s'.Heeded := by
    intro hk hactual hdesired hrunning
    obtain ⟨j, hj⟩ := h (hk.desired ▸ hdesired) (hactual ▸ hrunning)
    exact hkeeps hk hdesired ⟨j, id, hj⟩
  cases step_move hs ha hstep with
  | idle hrunning _ => exact fun _ hstate => absurd hstate hrunning
  | decided hj => exact fun _ _ => ⟨_, .inl hj⟩
  | pauses _ hj => exact fun _ _ => ⟨_, .inr hj⟩
  | unmoved hu => exact hstays hu.toKeeps hu.actual
  | closes hk hactual _ _ => exact hstays hk hactual
  -- By `PauseKept`, a job that leaves the controller `RUNNING` while a pause is desired leaves another task to it.
  | fails hr hk hactual _ =>
    intro hdesired hrunning
    obtain ⟨time, ht⟩ := hr
    obtain ⟨j, -, hj⟩ := (hc (hk.desired ▸ hdesired) _ ht).1 (.inr ⟨rfl, hactual ▸ hrunning⟩)
    exact hkeeps hk hdesired ⟨j, hj⟩
  | settles ht hstate hk hactual _ =>
    intro hdesired hrunning
    rw [hactual] at hrunning
    obtain ⟨j, -, hj⟩ := (hc (hk.desired ▸ hdesired) _ ht).1 (.inl (hrunning ▸ hstate))
    exact hkeeps hk hdesired ⟨j, hj⟩

/-! ## Runs -/

/-- At a quiescent point nobody sets the state, and nobody has charge of a core. -/
theorem Quiescent.nobody (hquiet : s.Quiescent) : ¬ s.Decides i ∧ ¬ s.Pauses i ∧ ¬ s.Minds m i := by
  refine ⟨fun h => ?_, fun h => ?_, fun h => ?_⟩
  · obtain ⟨⟨point, ticket⟩, ht, hd⟩ := decides_iff.1 h
    have haside := hquiet i point (congrArg (Option.map Task.point) ht)
    cases point <;> first | exact False.elim haside | cases hd
  · obtain ⟨⟨point, ticket⟩, ht, hp⟩ := pauses_iff.1 h
    have haside := hquiet i point (congrArg (Option.map Task.point) ht)
    cases point <;> first | exact False.elim haside | cases hp
  · obtain ⟨point, hpoint⟩ : ∃ point, s.point i = some point := by
      rcases h with h | ⟨-, h⟩
      · obtain ⟨point, hpoint, -⟩ := starts_iff.1 h
        exact ⟨point, hpoint⟩
      · obtain ⟨point, hpoint, -⟩ := willDispose_iff.1 h
        exact ⟨point, hpoint⟩
    have haside := hquiet i point hpoint
    rcases h.of_point hpoint with hp | ⟨-, hp⟩
    · cases point <;> first | exact False.elim haside | cases hp
    · cases point <;> first | exact False.elim haside | cases hp

/-- **Pause is respected** at every point of rest of every run in which what sets `RUNNING` or starts a core while
`PAUSED` is desired is followed by another task. -/
theorem pause_respected (maxRetries : ℕ) (events : List HostEvent) (s : Host)
    (hrun : run step (initial maxRetries) events = some s)
    (hkept : Along step PauseKept (initial maxRetries) events) (hrest : s.AtRest)
    (hdesired : s.control.desired = .paused) :
    s.control.actual ≠ .running ∧ ∀ m, (s.managers m).connected = true → (s.cores m).phase ≠ .running := by
  have hinv : (s.Sound ∧ s.Attended) ∧ s.Heeded ∧ s.Tended := by
    refine run_inv_of (I := fun s => (s.Sound ∧ s.Attended) ∧ s.Heeded ∧ s.Tended) (fun s e s' hi hc hs => ?_)
      ⟨⟨sound_initial maxRetries, attended_initial maxRetries⟩, nofun, nofun⟩ hkept hrun
    obtain ⟨⟨hsound, hattended⟩, hheeded, htended⟩ := hi
    exact ⟨⟨hsound.step hs, hattended.parts hsound (step_parts hsound hs)⟩,
      hheeded.step hsound hattended hc hs, htended.step hsound hc hs⟩
  obtain ⟨-, hheeded, htended⟩ := hinv
  refine ⟨fun hrunning => ?_, fun m hopen hphase => ?_⟩
  · obtain ⟨j, hj | hj⟩ := hheeded hdesired hrunning
    · exact (hrest.1.nobody (m := 0)).1 hj
    · exact (hrest.1.nobody (m := 0)).2.1 hj
  · have hfinal : (s.cores m).finalPhase = .running := by
      unfold Core.finalPhase
      rw [(hrest.2 m hopen).1]
      exact hphase
    obtain ⟨i, hi⟩ := htended hdesired m ⟨hopen, hfinal⟩
    exact hrest.1.nobody.2.2 hi

/-- Every task is over, and every message has been read. -/
def Done (s : Host) : Prop :=
  (∀ i < s.called, s.point i = none) ∧
    ∀ m < s.control.created, (s.cores m).inbox.isEmpty = true ∧ (s.cores m).outbox.isEmpty = true

instance (s : Host) : Decidable s.Done := inferInstanceAs (Decidable (_ ∧ _))

theorem Done.atRest (h : s.Done) (hs : s.Sound) : s.AtRest := by
  refine ⟨hs.quiescent_iff.2 fun i hi point hp => ?_, fun m hopen => ?_⟩
  · cases (h.1 i hi).symm.trans hp
  · obtain ⟨hin, hout⟩ := h.2 m (hs.lt_created hopen)
    exact ⟨List.isEmpty_iff.1 hin, List.isEmpty_iff.1 hout⟩

/-- A running core is paused. -/
def pausedEvents : List HostEvent := startEvents ++ [.pause] ++ answerEvents 1 0 2

theorem pause_respected_running : ∃ s, run step (initial 3) pausedEvents = some s ∧
    s.control.desired = .paused ∧ (s.managers 0).connected = true ∧
    s.control.actual ≠ .running ∧ ∀ m, (s.managers m).connected = true → (s.cores m).phase ≠ .running := by
  have hsome : (run step (initial 3) pausedEvents).any fun s =>
      s.Done ∧ s.control.desired = .paused ∧ (s.managers 0).connected = true := by decide +kernel
  obtain ⟨s, hs, hstate⟩ := (Option.any_eq_true _ _).1 hsome
  obtain ⟨hdone, hdesired, hopen⟩ := of_decide_eq_true hstate
  exact ⟨s, hs, hdesired, hopen,
    pause_respected 3 pausedEvents s hs (by decide +kernel) (hdone.atRest (sound_run hs)) hdesired⟩

/-- The core is asked to pause before it is started, and refuses; the start goes on. -/
def outrunEvents : List HostEvent :=
  [.start, .job 0, .job 0, .job 0, .pause, .work 0 true noMarket, .work 0 true noMarket, .chunk 0 2, .job 0,
    .job 1, .job 1, .job 1] ++ answerEvents 0 0 0 ++ answerEvents 0 0 2 ++ answerEvents 0 0 1

/-- `PAUSED` is desired, and the controller and its core run. -/
theorem start_outruns_pause : ∃ s, run step (initial 3) outrunEvents = some s ∧ s.AtRest ∧
    s.control.desired = .paused ∧ s.control.actual = .running ∧
    (s.managers 0).connected = true ∧ (s.cores 0).phase = .running := by
  have hsome : (run step (initial 3) outrunEvents).any fun s => s.Done ∧ s.control.desired = .paused ∧
      s.control.actual = .running ∧ (s.managers 0).connected = true ∧ (s.cores 0).phase = .running := by decide +kernel
  obtain ⟨s, hs, hstate⟩ := (Option.any_eq_true _ _).1 hsome
  obtain ⟨hdone, hrest⟩ := of_decide_eq_true hstate
  exact ⟨s, hs, hdone.atRest (sound_run hs), hrest⟩

end Host

end MarketSentinel.Extension
