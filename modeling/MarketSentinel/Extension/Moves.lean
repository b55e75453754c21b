import MarketSentinel.Extension.Attended

/-!
# What a step does to the state of the controller

The state of the controller is set at the end of its operations. A task decides when it will set the state before it
ends, or ends in the step that does (`Decides`); one that pauses a core sets it unless it fails. `step_move` says once
what a step can do to the state, and to the tasks that will.
-/

namespace MarketSentinel.Extension

open Lib Lib.Machine

/-- The promise has settled, with a success. -/
def Ticket.succeeded : Ticket → Bool
  | ready .failed _ _ => false
  | ready .. => true
  | _ => false

/-- The job of the task sets `RUNNING` or `PAUSED`. -/
def Task.settles : Task → Option ActualState
  | ⟨.getState .., .ready _ 0 _⟩ => some .running
  | ⟨.resume _, .ready outcome 0 _⟩ => if outcome = .failed then none else some .running
  | ⟨.pause _, .ready outcome 0 _⟩ => if outcome = .failed then none else some .paused
  | _ => none

/-- The `await` of a pause. -/
def Point.pauses : Point → Bool
  | pause _ => true
  | _ => false

namespace Host

variable {s s' s₀ : Host} {i m : ℕ} {e : HostEvent}

/-- The task sets the state of the controller before it ends, or its end is one that does. -/
def deciding (s : Host) (task : Task) : Bool :=
  match task.point with
  | .shutdown | .disposeQueue _ | .disposed _ | .thrown _ | .handshake .. | .getState .. | .resume _ => true
  | .managerShutdown _ (.spawnAndStart _) => true
  -- Where the client was closed by another task, `manager.shutdown()` may throw.
  | .managerShutdown m _ => (s.managers m).connected || task.ticket.succeeded
  | .backoff => !decide s.control.Stays
  | .pause _ | .flushTurn .. | .flush .. | .feedback _ => false

/-- The task will set the state. -/
def Decides (s : Host) (i : ℕ) : Prop := (s.tasks i).any s.deciding = true

instance (s : Host) (i : ℕ) : Decidable (s.Decides i) := inferInstanceAs (Decidable (_ = _))

/-- The task pauses a core. -/
def Pauses (s : Host) (i : ℕ) : Prop := (s.point i).any Point.pauses = true

instance (s : Host) (i : ℕ) : Decidable (s.Pauses i) := inferInstanceAs (Decidable (_ = _))

/-- The tasks that will set the state go on, but for some. -/
structure Keeps (s s' : Host) (gone : ℕ → Prop) : Prop where
  desired : s'.control.desired = s.control.desired
  manager : s'.control.manager = s.control.manager
  decides : ∀ j, ¬ gone j → s.Decides j → s'.Decides j
  pauses : ∀ j, ¬ gone j → s.Pauses j → s'.Pauses j

/-- Nothing happens to the state, or to those who will set it. -/
structure Unmoved (s s' : Host) : Prop extends Keeps s s' fun _ => False where
  actual : s'.control.actual = s.control.actual
  connected : ∀ m, (s.managers m).connected = true → (s'.managers m).connected = true

/-- What a step does. -/
inductive Move (s : Host) : HostEvent → Host → Prop
  /-- The state is neither `RUNNING` nor `PAUSED`. -/
  | idle {e : HostEvent} {s' : Host} (hrunning : s'.control.actual ≠ .running) (hpaused : s'.control.actual ≠ .paused) :
      Move s e s'
  | decided {e : HostEvent} {s' : Host} {j : ℕ} (hj : s'.Decides j) : Move s e s'
  /-- A held core is asked to pause. -/
  | pauses {s' : Host} {j m : ℕ} (hm : s'.ipc = some m) (hj : s'.Pauses j) : Move s .pause s'
  | unmoved {e : HostEvent} {s' : Host} (h : s.Unmoved s') : Move s e s'
  /-- A manager is closed, and the controller is not told. -/
  | closes {e : HostEvent} {s' : Host} {m : ℕ} (hk : s.Keeps s' fun _ => False)
      (hactual : s'.control.actual = s.control.actual)
      (hconnected : ∀ m', m' ≠ m → (s.managers m').connected = true → (s'.managers m').connected = true)
      (hheld : s.control.manager = some m → ∃ j, s'.Decides j) : Move s e s'
  /-- A pause fails. -/
  | fails {s' : Host} {i m : ℕ} (hr : s.Runs i (.pause m) .failed) (hk : s.Keeps s' (· = i))
      (hactual : s'.control.actual = s.control.actual) (hmanagers : s'.managers = s.managers) : Move s (.job i) s'
  /-- A start ends, or a pause or resume is acknowledged. -/
  | settles {s' : Host} {i : ℕ} {task : Task} {state : ActualState} (ht : s.tasks i = some task)
      (hstate : task.settles = some state) (hk : s.Keeps s' (· = i)) (hactual : s'.control.actual = state)
      (hmanagers : s'.managers = s.managers) : Move s (.job i) s'

/-! ## Tasks that decide -/

theorem decides_iff : s.Decides i ↔ ∃ task, s.tasks i = some task ∧ s.deciding task = true := by
  unfold Decides
  cases s.tasks i <;> simp

theorem pauses_iff : s.Pauses i ↔ ∃ task, s.tasks i = some task ∧ task.point.pauses = true := by
  unfold Pauses Host.point
  cases s.tasks i <;> simp

/-- A task that decides goes on deciding while clients stay open and the loop is wanted. -/
theorem deciding_mono {task task' : Task} (hpoint : task'.point = task.point)
    (hticket : task.ticket.succeeded = true → task'.ticket.succeeded = true)
    (hconnected : ∀ m disposer, task.point = .managerShutdown m disposer → (s.managers m).connected = true →
      (s'.managers m).connected = true)
    (hstays : s'.control.Stays → s.control.Stays) (h : s.deciding task = true) : s'.deciding task' = true := by
  -- A shutdown decides while its manager is connected or its answer is there.
  have hshuts : ∀ m, (∃ disposer, task.point = .managerShutdown m disposer) →
      ((s.managers m).connected || task.ticket.succeeded) = true →
        ((s'.managers m).connected || task'.ticket.succeeded) = true := by
    rintro m ⟨disposer, hp⟩ hor
    rw [Bool.or_eq_true] at hor ⊢
    exact hor.imp (hconnected m disposer hp) hticket
  unfold deciding at h ⊢
  rw [hpoint]
  cases hp : task.point with
  | managerShutdown m disposer =>
    rw [hp] at h
    cases disposer with
    | spawnAndStart spawner => rfl
    | restartCore => exact hshuts m ⟨_, hp⟩ h
    | shutdown => exact hshuts m ⟨_, hp⟩ h
  | backoff =>
    rw [hp] at h
    simp only [Bool.not_eq_true', decide_eq_false_iff_not] at h ⊢
    exact fun hs => h (hstays hs)
  | pause m => rw [hp] at h; cases h
  | flushTurn origin ids => rw [hp] at h; cases h
  | flush m ids => rw [hp] at h; cases h
  | feedback m => rw [hp] at h; cases h
  | _ => rfl

/-- At this point a task decides, whatever it waits for. -/
theorem decides_of_point {point : Point} (hp : s.point i = some point)
    (hd : ∀ ticket, s.deciding ⟨point, ticket⟩ = true) : s.Decides i := by
  obtain ⟨⟨point', ticket⟩, ht, rfl⟩ := Option.map_eq_some_iff.1 hp
  exact decides_iff.2 ⟨_, ht, hd ticket⟩

/-- A task at this point does not decide. -/
theorem not_decides {task : Task} (ht : s.tasks i = some task) (hd : s.deciding task = false) : ¬ s.Decides i := by
  intro h
  obtain ⟨task', ht', hd'⟩ := decides_iff.1 h
  cases ht.symm.trans ht'
  cases hd.symm.trans hd'

/-- A task that stands elsewhere is no pause. -/
theorem not_pauses {task : Task} (ht : s.tasks i = some task) (hp : task.point.pauses = false) : ¬ s.Pauses i := by
  intro h
  obtain ⟨task', ht', hp'⟩ := pauses_iff.1 h
  cases ht.symm.trans ht'
  cases hp.symm.trans hp'

theorem pauses_of_point (hp : s.point i = some (.pause m)) : s.Pauses i := by
  unfold Pauses
  rw [hp]
  rfl

/-- What the tasks that will set the state wait for may have settled. -/
theorem Keeps.of_tasks {gone : ℕ → Prop} (hdesired : s'.control.desired = s.control.desired)
    (hdisposed : s'.control.disposed = s.control.disposed) (hmanager : s'.control.manager = s.control.manager)
    (hconnected : ∀ j m disposer, s.point j = some (.managerShutdown m disposer) → (s.managers m).connected = true →
      (s'.managers m).connected = true)
    (htasks : ∀ j task, ¬ gone j → s.tasks j = some task → ∃ task', s'.tasks j = some task' ∧
      task'.point = task.point ∧ (task.ticket.succeeded = true → task'.ticket.succeeded = true)) : s.Keeps s' gone := by
  have hstays : s'.control.Stays → s.control.Stays := by
    unfold HostController.Stays
    rw [hdesired, hdisposed]
    exact id
  refine ⟨hdesired, hmanager, fun j hgone hj => ?_, fun j hgone hj => ?_⟩
  · obtain ⟨task, ht, hd⟩ := decides_iff.1 hj
    obtain ⟨task', ht', hpoint, hticket⟩ := htasks j task hgone ht
    refine decides_iff.2 ⟨task', ht', deciding_mono hpoint hticket (fun m disposer hp => ?_) hstays hd⟩
    refine hconnected j m disposer ?_
    unfold Host.point
    rw [ht, Option.map_some, hp]
  · obtain ⟨task, ht, hp⟩ := pauses_iff.1 hj
    obtain ⟨task', ht', hpoint, -⟩ := htasks j task hgone ht
    exact pauses_iff.2 ⟨task', ht', hpoint ▸ hp⟩

/-- One task goes on. -/
theorem Keeps.other (htasks : ∀ j, j ≠ i → s'.tasks j = s.tasks j)
    (hdesired : s'.control.desired = s.control.desired) (hdisposed : s'.control.disposed = s.control.disposed)
    (hmanager : s'.control.manager = s.control.manager) (hmanagers : s'.managers = s.managers) :
    s.Keeps s' (· = i) :=
  .of_tasks hdesired hdisposed hmanager (fun _ _ _ _ hm => hmanagers ▸ hm) fun j task hne ht =>
    ⟨task, (htasks j hne).trans ht, rfl, id⟩

/-- The one that goes on would not set the state. -/
theorem Keeps.all {gone : ℕ → Prop} (hk : s.Keeps s' gone) (hd : ∀ j, gone j → ¬ s.Decides j)
    (hp : ∀ j, gone j → ¬ s.Pauses j) : s.Keeps s' fun _ => False :=
  ⟨hk.desired, hk.manager, fun j _ hj => hk.decides j (fun hgone => hd j hgone hj) hj,
    fun j _ hj => hk.pauses j (fun hgone => hp j hgone hj) hj⟩

/-- Nothing happens. -/
theorem Unmoved.refl (s : Host) : s.Unmoved s := ⟨⟨rfl, rfl, fun _ _ => id, fun _ _ => id⟩, rfl, fun _ => id⟩

/-- One thing happens after the other. -/
theorem Unmoved.trans {s'' : Host} (h : s.Unmoved s') (h' : s'.Unmoved s'') : s.Unmoved s'' where
  desired := h'.desired.trans h.desired
  manager := h'.manager.trans h.manager
  decides j hgone hj := h'.decides j hgone (h.decides j hgone hj)
  pauses j hgone hj := h'.pauses j hgone (h.pauses j hgone hj)
  actual := h'.actual.trans h.actual
  connected m hm := h'.connected m (h.connected m hm)

/-- Tasks that stay at their points, with what they were answered, leave the host unmoved. -/
theorem Unmoved.of_tasks (hdesired : s'.control.desired = s.control.desired)
    (hdisposed : s'.control.disposed = s.control.disposed) (hmanager : s'.control.manager = s.control.manager)
    (hactual : s'.control.actual = s.control.actual)
    (hconnected : ∀ m, (s.managers m).connected = true → (s'.managers m).connected = true)
    (htasks : ∀ j task, s.tasks j = some task → ∃ task', s'.tasks j = some task' ∧ task'.point = task.point ∧
      (task.ticket.succeeded = true → task'.ticket.succeeded = true)) : s.Unmoved s' :=
  ⟨.of_tasks hdesired hdisposed hmanager (fun _ m _ _ => hconnected m) fun j task _ ht => htasks j task ht, hactual,
    hconnected⟩

/-- So do tasks, managers and a controller that do not change. -/
theorem Unmoved.same (hcontrol : s'.control = s.control) (hmanagers : s'.managers = s.managers)
    (htasks : s'.tasks = s.tasks) : s.Unmoved s' :=
  .of_tasks (by rw [hcontrol]) (by rw [hcontrol]) (by rw [hcontrol]) (by rw [hcontrol]) (fun _ hm => hmanagers ▸ hm)
    fun _ task ht => ⟨task, htasks ▸ ht, rfl, id⟩

/-- One task goes on that would not set the state. -/
theorem Unmoved.other (hd : ¬ s.Decides i) (hp : ¬ s.Pauses i) (htasks : ∀ j, j ≠ i → s'.tasks j = s.tasks j)
    (hdesired : s'.control.desired = s.control.desired) (hdisposed : s'.control.disposed = s.control.disposed)
    (hmanager : s'.control.manager = s.control.manager) (hactual : s'.control.actual = s.control.actual)
    (hmanagers : s'.managers = s.managers) : s.Unmoved s' :=
  ⟨(Keeps.other htasks hdesired hdisposed hmanager hmanagers).all (fun _ he => he ▸ hd) fun _ he => he ▸ hp, hactual,
    fun _ hm => hmanagers ▸ hm⟩

/-! ## Operations -/

section

variable {spawner : Spawner} {disposer : Disposer}

/-- A disposal ends in a state. -/
theorem disposeManager_decides : (s.disposeManager i disposer).Decides i :=
  decides_of_point disposeManager_goes.self fun _ => rfl

/-- So does an exception of `spawnAndStart`. -/
theorem parkReady_thrown_decides {rounds : ℕ} : (s.parkReady i (.thrown spawner) .failed rounds).Decides i :=
  decides_of_point parkReady_goes.self fun _ => rfl

/-- So does `spawnAndStart`. -/
theorem spawnAndStart_decides : (s.spawnAndStart i spawner).Decides i := by
  unfold Host.spawnAndStart
  split
  · exact disposeManager_decides
  · exact parkReady_thrown_decides

/-- So does a start, whatever the settings are. -/
theorem connectFromSettings_decides : (s.connectFromSettings i spawner).Decides i := by
  unfold Host.connectFromSettings
  split
  · exact spawnAndStart_decides
  · exact parkReady_thrown_decides

theorem connectWithRuntimeWatchlist_decides : (s.connectWithRuntimeWatchlist i).Decides i := by
  unfold Host.connectWithRuntimeWatchlist
  split
  · exact spawnAndStart_decides
  · exact connectFromSettings_decides

/-- The manager that is taken is shut down, or there is nothing to shut down. -/
theorem takeManager_decides : (s.takeManager i disposer).Decides i := by
  obtain ⟨point, hgoes, ⟨rfl, -⟩ | ⟨m, hm, rfl⟩⟩ := @takeManager_goes s i disposer
  · exact decides_of_point hgoes.self fun _ => rfl
  · have hopen : ((s.takeManager i disposer).managers m).connected = true := by
      rw [takeManager_connected]
      exact (ipc_eq_some.1 hm).2
    refine decides_of_point hgoes.self fun ticket => ?_
    cases disposer with
    | spawnAndStart spawner => rfl
    | restartCore => exact Bool.or_eq_true_iff.2 (.inl hopen)
    | shutdown => exact Bool.or_eq_true_iff.2 (.inl hopen)

/-- And a handshake. -/
theorem handshakeNext_decides {step : HandshakeStep} : (s.handshakeNext i m spawner step).Decides i := by
  refine decides_of_point handshakeNext_goes.self fun _ => ?_
  cases step <;> rfl

/-- The restart loop stays DISCONNECTED. -/
theorem restartLoop_actual (h : s.control.actual = .disconnected) :
    (s.restartLoop i).control.actual = .disconnected := by
  unfold Host.restartLoop
  split
  · exact h
  · split
    · rfl
    · exact h

/-- A start that fails sets DISCONNECTED. -/
theorem catchSpawn_actual : (s.catchSpawn i spawner).control.actual = .disconnected := by
  unfold Host.catchSpawn
  split
  · exact restartLoop_actual rfl
  · rfl

/-- So does a disconnect. -/
theorem handleUnexpectedDisconnect_actual : s.handleUnexpectedDisconnect.control.actual = .disconnected := by
  unfold Host.handleUnexpectedDisconnect Host.autoRestart
  split
  · rfl
  · exact restartLoop_actual rfl

/-- A step that sets DISCONNECTED is a move. -/
theorem Move.disconnected (h : s'.control.actual = .disconnected) : s.Move e s' :=
  .idle (by rw [h]; nofun) (by rw [h]; nofun)

/-- A created manager comes with a task that decides. -/
theorem move_createManager : s.Move e (s.createManager i spawner) := by
  have hactual : (s.createManager i spawner).control.actual = .starting := by
    rw [createManager_control]
    rfl
  exact .idle (by rw [hactual]; nofun) (by rw [hactual]; nofun)

/-- After a disposal the state is set, or will be. -/
theorem move_afterDispose : s.Move e (s.afterDispose i disposer) := by
  cases disposer with
  | shutdown => exact .idle nofun nofun
  | spawnAndStart spawner => exact move_createManager
  | restartCore =>
    show s.Move e (if s.control.desired = .paused then _ else _)
    split
    · exact .idle nofun nofun
    · exact .decided connectFromSettings_decides

/-- A task that does not decide may end. -/
theorem unmoved_finish (hd : ¬ s.Decides i) (hp : ¬ s.Pauses i) : s.Unmoved (s.finish i) :=
  .other hd hp (fun _ hne => finish_other hne) rfl rfl rfl rfl rfl

/-- A promise may settle. -/
theorem unmoved_settle {outcome : Outcome} {point : Point} {time : ℕ} (ht : s.tasks i = some ⟨point, .asked time⟩) :
    s.Unmoved (s.settle i outcome) := by
  refine .of_tasks (by rw [settle_control]) (by rw [settle_control]) (by rw [settle_control]) (by rw [settle_control])
    (fun m hm => by rwa [settle_managers]) fun j task hj => ?_
  unfold Host.settle
  rw [ht]
  by_cases he : j = i
  · subst he
    cases ht.symm.trans hj
    exact ⟨_, Function.update_self .., rfl, nofun⟩
  · exact ⟨task, (parkReady_goes.other j he).trans hj, rfl, id⟩

/-- A message about a signal decides nothing. -/
theorem unmoved_tell {type : SignalMessageType} {signalId : String} {point : Point} (hd : ¬ s.Decides i)
    (hp : ¬ s.Pauses i) : s.Unmoved (s.tell i m type signalId point) :=
  .other hd hp tell_goes.other (by rw [tell_control]) (by rw [tell_control]) (by rw [tell_control])
    (by rw [tell_control]) tell_managers

theorem unmoved_presentationDone : s.Unmoved s.presentationDone := by
  refine .of_tasks rfl rfl rfl rfl (fun _ hm => hm) fun j task hj => ?_
  refine ⟨released (s.presentationsDone + 1) s.clock task, ?_, (released_rewrites _).point _ _, fun hd => ?_⟩
  · show (s.tasks j).map _ = _
    rw [hj]
    rfl
  · unfold released
    split
    · next hticket =>
      rw [hticket] at hd
      cases hd
    · exact hd

/-- Nor does a presentation. -/
theorem unmoved_flushNext {origin : Option ℕ} {ids : List String} (hd : ¬ s.Decides i) (hp : ¬ s.Pauses i) :
    s.Unmoved (s.flushNext i origin ids) := by
  unfold Host.flushNext
  split
  · exact unmoved_tell hd hp
  · exact (unmoved_finish hd hp).trans unmoved_presentationDone

/-- A task that is called now did not set the state. -/
theorem Sound.not_called (hs : s.Sound) : ¬ s.Decides s.called ∧ ¬ s.Pauses s.called := by
  refine ⟨fun h => ?_, fun h => ?_⟩
  · obtain ⟨task, ht, -⟩ := decides_iff.1 h
    cases (hs.unused _ le_rfl).symm.trans ht
  · obtain ⟨task, ht, -⟩ := pauses_iff.1 h
    cases (hs.unused _ le_rfl).symm.trans ht

/-- Nor does feedback. -/
theorem unmoved_submitSignalFeedback (hs : s.Sound) (signalId : String) :
    s.Unmoved (s.submitSignalFeedback signalId) := by
  unfold Host.submitSignalFeedback
  split
  · exact .refl s
  · split
    · exact .refl s
    · split
      · obtain ⟨hd, hp⟩ := hs.not_called
        have hcalled : s.Unmoved { s with called := s.called + 1 } := .same rfl rfl rfl
        exact hcalled.trans (unmoved_tell (s := { s with called := s.called + 1 }) hd hp)
      · exact .refl s

/-- Nor does an alert. -/
theorem unmoved_enqueueAlert {candidates : List AlertCandidateView} (hs : s.Sound) :
    s.Unmoved (s.enqueueAlert candidates) := by
  obtain ⟨hd, hp⟩ := hs.not_called
  refine .other hd hp enqueueAlert_goes.other ?_ ?_ ?_ ?_ enqueueAlert_managers
  all_goals
    rw [enqueueAlert_control]
    rfl

/-- Nor does anything else that is read of a core. -/
theorem unmoved_read {output : CoreOutput} (hs : s.Sound) : s.Unmoved (s.read m output) := by
  unfold Host.read
  split
  · split
    · next ht =>
      split
      · exact unmoved_settle ht
      · exact .refl s
    · exact .refl s
  · split
    · exact .of_tasks rfl rfl rfl rfl (fun _ hm => hm) fun _ task ht => ⟨task, ht, rfl, id⟩
    · exact .refl s
  · split
    · exact unmoved_enqueueAlert hs
    · exact .refl s

/-- Nor does a whole chunk. -/
theorem unmoved_receive : ∀ (n : ℕ) {s : Host}, (s.managers m).connected = true → s.Sound →
    s.Unmoved (s.receive m n) := by
  intro n
  induction n with
  | zero => exact fun {s} _ _ => .refl s
  | succ n ih =>
    intro s hopen hs
    unfold Host.receive
    split
    · exact .refl s
    · next output outbox hout =>
      have hpop : s.Unmoved (s.pop m outbox) := .same rfl rfl rfl
      have hparts : s.Parts .start s ((s.pop m outbox).read m output) := parts_read hopen hout
      have hread : s.Unmoved ((s.pop m outbox).read m output) :=
        hpop.trans (unmoved_read (hs.setCore (by exact fun _ ha => ha)))
      refine hread.trans (ih ?_ (hs.parts hparts))
      rw [read_managers]
      exact hopen

/-- A pause finds a manager with a client, or the controller is disconnected. -/
theorem move_pause : s.Move .pause s.pause := by
  unfold Host.pause
  split
  · next hstate =>
    refine .idle (fun hrunning => ?_) fun hpaused => ?_
    · change s.control.actual = _ at hrunning
      rw [hrunning] at hstate
      exact absurd hstate (by decide)
    · change s.control.actual = _ at hpaused
      rw [hpaused] at hstate
      exact absurd hstate (by decide)
  · unfold Host.pauseManager
    split
    · exact .disconnected rfl
    · next m hm =>
      obtain ⟨hheld, hopen⟩ := ipc_eq_some.1 hm
      unfold Host.call
      refine .pauses (m := m) (j := s.called) (ipc_eq_some.2 ⟨?_, ?_⟩) ?_
      · rw [request_control]
        exact hheld
      · rw [request_managers]
        exact hopen
      · exact pauses_of_point request_goes.self

/-- A resume decides, by its answer or by a start. -/
theorem move_resume : s.Move e s.resume := by
  unfold Host.resume Host.call
  dsimp only
  split
  · exact .decided (decides_of_point request_goes.self fun _ => rfl)
  · exact .decided connectFromSettings_decides

/-- A core that ends or is lost leaves the controller disconnected, or someone attends to its manager. -/
theorem move_exitHandler {s₁ : Host} (ha : s.Attended) (hh : s.Hears m e s₁) : s.Move e (s₁.exitHandler m) := by
  have hcurrent : s₁.Current m ↔ s.Current m := by
    unfold Current
    rw [hh.managers, hh.control]
  unfold Host.exitHandler
  rw [hh.managers]
  split
  · exact .unmoved (.same hh.control hh.managers hh.tasks)
  · next hrunning =>
    rw [not_or, Bool.not_eq_true, Bool.not_eq_false] at hrunning
    split
    · exact .disconnected handleUnexpectedDisconnect_actual
    · next hquiet =>
      have hpoint : ∀ {j point}, s.point j = some point → (s₁.cleanup m).point j = some point :=
        fun hj => (cleanup_point m _).trans ((hh.point_eq _).trans hj)
      have hclosed : ∀ m', m' ≠ m → (s.managers m').connected = true →
          ((s₁.cleanup m).managers m').connected = true := fun m' hne hopen => by
        rw [cleanup_of_ne hne, hh.managers]
        exact hopen
      have hcontrol : (s₁.cleanup m).control = s.control := hh.control
      refine .closes (.of_tasks (by rw [hcontrol]) (by rw [hcontrol]) (by rw [hcontrol])
        (fun j m' disposer hp hopen => ?_) fun j task _ ht => ?_) (by rw [hcontrol]) hclosed fun hheld => ?_
      · -- A manager that is shut down by the controller is stopping.
        have hne : m' ≠ m := by
          rintro rfl
          cases (ha.stops j m' disposer hp hopen).symm.trans hrunning.1
        exact hclosed m' hne hopen
      · -- The other tasks keep their points; those that waited for the client are rejected.
        refine ⟨rejected m s₁.clock task, ?_, (rejected_rewrites m).point _ _, fun hticket => ?_⟩
        · show (s₁.tasks j).map _ = _
          rw [hh.tasks, ht]
          rfl
        · unfold rejected
          split
          · next hasked =>
            rw [hasked] at hticket
            cases hticket
          · exact hticket
      · rcases ha.held m hheld with hheld' | ⟨j, disposer, hj⟩
        · -- It did not tell the controller, so its start is still in progress.
          have hlive : (s.managers m).live = false := by
            cases hlive : (s.managers m).live with
            | false => rfl
            | true =>
              refine absurd ⟨?_, hcurrent.2 hheld'⟩ hquiet
              unfold ProcessManager.notifies
              rw [hlive, hrunning.1, ha.once m hrunning.2]
              rfl
          obtain ⟨j, spawner, step, hj⟩ := ha.starting m hrunning.2 hlive
          exact ⟨j, decides_of_point (hpoint hj) fun _ => rfl⟩
        · exact ⟨j, decides_of_point (hpoint hj) fun _ => rfl⟩

/-- A start that is over sets RUNNING. -/
theorem move_spawnDone {outcome : Outcome} {time : ℕ} (market : Option MarketStateView)
    (ht : s.tasks i = some ⟨.getState m spawner, .ready outcome 0 time⟩) :
    s.Move (.job i) ((s.update fun c => { c with lastMarket := market }).spawnDone i spawner) := by
  unfold Host.spawnDone
  split
  · exact .settles ht rfl (.other (fun j hne => finish_other (s := s) hne) rfl rfl rfl rfl) rfl rfl
  · exact .settles ht rfl (.other (fun j hne => finish_other (s := s) hne) rfl rfl rfl rfl) rfl rfl

/-- A shutdown that has thrown decides nothing for a restart or a shutdown. -/
theorem Sound.not_decides_failed {rounds time : ℕ} (hs : s.Sound)
    (ht : s.tasks i = some ⟨.managerShutdown m disposer, .ready .failed rounds time⟩)
    (hd : disposer = .restartCore ∨ disposer = .shutdown) : ¬ s.Decides i := by
  have hclosed : (s.managers m).connected = false :=
    ((hs.tasks i _ ht).closing m disposer rfl).resolve_left nofun
  refine not_decides ht ?_
  unfold deciding
  obtain rfl | rfl := hd <;> exact Bool.or_eq_false_iff.2 ⟨hclosed, rfl⟩

/-- The loop goes on, or ends where it is not wanted. -/
theorem move_backoff {ticket : Ticket} (ht : s.tasks i = some ⟨.backoff, ticket⟩) (outcome : Outcome) :
    s.Move e (s.advance i .backoff outcome) := by
  show s.Move e (if s.control.Stays then s.endLoop i else s.connectWithRuntimeWatchlist i)
  split
  · next hstays =>
    refine .unmoved (.other (not_decides ht ?_) (not_pauses ht rfl) (fun j hne => finish_other (s := s) hne) rfl rfl rfl
      rfl rfl)
    unfold deciding
    simp [hstays]
  · exact .decided connectWithRuntimeWatchlist_decides

/-- **Every job is a move.** -/
theorem move_advance {point : Point} {outcome : Outcome} {time : ℕ} (hs : s.Sound)
    (ht : s.tasks i = some ⟨point, .ready outcome 0 time⟩) : s.Move (.job i) (s.advance i point outcome) := by
  have hends : ∀ state : ActualState, s.Keeps ((s.update fun c => c.setActual state).finish i) (· = i) := fun state =>
    .other (fun j hne => finish_other (s := s) hne) rfl rfl rfl rfl
  cases point with
  | shutdown =>
    show s.Move _ (if s.control.actual = .stopped ∧ s.control.manager = none then s.finish i
      else (s.update fun c => c.setActual .stopping).disposeManager i .shutdown)
    split
    · next hstopped =>
      have hactual : (s.finish i).control.actual = .stopped := hstopped.1
      exact .idle (by rw [hactual]; nofun) (by rw [hactual]; nofun)
    · exact .decided disposeManager_decides
  -- A task that goes on with its operation still decides; one that ends it must not have been the last to.
  | disposeQueue disposer => exact .decided takeManager_decides
  | managerShutdown m disposer =>
    cases outcome with
    | failed =>
      cases disposer with
      | spawnAndStart spawner => exact .disconnected catchSpawn_actual
      | restartCore => exact .unmoved (unmoved_finish (hs.not_decides_failed ht (.inl rfl)) (not_pauses ht rfl))
      | shutdown => exact .unmoved (unmoved_finish (hs.not_decides_failed ht (.inr rfl)) (not_pauses ht rfl))
    | done => exact move_afterDispose
    | state market => exact move_afterDispose
  | disposed disposer => exact move_afterDispose
  | thrown spawner => exact .disconnected catchSpawn_actual
  | handshake m spawner step =>
    cases outcome with
    | failed => exact .disconnected catchSpawn_actual
    | done => exact .decided handshakeNext_decides
    | state market => exact .decided handshakeNext_decides
  | getState m spawner =>
    cases outcome with
    | state market => exact move_spawnDone _ ht
    | done => exact move_spawnDone s.control.lastMarket ht
    | failed => exact move_spawnDone s.control.lastMarket ht
  | backoff => exact move_backoff ht .done
  -- An answer to `pause` or `resume` sets the state and ends the task; a failure is told apart.
  | pause m =>
    cases outcome with
    | failed => exact .fails ⟨time, ht⟩ (.other (fun j hne => finish_other hne) rfl rfl rfl rfl) rfl rfl
    | done => exact .settles ht rfl (hends _) rfl rfl
    | state market => exact .settles ht rfl (hends _) rfl rfl
  | resume m =>
    cases outcome with
    | failed => exact .decided connectFromSettings_decides
    | done => exact .settles ht rfl (hends _) rfl rfl
    | state market => exact .settles ht rfl (hends _) rfl rfl
  | flushTurn origin ids => exact .unmoved (unmoved_flushNext (not_decides ht rfl) (not_pauses ht rfl))
  | flush m ids => exact .unmoved (unmoved_flushNext (not_decides ht rfl) (not_pauses ht rfl))
  | feedback m => exact .unmoved (unmoved_finish (not_decides ht rfl) (not_pauses ht rfl))

/-- A job that goes round again. -/
theorem unmoved_round {point : Point} {outcome : Outcome} {rounds time : ℕ}
    (ht : s.tasks i = some ⟨point, .ready outcome (rounds + 1) time⟩) :
    s.Unmoved (s.parkReady i point outcome rounds) := by
  refine .of_tasks rfl rfl rfl rfl (fun _ hm => hm) fun j task hj => ?_
  by_cases he : j = i
  · subst he
    cases ht.symm.trans hj
    refine ⟨⟨point, .ready outcome rounds s.clock⟩, Function.update_self .., rfl, fun hticket => ?_⟩
    cases outcome <;> first | rfl | cases hticket
  · exact ⟨task, (parkReady_goes.other j he).trans hj, rfl, id⟩

/-- A shutdown that throws does not decide any more, and did not: its client was closed by another task. -/
theorem unmoved_shutdownThrows (ht : s.tasks i = some ⟨.managerShutdown m disposer, .outside⟩) :
    s.Unmoved (s.shutdownThrows i m) := by
  have hsettle : s.shutdownThrows i m =
      (s.setStopping m false).parkReady i (.managerShutdown m disposer) .failed 3 := by
    unfold Host.shutdownThrows Host.settle
    rw [show (s.setStopping m false).tasks i = _ from ht]
    rfl
  rw [hsettle]
  refine .of_tasks rfl rfl rfl rfl (fun m' hm' => (setStopping_connected s m false m').trans hm') fun j task hj => ?_
  by_cases he : j = i
  · subst he
    cases ht.symm.trans hj
    exact ⟨_, Function.update_self .., rfl, nofun⟩
  · exact ⟨task, (parkReady_goes.other j he).trans hj, rfl, id⟩

/-- The end of a shutdown lets its task go on. -/
theorem move_shutdownOver (ht : s.tasks i = some ⟨.managerShutdown m disposer, .outside⟩) :
    s.Move e (s.shutdownOver i m) := by
  have htask : (((s.kill m).cleanup m).setStopping m false).tasks i = some ⟨.managerShutdown m disposer, .outside⟩ :=
    cleanup_outside (s := s.kill m) m ht
  have hsettle : s.shutdownOver i m =
      (((s.kill m).cleanup m).setStopping m false).parkReady i (.managerShutdown m disposer) .done 1 := by
    unfold Host.shutdownOver Host.settle
    rw [htask]
    rfl
  rw [hsettle]
  refine .decided (decides_iff.2 ⟨_, Function.update_self .., ?_⟩)
  unfold deciding
  cases disposer with
  | spawnAndStart spawner => rfl
  | restartCore => exact Bool.or_eq_true_iff.2 (.inr rfl)
  | shutdown => exact Bool.or_eq_true_iff.2 (.inr rfl)

end

/-- **What a step does to the state of the controller.** -/
theorem step_move (hs : s.Sound) (ha : s.Attended) (hstep : s.step e = some s') : s.Move e s' := by
  cases step_effect hstep with
  | start => exact .decided connectFromSettings_decides
  | pause => exact move_pause
  | resume => exact move_resume
  | restartCore => exact .decided disposeManager_decides
  | shutdown => exact .decided (decides_of_point awaitPresentations_goes.self fun _ => rfl)
  | feedback signalId => exact .unmoved (unmoved_submitSignalFeedback hs signalId)
  | job ht _ => exact move_advance hs ht
  | round ht _ => exact .unmoved (unmoved_round ht)
  | work _ _ => exact .unmoved (.same rfl rfl rfl)
  | writeState _ => exact .unmoved (.same rfl rfl rfl)
  | writeAlert _ => exact .unmoved (.same rfl rfl rfl)
  | settings ok => exact .unmoved (.same rfl rfl rfl)
  | spawnable ok => exact .unmoved (.same rfl rfl rfl)
  | chunk n _ hopen => exact .unmoved (unmoved_receive n hopen hs)
  | timeout _ ht => exact .unmoved (unmoved_settle ht)
  | delayOver _ ht => exact move_backoff ht .done
  | shutdownOver _ ht => exact move_shutdownOver ht
  | shutdownThrows _ ht _ => exact .unmoved (unmoved_shutdownThrows ht)
  | shutdownUnanswered _ _ _ => exact .unmoved (.same rfl rfl rfl)
  | heard _ hh => exact move_exitHandler ha hh

end Host

end MarketSentinel.Extension
