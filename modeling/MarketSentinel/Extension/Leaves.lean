import MarketSentinel.Extension.Quiet
import MarketSentinel.Extension.StepParts

/-!
# Who has charge of a core

A core will be `RUNNING` once it has taken the requests on their way to it (`WillRun`). A task has charge of it that is
starting it, or that will dispose of the manager that is held (`Minds`). An operation lets one task go elsewhere and
makes no more cores run (`Leaves`), but for a start, a resume, and those that change which manager is held.
-/

namespace MarketSentinel.Extension

open Lib Lib.Machine

/-- The phase of the daemon after a command, whatever it answers. -/
def nextPhase (phase : DaemonPhase) (command : HostCommandType) : DaemonPhase :=
  (coreAnswer phase true Host.noMarket command).1

/-- The phase of a core when it has taken what is on its way to it. -/
def Core.finalPhase (core : Core) : DaemonPhase :=
  core.inbox.foldl (fun phase request => nextPhase phase request.command) core.phase

namespace Point

/-- The core of the manager is being started. -/
def starts (m : ℕ) : Point → Bool
  | handshake m' .. => m' = m
  | getState m' _ => m' = m
  | _ => false

/-- The manager that is held will be disposed of. -/
def disposes : Point → Bool
  | shutdown => true
  | disposeQueue _ => true
  | _ => false

end Point

/-- The phase after a command does not depend on what is left open. -/
theorem coreAnswer_phase (phase : DaemonPhase) (accepts : Bool) (market : MarketStateView)
    (command : HostCommandType) : (coreAnswer phase accepts market command).1 = nextPhase phase command := by
  cases command <;> cases phase <;> rfl

/-- Only a start or a resume makes a core run. -/
theorem nextPhase_running {phase : DaemonPhase} {command : HostCommandType} (hstart : command ≠ .start)
    (hresume : command ≠ .resume) (h : nextPhase phase command = .running) : phase = .running := by
  cases command <;> cases phase <;> first | rfl | contradiction

/-- A core that has handled a pause does not run. -/
theorem nextPhase_pause (phase : DaemonPhase) : nextPhase phase .pause ≠ .running := by
  cases phase <;> exact fun h => by cases h

/-- Nor does one that has handled a shutdown. -/
theorem nextPhase_shutdown (phase : DaemonPhase) : nextPhase phase .shutdown ≠ .running := by
  cases phase <;> exact fun h => by cases h

/-- One request more decides the final phase from the one before. -/
theorem Core.finalPhase_send (core : Core) (request : Request) :
    ({ core with inbox := core.inbox ++ [request] } : Core).finalPhase = nextPhase core.finalPhase request.command :=
  List.foldl_append.trans rfl

namespace Host

variable {s s' s₀ : Host} {i m : ℕ} {e : HostEvent}

/-- The core will be `RUNNING` when it has taken what is on its way to it. -/
def WillRun (s : Host) (m : ℕ) : Prop := (s.managers m).connected = true ∧ (s.cores m).finalPhase = .running

instance (s : Host) (m : ℕ) : Decidable (s.WillRun m) := inferInstanceAs (Decidable (_ ∧ _))

/-- The task is starting the core. -/
def Starts (s : Host) (m i : ℕ) : Prop := (s.point i).any (Point.starts m) = true

instance (s : Host) (m i : ℕ) : Decidable (s.Starts m i) := inferInstanceAs (Decidable (_ = _))

/-- The task will dispose of the manager that is held. -/
def WillDispose (s : Host) (i : ℕ) : Prop := (s.point i).any Point.disposes = true

instance (s : Host) (i : ℕ) : Decidable (s.WillDispose i) := inferInstanceAs (Decidable (_ = _))

/-- The task has charge of the core. -/
def Minds (s : Host) (m i : ℕ) : Prop := s.Starts m i ∨ s.control.manager = some m ∧ s.WillDispose i

instance (s : Host) (m i : ℕ) : Decidable (s.Minds m i) := inferInstanceAs (Decidable (_ ∨ _))

/-! ## What a step leaves alone -/

/-- Nobody but some tasks goes anywhere, and no more cores will run. -/
structure Leaves (s s' : Host) (gone : ℕ → Prop) : Prop where
  desired : s'.control.desired = s.control.desired
  manager : s'.control.manager = s.control.manager
  runs : ∀ m, s'.WillRun m → s.WillRun m
  points : ∀ j, ¬ gone j → s.point j ≠ none → s'.point j = s.point j

theorem starts_iff : s.Starts m i ↔ ∃ point, s.point i = some point ∧ point.starts m = true := by
  unfold Starts
  cases s.point i <;> simp

theorem willDispose_iff : s.WillDispose i ↔ ∃ point, s.point i = some point ∧ point.disposes = true := by
  unfold WillDispose
  cases s.point i <;> simp

/-- A task that stays where it is goes on starting its manager. -/
theorem Starts.point_eq (h : s.Starts m i) (hpoint : s.point i ≠ none → s'.point i = s.point i) : s'.Starts m i := by
  obtain ⟨point, hp, hstarts⟩ := starts_iff.1 h
  refine starts_iff.2 ⟨point, ?_, hstarts⟩
  rw [hpoint (by rw [hp]; exact Option.some_ne_none _), hp]

/-- A task that stays where it is will still dispose. -/
theorem WillDispose.point_eq (h : s.WillDispose i) (hpoint : s.point i ≠ none → s'.point i = s.point i) :
    s'.WillDispose i := by
  obtain ⟨point, hp, hdisposes⟩ := willDispose_iff.1 h
  refine willDispose_iff.2 ⟨point, ?_, hdisposes⟩
  rw [hpoint (by rw [hp]; exact Option.some_ne_none _), hp]

/-- What a task at a point has charge of. -/
theorem Minds.of_point {point : Point} (h : s.Minds m i) (hp : s.point i = some point) :
    point.starts m = true ∨ s.control.manager = some m ∧ point.disposes = true := by
  rcases h with hstarts | ⟨hheld, hdisposes⟩
  · obtain ⟨_, hp', hstarts⟩ := starts_iff.1 hstarts
    cases hp.symm.trans hp'
    exact .inl hstarts
  · obtain ⟨_, hp', hdisposes⟩ := willDispose_iff.1 hdisposes
    cases hp.symm.trans hp'
    exact .inr ⟨hheld, hdisposes⟩

/-- A task that neither starts nor disposes minds no core. -/
theorem not_minds {task : Task} (ht : s.tasks i = some task) (hstarts : ∀ m, task.point.starts m = false)
    (hdisposes : task.point.disposes = false) (m : ℕ) : ¬ s.Minds m i := by
  intro h
  rcases h.of_point (congrArg (Option.map Task.point) ht) with h | ⟨-, h⟩
  · cases (hstarts m).symm.trans h
  · cases hdisposes.symm.trans h

/-- A task that is called now has no charge yet. -/
theorem Sound.minds_lt (hs : s.Sound) (h : s.Minds m i) : i < s.called := by
  have hlt : ∀ point, s.point i = some point → i < s.called := by
    intro point hp
    obtain ⟨task, ht, -⟩ := Option.map_eq_some_iff.1 hp
    exact hs.lt_called ht
  rcases h with h | ⟨-, h⟩
  · obtain ⟨point, hp, -⟩ := starts_iff.1 h
    exact hlt point hp
  · obtain ⟨point, hp, -⟩ := willDispose_iff.1 h
    exact hlt point hp

/-- What is left alone goes on minding. -/
theorem Leaves.minds {gone : ℕ → Prop} (hl : s.Leaves s' gone) (hi : ¬ gone i) (h : s.Minds m i) : s'.Minds m i :=
  h.imp (·.point_eq (hl.points i hi)) fun hheld => ⟨hl.manager.trans hheld.1, hheld.2.point_eq (hl.points i hi)⟩

/-- So does every task but the one that goes on. -/
theorem Goes.minds {point : Point} {j : ℕ} (hg : s.Goes s' i point)
    (hmanager : s'.control.manager = s.control.manager) (hne : j ≠ i) (h : s.Minds m j) : s'.Minds m j :=
  h.imp (·.point_eq fun _ => hg.point_eq hne) fun hheld =>
    ⟨hmanager.trans hheld.1, hheld.2.point_eq fun _ => hg.point_eq hne⟩

/-- Nothing happens. -/
theorem Leaves.refl (s : Host) {gone : ℕ → Prop} : s.Leaves s gone := ⟨rfl, rfl, fun _ => id, fun _ _ _ => rfl⟩

/-- One thing happens after the other. -/
theorem Leaves.trans {s'' : Host} {gone : ℕ → Prop} (h : s.Leaves s' gone) (h' : s'.Leaves s'' gone) :
    s.Leaves s'' gone where
  desired := h'.desired.trans h.desired
  manager := h'.manager.trans h.manager
  runs m hm := h.runs m (h'.runs m hm)
  points j hj hsome := by
    have hfirst := h.points j hj hsome
    exact (h'.points j hj (hfirst ▸ hsome)).trans hfirst

/-- More tasks may go. -/
theorem Leaves.mono {gone gone' : ℕ → Prop} (h : s.Leaves s' gone) (hgone : ∀ j, gone j → gone' j) :
    s.Leaves s' gone' := ⟨h.desired, h.manager, h.runs, fun j hj => h.points j fun hg => hj (hgone j hg)⟩

theorem WillRun.of_eq (hmanagers : s'.managers = s.managers) (hcores : s'.cores = s.cores) (h : s'.WillRun m) :
    s.WillRun m := by
  unfold WillRun at h ⊢
  rwa [hmanagers, hcores] at h

/-- Tasks, managers and cores that stay are left alone. -/
theorem Leaves.same {gone : ℕ → Prop} (hcontrol : s'.control = s.control) (hmanagers : s'.managers = s.managers)
    (hcores : s'.cores = s.cores) (htasks : s'.tasks = s.tasks) : s.Leaves s' gone :=
  ⟨by rw [hcontrol], by rw [hcontrol], fun _ => WillRun.of_eq hmanagers hcores, fun j _ _ => by
    unfold Host.point
    rw [htasks]⟩

/-- One task goes to another point. -/
theorem Goes.leaves {point : Point} (hg : s.Goes s' i point) (hdesired : s'.control.desired = s.control.desired)
    (hmanager : s'.control.manager = s.control.manager) (hruns : ∀ m, s'.WillRun m → s.WillRun m) :
    s.Leaves s' (· = i) := ⟨hdesired, hmanager, hruns, fun _ hne _ => hg.point_eq hne⟩

/-- The controller may change all but its manager and what is desired. -/
theorem leaves_update {f : HostController → HostController} {gone : ℕ → Prop}
    (hdesired : (f s.control).desired = s.control.desired) (hmanager : (f s.control).manager = s.control.manager) :
    s.Leaves (s.update f) gone :=
  ⟨hdesired, hmanager, fun _ => WillRun.of_eq rfl rfl, fun _ _ _ => rfl⟩

/-- A task that ends leaves the others alone. -/
theorem leaves_finish : s.Leaves (s.finish i) (· = i) :=
  ⟨rfl, rfl, fun _ => WillRun.of_eq rfl rfl, fun _ hne _ => congrArg (Option.map Task.point) (finish_other hne)⟩

/-- So does one that is parked. -/
theorem leaves_park {point : Point} {ticket : Ticket} : s.Leaves (s.park i point ticket) (· = i) :=
  park_goes.leaves rfl rfl fun _ => WillRun.of_eq rfl rfl

/-- A promise that settles moves no task. -/
theorem leaves_settle {outcome : Outcome} {gone : ℕ → Prop} : s.Leaves (s.settle i outcome) gone :=
  ⟨by rw [settle_control], by rw [settle_control], fun _ => WillRun.of_eq settle_managers settle_cores,
    fun j _ _ => settle_point j _⟩

theorem leaves_rewrite {r : ℕ → Task → Task} (hr : Rewrites r) {gone : ℕ → Prop} : s.Leaves (s.rewrite r) gone :=
  ⟨rfl, rfl, fun _ => WillRun.of_eq rfl rfl, fun j _ _ => rewrite_point hr j⟩

/-! ## Cores and managers -/

/-- A core may change if it does not come to run. -/
theorem leaves_setCore {g : Core → Core} {gone : ℕ → Prop}
    (hg : ∀ core, (g core).finalPhase = .running → core.finalPhase = .running) : s.Leaves (s.setCore m g) gone := by
  refine ⟨rfl, rfl, fun m' hm' => ⟨hm'.1, ?_⟩, fun _ _ _ => rfl⟩
  by_cases he : m' = m
  · subst he
    have hphase := hm'.2
    rw [setCore_self] at hphase
    exact hg _ hphase
  · exact (congrArg Core.finalPhase (setCore_of_ne he g)).symm.trans hm'.2

/-- A manager may change if it does not open. -/
theorem leaves_setManager {g : ProcessManager → ProcessManager} {gone : ℕ → Prop}
    (hg : ∀ pm, (g pm).connected = true → pm.connected = true) : s.Leaves (s.setManager m g) gone := by
  refine ⟨rfl, rfl, fun m' hm' => ⟨?_, hm'.2⟩, fun _ _ _ => rfl⟩
  by_cases he : m' = m
  · subst he
    have hopen := hm'.1
    rw [setManager_self] at hopen
    exact hg _ hopen
  · exact (congrArg ProcessManager.connected (setManager_of_ne he g)).symm.trans hm'.1

/-- A request makes a core run, or it would run without it. -/
theorem willRun_request {m' : ℕ} {command : HostCommandType} {point : Point}
    (h : (s.request i m command point).WillRun m') :
    m' = m ∧ (s.managers m).connected = true ∧ nextPhase (s.cores m).finalPhase command = .running ∨
      m' ≠ m ∧ s.WillRun m' := by
  unfold Host.request at h
  split at h
  · next hopen =>
    have hsent : (s.setCore m fun core =>
        { core with inbox := core.inbox ++ [⟨i, s.clock, command⟩] }).WillRun m' := h
    by_cases he : m' = m
    · subst he
      have hphase := hsent.2
      rw [setCore_self, Core.finalPhase_send] at hphase
      exact .inl ⟨rfl, hopen, hphase⟩
    · exact .inr ⟨he, hsent.1, (congrArg Core.finalPhase (setCore_of_ne he _)).symm.trans hsent.2⟩
  · next hclosed =>
    refine .inr ⟨?_, h⟩
    rintro rfl
    exact hclosed h.1

/-- A request that neither starts nor resumes. -/
theorem leaves_request {command : HostCommandType} {point : Point} (hstart : command ≠ .start)
    (hresume : command ≠ .resume) : s.Leaves (s.request i m command point) (· = i) := by
  refine request_goes.leaves (by rw [request_control]) (by rw [request_control]) fun m' hm' => ?_
  rcases willRun_request hm' with ⟨rfl, hopen, hphase⟩ | ⟨-, hwill⟩
  · exact ⟨hopen, nextPhase_running hstart hresume hphase⟩
  · exact hwill

theorem leaves_awaitPresentations {point : Point} : s.Leaves (s.awaitPresentations i point) (· = i) := by
  unfold Host.awaitPresentations
  split
  · exact leaves_park
  · exact leaves_park

theorem leaves_tell {type : SignalMessageType} {signalId : String} {point : Point} :
    s.Leaves (s.tell i m type signalId point) (· = i) := by
  have hcommand : type.command ≠ .start ∧ type.command ≠ .resume := by
    cases type <;> exact ⟨by decide, by decide⟩
  have hnoted : s.Leaves (s.noteSent m type signalId) (· = i) := by
    unfold Host.noteSent
    split
    · exact .same rfl rfl rfl rfl
    · exact .refl s
  exact hnoted.trans (leaves_request hcommand.1 hcommand.2)

/-- What a core writes does not make it run. -/
theorem leaves_write {output : CoreOutput} {gone : ℕ → Prop} : s.Leaves (s.write m output) gone := by
  have hcore : s.Leaves (s.setCore m fun core => { core with outbox := core.outbox ++ [output] }) gone :=
    leaves_setCore (by exact fun _ => id)
  exact ⟨hcore.desired, hcore.manager, fun m' hm' => hcore.runs m' hm', hcore.points⟩

/-- A core that takes its oldest request gets nowhere else in the end. -/
theorem leaves_work {request : Request} {inbox : List Request} {accepts : Bool} {market : MarketStateView}
    (hin : (s.cores m).inbox = request :: inbox) {gone : ℕ → Prop} :
    s.Leaves (s.work m request inbox accepts market) gone := by
  have htaken : s.Leaves (s.setCore m fun core =>
      { core with phase := (coreAnswer core.phase accepts market request.command).1, inbox := inbox }) gone := by
    refine ⟨rfl, rfl, fun m' hm' => ⟨hm'.1, ?_⟩, fun _ _ _ => rfl⟩
    by_cases he : m' = m
    · subst he
      have hphase := hm'.2
      rw [setCore_self] at hphase
      unfold Core.finalPhase at hphase ⊢
      rw [hin, List.foldl_cons]
      rwa [coreAnswer_phase] at hphase
    · exact (congrArg Core.finalPhase (setCore_of_ne he _)).symm.trans hm'.2
  exact htaken.trans leaves_write

theorem leaves_kill {gone : ℕ → Prop} : s.Leaves (s.kill m) gone := leaves_setCore (by exact fun _ => id)

/-- The end of a child makes no core run. -/
theorem Hears.leaves {gone : ℕ → Prop} (hh : s.Hears m e s') : s.Leaves s' gone := by
  cases hh with
  | exit => exact leaves_setCore (by exact fun _ => id)
  | stdoutClosed => exact .same rfl rfl rfl rfl
  | childError => exact .same rfl rfl rfl rfl

/-- A client that closes leaves the tasks where they are. -/
theorem leaves_cleanup {gone : ℕ → Prop} : s.Leaves (s.cleanup m) gone :=
  (leaves_setManager fun _ h => absurd h Bool.false_ne_true).trans (leaves_rewrite (rejected_rewrites m))

theorem leaves_setStopping {stopping : Bool} {gone : ℕ → Prop} : s.Leaves (s.setStopping m stopping) gone :=
  leaves_setManager (by exact fun _ => id)

theorem leaves_failStart {gone : ℕ → Prop} : s.Leaves (s.failStart m) gone :=
  ((leaves_setStopping.trans leaves_kill).trans leaves_cleanup).trans leaves_setStopping

/-- The core of a manager that is shut down will not run. -/
theorem willRun_shutdownManager {m' : ℕ} {disposer : Disposer} (h : (s.shutdownManager i m' disposer).WillRun m) :
    m ≠ m' ∧ s.WillRun m := by
  unfold Host.shutdownManager at h
  split at h
  · have hsent : ((s.setStopping m' true).setCore m' fun core =>
        { core with inbox := core.inbox ++ [⟨i, s.clock, .shutdown⟩] }).WillRun m := h
    have hne : m ≠ m' := by
      rintro rfl
      have hphase := hsent.2
      rw [setCore_self, Core.finalPhase_send] at hphase
      exact nextPhase_shutdown _ hphase
    obtain ⟨hopen, hphase⟩ := hsent
    rw [setCore_of_ne hne] at hphase
    exact ⟨hne, (setStopping_connected s m' true m).symm.trans hopen, hphase⟩
  · next hclosed =>
    refine ⟨?_, h⟩
    rintro rfl
    exact hclosed h.1

/-- The manager that is taken will not run: it gets a shutdown. -/
theorem willRun_takeManager {disposer : Disposer} (h : (s.takeManager i disposer).WillRun m) :
    s.control.manager ≠ some m ∧ s.WillRun m := by
  unfold Host.takeManager at h
  split at h
  · next hnone => exact ⟨fun hheld => (by cases hnone.symm.trans hheld), h⟩
  · next m' hm' =>
    obtain ⟨hne, hwill⟩ := willRun_shutdownManager h
    exact ⟨fun hheld => hne (Option.some.inj (hheld.symm.trans hm')), hwill⟩

/-- The core of a new manager has not been asked to start. -/
theorem willRun_createManager {spawner : Spawner} (h : (s.createManager i spawner).WillRun m) :
    m ≠ s.control.created ∧ s.WillRun m := by
  have hopen := h.1
  rw [createManager_managers] at hopen
  have hphase : m ≠ s.control.created ∧ (s.cores m).finalPhase = .running := by
    unfold Host.createManager Host.spawnManager at h
    split at h
    · obtain ⟨-, hphase⟩ := (leaves_request (by decide) (by decide)).runs m h
      have hne : m ≠ s.control.created := by
        rintro rfl
        rw [setCore_self] at hphase
        cases hphase
      rw [setCore_of_ne hne] at hphase
      exact ⟨hne, hphase⟩
    · next hfails =>
      refine ⟨?_, h.2⟩
      rintro rfl
      rw [Function.update_self] at hopen
      exact hfails hopen
  rw [Function.update_of_ne hphase.1] at hopen
  exact ⟨hphase.1, hopen, hphase.2⟩

/-! ## Operations -/

section

variable {spawner : Spawner} {disposer : Disposer}

/-- A disposal that begins is one task's. -/
theorem leaves_disposeManager : s.Leaves (s.disposeManager i disposer) (· = i) :=
  (leaves_update rfl rfl).trans leaves_awaitPresentations

/-- So is a spawn that begins. -/
theorem leaves_spawnAndStart : s.Leaves (s.spawnAndStart i spawner) (· = i) := by
  unfold Host.spawnAndStart
  split
  · exact leaves_disposeManager
  · exact leaves_park

theorem leaves_connectFromSettings : s.Leaves (s.connectFromSettings i spawner) (· = i) := by
  unfold Host.connectFromSettings
  split
  · exact (leaves_update rfl rfl).trans leaves_spawnAndStart
  · exact leaves_park

theorem leaves_connectWithRuntimeWatchlist : s.Leaves (s.connectWithRuntimeWatchlist i) (· = i) := by
  unfold Host.connectWithRuntimeWatchlist
  split
  · exact leaves_spawnAndStart
  · exact leaves_connectFromSettings

theorem leaves_endLoop : s.Leaves (s.endLoop i) (· = i) := (leaves_update rfl rfl).trans leaves_finish

/-- So is the restart loop. -/
theorem leaves_restartLoop : s.Leaves (s.restartLoop i) (· = i) := by
  unfold Host.restartLoop
  split
  · exact leaves_endLoop
  · split
    · exact (leaves_update rfl rfl).trans leaves_endLoop
    · exact (leaves_update rfl rfl).trans leaves_park

/-- So is a start that has failed. -/
theorem leaves_catchSpawn : s.Leaves (s.catchSpawn i spawner) (· = i) := by
  unfold Host.catchSpawn
  split
  · exact (leaves_update rfl rfl).trans leaves_restartLoop
  · exact (leaves_update rfl rfl).trans leaves_finish

theorem leaves_spawnDone {market : Option MarketStateView} :
    s.Leaves ((s.update fun c => { c with lastMarket := market }).spawnDone i spawner) (· = i) := by
  have hread : s.Leaves (s.update fun c => { c with lastMarket := market }) (· = i) := leaves_update rfl rfl
  refine hread.trans ?_
  unfold Host.spawnDone
  split
  · exact (leaves_update rfl rfl).trans leaves_endLoop
  · exact (leaves_update rfl rfl).trans leaves_finish

theorem leaves_presentationDone {gone : ℕ → Prop} : s.Leaves s.presentationDone gone := by
  have hdone : s.Leaves { s with presentationsDone := s.presentationsDone + 1 } gone := .same rfl rfl rfl rfl
  exact hdone.trans (leaves_rewrite (released_rewrites _))

/-- So is a presentation. -/
theorem leaves_flushNext {origin : Option ℕ} {ids : List String} : s.Leaves (s.flushNext i origin ids) (· = i) := by
  unfold Host.flushNext
  split
  · exact leaves_tell
  · exact leaves_finish.trans leaves_presentationDone

end

theorem leaves_autoRestart : s.Leaves s.autoRestart (· = s.called) := by
  unfold Host.autoRestart
  split
  · exact .refl s
  · have hbegun : s.Leaves (s.update HostController.beginLoop) (· = s.called) := leaves_update rfl rfl
    have hcalled : s.Leaves { s.update HostController.beginLoop with called := s.called + 1 } (· = s.called) :=
      hbegun.trans (.same rfl rfl rfl rfl)
    exact hcalled.trans leaves_restartLoop

/-- An alert brings one new task. -/
theorem leaves_enqueueAlert {candidates : List AlertCandidateView} :
    s.Leaves (s.enqueueAlert candidates) (· = s.called) :=
  enqueueAlert_goes.leaves (by rw [enqueueAlert_control]; rfl) (by rw [enqueueAlert_control]; rfl) fun _ =>
    WillRun.of_eq enqueueAlert_managers enqueueAlert_cores

theorem leaves_read {output : CoreOutput} : s.Leaves (s.read m output) (· = s.called) := by
  unfold Host.read
  split
  · split
    · split
      · exact leaves_settle
      · exact .refl s
    · exact .refl s
  · split
    · exact leaves_update rfl rfl
    · exact .refl s
  · split
    · exact leaves_enqueueAlert
    · exact .refl s

/-- So does feedback. -/
theorem leaves_submitSignalFeedback (signalId : String) :
    s.Leaves (s.submitSignalFeedback signalId) (· = s.called) := by
  unfold Host.submitSignalFeedback
  split
  · exact .refl s
  · split
    · exact .refl s
    · split
      · have hcalled : s.Leaves { s with called := s.called + 1 } (· = s.called) := .same rfl rfl rfl rfl
        exact hcalled.trans leaves_tell
      · exact .refl s

end Host

end MarketSentinel.Extension
