import Mathlib.Logic.Relation
import MarketSentinel.Extension.ControllerSteps

/-!
# The parts of a step

A step of the host is a sequence of parts, each of which does one thing that an invariant has to say something
about. `Part` lists them once, with what is known where the code does them.

* `Enters`, `Disposes`, `Ends`, `LoopEnds`: where an operation of the controller is begun, and where it ends.
* `Hears`: what the handlers of a manager hear of.
* `Sound.parts`: every part keeps `Sound`.
-/

namespace MarketSentinel.Extension

open Lib Lib.Machine

/-- The one whose `spawnAndStart` is on its way at this point, the wait of the restart loop included. -/
def Point.spawner : Point → Option Spawner
  | disposeQueue (.spawnAndStart spawner) => some spawner
  | managerShutdown _ (.spawnAndStart spawner) => some spawner
  | disposed (.spawnAndStart spawner) => some spawner
  | thrown spawner => some spawner
  | handshake _ spawner _ => some spawner
  | getState _ spawner => some spawner
  | backoff => some .autoRestart
  | _ => none

namespace Host

variable {s s' s₀ : Host} {i m : ℕ} {e : HostEvent}

/-- The job of the task runs from this point. -/
def Runs (s : Host) (i : ℕ) (point : Point) (outcome : Outcome) : Prop :=
  ∃ time, s.tasks i = some ⟨point, .ready outcome 0 time⟩

/-- A task that was just called. -/
def New (s : Host) (i : ℕ) : Prop := i < s.called ∧ s.tasks i = none

/-- `disposeManager` has returned to the one that awaits it. -/
def Returned (s : Host) (i : ℕ) (disposer : Disposer) : Prop :=
  ∃ point outcome, s.Runs i point outcome ∧
    (point = .disposed disposer ∨ ∃ m, point = .managerShutdown m disposer ∧ outcome ≠ .failed)

/-- Where `spawnAndStart` is entered. -/
inductive Enters (s : Host) (i : ℕ) : Spawner → Prop
  | start (hnew : s.New i) (hdesired : s.control.desired = .running) : Enters s i .start
  | resume (hnew : s.New i) (hdesired : s.control.desired = .running) : Enters s i .resume
  | resumeFailed {m : ℕ} (hr : s.Runs i (.resume m) .failed) (he : s.control.actual = .disconnected) :
      Enters s i .resume
  | restartCore (hr : s.Returned i .restartCore) (hdesired : s.control.desired ≠ .paused) : Enters s i .restartCore
  | autoRestart {ticket : Ticket} (ht : s.tasks i = some ⟨.backoff, ticket⟩) (hstays : ¬ s.control.Stays) :
      Enters s i .autoRestart

/-- Where `disposeManager` is entered. -/
inductive Disposes (s : Host) (i : ℕ) : Disposer → Prop
  | spawnAndStart {spawner : Spawner} (h : s.Enters i spawner) : Disposes s i (.spawnAndStart spawner)
  | restartCore (hnew : s.New i) : Disposes s i .restartCore
  | shutdown {outcome : Outcome} (hr : s.Runs i .shutdown outcome) : Disposes s i .shutdown

/-- `spawnAndStart` has thrown, and what awaits it has caught that. -/
def SpawnFails (s : Host) (i : ℕ) (spawner : Spawner) : Prop :=
  s.control.actual = .disconnected ∧ ∃ point outcome, s.Runs i point outcome ∧
    (point = .thrown spawner ∨
      (∃ m step, point = .handshake m spawner step ∧ outcome = .failed ∧ (s.managers m).connected = false) ∨
      ∃ m, point = .managerShutdown m (.spawnAndStart spawner) ∧ outcome = .failed)

/-- Where a task ends that is no restart loop. -/
inductive Ends (s : Host) (i : ℕ) : Prop
  | shutdown {outcome : Outcome} (hr : s.Runs i .shutdown outcome)
  | disposeFails {m : ℕ} {disposer : Disposer} (hr : s.Runs i (.managerShutdown m disposer) .failed)
      (hd : disposer = .restartCore ∨ disposer = .shutdown)
  | stopped {disposer : Disposer} (hr : s.Returned i disposer) (hd : disposer = .restartCore ∨ disposer = .shutdown)
      (he : s.control.actual = .stopped)
  | spawnFails {spawner : Spawner} (h : s.SpawnFails i spawner) (hspawner : spawner ≠ .autoRestart)
  | ran {m : ℕ} {spawner : Spawner} {outcome : Outcome} (hr : s.Runs i (.getState m spawner) outcome)
      (hspawner : spawner ≠ .autoRestart)
  | paused {m : ℕ} {outcome : Outcome} (hr : s.Runs i (.pause m) outcome)
      (he : outcome = .failed ∨ s.control.actual = .paused)
  | resumed {m : ℕ} {outcome : Outcome} (hr : s.Runs i (.resume m) outcome) (ho : outcome ≠ .failed)
  | feedback {m : ℕ} {outcome : Outcome} (hr : s.Runs i (.feedback m) outcome)

/-- Where a restart loop ends. -/
inductive LoopEnds (s : Host) (i : ℕ) : Prop
  | stays {ticket : Ticket} (ht : s.tasks i = some ⟨.backoff, ticket⟩)
  | spawnFails (h : s.SpawnFails i .autoRestart)
  | ran {m : ℕ} {outcome : Outcome} (hr : s.Runs i (.getState m .autoRestart) outcome)

/-- The oldest message of a core is taken. -/
def pop (s : Host) (m : ℕ) (outbox : List CoreOutput) : Host :=
  s.setCore m fun core => { core with outbox := outbox }

/-- What the handlers of a manager hear of, and the host then: the child has ended, or it may live on. -/
inductive Hears (s : Host) (m : ℕ) : HostEvent → Host → Prop
  | exit : s.Hears m (.exit m) (s.childEnds m)
  | stdoutClosed : s.Hears m (.stdoutClosed m) s
  | childError : s.Hears m (.childError m) s

/-- A part of a step from `s₀`. -/
inductive Part (s₀ : Host) : HostEvent → Host → Host → Prop
  /- The controller. -/
  | commanded {e : HostEvent} {s : Host} (desired : DesiredState) (retryCount : ℕ) (disposed restartInFlight : Bool)
      (hdesired : desired = .running ∨ desired = s.control.desired)
      (hretry : retryCount = 0 ∨ retryCount = s.control.retryCount)
      (hloop : disposed = s.control.disposed ∧ restartInFlight = s.control.restartInFlight ∨ disposed = true) :
      Part s₀ e s (s.update fun c =>
        { c with
          desired := desired, retryCount := retryCount, disposed := disposed, restartInFlight := restartInFlight
          attempts := 0 })
  | pauses {s : Host} : Part s₀ .pause s (s.update fun c => { c with desired := .paused, attempts := 0 })
  | actual {e : HostEvent} {s : Host} (actual : ActualState) (hrunning : actual ≠ .running)
      (hpaused : actual ≠ .paused) : Part s₀ e s (s.update fun c => c.setActual actual)
  | configured {e : HostEvent} {s : Host} : Part s₀ e s (s.update fun c => { c with configured := true })
  | failed {e : HostEvent} {s : Host} : Part s₀ e s (s.update HostController.failDisconnected)
  | ran {i m : ℕ} {spawner : Spawner} {outcome : Outcome} (market : Option MarketStateView)
      (hr : s₀.Runs i (.getState m spawner) outcome)
      (hmarket : market = s₀.control.lastMarket ∨ ∃ state, outcome = .state state ∧ market = some state) :
      Part s₀ (.job i) s₀ ((s₀.update fun c => { c with lastMarket := market }).update HostController.ran)
  | acked {i m time : ℕ} {point : Point} {outcome : Outcome} {actual : ActualState} (hfirst : s₀.First time)
      (ht : s₀.tasks i = some ⟨point, .ready outcome 0 time⟩) (ho : outcome ≠ .failed)
      (hp : point = .pause m ∧ actual = .paused ∨ point = .resume m ∧ actual = .running) :
      Part s₀ (.job i) s₀ (s₀.update fun c => c.setActual actual)
  /- Tasks. -/
  | call {e : HostEvent} {s : Host} : Part s₀ e s { s with called := s.called + 1 }
  | finish {e : HostEvent} {s : Host} {i : ℕ} (h : s.Ends i) : Part s₀ e s (s.finish i)
  | round {e : HostEvent} {s : Host} {i rounds time : ℕ} {point : Point} {outcome : Outcome}
      (ht : s.tasks i = some ⟨point, .ready outcome (rounds + 1) time⟩) (hfirst : s.First time) :
      Part s₀ e s (s.parkReady i point outcome rounds)
  | dispose {e : HostEvent} {s : Host} {i : ℕ} {disposer : Disposer} (h : s.Disposes i disposer) :
      Part s₀ e s (s.disposeManager i disposer)
  | thrown {e : HostEvent} {s : Host} {i : ℕ} {spawner : Spawner} (h : s.Enters i spawner) (rounds : ℕ) :
      Part s₀ e s (s.parkReady i (.thrown spawner) .failed rounds)
  | awaitShutdown {e : HostEvent} {s : Host} {i : ℕ} (hnew : s.New i) : Part s₀ e s (s.awaitPresentations i .shutdown)
  | take {i : ℕ} {disposer : Disposer} {outcome : Outcome} (hr : s₀.Runs i (.disposeQueue disposer) outcome) :
      Part s₀ (.job i) s₀ (s₀.takeManager i disposer)
  | create {i : ℕ} {spawner : Spawner} (hr : s₀.Returned i (.spawnAndStart spawner)) :
      Part s₀ (.job i) s₀ (s₀.createManager i spawner)
  | handshake {e : HostEvent} {s : Host} {i m : ℕ} {spawner : Spawner} {step : HandshakeStep} {outcome : Outcome}
      (hr : s.Runs i (.handshake m spawner step) outcome) (ho : outcome ≠ .failed) :
      Part s₀ e s (s.handshakeNext i m spawner step)
  | failStart {e : HostEvent} {s : Host} {i m : ℕ} {spawner : Spawner} {step : HandshakeStep}
      (hr : s.Runs i (.handshake m spawner step) .failed) :
      Part s₀ e s ((s.failStart m).update HostController.failDisconnected)
  /- The restart loop. -/
  | beginLoop {e : HostEvent} {s : Host} (hnone : s.control.manager = none) (hstays : ¬ s.control.Stays)
      (hidle : s.control.restartInFlight = false)
      (hretry : s.control.retryCount < s.control.maxRetries) :
      Part s₀ e s ((({ s with called := s.called + 1 }.update HostController.beginLoop).update
        HostController.retry).park s.called .backoff .outside)
  | declineLoop {e : HostEvent} {s : Host} (hidle : s.control.restartInFlight = false) :
      Part s₀ e s ((({ s with called := s.called + 1 }.update HostController.beginLoop).update fun c =>
        c.setActual .disconnected).endLoop s.called)
  | retry {e : HostEvent} {s : Host} {i : ℕ} (h : s.SpawnFails i .autoRestart) (hstays : ¬ s.control.Stays)
      (hretry : s.control.retryCount < s.control.maxRetries) :
      Part s₀ e s ((s.update HostController.retry).park i .backoff .outside)
  | endLoop {e : HostEvent} {s : Host} {i : ℕ} (h : s.LoopEnds i) : Part s₀ e s (s.endLoop i)
  /- Requests and presentations. -/
  | ask {e : HostEvent} {s : Host} {i m : ℕ} {point : Point} {command : HostCommandType} (hnew : s.New i)
      (hm : s.ipc = some m)
      (hp : e = .pause ∧ point = .pause m ∧ command = .pause ∨
        e = .resume ∧ point = .resume m ∧ command = .resume ∧ s.control.actual = .paused) :
      Part s₀ e s (s.request i m command point)
  | feedback {e : HostEvent} {s : Host} {i m : ℕ} {signalId : String} (hnew : s.New i) (hm : s.ipc = some m)
      (hid : ∃ target ∈ s.control.signalFeedbackTargets, target.id = signalId) :
      Part s₀ e s (s.tell i m .userFeedback signalId (.feedback m))
  | present {e : HostEvent} {s : Host} {i m : ℕ} {signalId : String} {signalIds : List String} {point : Point}
      {outcome : Outcome} (hr : s.Runs i point outcome)
      (hp : point = .flushTurn (some m) (signalId :: signalIds) ∨ point = .flush m (signalId :: signalIds)) :
      Part s₀ e s (s.tell i m .alertPresented signalId (.flush m signalIds))
  | presented {e : HostEvent} {s : Host} {i : ℕ} {point : Point} {outcome : Outcome} (hr : s.Runs i point outcome)
      (hp : point.Aside) : Part s₀ e s ((s.finish i).presentationDone)
  /- What comes from outside. -/
  | answered {e : HostEvent} {s : Host} {i m time : ℕ} {point : Point} {outcome : Outcome} {outbox : List CoreOutput}
      (hopen : (s.managers m).connected = true) (hout : (s.cores m).outbox = .answer i time outcome :: outbox)
      (ht : s.tasks i = some ⟨point, .asked time⟩) : Part s₀ e s ((s.pop m outbox).settle i outcome)
  | skipped {e : HostEvent} {s : Host} {m : ℕ} {output : CoreOutput} {outbox : List CoreOutput}
      (hopen : (s.managers m).connected = true) (hout : (s.cores m).outbox = output :: outbox)
      (hskip : ∀ i time outcome, output = .answer i time outcome → ∀ point, s.tasks i ≠ some ⟨point, .asked time⟩) :
      Part s₀ e s (s.pop m outbox)
  | stateRead {e : HostEvent} {s : Host} {m : ℕ} {market : MarketStateView} {outbox : List CoreOutput}
      (hopen : (s.managers m).connected = true) (hout : (s.cores m).outbox = .state market :: outbox)
      (hcurrent : s.Current m) : Part s₀ e s ((s.pop m outbox).update fun c => { c with lastMarket := some market })
  | alertRead {e : HostEvent} {s : Host} {m : ℕ} {candidates : List AlertCandidateView} {outbox : List CoreOutput}
      (hopen : (s.managers m).connected = true) (hout : (s.cores m).outbox = .alert candidates :: outbox)
      (hcurrent : s.Current m) : Part s₀ e s ((s.pop m outbox).enqueueAlert candidates)
  | timeout {i time : ℕ} {point : Point} (hcalm : s₀.Calm) (ht : s₀.tasks i = some ⟨point, .asked time⟩) :
      Part s₀ (.timeout i) s₀ (s₀.settle i .failed)
  | shutdownThrows {i m : ℕ} {disposer : Disposer} (hcalm : s₀.Calm)
      (ht : s₀.tasks i = some ⟨.managerShutdown m disposer, .outside⟩) (hclosed : (s₀.managers m).connected = false) :
      Part s₀ (.shutdownOver i true) s₀ (s₀.shutdownThrows i m)
  | shutdownOver {i m : ℕ} {disposer : Disposer} (hcalm : s₀.Calm)
      (ht : s₀.tasks i = some ⟨.managerShutdown m disposer, .outside⟩) :
      Part s₀ (.shutdownOver i false) s₀ (s₀.shutdownOver i m)
  | signal {e : HostEvent} (m : ℕ) : Part s₀ e s₀ (s₀.kill m)
  | unheard {e : HostEvent} {s : Host} {m : ℕ} (hcalm : s₀.Calm) (hh : s₀.Hears m e s)
      (hdeaf : (s₀.managers m).stopping = true ∨ (s₀.managers m).connected = false) : Part s₀ e s₀ s
  | close {e : HostEvent} {s : Host} {m : ℕ} (hcalm : s₀.Calm) (hh : s₀.Hears m e s)
      (hopen : (s₀.managers m).connected = true) (hquiet : ¬ ((s₀.managers m).notifies = true ∧ s₀.Current m)) :
      Part s₀ e s₀ (s.cleanup m)
  | disconnect {e : HostEvent} {s : Host} {m : ℕ} (hcalm : s₀.Calm) (hh : s₀.Hears m e s)
      (hopen : (s₀.managers m).connected = true) (hnotifies : (s₀.managers m).notifies = true)
      (hcurrent : s₀.Current m) : Part s₀ e s₀ ((s.cleanup m).update HostController.onDisconnect)
  | work {m : ℕ} {request : Request} {inbox : List Request} {accepts : Bool} {market : MarketStateView}
      (halive : (s₀.cores m).alive = true) (hin : (s₀.cores m).inbox = request :: inbox) :
      Part s₀ (.work m accepts market) s₀ (s₀.work m request inbox accepts market)
  | write {e : HostEvent} {m : ℕ} {output : CoreOutput} (halive : (s₀.cores m).alive = true)
      (hout : ∀ i time outcome, output ≠ .answer i time outcome) : Part s₀ e s₀ (s₀.write m output)
  | environment {e : HostEvent} (settingsOk spawnOk : Bool) :
      Part s₀ e s₀ { s₀ with settingsOk := settingsOk, spawnOk := spawnOk }

/-- A chain of parts, all of one event. -/
abbrev Parts (s₀ : Host) (e : HostEvent) : Host → Host → Prop := Relation.ReflTransGen (s₀.Part e)

/-! ## Every part is sound -/

/-- What a manager hears of its child has not reached the controller yet. -/
theorem Hears.control (hh : s.Hears m e s') : s'.control = s.control := by cases hh <;> rfl

theorem Hears.managers (hh : s.Hears m e s') : s'.managers = s.managers := by cases hh <;> rfl

/-- No promise has settled yet. -/
theorem Hears.tasks (hh : s.Hears m e s') : s'.tasks = s.tasks := by cases hh <;> rfl

/-- A sound host stays sound when the child ends. -/
theorem Sound.hears (h : s.Sound) (hh : s.Hears m e s') : s'.Sound := by
  cases hh with
  | exit => exact h.childEnds
  | stdoutClosed => exact h
  | childError => exact h

/-- A task that runs was called. -/
theorem Runs.lt_called {point : Point} {outcome : Outcome} (hr : s.Runs i point outcome) (h : s.Sound) :
    i < s.called := by
  obtain ⟨_, ht⟩ := hr
  exact h.lt_called ht

theorem Returned.lt_called {disposer : Disposer} (hr : s.Returned i disposer) (h : s.Sound) : i < s.called := by
  obtain ⟨_, _, hr, _⟩ := hr
  exact hr.lt_called h

theorem Enters.lt_called {spawner : Spawner} (he : s.Enters i spawner) (h : s.Sound) : i < s.called := by
  cases he with
  | start hnew _ => exact hnew.1
  | resume hnew _ => exact hnew.1
  | resumeFailed hr _ => exact hr.lt_called h
  | restartCore hr _ => exact hr.lt_called h
  | autoRestart ht _ => exact h.lt_called ht

theorem Disposes.lt_called {disposer : Disposer} (hd : s.Disposes i disposer) (h : s.Sound) : i < s.called := by
  cases hd with
  | spawnAndStart he => exact he.lt_called h
  | restartCore hnew => exact hnew.1
  | shutdown hr => exact hr.lt_called h

/-- The manager that it comes back to was created. -/
theorem Runs.lt_created {point : Point} {outcome : Outcome} (hr : s.Runs i point outcome) (h : s.Sound)
    (hm : point.uses = some m) : m < s.control.created := by
  obtain ⟨_, ht⟩ := hr
  exact (h.tasks i _ ht).known m hm

/-- What awaits no promise of a client keeps its ticket when a client is closed. -/
theorem cleanup_outside (m : ℕ) {point : Point} (ht : s.tasks i = some ⟨point, .outside⟩) :
    (s.cleanup m).tasks i = some ⟨point, .outside⟩ := by
  show (s.tasks i).map _ = _
  rw [ht]
  rfl

/-- A task whose job is queued keeps it. -/
theorem cleanup_ready (m : ℕ) {point : Point} {outcome : Outcome} {rounds time : ℕ}
    (ht : s.tasks i = some ⟨point, .ready outcome rounds time⟩) :
    (s.cleanup m).tasks i = some ⟨point, .ready outcome rounds time⟩ := by
  show (s.tasks i).map _ = _
  rw [ht]
  rfl

/-- **Every part is sound.** -/
theorem Sound.part (h : s.Sound) (hp : s₀.Part e s s') : s'.Sound := by
  cases hp with
  | commanded => exact h.control rfl rfl rfl
  | pauses => exact h.control rfl rfl rfl
  | actual => exact h.control rfl rfl rfl
  | configured => exact h.control rfl rfl rfl
  | failed => exact h.control rfl rfl rfl
  | ran => exact Sound.control (h.control rfl rfl rfl) rfl rfl rfl
  | acked => exact h.control rfl rfl rfl
  | call => exact h.nextTask
  | finish => exact h.finish
  -- A task that only waits for a round keeps what it knew.
  | @round _ _ i _ _ point _ ht _ =>
    refine h.parkReady (h.lt_called ht) (h.tasks i _ ht).known fun m disposer hpoint => ?_
    exact ((h.tasks i _ ht).closing m disposer hpoint).resolve_left nofun
  | dispose hd => exact h.disposeManager (hd.lt_called h)
  | thrown he _ => exact h.parkReady (he.lt_called h) nofun nofun
  | awaitShutdown hnew => exact h.awaitPresentations hnew.1 nofun nofun
  | take hr => exact h.takeManager (hr.lt_called h)
  | create hr => exact h.createManager (hr.lt_called h)
  | handshake hr _ => exact h.handshakeNext (hr.lt_called h) (hr.lt_created h rfl)
  | failStart => exact h.failStart.control rfl rfl rfl
  | beginLoop =>
    refine Sound.park (Sound.control (h.nextTask.control rfl rfl rfl) rfl rfl rfl) (Nat.lt_succ_self _)
      ⟨nofun, nofun, nofun, nofun⟩
  | declineLoop =>
    exact Sound.finish (Sound.control (Sound.control (h.nextTask.control rfl rfl rfl) rfl rfl rfl) rfl rfl rfl)
  | retry hf _ _ =>
    obtain ⟨_, _, _, hr, _⟩ := hf
    exact (h.control rfl rfl rfl : (s.update _).Sound).park (hr.lt_called h) ⟨nofun, nofun, nofun, nofun⟩
  | endLoop => exact Sound.finish (h.control rfl rfl rfl)
  | ask hnew hm hp =>
    refine h.request hnew.1 ?_ (h.lt_created (ipc_eq_some.1 hm).2)
    obtain ⟨-, rfl, -⟩ | ⟨-, rfl, -⟩ := hp <;> rfl
  | feedback hnew hm _ => exact h.tell hnew.1 rfl (h.lt_created (ipc_eq_some.1 hm).2)
  | present hr hp =>
    refine h.tell (hr.lt_called h) rfl (hr.lt_created h ?_)
    obtain rfl | rfl := hp <;> rfl
  | presented => exact h.finish.presentationDone
  -- The task that is answered asked for something else than a shutdown.
  | answered hopen hout ht =>
    refine Sound.settle (h.setCore (by exact fun _ ha => ha)) fun m' disposer ticket ht' => ?_
    obtain ⟨_, hm, _⟩ := (h.tasks _ _ ht).pending _ rfl
    cases Option.some.inj (ht.symm.trans ht')
    cases hm
  | skipped => exact h.setCore (by exact fun _ ha => ha)
  | stateRead => exact Sound.control (h.setCore (by exact fun _ ha => ha)) rfl rfl rfl
  | alertRead => exact Sound.enqueueAlert (h.setCore (by exact fun _ ha => ha))
  | timeout hcalm ht =>
    refine h.settle fun m' disposer ticket ht' => ?_
    obtain ⟨_, hm, _⟩ := (h.tasks _ _ ht).pending _ rfl
    cases Option.some.inj (ht.symm.trans ht')
    cases hm
  | shutdownThrows hcalm ht hclosed =>
    refine h.setStopping.settle fun m' disposer' ticket ht' => ?_
    cases Option.some.inj (ht.symm.trans ht')
    exact (setStopping_connected _ _ _ _).trans hclosed
  -- A shutdown that is over has closed its connection, whichever task waited for it.
  | shutdownOver hcalm ht =>
    refine h.kill.cleanup.setStopping.settle fun m' disposer' ticket ht' => ?_
    cases Option.some.inj ((cleanup_outside _ ht).symm.trans ht')
    exact (setStopping_connected _ _ _ _).trans (cleanup_connected _ _)
  | signal => exact h.kill
  | unheard _ hh _ => exact h.hears hh
  | close _ hh _ _ => exact (h.hears hh).cleanup
  | disconnect _ hh _ _ _ => exact (h.hears hh).cleanup.update nofun rfl le_rfl
  | work => exact (h.setCore (by exact fun _ ha => ha)).write
  | write => exact h.write
  | environment settingsOk spawnOk => exact h.environment settingsOk spawnOk

/-- So is every chain of them. -/
theorem Sound.parts (h : s.Sound) (hp : s₀.Parts e s s') : s'.Sound := by
  induction hp with
  | refl => exact h
  | tail _ hp ih => exact ih.part hp

end Host

end MarketSentinel.Extension
