import Mathlib.Logic.Function.Basic
import MarketSentinel.Lib.Machine
import MarketSentinel.Extension.Client

/-!
# The controller and its cores

`HostController` (`host/controller.ts`), the life of a `ProcessManager` (`ipc/process.ts`) and the core that it
spawned (`ipc/daemon.py`), as one machine. Every asynchronous call is a task that stands at an `await`. What
it waits for is its ticket: an answer, its turn in the presentation queue, something outside the host, or
only its place among the jobs (microtasks) of the event loop. A job whose promise is behind other promises
(an `await` of a call that itself awaits) first goes round the queue once for each of them. Timers, user
commands and what the child writes are handled when no job is left.

A manager is its place in the order of creation. Its child ends at a time of its own: `kill()` only signals it,
and a manager that drops its child (after a closed stdout, an `error`, a failed start, a shutdown whose grace time
is over) does not wait for the end. Left out: logging, the UI, the alert counters and timers, the acknowledged
watchlist (`Extension/WatchlistSync.lean`).
-/

namespace MarketSentinel.Extension

open Lib

/-! ## The core -/

/-- What a request is answered with: a success, for `get_state` with the state, or an error. -/
inductive Outcome
  | done
  | state (market : MarketStateView)
  | failed
  deriving DecidableEq

/-- The phase of the daemon after a command, and the answer. What decides besides the phase is left open:
`accepts` is whether the content of the command is accepted, `market` the state of the engine. -/
def coreAnswer (phase : DaemonPhase) (accepts : Bool) (market : MarketStateView) (command : HostCommandType) :
    DaemonPhase × Outcome :=
  if command = .shutdown then (.shuttingDown, .done)
  else if phase = .shuttingDown then (phase, .failed)
  else if command = .hello then (if phase = .awaitingHello then .ready else phase, .done)
  else if phase = .awaitingHello then (phase, .failed)
  else
    match command with
    | .start => if phase = .paused then (phase, .failed) else (.running, .done)
    | .pause => if phase = .ready then (phase, .failed) else (.paused, .done)
    | .resume => if phase = .ready then (phase, .failed) else (.running, .done)
    | .getState => (phase, .state market)
    | _ => (phase, if accepts then .done else .failed)

/-- A request, named by its task and the time it was sent. -/
structure Request where
  task : ℕ
  time : ℕ
  command : HostCommandType
  deriving DecidableEq

/-- What a core writes: an answer to a request of a task, or a message that nobody asked for. -/
inductive CoreOutput
  | answer (task time : ℕ) (outcome : Outcome)
  | state (market : MarketStateView)
  | alert (candidates : List AlertCandidateView)

/-- The signals of a state: id and label. -/
def MarketStateView.signals (market : MarketStateView) : List (String × String) :=
  market.symbols.flatMap fun symbol =>
    symbol.activeSignals.map fun signal => (signal.id, symbol.symbol ++ " " ++ signal.title)

/-- The ids of the signals in a message. -/
def CoreOutput.signalIds : CoreOutput → List String
  | answer _ _ (.state market) => market.signals.map Prod.fst
  | answer .. => []
  | state market => market.signals.map Prod.fst
  | alert candidates => candidates.map fun candidate => candidate.signal.id

/-- A child process, with what is on its way to it and from it. -/
structure Core where
  /-- The child was spawned and has not raised `exit`. -/
  alive : Bool := false
  /-- `kill()` has signalled the child, which may live on. -/
  killed : Bool := false
  phase : DaemonPhase := .awaitingHello
  inbox : List Request := []
  outbox : List CoreOutput := []

/-! ## The manager -/

structure ProcessManager where
  /-- `generation` in the callbacks that the manager was created with. -/
  generation : ℕ := 0
  /-- `child` and `client` are there, and the handlers of `attachChild` are attached. -/
  connected : Bool := false
  live : Bool := false
  stopping : Bool := false
  disconnectSent : Bool := false
  deriving DecidableEq

namespace ProcessManager

/-- `cleanup` will call `onDisconnected`. -/
def notifies (pm : ProcessManager) : Bool := pm.live && !pm.stopping && !pm.disconnectSent

/-- `cleanup`, for the manager itself. -/
def cleaned (pm : ProcessManager) : ProcessManager :=
  { pm with live := false, disconnectSent := pm.disconnectSent || pm.notifies, connected := false }

end ProcessManager

/-! ## Tasks -/

inductive DesiredState
  | running | paused
  deriving DecidableEq, Repr

inductive ActualState
  | starting | running | paused | disconnected | stopping | stopped
  deriving DecidableEq, Repr

/-- Who awaits `spawnAndStart`; `autoRestart` is the loop of `handleUnexpectedDisconnect`. -/
inductive Spawner
  | start | resume | restartCore | autoRestart
  deriving DecidableEq, Repr

/-- Who awaits `disposeManager`. -/
inductive Disposer
  | spawnAndStart (spawner : Spawner)
  | restartCore
  | shutdown
  deriving DecidableEq, Repr

/-- The requests of `spawnAndHandshake`. -/
inductive HandshakeStep
  | hello | setWatchlist | start
  deriving DecidableEq, Repr

def HandshakeStep.command : HandshakeStep → HostCommandType
  | hello => .hello
  | setWatchlist => .setWatchlist
  | start => .start

/-- The `await` at which a task stands. -/
inductive Point
  /-- `shutdown`: the presentation queue. -/
  | shutdown
  /-- `disposeManager`: the presentation queue. -/
  | disposeQueue (disposer : Disposer)
  /-- `disposeManager`: `manager.shutdown()`. -/
  | managerShutdown (m : ℕ) (disposer : Disposer)
  /-- `disposeManager()`, which has returned. -/
  | disposed (disposer : Disposer)
  /-- `spawnAndStart()`, which has thrown. -/
  | thrown (spawner : Spawner)
  | handshake (m : ℕ) (spawner : Spawner) (step : HandshakeStep)
  /-- `spawnAndStart`: `manager.getState()`. -/
  | getState (m : ℕ) (spawner : Spawner)
  /-- `handleUnexpectedDisconnect`: `delayFn`. -/
  | backoff
  | pause (m : ℕ)
  | resume (m : ℕ)
  /-- `presentationQueue.then`: `flushPresented` has not started. -/
  | flushTurn (origin : Option ℕ) (signalIds : List String)
  /-- `flushPresented`: an `alert_presented`, and the signals after it. -/
  | flush (m : ℕ) (signalIds : List String)
  | feedback (m : ℕ)
  deriving DecidableEq

namespace Point

/-- The manager whose client is asked. -/
def manager : Point → Option ℕ
  | handshake m .. | getState m _ | pause m | resume m | flush m _ | feedback m => some m
  | _ => none

/-- The manager that the task will come back to. -/
def uses : Point → Option ℕ
  | managerShutdown m _ => some m
  | flushTurn origin _ => origin
  | point => point.manager

/-- How many promises there are between the one that settles and the code after this `await`. -/
def promises : Point → Outcome → ℕ
  | shutdown, _ => 1
  | disposeQueue _, _ => 1
  | managerShutdown .., .failed => 3
  | managerShutdown .., _ => 1
  | handshake .., .failed => 4
  | handshake _ _ .start, _ => 2
  | getState .., _ => 1
  | pause _, _ => 2
  | resume _, _ => 2
  | _, _ => 0

/-- A point of no operation of the controller: a presentation or a feedback. -/
def Aside : Point → Prop
  | flushTurn .. | flush .. | feedback _ => True
  | _ => False

end Point

inductive Ticket
  /-- The request that was sent at this time is pending. -/
  | asked (time : ℕ)
  /-- The presentation with this number has to be done; it was awaited at this time. -/
  | queued (turn time : ℕ)
  /-- A timer, or the end of the child. -/
  | outside
  /-- A job, queued at this time, that goes round `rounds` times more. -/
  | ready (outcome : Outcome) (rounds time : ℕ)

structure Task where
  point : Point
  ticket : Ticket

/-- A message of the host about a signal. -/
inductive SignalMessageType
  | userFeedback | alertPresented
  deriving DecidableEq, Repr

def SignalMessageType.command : SignalMessageType → HostCommandType
  | userFeedback => .userFeedback
  | alertPresented => .hostInteraction

/-- The message, and the manager whose client it was sent over. -/
structure SignalMessage where
  manager : ℕ
  type : SignalMessageType
  signalId : String
  deriving DecidableEq

structure FeedbackTarget where
  id : String
  label : String
  deriving DecidableEq, Repr

def maxFeedbackTargets : ℕ := 20

structure HostController where
  maxRetries : ℕ := 3
  desired : DesiredState := .running
  actual : ActualState := .stopped
  manager : Option ℕ := none
  /-- `spawnConfig` is there. -/
  configured : Bool := false
  retryCount : ℕ := 0
  disposed : Bool := false
  restartInFlight : Bool := false
  managerGeneration : ℕ := 0
  lastMarket : Option MarketStateView := none
  presentedFeedbackTargets : List FeedbackTarget := []
  /-- The managers created so far. -/
  created : ℕ := 0
  /-- Ghost: the attempts of the restart loop since the disconnect that began it, or since a command. -/
  attempts : ℕ := 0

structure Host where
  control : HostController := {}
  managers : ℕ → ProcessManager := fun _ => {}
  /-- The child of each manager. -/
  cores : ℕ → Core := fun _ => {}
  tasks : ℕ → Option Task := fun _ => none
  called : ℕ := 0
  clock : ℕ := 0
  /-- The presentations that were queued, and how many of them are done. -/
  presentationsQueued : ℕ := 0
  presentationsDone : ℕ := 0
  /-- `parseHostSettings` succeeds. -/
  settingsOk : Bool := true
  /-- `spawnFn` succeeds. -/
  spawnOk : Bool := true
  /-- Ghost: the messages about signals that were sent. -/
  sent : List SignalMessage := []
  /-- Ghost: the signals that each core has written. -/
  produced : List (ℕ × String) := []

namespace HostController

def setActual (c : HostController) (state : ActualState) : HostController := { c with actual := state }

def clearExecutionFeedbackTargets (c : HostController) : HostController :=
  { c with presentedFeedbackTargets := [] }

def failDisconnected (c : HostController) : HostController :=
  { c.clearExecutionFeedbackTargets with lastMarket := none }.setActual .disconnected

/-- The first part of `handleUnexpectedDisconnect`. -/
def onDisconnect (c : HostController) : HostController :=
  { c.clearExecutionFeedbackTargets with manager := none }.setActual .disconnected

/-- The start of the restart loop. -/
def beginLoop (c : HostController) : HostController := { c with restartInFlight := true, attempts := 0 }

def endLoop (c : HostController) : HostController := { c with restartInFlight := false }

/-- A restart attempt is begun. -/
def retry (c : HostController) : HostController :=
  { c with retryCount := c.retryCount + 1, attempts := c.attempts + 1 }

/-- The first part of `disposeManager`. -/
def retire (c : HostController) : HostController :=
  { c.clearExecutionFeedbackTargets with managerGeneration := c.managerGeneration + 1 }

/-- The second part of `disposeManager`. -/
def dropManager (c : HostController) : HostController := { c with lastMarket := none, manager := none }

/-- `spawnAndStart`: the next manager is created and held. -/
def adopt (c : HostController) : HostController :=
  { c with
    managerGeneration := c.managerGeneration + 1
    created := c.created + 1
    manager := some c.created }.setActual .starting

/-- The last part of `spawnAndStart`. -/
def ran (c : HostController) : HostController := { c.setActual .running with retryCount := 0 }

/-- The condition of the restart loop fails. -/
def Stays (c : HostController) : Prop := c.disposed = true ∨ c.desired ≠ .running

instance (c : HostController) : Decidable c.Stays := inferInstanceAs (Decidable (_ ∨ _))

def rememberFeedbackTarget (targets : List FeedbackTarget) (target : FeedbackTarget) : List FeedbackTarget :=
  (targets.filter (·.id ≠ target.id) ++ [target]).rtake maxFeedbackTargets

/-- The label of a candidate. -/
def candidateTarget (candidate : AlertCandidateView) : FeedbackTarget :=
  ⟨candidate.signal.id, candidate.symbol ++ " " ++ candidate.signal.title⟩

/-- The loop of `enqueueAlert`. -/
def rememberAll (c : HostController) (candidates : List AlertCandidateView) : HostController :=
  { c with
    presentedFeedbackTargets :=
      (candidates.map candidateTarget).foldl rememberFeedbackTarget c.presentedFeedbackTargets }

def signalFeedbackTargets (c : HostController) : List FeedbackTarget :=
  let labels := c.presentedFeedbackTargets.foldl (fun d target => d.set target.id target.label) Dict.empty
  let signals := (c.lastMarket.map MarketStateView.signals).getD []
  (signals.foldl (fun d signal => d.set signal.1 signal.2) labels).entries.map fun entry => ⟨entry.1, entry.2⟩

end HostController

namespace Host

/-! ## Tasks and jobs -/

def point (s : Host) (i : ℕ) : Option Point := (s.tasks i).map Task.point

def update (s : Host) (f : HostController → HostController) : Host := { s with control := f s.control }

def setManager (s : Host) (m : ℕ) (f : ProcessManager → ProcessManager) : Host :=
  { s with managers := Function.update s.managers m (f (s.managers m)) }

def setCore (s : Host) (m : ℕ) (f : Core → Core) : Host :=
  { s with cores := Function.update s.cores m (f (s.cores m)) }

/-- The task stands at this point. -/
def park (s : Host) (i : ℕ) (point : Point) (ticket : Ticket) : Host :=
  { s with tasks := Function.update s.tasks i (some ⟨point, ticket⟩), clock := s.clock + 1 }

/-- The promise that is awaited has settled. -/
def parkReady (s : Host) (i : ℕ) (point : Point) (outcome : Outcome) (rounds : ℕ) : Host :=
  s.park i point (.ready outcome rounds s.clock)

/-- The task is over. -/
def finish (s : Host) (i : ℕ) : Host := { s with tasks := Function.update s.tasks i none }

/-- An asynchronous function is called. -/
def call (s : Host) (run : Host → ℕ → Host) : Host := run { s with called := s.called + 1 } s.called

/-- The promise that the task awaits settles. -/
def settle (s : Host) (i : ℕ) (outcome : Outcome) : Host :=
  match s.tasks i with
  | none => s
  | some task => s.parkReady i task.point outcome (task.point.promises outcome)

/-- `client.request`, awaited at `point`. A closed client rejects. -/
def request (s : Host) (i m : ℕ) (command : HostCommandType) (point : Point) : Host :=
  if (s.managers m).connected then
    (s.setCore m fun core => { core with inbox := core.inbox ++ [⟨i, s.clock, command⟩] }).park i point
      (.asked s.clock)
  else s.parkReady i point .failed (point.promises .failed)

/-- The presentation queue is awaited, as it is now. -/
def awaitPresentations (s : Host) (i : ℕ) (point : Point) : Host :=
  if s.presentationsDone = s.presentationsQueued then s.parkReady i point .done (point.promises .done)
  else s.park i point (.queued s.presentationsQueued s.clock)

/-- What a task becomes when all pending requests of a client are rejected. -/
def rejected (m clock : ℕ) (task : Task) : Task :=
  match task.ticket with
  | .asked time =>
    if task.point.manager = some m then
      { task with ticket := .ready .failed (task.point.promises .failed) (clock + time) }
    else task
  | _ => task

/-- What a task becomes when a presentation is done. -/
def released (turn clock : ℕ) (task : Task) : Task :=
  match task.ticket with
  | .queued turn' time =>
    if turn' = turn then { task with ticket := .ready .done (task.point.promises .done + 1) (clock + time) }
    else task
  | _ => task

/-- All tasks are rewritten. The jobs that this queues are behind the others, in the order of their promises. -/
def rewrite (s : Host) (f : ℕ → Task → Task) : Host :=
  { s with tasks := fun i => (s.tasks i).map (f s.clock), clock := s.clock + s.clock }

/-! ## Managers -/

/-- `cleanup`, up to `onDisconnected`. -/
def cleanup (s : Host) (m : ℕ) : Host := (s.setManager m ProcessManager.cleaned).rewrite (rejected m)

/-- `this.child?.kill()`: a child that has not ended is signalled. -/
def kill (s : Host) (m : ℕ) : Host :=
  s.setCore m fun core => { core with killed := core.killed || ((s.managers m).connected && core.alive) }

/-- The child of a manager ends. -/
def childEnds (s : Host) (m : ℕ) : Host := s.setCore m fun core => { core with alive := false }

def setStopping (s : Host) (m : ℕ) (stopping : Bool) : Host :=
  s.setManager m fun pm => { pm with stopping := stopping }

/-- `failStart`, up to its `throw`. -/
def failStart (s : Host) (m : ℕ) : Host :=
  (((s.setStopping m true).kill m).cleanup m).setStopping m false

/-! ## The controller -/

/-- The `finally` of `handleUnexpectedDisconnect`. -/
def endLoop (s : Host) (i : ℕ) : Host := (s.update HostController.endLoop).finish i

/-- The loop of `handleUnexpectedDisconnect`, up to its wait. -/
def restartLoop (s : Host) (i : ℕ) : Host :=
  if s.control.Stays then s.endLoop i
  else if s.control.maxRetries ≤ s.control.retryCount then (s.update fun c => c.setActual .disconnected).endLoop i
  else (s.update HostController.retry).park i .backoff .outside

/-- The second part of `handleUnexpectedDisconnect`. -/
def autoRestart (s : Host) : Host :=
  if s.control.Stays ∨ s.control.restartInFlight then s
  else (s.update HostController.beginLoop).call restartLoop

def handleUnexpectedDisconnect (s : Host) : Host := (s.update HostController.onDisconnect).autoRestart

/-- `disposeManager`, up to its first `await`. -/
def disposeManager (s : Host) (i : ℕ) (disposer : Disposer) : Host :=
  (s.update HostController.retire).awaitPresentations i (.disposeQueue disposer)

/-- `manager.shutdown()`, awaited by `disposeManager`. -/
def shutdownManager (s : Host) (i m : ℕ) (disposer : Disposer) : Host :=
  if (s.managers m).connected then
    ((s.setStopping m true).setCore m fun core =>
      { core with inbox := core.inbox ++ [⟨i, s.clock, .shutdown⟩] }).park i (.managerShutdown m disposer) .outside
  else s.parkReady i (.disposed disposer) .done 1

/-- `disposeManager` after the presentation queue. -/
def takeManager (s : Host) (i : ℕ) (disposer : Disposer) : Host :=
  match s.control.manager with
  | none => (s.update HostController.dropManager).parkReady i (.disposed disposer) .done 0
  | some m => (s.update HostController.dropManager).shutdownManager i m disposer

/-- `spawnAndStart`, up to its first `await`. -/
def spawnAndStart (s : Host) (i : ℕ) (spawner : Spawner) : Host :=
  if s.control.configured then s.disposeManager i (.spawnAndStart spawner)
  else s.parkReady i (.thrown spawner) .failed 1

def connectFromSettings (s : Host) (i : ℕ) (spawner : Spawner) : Host :=
  if s.settingsOk then (s.update fun c => { c with configured := true }).spawnAndStart i spawner
  else s.parkReady i (.thrown spawner) .failed 0

def connectWithRuntimeWatchlist (s : Host) (i : ℕ) : Host :=
  if s.control.configured then s.spawnAndStart i .autoRestart else s.connectFromSettings i .autoRestart

/-- A manager is created with the present generation, and its `start` begins. -/
def spawnManager (s : Host) (i m : ℕ) (spawner : Spawner) : Host :=
  if s.spawnOk then
    ((s.setManager m fun _ => { generation := s.control.managerGeneration, connected := true }).setCore m
      fun _ => { alive := true }).request i m .hello (.handshake m spawner .hello)
  else
    (s.setManager m fun _ => { generation := s.control.managerGeneration }).parkReady i (.thrown spawner) .failed 3

/-- `spawnAndStart` after the disposal. -/
def createManager (s : Host) (i : ℕ) (spawner : Spawner) : Host :=
  (s.update HostController.adopt).spawnManager i s.control.created spawner

/-- What awaits `disposeManager` goes on. -/
def afterDispose (s : Host) (i : ℕ) : Disposer → Host
  | .shutdown => (s.update fun c => c.setActual .stopped).finish i
  | .restartCore =>
    if s.control.desired = .paused then (s.update fun c => c.setActual .stopped).finish i
    else s.connectFromSettings i .restartCore
  | .spawnAndStart spawner => s.createManager i spawner

/-- What awaits `spawnAndStart` catches. -/
def catchSpawn (s : Host) (i : ℕ) (spawner : Spawner) : Host :=
  if spawner = .autoRestart then (s.update HostController.failDisconnected).restartLoop i
  else (s.update HostController.failDisconnected).finish i

/-- `disposeManager` throws. -/
def disposeFails (s : Host) (i : ℕ) : Disposer → Host
  | .spawnAndStart spawner => s.catchSpawn i spawner
  | _ => s.finish i

/-- `spawnAndHandshake` after a request that succeeded. -/
def handshakeNext (s : Host) (i m : ℕ) (spawner : Spawner) : HandshakeStep → Host
  | .hello => s.request i m .setWatchlist (.handshake m spawner .setWatchlist)
  | .setWatchlist => s.request i m .start (.handshake m spawner .start)
  | .start => (s.setManager m fun pm => { pm with live := true }).request i m .getState (.getState m spawner)

/-- `spawnAndStart` after `getState`, and its return. -/
def spawnDone (s : Host) (i : ℕ) (spawner : Spawner) : Host :=
  if spawner = .autoRestart then (s.update HostController.ran).endLoop i
  else (s.update HostController.ran).finish i

/-- `this.manager?.ipc`, by the manager. -/
def ipc (s : Host) : Option ℕ := s.control.manager.filter fun m => (s.managers m).connected

/-! ## Presentations and feedback -/

/-- The presentation at the head of the queue is done. -/
def presentationDone (s : Host) : Host :=
  { s with presentationsDone := s.presentationsDone + 1 }.rewrite (released (s.presentationsDone + 1))

/-- The message that the client of a manager writes, if it is open. -/
def noteSent (s : Host) (m : ℕ) (type : SignalMessageType) (signalId : String) : Host :=
  if (s.managers m).connected then { s with sent := s.sent ++ [⟨m, type, signalId⟩] } else s

/-- A request about a signal. -/
def tell (s : Host) (i m : ℕ) (type : SignalMessageType) (signalId : String) (point : Point) : Host :=
  (s.noteSent m type signalId).request i m type.command point

/-- The loop of `flushPresented`. -/
def flushNext (s : Host) (i : ℕ) : Option ℕ → List String → Host
  | some m, id :: ids => s.tell i m .alertPresented id (.flush m ids)
  | _, _ => (s.finish i).presentationDone

/-- `presentationQueue.then`. -/
def queuePresentation (s : Host) (i : ℕ) (signalIds : List String) : Host :=
  { s.awaitPresentations i (.flushTurn s.ipc signalIds) with presentationsQueued := s.presentationsQueued + 1 }

def enqueueAlert (s : Host) (candidates : List AlertCandidateView) : Host :=
  (s.update fun c => c.rememberAll candidates).call fun s i =>
    s.queuePresentation i (candidates.map fun candidate => candidate.signal.id)

/-- `submitSignalFeedback`, with one of the feedback types. -/
def submitSignalFeedback (s : Host) (signalId : String) : Host :=
  if signalId.toList.all isJsSpace then s
  else
    match s.ipc with
    | none => s
    | some m =>
      if ∃ target ∈ s.control.signalFeedbackTargets, target.id = signalId then
        s.call fun s i => s.tell i m .userFeedback signalId (.feedback m)
      else s

/-! ## Commands -/

def start (s : Host) : Host :=
  (s.update fun c => { c with desired := .running, attempts := 0 }).call fun s i =>
    s.connectFromSettings i .start

/-- `pause`, while the controller is not disconnected. -/
def pauseManager (s : Host) : Host :=
  match s.ipc with
  | none => s.update fun c => c.setActual .disconnected
  | some m => s.call fun s i => s.request i m .pause (.pause m)

def pause (s : Host) : Host :=
  if s.control.actual = .disconnected ∨ s.control.actual = .stopped then
    s.update fun c => { c with desired := .paused, attempts := 0 }
  else (s.update fun c => { c with desired := .paused, attempts := 0 }).pauseManager

def resume (s : Host) : Host :=
  (s.update fun c => { c with desired := .running, retryCount := 0, attempts := 0 }).call fun s i =>
    match if s.control.actual = .paused then s.ipc else none with
    | some m => s.request i m .resume (.resume m)
    | none => s.connectFromSettings i .resume

def restartCore (s : Host) : Host :=
  (s.update fun c => { c with retryCount := 0, attempts := 0 }).call fun s i => s.disposeManager i .restartCore

def shutdown (s : Host) : Host :=
  (s.update fun c => { c with disposed := true, restartInFlight := false, attempts := 0 }).call fun s i =>
    s.awaitPresentations i .shutdown

/-! ## Steps -/

/-- A task goes on from its `await`. -/
def advance (s : Host) (i : ℕ) : Point → Outcome → Host
  | .shutdown, _ =>
    if s.control.actual = .stopped ∧ s.control.manager = none then s.finish i
    else (s.update fun c => c.setActual .stopping).disposeManager i .shutdown
  | .disposeQueue disposer, _ => s.takeManager i disposer
  | .managerShutdown _ disposer, .failed => s.disposeFails i disposer
  | .managerShutdown _ disposer, _ => s.afterDispose i disposer
  | .disposed disposer, _ => s.afterDispose i disposer
  | .thrown spawner, _ => s.catchSpawn i spawner
  | .handshake m spawner _, .failed => (s.failStart m).catchSpawn i spawner
  | .handshake m spawner step, _ => s.handshakeNext i m spawner step
  | .getState _ spawner, .state market =>
    (s.update fun c => { c with lastMarket := some market }).spawnDone i spawner
  -- A state that cannot be read ends the start all the same.
  | .getState _ spawner, _ => s.spawnDone i spawner
  -- The loop looks again at what is desired before it connects.
  | .backoff, _ => if s.control.Stays then s.endLoop i else s.connectWithRuntimeWatchlist i
  | .pause _, .failed => s.finish i
  | .pause _, _ => (s.update fun c => c.setActual .paused).finish i
  | .resume _, .failed => (s.update fun c => c.setActual .disconnected).connectFromSettings i .resume
  | .resume _, _ => (s.update fun c => c.setActual .running).finish i
  | .flushTurn origin signalIds, _ => s.flushNext i origin signalIds
  | .flush m signalIds, _ => s.flushNext i (some m) signalIds
  | .feedback _, _ => s.finish i

/-- The time at which the job of the task was queued. -/
def jobTime (s : Host) (i : ℕ) : Option ℕ :=
  (s.tasks i).bind fun task =>
    match task.ticket with
    | .ready _ _ time => some time
    | _ => none

/-- No job is left. -/
def Calm (s : Host) : Prop := ∀ i < s.called, s.jobTime i = none

instance (s : Host) : Decidable s.Calm := inferInstanceAs (Decidable (∀ i < s.called, _))

/-- No job was queued before this time. -/
def First (s : Host) (time : ℕ) : Prop := ∀ i < s.called, ∀ time' ∈ s.jobTime i, time ≤ time'

instance (s : Host) (time : ℕ) : Decidable (s.First time) :=
  inferInstanceAs (Decidable (∀ i < s.called, ∀ time' ∈ s.jobTime i, time ≤ time'))

/-- The callbacks of a manager are those of the present generation. -/
def Current (s : Host) (m : ℕ) : Prop := (s.managers m).generation = s.control.managerGeneration

instance (s : Host) (m : ℕ) : Decidable (s.Current m) := inferInstanceAs (Decidable (_ = _))

/-- `exitHandler` and `errorHandler`, which are heard while they are attached. -/
def exitHandler (s : Host) (m : ℕ) : Host :=
  if (s.managers m).stopping = true ∨ (s.managers m).connected = false then s
  else if (s.managers m).notifies = true ∧ s.Current m then (s.cleanup m).handleUnexpectedDisconnect
  else s.cleanup m

/-- The child ends, whether a manager still hears of it or not. -/
def exit (s : Host) (m : ℕ) : Host := (s.childEnds m).exitHandler m

/-- The rest of `manager.shutdown()`: the child has ended, or the grace time is over and it is signalled. -/
def shutdownOver (s : Host) (i m : ℕ) : Host := (((s.kill m).cleanup m).setStopping m false).settle i .done

/-- `manager.shutdown()` throws in its `catch` where `failStart` has taken the child away. -/
def shutdownThrows (s : Host) (i m : ℕ) : Host := (s.setStopping m false).settle i .failed

/-- A message of the core is dispatched. -/
def read (s : Host) (m : ℕ) : CoreOutput → Host
  | .answer i time outcome =>
    match s.tasks i with
    | some ⟨_, .asked time'⟩ => if time = time' then s.settle i outcome else s
    | _ => s
  | .state market =>
    if s.Current m then s.update fun c => { c with lastMarket := some market } else s
  | .alert candidates => if s.Current m then s.enqueueAlert candidates else s

/-- A chunk of stdout with `n` messages. -/
def receive (s : Host) (m : ℕ) : ℕ → Host
  | 0 => s
  | n + 1 =>
    match (s.cores m).outbox with
    | [] => s
    | output :: outbox => ((s.setCore m fun core => { core with outbox := outbox }).read m output).receive m n

/-- The core writes a message. -/
def write (s : Host) (m : ℕ) (output : CoreOutput) : Host :=
  { s.setCore m fun core => { core with outbox := core.outbox ++ [output] } with
    produced := s.produced ++ output.signalIds.map fun id => (m, id) }

/-- The core takes the oldest request. -/
def work (s : Host) (m : ℕ) (request : Request) (inbox : List Request) (accepts : Bool) (market : MarketStateView) :
    Host :=
  (s.setCore m fun core =>
    { core with phase := (coreAnswer core.phase accepts market request.command).1, inbox := inbox }).write m
      (.answer request.task request.time
        (coreAnswer (s.cores m).phase accepts market request.command).2)

end Host

inductive HostEvent
  | start | pause | resume | restartCore | shutdown
  | feedback (signalId : String)
  /-- The job of a task. -/
  | job (task : ℕ)
  /-- `n` messages of a core are read. -/
  | chunk (m n : ℕ)
  /-- The request of a task times out. -/
  | timeout (task : ℕ)
  /-- The delay of the restart loop is over. -/
  | delayOver (task : ℕ)
  /-- The request of `manager.shutdown()` fails or is not answered in time: the child is signalled. -/
  | shutdownUnanswered (task : ℕ)
  | shutdownOver (task : ℕ) (throws : Bool)
  /-- The child ends. -/
  | exit (m : ℕ)
  /-- The stdout of a child closes; the child may live on. -/
  | stdoutClosed (m : ℕ)
  /-- A child raises `error`; it may live on. -/
  | childError (m : ℕ)
  | work (m : ℕ) (accepts : Bool) (market : MarketStateView)
  | writeState (m : ℕ) (market : MarketStateView)
  | writeAlert (m : ℕ) (candidates : List AlertCandidateView)
  /-- The settings change. -/
  | settings (ok : Bool)
  /-- The executable comes or goes. -/
  | spawnable (ok : Bool)

namespace Host

/-- What is handled when no job is left. -/
def handle (s : Host) : HostEvent → Option Host
  | .chunk m n => if (s.managers m).connected then some (s.receive m n) else none
  | .timeout i =>
    match s.tasks i with
    | some ⟨_, .asked _⟩ => some (s.settle i .failed)
    | _ => none
  | .delayOver i =>
    match s.tasks i with
    | some ⟨.backoff, _⟩ => some (s.advance i .backoff .done)
    | _ => none
  | .shutdownUnanswered i =>
    match s.tasks i with
    | some ⟨.managerShutdown m _, .outside⟩ => if (s.managers m).connected then some (s.kill m) else none
    | _ => none
  -- Only a shutdown whose connection is gone can throw.
  | .shutdownOver i throws =>
    match s.tasks i with
    | some ⟨.managerShutdown m _, .outside⟩ =>
      if throws = false then some (s.shutdownOver i m)
      else if (s.managers m).connected = false then some (s.shutdownThrows i m)
      else none
    | _ => none
  | .exit m => if (s.cores m).alive then some (s.exit m) else none
  | .stdoutClosed m => if (s.managers m).connected then some (s.exitHandler m) else none
  | .childError m => if (s.managers m).connected then some (s.exitHandler m) else none
  | _ => none

def step (s : Host) : HostEvent → Option Host
  | .start => some s.start
  | .pause => some s.pause
  | .resume => some s.resume
  | .restartCore => some s.restartCore
  | .shutdown => some s.shutdown
  | .feedback signalId => some (s.submitSignalFeedback signalId)
  -- Jobs run in the order in which they were queued; one that awaits a promise more is queued again.
  | .job i =>
    match s.tasks i with
    | some ⟨point, .ready outcome 0 time⟩ => if s.First time then some (s.advance i point outcome) else none
    | some ⟨point, .ready outcome (rounds + 1) time⟩ =>
      if s.First time then some (s.parkReady i point outcome rounds) else none
    | _ => none
  | .work m accepts market =>
    match (s.cores m).inbox with
    | [] => none
    | request :: inbox => if (s.cores m).alive then some (s.work m request inbox accepts market) else none
  | .writeState m market => if (s.cores m).alive then some (s.write m (.state market)) else none
  | .writeAlert m candidates => if (s.cores m).alive then some (s.write m (.alert candidates)) else none
  | .settings ok => some { s with settingsOk := ok }
  | .spawnable ok => some { s with spawnOk := ok }
  | event => if s.Calm then s.handle event else none

/-- No operation of the controller and no restart loop is in progress. -/
def Quiescent (s : Host) : Prop := ∀ i point, s.point i = some point → point.Aside

end Host

end MarketSentinel.Extension
