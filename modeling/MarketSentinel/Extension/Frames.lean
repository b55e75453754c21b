import MarketSentinel.Extension.Controller

/-!
# What the operations leave alone

Most operations change one task, one manager or one core, and the rest is as it was.

* `setManager_keeps`, `setCore_keeps`: what a change of one manager or core keeps, it keeps of all.
* `Goes`: a task is at a point now, and the others are where they were.
* `takeManager_goes`, `createManager_goes`: where a disposal and a creation go.
* `takeManager_alive` to `write_alive`: no operation of the host ends a child.
-/

namespace MarketSentinel.Extension

open Lib Lib.Machine

/-- Where `spawnAndHandshake` goes after a request that succeeded. -/
def HandshakeStep.next (m : ℕ) (spawner : Spawner) : HandshakeStep → Point
  | .hello => .handshake m spawner .setWatchlist
  | .setWatchlist => .handshake m spawner .start
  | .start => .getState m spawner

namespace Host

variable {s : Host} {i m : ℕ}

/-! ## What the operations leave alone -/

@[simp] theorem setManager_self (s : Host) (m : ℕ) (g : ProcessManager → ProcessManager) :
    (s.setManager m g).managers m = g (s.managers m) := Function.update_self ..

/-- The other managers are as they were. -/
theorem setManager_of_ne {m' : ℕ} (hne : m' ≠ m) (g : ProcessManager → ProcessManager) :
    (s.setManager m g).managers m' = s.managers m' := Function.update_of_ne hne _ _

@[simp] theorem setCore_self (s : Host) (m : ℕ) (g : Core → Core) : (s.setCore m g).cores m = g (s.cores m) :=
  Function.update_self ..

/-- The other children are as they were. -/
theorem setCore_of_ne {m' : ℕ} (hne : m' ≠ m) (g : Core → Core) : (s.setCore m g).cores m' = s.cores m' :=
  Function.update_of_ne hne _ _

/-- What a change of one manager keeps, it keeps of all. -/
theorem setManager_keeps {α : Type*} {f : ProcessManager → α} {g : ProcessManager → ProcessManager}
    (hg : ∀ pm, f (g pm) = f pm) (m' : ℕ) : f ((s.setManager m g).managers m') = f (s.managers m') := by
  by_cases he : m' = m
  · rw [he, setManager_self, hg]
  · rw [setManager_of_ne he]

/-- What a change of one core keeps, it keeps of all. -/
theorem setCore_keeps {α : Type*} {f : Core → α} {g : Core → Core} (hg : ∀ core, f (g core) = f core) (m' : ℕ) :
    f ((s.setCore m g).cores m') = f (s.cores m') := by
  by_cases he : m' = m
  · rw [he, setCore_self, hg]
  · rw [setCore_of_ne he]

/-- A signal ends no child. -/
theorem kill_alive (s : Host) (m m' : ℕ) : ((s.kill m).cores m').alive = (s.cores m').alive :=
  setCore_keeps (s := s) (f := Core.alive) (by exact fun _ => rfl) m'

/-- A child that has ended does not live. -/
@[simp] theorem childEnds_alive (s : Host) (m : ℕ) : ((s.childEnds m).cores m).alive = false :=
  congrArg Core.alive (setCore_self ..)

/-- `stopping` says nothing about the client. -/
theorem setStopping_connected (s : Host) (m : ℕ) (stopping : Bool) (m' : ℕ) :
    ((s.setStopping m stopping).managers m').connected = (s.managers m').connected :=
  setManager_keeps (f := ProcessManager.connected) (by exact fun _ => rfl) m'

/-- `cleanup` closes the client. -/
@[simp] theorem cleanup_connected (s : Host) (m : ℕ) : ((s.cleanup m).managers m).connected = false :=
  congrArg ProcessManager.connected (setManager_self s m _)

/-- The client that is asked is that of the held manager, and open. -/
theorem ipc_eq_some : s.ipc = some m ↔ s.control.manager = some m ∧ (s.managers m).connected = true :=
  Option.filter_eq_some_iff

section

variable {point : Point} {outcome : Outcome} {command : HostCommandType}

/-- The wait for the presentations is the task's alone. -/
@[simp] theorem awaitPresentations_control : (s.awaitPresentations i point).control = s.control := by
  unfold awaitPresentations; split <;> rfl

@[simp] theorem awaitPresentations_managers : (s.awaitPresentations i point).managers = s.managers := by
  unfold awaitPresentations; split <;> rfl

@[simp] theorem awaitPresentations_cores : (s.awaitPresentations i point).cores = s.cores := by
  unfold awaitPresentations; split <;> rfl

theorem awaitPresentations_clock : s.clock ≤ (s.awaitPresentations i point).clock := by
  unfold awaitPresentations
  split <;> exact Nat.le_succ _

theorem settle_clock : s.clock ≤ (s.settle i outcome).clock := by
  unfold settle
  split
  · exact le_rfl
  · exact Nat.le_succ _

/-- Who awaits a promise has to come back before the controller changes. -/
@[simp] theorem settle_control : (s.settle i outcome).control = s.control := by
  unfold settle; split <;> rfl

@[simp] theorem settle_managers : (s.settle i outcome).managers = s.managers := by
  unfold settle; split <;> rfl

@[simp] theorem settle_cores : (s.settle i outcome).cores = s.cores := by
  unfold settle; split <;> rfl

/-- A request changes the task and the inbox of a core, not the controller. -/
@[simp] theorem request_control : (s.request i m command point).control = s.control := by
  unfold request; split <;> rfl

@[simp] theorem request_managers : (s.request i m command point).managers = s.managers := by
  unfold request; split <;> rfl

/-- Nor does it start or end a child. -/
theorem request_alive (m' : ℕ) : ((s.request i m command point).cores m').alive = (s.cores m').alive := by
  unfold request
  split
  · exact setCore_keeps (s := s) (f := Core.alive)
      (g := fun core => { core with inbox := core.inbox ++ [⟨i, s.clock, command⟩] }) (fun _ => rfl) m'
  · rfl

/-- A message about a signal is a request. -/
@[simp] theorem tell_control {type : SignalMessageType} {signalId : String} :
    (s.tell i m type signalId point).control = s.control := by
  unfold tell noteSent
  split <;> exact request_control

@[simp] theorem tell_managers {type : SignalMessageType} {signalId : String} :
    (s.tell i m type signalId point).managers = s.managers := by
  unfold tell noteSent
  split <;> exact request_managers

/-- The handshake is between the manager and its core. -/
@[simp] theorem handshakeNext_control {spawner : Spawner} {step : HandshakeStep} :
    (s.handshakeNext i m spawner step).control = s.control := by
  cases step <;> exact request_control

/-- An alert is remembered, and nothing else of the controller changes. -/
@[simp] theorem enqueueAlert_control {candidates : List AlertCandidateView} :
    (s.enqueueAlert candidates).control = s.control.rememberAll candidates := awaitPresentations_control

@[simp] theorem enqueueAlert_cores {candidates : List AlertCandidateView} :
    (s.enqueueAlert candidates).cores = s.cores := awaitPresentations_cores

theorem enqueueAlert_clock {candidates : List AlertCandidateView} : s.clock ≤ (s.enqueueAlert candidates).clock :=
  awaitPresentations_clock (s := { s.update fun c => c.rememberAll candidates with called := s.called + 1 })

@[simp] theorem enqueueAlert_managers {candidates : List AlertCandidateView} :
    (s.enqueueAlert candidates).managers = s.managers := awaitPresentations_managers

/-- The end of the handshake makes the manager live; the clients stay as they are. -/
theorem handshakeNext_connected {spawner : Spawner} {step : HandshakeStep} (m' : ℕ) :
    ((s.handshakeNext i m spawner step).managers m').connected = (s.managers m').connected := by
  cases step with
  | hello => exact congrArg (fun managers => (managers m').connected) request_managers
  | setWatchlist => exact congrArg (fun managers => (managers m').connected) request_managers
  | start =>
    refine (congrArg (fun managers => (managers m').connected) request_managers).trans ?_
    exact setManager_keeps (s := s) (f := ProcessManager.connected) (g := fun pm => { pm with live := true })
      (fun _ => rfl) m'

/-- A task is at a point now, and the others are where they were. -/
structure Goes (s s' : Host) (i : ℕ) (point : Point) : Prop where
  self : s'.point i = some point
  other : ∀ j, j ≠ i → s'.tasks j = s.tasks j

/-- A parked task goes to its point. -/
theorem park_goes {ticket : Ticket} : s.Goes (s.park i point ticket) i point := by
  refine ⟨?_, fun _ he => Function.update_of_ne he _ _⟩
  show (Function.update s.tasks i _ i).map _ = _
  rw [Function.update_self]
  rfl

/-- The other tasks stay where they are. -/
theorem Goes.point_eq {s' : Host} {j : ℕ} (hg : s.Goes s' i point) (hne : j ≠ i) : s'.point j = s.point j :=
  congrArg (Option.map Task.point) (hg.other j hne)

/-- The end of a task is no other task's. -/
theorem finish_other {j : ℕ} (hne : j ≠ i) : (s.finish i).tasks j = s.tasks j := Function.update_of_ne hne _ _

/-- It stands nowhere any more. -/
theorem finish_self : (s.finish i).point i = none := by
  show (Function.update s.tasks i none i).map _ = none
  rw [Function.update_self]
  rfl

/-- A task that still stands somewhere is another one. -/
theorem finish_point {j : ℕ} (hp : (s.finish i).point j = some point) : j ≠ i ∧ s.point j = some point := by
  have hne : j ≠ i := by
    rintro rfl
    rw [finish_self] at hp
    cases hp
  exact ⟨hne, (congrArg (Option.map Task.point) (finish_other hne)).symm.trans hp⟩

theorem parkReady_goes {rounds : ℕ} : s.Goes (s.parkReady i point outcome rounds) i point := park_goes

theorem awaitPresentations_goes : s.Goes (s.awaitPresentations i point) i point := by
  unfold awaitPresentations
  split
  · exact parkReady_goes
  · exact park_goes

/-- A job that goes round again stays at its point. -/
theorem parkReady_point {ticket : Ticket} {rounds : ℕ} (ht : s.tasks i = some ⟨point, ticket⟩) (j : ℕ) :
    (s.parkReady i point outcome rounds).point j = s.point j := by
  by_cases he : j = i
  · rw [he, parkReady_goes.self]
    exact (congrArg (Option.map Task.point) ht).symm
  · exact parkReady_goes.point_eq he

/-- A disposal begins with a new generation. -/
@[simp] theorem disposeManager_control {disposer : Disposer} :
    (s.disposeManager i disposer).control = s.control.retire := awaitPresentations_control

@[simp] theorem disposeManager_managers {disposer : Disposer} :
    (s.disposeManager i disposer).managers = s.managers := awaitPresentations_managers

/-- It goes on when the presentations are done. -/
theorem disposeManager_goes {disposer : Disposer} :
    s.Goes (s.disposeManager i disposer) i (.disposeQueue disposer) :=
  ⟨awaitPresentations_goes.self, awaitPresentations_goes.other⟩

/-- The presentation of an alert is a task of its own. -/
theorem enqueueAlert_goes {candidates : List AlertCandidateView} :
    s.Goes (s.enqueueAlert candidates) s.called
      (.flushTurn s.ipc (candidates.map fun candidate => candidate.signal.id)) :=
  ⟨awaitPresentations_goes.self, awaitPresentations_goes.other⟩

/-- A request is awaited at its point, on a closed client too. -/
theorem request_goes : s.Goes (s.request i m command point) i point := by
  unfold request
  split
  · exact ⟨park_goes.self, park_goes.other⟩
  · exact parkReady_goes

/-- So is a message about a signal. -/
theorem tell_goes {type : SignalMessageType} {signalId : String} :
    s.Goes (s.tell i m type signalId point) i point := by
  unfold tell noteSent
  split
  · exact ⟨request_goes.self, request_goes.other⟩
  · exact request_goes

/-- The handshake goes on to its next request, and after the last one to `getState`. -/
theorem handshakeNext_goes {spawner : Spawner} {step : HandshakeStep} :
    s.Goes (s.handshakeNext i m spawner step) i (step.next m spawner) := by
  cases step with
  | hello => exact request_goes
  | setWatchlist => exact request_goes
  | start => exact ⟨request_goes.self, request_goes.other⟩

/-- A manager that is created says hello, if its child can be spawned. -/
theorem createManager_goes {spawner : Spawner} :
    s.Goes (s.createManager i spawner) i
      (if s.spawnOk then .handshake s.control.created spawner .hello else .thrown spawner) := by
  unfold createManager spawnManager
  split
  · next hok =>
    rw [if_pos (by exact hok)]
    exact ⟨request_goes.self, request_goes.other⟩
  · next hok =>
    rw [if_neg (by exact hok)]
    exact ⟨parkReady_goes.self, parkReady_goes.other⟩

/-- It is the one that is held. -/
@[simp] theorem createManager_control {spawner : Spawner} :
    (s.createManager i spawner).control = s.control.adopt := by
  unfold createManager spawnManager
  split
  · exact request_control
  · rfl

@[simp] theorem createManager_managers {spawner : Spawner} :
    (s.createManager i spawner).managers = Function.update s.managers s.control.created
      { generation := s.control.managerGeneration + 1, connected := s.spawnOk } := by
  unfold createManager spawnManager
  split
  · next hok =>
    rw [show s.spawnOk = true from hok]
    exact request_managers
  · next hok =>
    rw [show s.spawnOk = false from Bool.eq_false_of_not_eq_true hok]
    rfl

/-- Nothing is held once the manager is taken. -/
@[simp] theorem takeManager_control {disposer : Disposer} :
    (s.takeManager i disposer).control = s.control.dropManager := by
  unfold takeManager shutdownManager
  split
  · rfl
  · split <;> rfl

/-- So no client is asked. -/
theorem takeManager_ipc {disposer : Disposer} : (s.takeManager i disposer).ipc = none := by
  unfold ipc
  rw [takeManager_control]
  rfl

/-- The manager that is held after a creation has a client only if its child was spawned. -/
theorem createManager_ipc {spawner : Spawner} (hm : (s.createManager i spawner).ipc = some m) :
    m = s.control.created ∧ s.spawnOk = true := by
  obtain ⟨hheld, hopen⟩ := ipc_eq_some.1 hm
  rw [createManager_control] at hheld
  obtain rfl := Option.some.inj (show some s.control.created = some m from hheld)
  rw [createManager_managers, Function.update_self] at hopen
  exact ⟨rfl, hopen⟩

/-- Where `disposeManager` goes after the presentation queue: a manager with a core is shut down. -/
theorem takeManager_goes {disposer : Disposer} :
    ∃ point, s.Goes (s.takeManager i disposer) i point ∧
      (point = .disposed disposer ∧ s.ipc = none ∨ ∃ m, s.ipc = some m ∧ point = .managerShutdown m disposer) := by
  unfold takeManager shutdownManager ipc
  split
  · next hnone =>
    refine ⟨_, ⟨parkReady_goes.self, parkReady_goes.other⟩, .inl ⟨rfl, ?_⟩⟩
    rw [hnone]
    rfl
  · next m hm =>
    rw [hm]
    split
    · next hopen => exact ⟨_, ⟨park_goes.self, park_goes.other⟩, .inr ⟨m, Option.filter_some_pos hopen, rfl⟩⟩
    · next hclosed =>
      exact ⟨_, ⟨parkReady_goes.self, parkReady_goes.other⟩, .inl ⟨rfl,
        Option.filter_some_neg (Bool.eq_false_of_not_eq_true hclosed)⟩⟩

end

/-! ## Clients and children -/

/-- A manager that is taken with its client is shut down. -/
theorem takeManager_shuts {disposer : Disposer} (hm : s.ipc = some m) :
    (s.takeManager i disposer).tasks i = some ⟨.managerShutdown m disposer, .outside⟩ := by
  obtain ⟨hheld, hopen⟩ := ipc_eq_some.1 hm
  unfold takeManager shutdownManager
  rw [hheld]
  show Host.tasks (if (s.managers m).connected = true then _ else _) i = _
  rw [if_pos hopen]
  exact Function.update_self ..

/-- The manager that is taken keeps its client until it is shut down. -/
theorem takeManager_connected {disposer : Disposer} (m : ℕ) :
    ((s.takeManager i disposer).managers m).connected = (s.managers m).connected := by
  unfold takeManager shutdownManager
  split
  · rfl
  · split
    · exact setStopping_connected (s.update HostController.dropManager) _ true m
    · rfl

/-- And its child. -/
theorem takeManager_alive {disposer : Disposer} (m : ℕ) :
    ((s.takeManager i disposer).cores m).alive = (s.cores m).alive := by
  unfold takeManager shutdownManager
  split
  · rfl
  · next m' _ =>
    split
    · exact setCore_keeps (s := s) (f := Core.alive)
        (g := fun core => { core with inbox := core.inbox ++ [⟨i, s.clock, .shutdown⟩] }) (fun _ => rfl) m
    · rfl

/-- The core of a new manager lives if it was spawned; the others are as they were. -/
theorem createManager_alive {spawner : Spawner} (m : ℕ) : ((s.createManager i spawner).cores m).alive =
    if m = s.control.created ∧ s.spawnOk = true then true else (s.cores m).alive := by
  unfold createManager spawnManager
  split
  · next hok =>
    have hspawn : s.spawnOk = true := hok
    rw [request_alive]
    by_cases he : m = s.control.created
    · rw [if_pos ⟨he, hspawn⟩, he, setCore_self]
    · rw [if_neg fun hand => he hand.1, setCore_of_ne he]
      rfl
  · next hok =>
    rw [if_neg fun hand => hok hand.2]
    rfl

theorem handshakeNext_alive {spawner : Spawner} {step : HandshakeStep} (m' : ℕ) :
    ((s.handshakeNext i m spawner step).cores m').alive = (s.cores m').alive := by
  cases step <;> exact request_alive m'

/-- Messages reach a child and leave it alive. -/
theorem tell_alive {type : SignalMessageType} {signalId : String} {point : Point} (m' : ℕ) :
    ((s.tell i m type signalId point).cores m').alive = (s.cores m').alive := by
  unfold tell noteSent
  split <;> exact request_alive m'

/-- What a child writes does not end it. -/
theorem write_alive {output : CoreOutput} (m' : ℕ) : ((s.write m output).cores m').alive = (s.cores m').alive :=
  setCore_keeps (s := s) (f := Core.alive) (g := fun core => { core with outbox := core.outbox ++ [output] })
    (fun _ => rfl) m'

/-- Nor does the request that it handles. -/
theorem work_alive {request : Request} {inbox : List Request} {accepts : Bool} {market : MarketStateView} (m' : ℕ) :
    ((s.work m request inbox accepts market).cores m').alive = (s.cores m').alive :=
  (write_alive m').trans (setCore_keeps (s := s) (f := Core.alive)
    (g := fun core => { core with phase := (coreAnswer core.phase accepts market request.command).1, inbox := inbox })
    (fun _ => rfl) m')

end Host

end MarketSentinel.Extension
