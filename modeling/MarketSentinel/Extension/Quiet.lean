import MarketSentinel.Extension.ControllerParts

/-!
# What a part leaves alone

Most parts move one task, and hold and open no manager.

* `Awake`, `Part.point_eq`: a task goes to another point only where it is new, its job runs or its delay is over.
* `Waits`, `Part.waits`: what awaits the shutdown of a manager does so till the event that ends it.
* `Quiet`, `Part.quiet_or`: only a disposal, a creation and a disconnect change which manager is held.
-/

namespace MarketSentinel.Extension

open Lib Lib.Machine

namespace Host

variable {s s' s₀ : Host} {i m : ℕ} {e : HostEvent}

/-! ## Tasks that move -/

/-- A task that can go to another point: it is new, its job runs, or its delay is over. -/
def Awake (s : Host) (i : ℕ) : Prop :=
  s.tasks i = none ∨ (∃ point outcome, s.Runs i point outcome) ∨ s.point i = some .backoff

theorem Runs.point_eq {point : Point} {outcome : Outcome} (hr : s.Runs i point outcome) : s.point i = some point := by
  obtain ⟨time, ht⟩ := hr
  exact congrArg (Option.map Task.point) ht

/-- A job is of a task that is awake. -/
theorem Runs.awake {point : Point} {outcome : Outcome} (hr : s.Runs i point outcome) : s.Awake i :=
  .inr (.inl ⟨_, _, hr⟩)

/-- So is what comes back from a disposal. -/
theorem Returned.awake {disposer : Disposer} (hr : s.Returned i disposer) : s.Awake i := by
  obtain ⟨_, _, hr, _⟩ := hr
  exact hr.awake

/-- The restart loop is awake through its delay. -/
theorem awake_backoff {ticket : Ticket} (ht : s.tasks i = some ⟨.backoff, ticket⟩) : s.Awake i :=
  .inr (.inr (congrArg (Option.map Task.point) ht))

/-- What begins to spawn is new, or awake. -/
theorem Enters.awake {spawner : Spawner} (he : s.Enters i spawner) : s.Awake i := by
  cases he with
  | start hnew _ => exact .inl hnew.2
  | resume hnew _ => exact .inl hnew.2
  | resumeFailed hr _ => exact hr.awake
  | restartCore hr _ => exact hr.awake
  | autoRestart ht _ => exact awake_backoff ht

/-- So is what begins to dispose of a manager. -/
theorem Disposes.awake {disposer : Disposer} (hd : s.Disposes i disposer) : s.Awake i := by
  cases hd with
  | spawnAndStart he => exact he.awake
  | restartCore hnew => exact .inl hnew.2
  | shutdown hr => exact hr.awake

theorem SpawnFails.awake {spawner : Spawner} (hf : s.SpawnFails i spawner) : s.Awake i := by
  obtain ⟨_, _, _, hr, _⟩ := hf
  exact hr.awake

theorem Ends.awake (he : s.Ends i) : s.Awake i := by
  cases he with
  | spawnFails hf _ => exact hf.awake
  | stopped hr _ _ => exact hr.awake
  | shutdown hr => exact hr.awake
  | disposeFails hr _ => exact hr.awake
  | ran hr _ => exact hr.awake
  | paused hr _ => exact hr.awake
  | resumed hr _ => exact hr.awake
  | feedback hr => exact hr.awake

/-- The restart loop ends where it is awake. -/
theorem LoopEnds.awake (he : s.LoopEnds i) : s.Awake i := by
  cases he with
  | stays ht => exact awake_backoff ht
  | spawnFails hf => exact hf.awake
  | ran hr => exact hr.awake

/-- Rewritten tasks stand where they stood. -/
theorem rewrite_point {r : ℕ → Task → Task} (hr : Rewrites r) (j : ℕ) : (s.rewrite r).point j = s.point j := by
  show ((s.tasks j).map _).map _ = (s.tasks j).map _
  cases s.tasks j with
  | none => rfl
  | some task => exact congrArg some (hr.point s.clock task)

theorem cleanup_point (m j : ℕ) : (s.cleanup m).point j = s.point j := rewrite_point (rejected_rewrites m) j

/-- A task whose promise has settled is still at its `await`. -/
theorem settle_point (j : ℕ) (outcome : Outcome) : (s.settle i outcome).point j = s.point j := by
  unfold settle
  split
  · rfl
  · next task ht =>
    by_cases hj : j = i
    · rw [hj, parkReady_goes.self]
      exact (congrArg (Option.map Task.point) ht).symm
    · exact congrArg (Option.map Task.point) (parkReady_goes.other j hj)

/-- No task moves because a child has ended. -/
theorem Hears.point_eq (hh : s.Hears m e s') (j : ℕ) : s'.point j = s.point j := by
  unfold point
  rw [hh.tasks]

/-- A task stays at its point. It gets another ticket at most, and one that awaits something outside the host
does so still, unless that has `ended`. -/
structure Waits (ended : Prop) (before after : Option Task) : Prop where
  point : after.map Task.point = before.map Task.point
  outside : ∀ point, ¬ ended → before = some ⟨point, .outside⟩ → after = some ⟨point, .outside⟩

variable {ended : Prop} {j : ℕ}

/-- A task that nothing has touched waits on. -/
theorem Waits.of_eq {before after : Option Task} (h : after = before) : Waits ended before after :=
  ⟨congrArg (Option.map Task.point) h, fun _ _ ht => h.trans ht⟩

/-- Two stretches of waiting are one. -/
theorem Waits.trans {before between after : Option Task} (h : Waits ended before between)
    (h' : Waits ended between after) : Waits ended before after :=
  ⟨h'.point.trans h.point, fun point hnot ht => h'.outside point hnot (h.outside point hnot ht)⟩

/-- When one task goes on, the others wait. -/
theorem Goes.waits {point : Point} (hg : s.Goes s' i point) (hne : j ≠ i) : Waits ended (s.tasks j) (s'.tasks j) :=
  .of_eq (hg.other j hne)

theorem Hears.waits (hh : s.Hears m e s') : Waits ended (s.tasks j) (s'.tasks j) := .of_eq (by rw [hh.tasks])

/-- What has no time is not rewritten. -/
theorem waits_rewrite {r : ℕ → Task → Task} (hr : Rewrites r) :
    Waits ended (s.tasks j) ((s.rewrite r).tasks j) := by
  refine ⟨rewrite_point hr j, fun point _ ht => ?_⟩
  have hsame : r s.clock ⟨point, .outside⟩ = ⟨point, .outside⟩ := by
    refine (hr.ticket s.clock ⟨point, .outside⟩).resolve_right ?_
    rintro ⟨_, _, _, -, htime⟩
    cases htime
  show (s.tasks j).map (r s.clock) = _
  rw [ht]
  exact congrArg some hsame

/-- A closed client settles requests, and no shutdown. -/
theorem waits_cleanup : Waits ended (s.tasks j) ((s.cleanup m).tasks j) :=
  waits_rewrite (s := s.setManager m ProcessManager.cleaned) (rejected_rewrites m)

/-- A settled promise ends the wait of its own task only. -/
theorem waits_settle {outcome : Outcome} (hend : ∀ point, s.tasks i = some ⟨point, .outside⟩ → j = i → ended) :
    Waits ended (s.tasks j) ((s.settle i outcome).tasks j) := by
  refine ⟨settle_point j outcome, fun point hnot ht => ?_⟩
  have hne : j ≠ i := fun he => hnot (hend point (he ▸ ht) he)
  unfold settle
  split
  · exact ht
  · exact (parkReady_goes.other j hne).trans ht

/-- The part ends the shutdown that a task awaits, and the client is closed. -/
structure Over (s₀ : Host) (e : HostEvent) (s s' : Host) (j : ℕ) : Prop where
  start : s = s₀
  event : ∃ throws, e = .shutdownOver j throws
  closed : ∀ m disposer ticket, s.tasks j = some ⟨.managerShutdown m disposer, ticket⟩ →
    (s'.managers m).connected = false

/-- A task that is not awake waits, and its shutdown is over only by the event that says so. -/
theorem Part.waits (hp : s₀.Part e s s') (h : s.Sound) (hj : ¬ s.Awake j) :
    Waits (s₀.Over e s s' j) (s.tasks j) (s'.tasks j) := by
  have hmoves : ∀ {i : ℕ}, s.Awake i → j ≠ i := fun hi he => hj (he ▸ hi)
  have hcalled : j ≠ s.called := hmoves (.inl (h.unused _ le_rfl))
  -- A task that has asked for something awaits nothing outside.
  have hasked : ∀ {i time : ℕ} {point : Point}, s.tasks i = some ⟨point, .asked time⟩ →
      ∀ point', s.tasks i = some ⟨point', .outside⟩ → j = i → s₀.Over e s s' j := by
    intro i time point ht point' ht'
    cases ht.symm.trans ht'
  cases hp with
  | commanded => exact .of_eq rfl
  | pauses => exact .of_eq rfl
  | actual => exact .of_eq rfl
  | configured => exact .of_eq rfl
  | failed => exact .of_eq rfl
  | ran => exact .of_eq rfl
  | acked => exact .of_eq rfl
  -- A task that moves is awake, or has just been called.
  | call => exact .of_eq rfl
  | finish h => exact .of_eq (finish_other (hmoves h.awake))
  | @round _ _ i rounds time point outcome ht _ =>
    refine ⟨parkReady_point ht j, fun point' _ ht' => ?_⟩
    have hne : j ≠ i := fun he => by cases ht.symm.trans (he ▸ ht')
    exact (parkReady_goes.other j hne).trans ht'
  | dispose hd => exact disposeManager_goes.waits (hmoves hd.awake)
  | thrown he _ => exact parkReady_goes.waits (hmoves he.awake)
  | awaitShutdown hnew => exact awaitPresentations_goes.waits (hmoves (.inl hnew.2))
  | take hr =>
    obtain ⟨_, hgoes, _⟩ := takeManager_goes
    exact hgoes.waits (hmoves hr.awake)
  | create hr => exact createManager_goes.waits (hmoves hr.awake)
  | handshake hr _ => exact handshakeNext_goes.waits (hmoves hr.awake)
  | @failStart _ _ _ m => exact waits_cleanup (s := (s.setStopping m true).kill m)
  | beginLoop => exact .of_eq (Function.update_of_ne hcalled _ _)
  | declineLoop => exact .of_eq (finish_other hcalled)
  | retry hf _ _ => exact Goes.waits (s := s.update _) park_goes (hmoves hf.awake)
  | endLoop he => exact .of_eq (finish_other (hmoves he.awake))
  | ask hnew _ _ => exact request_goes.waits (hmoves (.inl hnew.2))
  | feedback hnew _ _ => exact tell_goes.waits (hmoves (.inl hnew.2))
  | present hr _ => exact tell_goes.waits (hmoves hr.awake)
  | @presented _ _ i _ _ hr _ =>
    exact (Waits.of_eq (finish_other (hmoves hr.awake))).trans (waits_rewrite (released_rewrites _))
  | answered _ _ ht => exact waits_settle (s := s.pop _ _) (hasked ht)
  | skipped => exact .of_eq rfl
  | stateRead => exact .of_eq rfl
  | alertRead => exact Goes.waits (s := s.pop _ _) enqueueAlert_goes hcalled
  | timeout _ ht => exact waits_settle (hasked ht)
  | @shutdownThrows i m _ _ ht hclosed =>
    refine waits_settle (s := s.setStopping m false) fun _ _ he => ⟨rfl, ⟨true, he ▸ rfl⟩, fun m' _ _ ht' => ?_⟩
    cases ht.symm.trans (he ▸ ht')
    rwa [Host.shutdownThrows, settle_managers, setStopping_connected]
  | @shutdownOver i m _ _ ht =>
    refine (waits_cleanup (s := s.kill m) (m := m)).trans ?_
    refine waits_settle (s := ((s.kill m).cleanup m).setStopping m false) fun _ _ he =>
      ⟨rfl, ⟨false, he ▸ rfl⟩, fun m' _ _ ht' => ?_⟩
    cases ht.symm.trans (he ▸ ht')
    rw [Host.shutdownOver, settle_managers, setStopping_connected, cleanup_connected]
  | signal => exact .of_eq rfl
  | unheard _ hh _ => exact hh.waits
  | close _ hh _ _ => exact hh.waits.trans waits_cleanup
  | disconnect _ hh _ _ _ => exact hh.waits.trans waits_cleanup
  | work => exact .of_eq rfl
  | write => exact .of_eq rfl
  | environment => exact .of_eq rfl

/-- A task goes to another point only where it is awake. -/
theorem Part.point_eq (hp : s₀.Part e s s') (h : s.Sound) (hj : ¬ s.Awake j) : s'.point j = s.point j :=
  (hp.waits h hj).point

/-! ## The manager that is held -/

/-- A manager of the present generation is the one that is held. -/
theorem Sound.current_held {m' : ℕ} (h : s.Sound) (hopen : (s.managers m).connected = true) (hcurrent : s.Current m)
    (hm' : s.control.manager = some m') : m' = m := by
  have hlast := h.latest m' hm'
  have hlt := h.lt_created hopen
  by_contra hne
  have hgrows := h.grows m m' (by omega) (by omega)
  have haged := h.aged m' (by omega)
  have hgeneration : (s.managers m).generation = s.control.managerGeneration := hcurrent
  omega

/-- `cleanup` closes one client and opens none. -/
theorem cleanup_closes {m' : ℕ} (hopen : ((s.cleanup m).managers m').connected = true) :
    m' ≠ m ∧ (s.managers m').connected = true := by
  have hne : m' ≠ m := by
    rintro rfl
    rw [cleanup_connected] at hopen
    cases hopen
  exact ⟨hne, (congrArg ProcessManager.connected (setManager_of_ne hne _)).symm.trans hopen⟩

/-- So does a failed start. -/
theorem failStart_closes {m' : ℕ} (hopen : ((s.failStart m).managers m').connected = true) :
    m' ≠ m ∧ (s.managers m').connected = true := by
  rw [failStart, setStopping_connected] at hopen
  obtain ⟨hne, hopen⟩ := cleanup_closes hopen
  exact ⟨hne, (setStopping_connected s m true m').symm.trans hopen⟩

/-- The end of a child opens no client. -/
theorem Hears.connected {m' : ℕ} (hh : s.Hears m e s') (hopen : (s'.managers m').connected = true) :
    (s.managers m').connected = true := hh.managers ▸ hopen

/-- What the handlers hear of starts no child. -/
theorem Hears.alive {m' : ℕ} (hh : s.Hears m e s') (halive : (s'.cores m').alive = true) :
    (s.cores m').alive = true := by
  cases hh with
  | exit =>
    by_cases he : m' = m
    · subst he
      rw [childEnds_alive] at halive
      cases halive
    · rwa [childEnds, setCore_of_ne he] at halive
  | stdoutClosed => exact halive
  | childError => exact halive

/-- Reading from a child leaves it alive. -/
theorem pop_alive {outbox : List CoreOutput} (m' : ℕ) :
    ((s.pop m outbox).cores m').alive = (s.cores m').alive :=
  setCore_keeps (s := s) (f := Core.alive) (g := fun core => { core with outbox := outbox }) (fun _ => rfl) m'

/-- The same manager is held, none is opened, and no child is started. -/
structure Quiet (s s' : Host) : Prop where
  manager : s'.control.manager = s.control.manager
  created : s'.control.created = s.control.created
  connected : ∀ m, (s'.managers m).connected = true → (s.managers m).connected = true
  alive : ∀ m, (s'.cores m).alive = true → (s.cores m).alive = true

/-- A client that can be asked could be asked before. -/
theorem Quiet.ipc (hq : s.Quiet s') (hm : s'.ipc = some m) : s.ipc = some m := by
  obtain ⟨hheld, hopen⟩ := ipc_eq_some.1 hm
  exact ipc_eq_some.2 ⟨hq.manager ▸ hheld, hq.connected m hopen⟩

/-- What leaves the managers, the children and who is held alone is quiet. -/
theorem Quiet.of_eq (hcontrol : s'.control.manager = s.control.manager ∧ s'.control.created = s.control.created)
    (hmanagers : s'.managers = s.managers) (halive : ∀ m, (s'.cores m).alive = (s.cores m).alive) : s.Quiet s' :=
  ⟨hcontrol.1, hcontrol.2, fun _ hm => hmanagers ▸ hm, fun m hm => (halive m).symm.trans hm⟩

/-- Only three parts change which manager is held, and only one of them opens one and starts a child. -/
theorem Part.quiet_or (hp : s₀.Part e s s') : s.Quiet s' ∨
    (∃ i disposer outcome, s = s₀ ∧ e = .job i ∧ s.Runs i (.disposeQueue disposer) outcome ∧
      s' = s.takeManager i disposer) ∨
    (∃ i spawner, s = s₀ ∧ e = .job i ∧ s.Returned i (.spawnAndStart spawner) ∧ s' = s.createManager i spawner) ∨
    ∃ m s₁, s = s₀ ∧ s.Hears m e s₁ ∧ (s.managers m).connected = true ∧ (s.managers m).notifies = true ∧
      s.Current m ∧ s' = (s₁.cleanup m).update HostController.onDisconnect := by
  cases hp with
  | take hr => exact .inr (.inl ⟨_, _, _, rfl, rfl, hr, rfl⟩)
  | create hr => exact .inr (.inr (.inl ⟨_, _, rfl, rfl, hr, rfl⟩))
  | disconnect _ hh hopen hnotifies hcurrent =>
    exact .inr (.inr (.inr ⟨_, _, rfl, hh, hopen, hnotifies, hcurrent, rfl⟩))
  -- The other parts open no manager and keep the one that is held.
  | handshake hr _ =>
    refine .inl ⟨by rw [handshakeNext_control], by rw [handshakeNext_control], fun m hm => ?_, fun m hm => ?_⟩
    · rwa [handshakeNext_connected] at hm
    · rwa [handshakeNext_alive] at hm
  | @failStart _ _ _ m =>
    exact .inl ⟨rfl, rfl, fun m' hm => (failStart_closes hm).2,
      fun m' hm => (kill_alive (s.setStopping m true) m m').symm.trans hm⟩
  | unheard _ hh _ =>
    exact .inl ⟨by rw [hh.control], by rw [hh.control], fun _ hm => hh.connected hm, fun _ hm => hh.alive hm⟩
  | close _ hh _ _ =>
    exact .inl ⟨congrArg HostController.manager hh.control, congrArg HostController.created hh.control,
      fun _ hm => hh.connected (cleanup_closes hm).2, fun _ hm => hh.alive hm⟩
  | @shutdownOver i m =>
    refine .inl ⟨by rw [Host.shutdownOver, settle_control]; rfl, by rw [Host.shutdownOver, settle_control]; rfl,
      fun m' hm => ?_, fun m' hm => ?_⟩
    · rw [Host.shutdownOver, settle_managers, setStopping_connected] at hm
      exact (cleanup_closes hm).2
    · rw [Host.shutdownOver, settle_cores] at hm
      exact (kill_alive s m m').symm.trans hm
  | shutdownThrows =>
    refine .inl ⟨by rw [Host.shutdownThrows, settle_control]; rfl, by rw [Host.shutdownThrows, settle_control]; rfl,
      fun m hm => ?_, fun m hm => ?_⟩
    · rwa [Host.shutdownThrows, settle_managers, setStopping_connected] at hm
    · rwa [Host.shutdownThrows, settle_cores] at hm
  | dispose =>
    refine .inl (.of_eq ?_ disposeManager_managers fun m => ?_)
    · rw [disposeManager_control]
      exact ⟨rfl, rfl⟩
    · rw [disposeManager, awaitPresentations_cores]
      rfl
  | awaitShutdown =>
    refine .inl (.of_eq ?_ awaitPresentations_managers fun m => ?_)
    · rw [awaitPresentations_control]
      exact ⟨rfl, rfl⟩
    · rw [awaitPresentations_cores]
  | ask => exact .inl (.of_eq (by rw [request_control]; exact ⟨rfl, rfl⟩) request_managers request_alive)
  | feedback => exact .inl (.of_eq (by rw [tell_control]; exact ⟨rfl, rfl⟩) tell_managers tell_alive)
  | present => exact .inl (.of_eq (by rw [tell_control]; exact ⟨rfl, rfl⟩) tell_managers tell_alive)
  | answered =>
    refine .inl (.of_eq (by rw [settle_control]; exact ⟨rfl, rfl⟩) settle_managers fun m => ?_)
    rw [settle_cores]
    exact pop_alive m
  | timeout =>
    exact .inl (.of_eq (by rw [settle_control]; exact ⟨rfl, rfl⟩) settle_managers fun m => by rw [settle_cores])
  | skipped => exact .inl (.of_eq ⟨rfl, rfl⟩ rfl pop_alive)
  | stateRead => exact .inl (.of_eq ⟨rfl, rfl⟩ rfl pop_alive)
  | alertRead =>
    refine .inl (.of_eq (by rw [enqueueAlert_control]; exact ⟨rfl, rfl⟩) enqueueAlert_managers fun m => ?_)
    rw [enqueueAlert_cores]
    exact pop_alive m
  | signal m => exact .inl (.of_eq ⟨rfl, rfl⟩ rfl (kill_alive s m))
  | work => exact .inl (.of_eq ⟨rfl, rfl⟩ rfl work_alive)
  | write => exact .inl (.of_eq ⟨rfl, rfl⟩ rfl write_alive)
  | _ => exact .inl (.of_eq ⟨rfl, rfl⟩ rfl fun _ => rfl)

end Host

end MarketSentinel.Extension
