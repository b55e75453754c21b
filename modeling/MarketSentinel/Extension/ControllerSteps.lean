import MarketSentinel.Extension.Frames

/-!
# Steps of the controller

What holds of every state that a run reaches.

* `Sound`: generations grow with the managers, a request is pending only while its client is open, a shutdown is
  over only when the client is closed.
* `Sound.park` to `Sound.environment`: every operation keeps it.
-/

namespace MarketSentinel.Extension

open Lib Lib.Machine

/-- The time of a ticket. -/
def Ticket.time : Ticket → Option ℕ
  | .asked time => some time
  | .queued _ time => some time
  | .outside => none
  | .ready _ _ time => some time

namespace Host

variable {s : Host} {i m : ℕ}

/-- What is known of a task: its time is over, its request is pending at an open client, it knows managers
that were created, and the shutdown that it awaits is over only when the client is closed. -/
structure Fits (s : Host) (task : Task) : Prop where
  timed : ∀ time, task.ticket.time = some time → time < s.clock
  pending : ∀ time, task.ticket = .asked time → ∃ m, task.point.manager = some m ∧ (s.managers m).connected = true
  known : ∀ m, task.point.uses = some m → m < s.control.created
  closing : ∀ m disposer, task.point = .managerShutdown m disposer →
    task.ticket = .outside ∨ (s.managers m).connected = false

structure Sound (s : Host) : Prop where
  unused : ∀ i, s.called ≤ i → s.tasks i = none
  tasks : ∀ i task, s.tasks i = some task → s.Fits task
  fresh : ∀ m, s.control.created ≤ m → (s.managers m).connected = false ∧ (s.cores m).alive = false
  latest : ∀ m, s.control.manager = some m → m + 1 = s.control.created
  aged : ∀ m, m < s.control.created → (s.managers m).generation ≤ s.control.managerGeneration
  grows : ∀ m m', m < m' → m' < s.control.created → (s.managers m).generation < (s.managers m').generation

/-! ## Tasks -/

/-- The manager whose client is asked was created. -/
theorem Fits.uses_manager {task : Task} (h : s.Fits task) (hm : task.point.manager = some m) :
    m < s.control.created := by
  refine h.known m ?_
  cases hp : task.point <;> rw [hp] at hm <;> first | exact hm | cases hm

/-- A task that fits goes on fitting while managers are created and none is closed. -/
theorem Fits.mono {s' : Host} {task : Task} (h : s.Fits task) (hclock : s.clock ≤ s'.clock)
    (hcreated : s.control.created ≤ s'.control.created)
    (hmanagers : ∀ m, m < s.control.created → (s'.managers m).connected = (s.managers m).connected) :
    s'.Fits task := by
  have hmanager : ∀ m, task.point.manager = some m → m < s.control.created := fun m hm => h.uses_manager hm
  refine ⟨fun time ht => (h.timed time ht).trans_le hclock, fun time ht => ?_,
    fun m hm => (h.known m hm).trans_le hcreated, fun m disposer hp => ?_⟩
  · obtain ⟨m, hm, hopen⟩ := h.pending time ht
    exact ⟨m, hm, (hmanagers m (hmanager m hm)).trans hopen⟩
  · refine (h.closing m disposer hp).imp_right fun hclosed => ?_
    exact (hmanagers m (h.known m (by rw [hp]; rfl))).trans hclosed

/-- The tasks have been called. -/
theorem Sound.lt_called (h : s.Sound) {task : Task} (ht : s.tasks i = some task) : i < s.called := by
  by_contra hi
  rw [h.unused i (not_lt.1 hi)] at ht
  cases ht

/-- A call may be parked at any point that fits. -/
theorem Sound.park {point : Point} {ticket : Ticket} (h : s.Sound) (hi : i < s.called)
    (hfits : (s.park i point ticket).Fits ⟨point, ticket⟩) : (s.park i point ticket).Sound := by
  refine ⟨fun j hj => ?_, fun j task hj => ?_, h.fresh, h.latest, h.aged, h.grows⟩
  · have hne : j ≠ i := fun he => by subst he; exact absurd hi (not_lt.2 hj)
    exact (Function.update_of_ne hne _ _).trans (h.unused j hj)
  · change Function.update s.tasks i _ j = _ at hj
    by_cases he : j = i
    · subst he
      rw [Function.update_self] at hj
      obtain rfl := Option.some.inj hj
      exact hfits
    · rw [Function.update_of_ne he] at hj
      exact (h.tasks j task hj).mono (Nat.le_succ _) le_rfl fun _ _ => rfl

/-- A promise has settled of a task that can stand at this point. -/
theorem Sound.parkReady {point : Point} {outcome : Outcome} {rounds : ℕ} (h : s.Sound) (hi : i < s.called)
    (hknown : ∀ m, point.uses = some m → m < s.control.created)
    (hclosed : ∀ m disposer, point = .managerShutdown m disposer → (s.managers m).connected = false) :
    (s.parkReady i point outcome rounds).Sound := by
  refine h.park hi ⟨fun time ht => ?_, nofun, hknown, fun m disposer hp => .inr (hclosed m disposer hp)⟩
  obtain rfl := Option.some.inj ht
  exact Nat.lt_succ_self _

/-- A task may end at any time. -/
theorem Sound.finish (h : s.Sound) : (s.finish i).Sound := by
  have hold : ∀ j task, (s.finish i).tasks j = some task → s.tasks j = some task := by
    intro j task hj
    change Function.update s.tasks i none j = _ at hj
    by_cases he : j = i
    · subst he
      rw [Function.update_self] at hj
      cases hj
    · rwa [Function.update_of_ne he] at hj
  refine ⟨fun j hj => ?_, fun j task hj => (h.tasks j task (hold j task hj)).mono le_rfl le_rfl fun _ _ => rfl,
    h.fresh, h.latest, h.aged, h.grows⟩
  cases ht : (s.finish i).tasks j with
  | none => rfl
  | some task => rw [← hold j task ht]; exact h.unused j hj

/-- A promise may settle, except that of a shutdown whose manager is still connected. -/
theorem Sound.settle {outcome : Outcome} (h : s.Sound)
    (hclosed : ∀ m disposer ticket, s.tasks i = some ⟨.managerShutdown m disposer, ticket⟩ →
      (s.managers m).connected = false) : (s.settle i outcome).Sound := by
  unfold Host.settle
  split
  · exact h
  · next task ht =>
    refine h.parkReady (h.lt_called ht) (h.tasks i task ht).known fun m disposer hp => ?_
    exact hclosed m disposer task.ticket (by rw [ht, ← hp])

/-! ## The controller, the managers and the cores -/

/-- The controller may drop its manager and begin a generation; only a creation takes a new one. -/
theorem Sound.update {f : HostController → HostController} (h : s.Sound)
    (hmanager : ∀ m, (f s.control).manager = some m → s.control.manager = some m)
    (hcreated : (f s.control).created = s.control.created)
    (hgeneration : s.control.managerGeneration ≤ (f s.control).managerGeneration) : (s.update f).Sound where
  unused := h.unused
  tasks j task hj := (h.tasks j task hj).mono le_rfl hcreated.ge fun _ _ => rfl
  fresh m hm := h.fresh m (hcreated ▸ hm)
  latest m hm := (h.latest m (hmanager m hm)).trans hcreated.symm
  aged m hm := (h.aged m (hcreated ▸ hm)).trans hgeneration
  grows m m' hlt hm' := h.grows m m' hlt (hcreated ▸ hm')

/-- A controller that keeps its manager and the counters of managers. -/
theorem Sound.control {f : HostController → HostController} (h : s.Sound)
    (hmanager : (f s.control).manager = s.control.manager) (hcreated : (f s.control).created = s.control.created)
    (hgeneration : (f s.control).managerGeneration = s.control.managerGeneration) : (s.update f).Sound :=
  h.update (fun _ hm => hmanager ▸ hm) hcreated hgeneration.ge

/-- A manager's flags are free, apart from its generation and its client. -/
theorem Sound.setManager {g : ProcessManager → ProcessManager} (h : s.Sound)
    (hgeneration : ∀ pm, (g pm).generation = pm.generation) (hconnected : ∀ pm, (g pm).connected = pm.connected) :
    (s.setManager m g).Sound := by
  have hg := setManager_keeps (s := s) (m := m) hgeneration
  have hc := setManager_keeps (s := s) (m := m) hconnected
  refine ⟨h.unused, fun j task hj => (h.tasks j task hj).mono le_rfl le_rfl fun m' _ => hc m',
    fun m' hm' => ?_, h.latest, fun m' hm' => ?_, fun m' m'' hlt hm'' => ?_⟩
  · rw [hc]; exact h.fresh m' hm'
  · rw [hg]; exact h.aged m' hm'
  · rw [hg, hg]; exact h.grows m' m'' hlt hm''

/-- A core may change as long as no child comes to life. -/
theorem Sound.setCore {g : Core → Core} (h : s.Sound) (halive : ∀ core, (g core).alive = true → core.alive = true) :
    (s.setCore m g).Sound := by
  have ha : ∀ m', ((s.setCore m g).cores m').alive = true → (s.cores m').alive = true := by
    intro m' ha
    by_cases he : m' = m
    · subst he; rw [setCore_self] at ha; exact halive _ ha
    · rwa [setCore_of_ne he] at ha
  refine ⟨h.unused, fun j task hj => (h.tasks j task hj).mono le_rfl le_rfl fun _ _ => rfl,
    fun m' hm' => ⟨(h.fresh m' hm').1, ?_⟩, h.latest, h.aged, h.grows⟩
  cases hm : ((s.setCore m g).cores m').alive with
  | false => rfl
  | true => exact (ha m' hm).symm.trans (h.fresh m' hm').2

/-- A signal ends nothing. -/
theorem Sound.kill (h : s.Sound) : (s.kill m).Sound := h.setCore (by exact fun _ ha => ha)

/-- The child of a connected manager may end: its handlers have yet to hear of it. -/
theorem Sound.childEnds (h : s.Sound) : (s.childEnds m).Sound := h.setCore nofun

theorem Sound.setStopping {stopping : Bool} (h : s.Sound) : (s.setStopping m stopping).Sound :=
  h.setManager (fun _ => rfl) fun _ => rfl

/-- A request of a manager that was created is awaited with its own time. -/
theorem Sound.request {command : HostCommandType} {point : Point} (h : s.Sound) (hi : i < s.called)
    (hm : point.manager = some m) (hlt : m < s.control.created) : (s.request i m command point).Sound := by
  have huses : ∀ m', point.uses = some m' → m' < s.control.created := by
    intro m' hm'
    cases point <;> first | (cases hm; cases hm'; exact hlt) | cases hm
  have hnot : ∀ m' disposer, point ≠ .managerShutdown m' disposer := fun m' disposer hp => by rw [hp] at hm; cases hm
  unfold Host.request
  split
  · next hopen =>
    refine (h.setCore (by exact fun _ ha => ha)).park hi
      ⟨fun time ht => ?_, fun _ _ => ⟨m, hm, hopen⟩, huses, fun m' disposer hp => absurd hp (hnot m' disposer)⟩
    obtain rfl := Option.some.inj ht
    exact Nat.lt_succ_self _
  · exact h.parkReady hi huses fun m' disposer hp => absurd hp (hnot m' disposer)

/-- The presentations are awaited with the number that they have now. -/
theorem Sound.awaitPresentations {point : Point} (h : s.Sound) (hi : i < s.called)
    (hknown : ∀ m, point.uses = some m → m < s.control.created)
    (hnot : ∀ m disposer, point ≠ .managerShutdown m disposer) :
    (s.awaitPresentations i point).Sound := by
  unfold Host.awaitPresentations
  split
  · exact h.parkReady hi hknown fun m disposer hp => absurd hp (hnot m disposer)
  · refine h.park hi ⟨fun time ht => ?_, nofun, hknown, fun m disposer hp => absurd hp (hnot m disposer)⟩
    obtain rfl := Option.some.inj ht
    exact Nat.lt_succ_self _

/-- Tickets can only be made ready, in the order of their times. -/
structure Rewrites (r : ℕ → Task → Task) : Prop where
  point : ∀ clock task, (r clock task).point = task.point
  ticket : ∀ clock task, r clock task = task ∨
    ∃ outcome rounds time, (r clock task).ticket = .ready outcome rounds (clock + time) ∧
      task.ticket.time = some time

theorem Rewrites.of_cases {r : ℕ → Task → Task} (h : ∀ clock task, r clock task = task ∨
    ∃ outcome rounds time, r clock task = { task with ticket := .ready outcome rounds (clock + time) } ∧
      task.ticket.time = some time) : Rewrites r := by
  refine ⟨fun clock task => ?_, fun clock task => ?_⟩
  · rcases h clock task with he | ⟨_, _, _, he, -⟩
    · rw [he]
    · rw [he]
  · rcases h clock task with he | ⟨outcome, rounds, time, he, ht⟩
    · exact .inl he
    · exact .inr ⟨outcome, rounds, time, by rw [he], ht⟩

/-- The rejection of a client's requests moves no task to another point. -/
theorem rejected_rewrites (m : ℕ) : Rewrites (rejected m) := by
  refine .of_cases fun clock task => ?_
  unfold rejected
  split
  · next time ht =>
    split
    · exact .inr ⟨_, _, time, rfl, by rw [ht]; rfl⟩
    · exact .inl rfl
  · exact .inl rfl

/-- What is still pending is not at the closed client. -/
theorem rejected_asked {clock time : ℕ} {task : Task} {point : Point}
    (h : rejected m clock task = ⟨point, .asked time⟩) :
    task = ⟨point, .asked time⟩ ∧ point.manager ≠ some m := by
  unfold rejected at h
  split at h
  · next time' ht =>
    split at h
    · cases (Task.mk.inj h).2
    · next hne => exact ⟨h, by rw [h] at hne; exact hne⟩
  · next hne => exact absurd (by rw [h]) (hne time)

/-- Nor does a presentation that is done. -/
theorem released_rewrites (turn : ℕ) : Rewrites (released turn) := by
  refine .of_cases fun clock task => ?_
  unfold released
  split
  · next time ht =>
    split
    · exact .inr ⟨_, _, time, rfl, by rw [ht]; rfl⟩
    · exact .inl rfl
  · exact .inl rfl

/-- What fits before a rewriting does so after it. -/
theorem Fits.rewrite {r : ℕ → Task → Task} {task : Task} (h : s.Fits task) (hr : Rewrites r) :
    (s.rewrite r).Fits (r s.clock task) := by
  rcases hr.ticket s.clock task with he | ⟨outcome, rounds, time', he, ht'⟩
  · rw [he]
    exact h.mono (Nat.le_add_left _ _) le_rfl fun _ _ => rfl
  · have hpoint := hr.point s.clock task
    refine ⟨fun time ht => ?_, fun time ht => ?_, fun m hm => h.known m (hpoint ▸ hm), fun m disposer hp => ?_⟩
    · rw [he] at ht
      obtain rfl := Option.some.inj ht
      have := h.timed time' ht'
      show s.clock + time' < s.clock + s.clock
      omega
    · rw [he] at ht
      cases ht
    · rcases h.closing m disposer (hpoint ▸ hp) with hout | hclosed
      · rw [hout] at ht'
        cases ht'
      · exact .inr hclosed

/-- Closing a client rejects what was pending at it; its child may live on. -/
theorem Sound.cleanup (h : s.Sound) : (s.cleanup m).Sound := by
  have hself : (s.cleanup m).managers m = (s.managers m).cleaned := setManager_self ..
  have hne : ∀ m', m' ≠ m → (s.cleanup m).managers m' = s.managers m' := fun m' he => setManager_of_ne he _
  have hg : ∀ m', ((s.cleanup m).managers m').generation = (s.managers m').generation := by
    intro m'
    by_cases he : m' = m
    · rw [he, hself]; rfl
    · rw [hne m' he]
  have hc : ∀ m', (s.managers m').connected = false → ((s.cleanup m).managers m').connected = false := by
    intro m' hclosed
    by_cases he : m' = m
    · rw [he, hself]; rfl
    · rw [hne m' he]; exact hclosed
  refine ⟨fun j hj => Option.map_eq_none_iff.2 (h.unused j hj), fun j task hj => ?_,
    fun m' hm' => ⟨hc m' (h.fresh m' hm').1, (h.fresh m' hm').2⟩, h.latest, fun m' hm' => ?_,
    fun m' m'' hlt hm'' => ?_⟩
  · obtain ⟨task₀, h₀, rfl⟩ := Option.map_eq_some_iff.1 (show (s.tasks j).map (rejected m s.clock) = _ from hj)
    have hfits := (h.tasks j task₀ h₀).rewrite (rejected_rewrites m)
    refine ⟨hfits.timed, fun time ht => ?_, hfits.known, fun m' disposer hp =>
      (hfits.closing m' disposer hp).imp_right (hc m')⟩
    -- What is still pending is not at the closed client.
    obtain ⟨m', hm', hopen⟩ := hfits.pending time ht
    have hother : m' ≠ m := by
      rintro rfl
      have hasked : rejected m' s.clock task₀ = ⟨(rejected m' s.clock task₀).point, .asked time⟩ := by rw [← ht]
      exact (rejected_asked hasked).2 hm'
    exact ⟨m', hm', by rw [hne m' hother]; exact hopen⟩
  · rw [hg]; exact h.aged m' hm'
  · rw [hg, hg]; exact h.grows m' m'' hlt hm''

/-- The next ones in the queue are released. -/
theorem Sound.presentationDone (h : s.Sound) : s.presentationDone.Sound :=
  ⟨fun j hj => Option.map_eq_none_iff.2 (h.unused j hj), fun j task hj => by
    obtain ⟨task₀, h₀, rfl⟩ := Option.map_eq_some_iff.1
      (show (s.tasks j).map (released (s.presentationsDone + 1) s.clock) = _ from hj)
    exact ((h.tasks j task₀ h₀).rewrite (released_rewrites _)).mono le_rfl le_rfl fun _ _ => rfl,
    h.fresh, h.latest, h.aged, h.grows⟩

/-- A failed start signals the child and closes its manager. -/
theorem Sound.failStart (h : s.Sound) : (s.failStart m).Sound :=
  h.setStopping.kill.cleanup.setStopping

/-! ## The operations -/

theorem Sound.nextTask (h : s.Sound) : Sound { s with called := s.called + 1 } :=
  ⟨fun j hj => h.unused j (Nat.le_of_succ_le hj),
    fun j task hj => (h.tasks j task hj).mono le_rfl le_rfl fun _ _ => rfl, h.fresh, h.latest, h.aged, h.grows⟩

/-- A disposal begins. -/
theorem Sound.disposeManager {disposer : Disposer} (h : s.Sound) (hi : i < s.called) :
    (s.disposeManager i disposer).Sound :=
  (h.update (fun _ hm => hm) rfl (Nat.le_succ _) : (s.update _).Sound).awaitPresentations hi nofun nofun

/-- The manager that is taken is shut down, or was closed before. -/
theorem Sound.takeManager {disposer : Disposer} (h : s.Sound) (hi : i < s.called) :
    (s.takeManager i disposer).Sound := by
  have h' : (s.update HostController.dropManager).Sound := h.update nofun rfl le_rfl
  unfold Host.takeManager Host.shutdownManager
  split
  · exact h'.parkReady hi nofun nofun
  · next m hm =>
    have hlt : m < s.control.created := by
      have := h.latest m hm
      omega
    split
    · refine (h'.setStopping.setCore (by exact fun _ ha => ha)).park hi
        ⟨nofun, nofun, fun m' hm' => ?_, fun _ _ _ => .inl rfl⟩
      obtain rfl := Option.some.inj hm'
      exact hlt
    · exact h'.parkReady hi nofun nofun

/-- The new manager is the latest, of the latest generation. -/
theorem Sound.adopt {s' : Host} {pm : ProcessManager} (h : s.Sound) (hcontrol : s'.control = s.control.adopt)
    (hmanagers : s'.managers = Function.update s.managers s.control.created pm) (htasks : s'.tasks = s.tasks)
    (hcalled : s'.called = s.called) (hclock : s'.clock = s.clock)
    (hgeneration : pm.generation = s.control.managerGeneration + 1)
    (hothers : ∀ m, m ≠ s.control.created → s'.cores m = s.cores m) : s'.Sound := by
  have hm : ∀ m, m ≠ s.control.created → s'.managers m = s.managers m := fun m he => by
    rw [hmanagers]; exact Function.update_of_ne he _ _
  have hnew : s'.managers s.control.created = pm := by rw [hmanagers]; exact Function.update_self ..
  have hcreated : s'.control.created = s.control.created + 1 := by rw [hcontrol]; rfl
  have hgen : s'.control.managerGeneration = s.control.managerGeneration + 1 := by rw [hcontrol]; rfl
  refine ⟨by rw [hcalled, htasks]; exact h.unused, fun j task hj => ?_, fun m hlt => ?_, fun m hm => ?_,
    fun m hlt => ?_, fun m m' hlt hlt' => ?_⟩
  · refine (h.tasks j task (htasks ▸ hj)).mono hclock.ge (by omega) fun m hlt => ?_
    rw [hm m hlt.ne]
  · rw [hm m (by omega), hothers m (by omega)]
    exact h.fresh m (by omega)
  · rw [hcontrol] at hm
    obtain rfl := Option.some.inj (show some s.control.created = some m from hm)
    exact hcreated.symm
  · by_cases he : m = s.control.created
    · rw [he, hnew, hgeneration, hgen]
    · rw [hm m he, hgen]
      exact (h.aged m (by omega)).trans (Nat.le_succ _)
  · -- The generations grow with the managers, and the new one has the highest.
    rw [hm m (by omega)]
    by_cases he : m' = s.control.created
    · rw [he, hnew, hgeneration]
      exact Nat.lt_succ_of_le (h.aged m (by omega))
    · rw [hm m' he]
      exact h.grows m m' hlt (by omega)

/-- The manager that is created has a number of its own, and the present generation. -/
theorem Sound.createManager {spawner : Spawner} (h : s.Sound) (hi : i < s.called) :
    (s.createManager i spawner).Sound := by
  unfold Host.createManager Host.spawnManager
  split
  · refine Sound.request (h.adopt rfl rfl rfl rfl rfl rfl fun m he => ?_) hi (by rfl) (Nat.lt_succ_self _)
    exact Function.update_of_ne he _ _
  · exact Sound.parkReady (h.adopt rfl rfl rfl rfl rfl rfl fun _ _ => rfl) hi nofun nofun

/-- The handshake asks the manager that it began with. -/
theorem Sound.handshakeNext {spawner : Spawner} {step : HandshakeStep} (h : s.Sound) (hi : i < s.called)
    (hlt : m < s.control.created) : (s.handshakeNext i m spawner step).Sound := by
  have hlive : (s.setManager m fun pm => { pm with live := true }).Sound := h.setManager (fun _ => rfl) fun _ => rfl
  cases step with
  | hello => exact h.request hi rfl hlt
  | setWatchlist => exact h.request hi rfl hlt
  | start => exact hlive.request hi rfl hlt

/-- The presentations and the messages that were sent play no part. -/
theorem Sound.notes (h : s.Sound) (queued done : ℕ) (sent : List SignalMessage) (produced : List (ℕ × String)) :
    Sound { s with
      presentationsQueued := queued, presentationsDone := done, sent := sent, produced := produced } :=
  ⟨h.unused, fun j task hj => (h.tasks j task hj).mono le_rfl le_rfl fun _ _ => rfl, h.fresh, h.latest, h.aged, h.grows⟩

/-- A message about a signal goes to a manager that was created. -/
theorem Sound.tell {type : SignalMessageType} {signalId : String} {point : Point} (h : s.Sound) (hi : i < s.called)
    (hm : point.manager = some m) (hlt : m < s.control.created) : (s.tell i m type signalId point).Sound := by
  unfold Host.tell Host.noteSent
  split
  · exact Sound.request (h.notes s.presentationsQueued s.presentationsDone _ s.produced) hi hm hlt
  · exact h.request hi hm hlt

/-- A manager with a client has been created. -/
theorem Sound.lt_created (h : s.Sound) (hopen : (s.managers m).connected = true) : m < s.control.created := by
  by_contra hge
  rw [(h.fresh m (not_lt.1 hge)).1] at hopen
  cases hopen

/-- A presentation is queued behind the others. -/
theorem Sound.queuePresentation {ids : List String} (h : s.Sound) (hi : i < s.called) :
    (s.queuePresentation i ids).Sound := by
  have hs : (s.awaitPresentations i (.flushTurn s.ipc ids)).Sound :=
    h.awaitPresentations hi (fun m hm => h.lt_created (ipc_eq_some.1 hm).2) nofun
  exact hs.notes _ _ _ _

theorem Sound.enqueueAlert {candidates : List AlertCandidateView} (h : s.Sound) :
    (s.enqueueAlert candidates).Sound := by
  have h' : (s.update fun c => c.rememberAll candidates).Sound := h.control rfl rfl rfl
  exact h'.nextTask.queuePresentation (Nat.lt_succ_self _)

/-- A core may write at any time. -/
theorem Sound.write {output : CoreOutput} (h : s.Sound) : (s.write m output).Sound :=
  (h.setCore (by exact fun _ ha => ha)).notes _ _ _ _

/-- The settings and the executable are not the controller's. -/
theorem Sound.environment (h : s.Sound) (settingsOk spawnOk : Bool) :
    Sound { s with settingsOk := settingsOk, spawnOk := spawnOk } :=
  ⟨h.unused, fun j task hj => (h.tasks j task hj).mono le_rfl le_rfl fun _ _ => rfl, h.fresh, h.latest, h.aged, h.grows⟩

/-- The host when the extension is activated. -/
def initial (maxRetries : ℕ) : Host := { control := { maxRetries := maxRetries } }

/-- Nothing has been called or created at first. -/
theorem sound_initial (maxRetries : ℕ) : (initial maxRetries).Sound where
  unused _ _ := rfl
  fresh _ _ := ⟨rfl, rfl⟩
  latest _ hm := nomatch hm
  aged _ hm := nomatch hm
  grows _ _ _ hm := nomatch hm
  tasks _ _ hj := nomatch hj

end Host

end MarketSentinel.Extension
