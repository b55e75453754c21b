import MarketSentinel.Extension.OneCore

/-!
# Who attends to a manager

A manager that is held is of the present generation, or someone will take it; one that is connected and not live
yet is in its handshake; one that the controller shuts down is stopping (`Attended`).
-/

namespace MarketSentinel.Extension

open Lib Lib.Machine

/-- A point at which a manager is taken care of: it will be taken, or its start goes on. -/
def Point.Attends : Point → Prop
  | disposeQueue _ | handshake .. => True
  | _ => False

namespace Host

variable {s s' s₀ : Host} {i m : ℕ} {e : HostEvent}

/-- Who will deal with a manager: one that is held is of the present generation or will be taken, one that is not
live yet is in its handshake. -/
structure Attended (s : Host) : Prop where
  steady : ∀ m, s.control.manager = some m → (s.managers m).stopping = false
  once : ∀ m, (s.managers m).connected = true → (s.managers m).disconnectSent = false
  held : ∀ m, s.control.manager = some m → s.Current m ∨ ∃ j disposer, s.point j = some (.disposeQueue disposer)
  starting : ∀ m, (s.managers m).connected = true → (s.managers m).live = false →
    ∃ j spawner step, s.point j = some (.handshake m spawner step)
  stops : ∀ j m disposer, s.point j = some (.managerShutdown m disposer) → (s.managers m).connected = true →
    (s.managers m).stopping = true
  alive : ∀ m, (s.managers m).connected = true → (s.managers m).stopping = false → (s.cores m).alive = true

/-! ## Tasks that stay -/

/-- A task that takes care of a manager does so still, unless the manager is closed; no other manager is shut
down. -/
structure Still (s s' : Host) : Prop where
  leaves : ∀ j point, s.point j = some point → point.Attends →
    s'.point j = some point ∨ ∃ m, point.manager = some m ∧ (s.managers m).connected = false
  arrives : ∀ j m disposer, s'.point j = some (.managerShutdown m disposer) →
    s.point j = some (.managerShutdown m disposer)

/-- Tasks that do not move are still. -/
theorem Still.of_eq (h : ∀ j, s'.point j = s.point j) : s.Still s' :=
  ⟨fun j _ hj _ => .inl ((h j).trans hj), fun j _ _ hj => (h j).symm.trans hj⟩

/-- A task that goes on and attended to nothing leaves the others still. -/
theorem Goes.still {point : Point} (hgoes : s.Goes s' i point)
    (hnew : ∀ m disposer, point ≠ .managerShutdown m disposer)
    (hold : ∀ point, s.point i = some point → point.Attends →
      ∃ m, point.manager = some m ∧ (s.managers m).connected = false) : s.Still s' := by
  refine ⟨fun j point' hj hattends => ?_, fun j m disposer hj => ?_⟩
  · by_cases he : j = i
    · subst he
      exact .inr (hold point' hj hattends)
    · exact .inl ((hgoes.point_eq he).trans hj)
  · by_cases he : j = i
    · subst he
      exact absurd (Option.some.inj (hgoes.self.symm.trans hj)) (hnew m disposer)
    · exact (hgoes.point_eq he).symm.trans hj

/-- So does a task that ends. -/
theorem still_finish (hold : ∀ point, s.point i = some point → point.Attends →
      ∃ m, point.manager = some m ∧ (s.managers m).connected = false) : s.Still (s.finish i) := by
  refine ⟨fun j point' hj hattends => ?_, fun j m disposer hj => (finish_point hj).2⟩
  by_cases he : j = i
  · subst he
    exact .inr (hold point' hj hattends)
  · exact .inl ((congrArg (Option.map Task.point) (finish_other he)).trans hj)

/-- Stillness is passed on as long as no open client closes. -/
theorem Still.trans {s'' : Host} (h : s.Still s') (h' : s'.Still s'')
    (hclosed : ∀ m, (s'.managers m).connected = false → (s.managers m).connected = false) : s.Still s'' := by
  refine ⟨fun j point hj hattends => ?_, fun j m disposer hj => h.arrives j m disposer (h'.arrives j m disposer hj)⟩
  rcases h.leaves j point hj hattends with hj' | hout
  · rcases h'.leaves j point hj' hattends with hj'' | ⟨m, hm, hout⟩
    · exact .inl hj''
    · exact .inr ⟨m, hm, hclosed m hout⟩
  · exact .inr hout

section

variable {point : Point} {outcome : Outcome} {spawner : Spawner} {disposer : Disposer}

/-- A new task stands nowhere yet. -/
theorem New.aside (hnew : s.New i) : s.point i ≠ some point := by
  intro hp
  unfold Host.point at hp
  rw [hnew.2] at hp
  cases hp

/-- A task that stands elsewhere attends to nothing. -/
theorem Runs.aside (hr : s.Runs i point outcome) (haside : ¬ point.Attends) :
    ∀ point, s.point i = some point → ¬ point.Attends := by
  intro point' hp
  obtain rfl := Option.some.inj (hr.point_eq.symm.trans hp)
  exact haside

/-- What comes back from a disposal attends to nothing. -/
theorem Returned.aside (hr : s.Returned i disposer) : ∀ point, s.point i = some point → ¬ point.Attends := by
  obtain ⟨point, outcome, hr, rfl | ⟨m, rfl, -⟩⟩ := hr
  · exact hr.aside nofun
  · exact hr.aside nofun

/-- The restart loop does not in its delay. -/
theorem aside_backoff {ticket : Ticket} (ht : s.tasks i = some ⟨.backoff, ticket⟩) :
    ∀ point, s.point i = some point → ¬ point.Attends := by
  intro point hp
  obtain rfl := Option.some.inj ((congrArg (Option.map Task.point) ht).symm.trans hp)
  exact nofun

/-- Nor does what begins to spawn. -/
theorem Enters.aside (he : s.Enters i spawner) : ∀ point, s.point i = some point → ¬ point.Attends := by
  cases he with
  | start hnew _ => exact fun _ hp => absurd hp hnew.aside
  | resume hnew _ => exact fun _ hp => absurd hp hnew.aside
  | resumeFailed hr _ => exact hr.aside nofun
  | restartCore hr _ => exact hr.aside
  | autoRestart ht _ => exact aside_backoff ht

theorem Disposes.aside (hd : s.Disposes i disposer) : ∀ point, s.point i = some point → ¬ point.Attends := by
  cases hd with
  | spawnAndStart he => exact he.aside
  | restartCore hnew => exact fun _ hp => absurd hp hnew.aside
  | shutdown hr => exact hr.aside nofun

/-- What failed was the start of a manager that is closed now. -/
theorem SpawnFails.aside (hf : s.SpawnFails i spawner) : ∀ point, s.point i = some point → point.Attends →
    ∃ m, point.manager = some m ∧ (s.managers m).connected = false := by
  obtain ⟨-, point, outcome, hr, rfl | ⟨m, step, rfl, -, hclosed⟩ | ⟨m, rfl, -⟩⟩ := hf
  · exact fun point hp hattends => absurd hattends (hr.aside nofun point hp)
  · intro point hp _
    obtain rfl := Option.some.inj (hr.point_eq.symm.trans hp)
    exact ⟨m, rfl, hclosed⟩
  · exact fun point hp hattends => absurd hattends (hr.aside nofun point hp)

/-- A task that ends attended to nothing, or to a manager that is closed. -/
theorem Ends.aside (he : s.Ends i) : ∀ point, s.point i = some point → point.Attends →
    ∃ m, point.manager = some m ∧ (s.managers m).connected = false := by
  cases he with
  | spawnFails hf _ => exact hf.aside
  | stopped hr _ _ => exact fun point hp hattends => absurd hattends (hr.aside point hp)
  | shutdown hr => exact fun point hp hattends => absurd hattends (hr.aside nofun point hp)
  | disposeFails hr _ => exact fun point hp hattends => absurd hattends (hr.aside nofun point hp)
  | ran hr _ => exact fun point hp hattends => absurd hattends (hr.aside nofun point hp)
  | paused hr _ => exact fun point hp hattends => absurd hattends (hr.aside nofun point hp)
  | resumed hr _ => exact fun point hp hattends => absurd hattends (hr.aside nofun point hp)
  | feedback hr => exact fun point hp hattends => absurd hattends (hr.aside nofun point hp)

/-- So does the restart loop when it ends. -/
theorem LoopEnds.aside (he : s.LoopEnds i) : ∀ point, s.point i = some point → point.Attends →
    ∃ m, point.manager = some m ∧ (s.managers m).connected = false := by
  cases he with
  | stays ht => exact fun point hp hattends => absurd hattends (aside_backoff ht point hp)
  | spawnFails hf => exact hf.aside
  | ran hr => exact fun point hp hattends => absurd hattends (hr.aside nofun point hp)

end

/-! ## Managers that are attended to -/

/-- A manager that is in its handshake stays in it. -/
theorem Attended.starting_still (h : s.Attended) (hst : s.Still s') (hm : (s.managers m).connected = true)
    (hlive : (s.managers m).live = false) : ∃ j spawner step, s'.point j = some (.handshake m spawner step) := by
  obtain ⟨j, spawner, step, hj⟩ := h.starting m hm hlive
  rcases hst.leaves j _ hj trivial with hj' | ⟨m', hm', hclosed⟩
  · exact ⟨j, spawner, step, hj'⟩
  · cases hm'
    cases hclosed.symm.trans hm

/-- When no manager, no child and no generation changes, still tasks are enough. -/
theorem Attended.still (h : s.Attended) (hst : s.Still s') (hmanager : s'.control.manager = s.control.manager)
    (hgeneration : s'.control.managerGeneration = s.control.managerGeneration) (hmanagers : s'.managers = s.managers)
    (halive : ∀ m, (s'.cores m).alive = (s.cores m).alive) : s'.Attended := by
  refine ⟨fun m hm => ?_, fun m hm => ?_, fun m hm => ?_, fun m hm hlive => ?_, fun j m disposer hj hm => ?_,
    fun m hm hs => ?_⟩
  · rw [hmanagers]
    exact h.steady m (hmanager ▸ hm)
  · rw [hmanagers] at hm ⊢
    exact h.once m hm
  · rcases h.held m (hmanager ▸ hm) with hcurrent | ⟨j, disposer, hj⟩
    · refine .inl ?_
      unfold Current
      rw [hmanagers, hgeneration]
      exact hcurrent
    · rcases hst.leaves j _ hj trivial with hj' | ⟨m', hm', -⟩
      · exact .inr ⟨j, disposer, hj'⟩
      · cases hm'
  · rw [hmanagers] at hm hlive
    exact h.starting_still hst hm hlive
  · rw [hmanagers] at hm ⊢
    exact h.stops j m disposer (hst.arrives j m disposer hj) hm
  · rw [hmanagers] at hm hs
    exact (halive m).trans (h.alive m hm hs)

/-- A manager is closed. -/
theorem Attended.shut (h : s.Attended) (hpoint : ∀ j, s'.point j = s.point j)
    (hmanager : ∀ m', s'.control.manager = some m' → s.control.manager = some m')
    (hgeneration : s'.control.managerGeneration = s.control.managerGeneration)
    (hclosed : (s'.managers m).connected = false)
    (hsame : (s'.managers m).generation = (s.managers m).generation)
    (hstopping : (s'.managers m).stopping = true → (s.managers m).stopping = true)
    (hmanagers : ∀ m', m' ≠ m → s'.managers m' = s.managers m')
    (hcores : ∀ m', m' ≠ m → s'.cores m' = s.cores m') : s'.Attended := by
  -- What the invariant says of connected managers says nothing of the one that is closed.
  have hne : ∀ {m'}, (s'.managers m').connected = true → m' ≠ m := by
    rintro m' hm' rfl
    cases hclosed.symm.trans hm'
  refine ⟨fun m' hm' => ?_, fun m' hm' => ?_, fun m' hm' => ?_, fun m' hm' hlive => ?_, fun j m' disposer hj hm' => ?_,
    fun m' hm' hs => ?_⟩
  · by_cases he : m' = m
    · subst he
      have hold := h.steady m' (hmanager m' hm')
      cases hstop : (s'.managers m').stopping with
      | false => rfl
      | true => exact (hstopping hstop).symm.trans hold
    · rw [hmanagers m' he]
      exact h.steady m' (hmanager m' hm')
  · have he := hne hm'
    rw [hmanagers m' he] at hm' ⊢
    exact h.once m' hm'
  · rcases h.held m' (hmanager m' hm') with hcurrent | ⟨j, disposer, hj⟩
    · refine .inl ?_
      unfold Current
      rw [hgeneration]
      by_cases he : m' = m
      · subst he
        rw [hsame]
        exact hcurrent
      · rw [hmanagers m' he]
        exact hcurrent
    · exact .inr ⟨j, disposer, (hpoint j).trans hj⟩
  · have he := hne hm'
    rw [hmanagers m' he] at hm' hlive
    obtain ⟨j, spawner, step, hj⟩ := h.starting m' hm' hlive
    exact ⟨j, spawner, step, (hpoint j).trans hj⟩
  · have he := hne hm'
    rw [hmanagers m' he] at hm' ⊢
    exact h.stops j m' disposer ((hpoint j).symm.trans hj) hm'
  · have he := hne hm'
    rw [hmanagers m' he] at hm' hs
    rw [hcores m' he]
    exact h.alive m' hm' hs

section

variable {m' : ℕ}

theorem setStopping_self (stopping : Bool) :
    (s.setStopping m stopping).managers m = { s.managers m with stopping := stopping } := setManager_self s m _

theorem setStopping_of_ne (hne : m' ≠ m) (stopping : Bool) :
    (s.setStopping m stopping).managers m' = s.managers m' := setManager_of_ne (s := s) hne _

/-- `cleanup`, seen from its manager. -/
theorem cleanup_self : (s.cleanup m).managers m = (s.managers m).cleaned := setManager_self s m _

theorem cleanup_of_ne (hne : m' ≠ m) : (s.cleanup m).managers m' = s.managers m' :=
  setManager_of_ne (s := s) hne _

/-- One child is signalled, and no other. -/
theorem kill_of_ne (hne : m' ≠ m) : (s.kill m).cores m' = s.cores m' := setCore_of_ne (s := s) hne _

/-- `failStart` does not report a disconnect. -/
theorem failStart_self : (s.failStart m).managers m =
    { ({ s.managers m with stopping := true } : ProcessManager).cleaned with stopping := false } := by
  unfold Host.failStart
  rw [setStopping_self, cleanup_self]
  exact congrArg (fun pm : ProcessManager => { pm.cleaned with stopping := false }) (setStopping_self (s := s) true)

theorem failStart_of_ne (hne : m' ≠ m) : (s.failStart m).managers m' = s.managers m' := by
  unfold Host.failStart
  rw [setStopping_of_ne hne, cleanup_of_ne hne]
  exact setStopping_of_ne (s := s) hne true

end

/-- What the handlers of a manager hear of is no matter of another one. -/
theorem Hears.cores_of_ne {m' : ℕ} (hh : s.Hears m e s') (hne : m' ≠ m) : s'.cores m' = s.cores m' := by
  cases hh with
  | exit => exact setCore_of_ne hne _
  | stdoutClosed => rfl
  | childError => rfl

/-- A closed manager needs nobody, and the others are attended to as before. -/
theorem Attended.cleanup (h : s.Attended) (hh : s.Hears m e s') : (s'.cleanup m).Attended := by
  have hself : (s'.cleanup m).managers m = (s.managers m).cleaned := by rw [cleanup_self, hh.managers]
  refine @Attended.shut _ (s'.cleanup m) m h (fun j => (cleanup_point m j).trans (hh.point_eq j)) (fun m' hm' => ?_)
    ?_ (cleanup_connected _ _) ?_ ?_ (fun m' he => ?_) fun m' he => hh.cores_of_ne he
  · exact (congrArg HostController.manager hh.control).symm.trans hm'
  · exact congrArg HostController.managerGeneration hh.control
  · rw [hself]
    rfl
  · rw [hself]
    exact id
  · rw [cleanup_of_ne he, hh.managers]

/-- So it is after a failed start. -/
theorem Attended.failStart (h : s.Attended) :
    ((s.failStart m).update HostController.failDisconnected).Attended := by
  refine @Attended.shut _ ((s.failStart m).update HostController.failDisconnected) m h (cleanup_point m)
    (fun _ hm => hm) rfl ?_ ?_ ?_ (fun m' he => failStart_of_ne he)
    fun m' he => kill_of_ne (s := s.setStopping m true) he
  all_goals rw [show ((s.failStart m).update HostController.failDisconnected).managers m = _ from failStart_self]
  · rfl
  · rfl
  · exact fun h => absurd h Bool.false_ne_true

/-- The shutdown that is over has closed its manager. -/
theorem Attended.shutdownOver (h : s.Attended) : (s.shutdownOver i m).Attended := by
  have hmanagers : (s.shutdownOver i m).managers = (((s.kill m).cleanup m).setStopping m false).managers :=
    settle_managers
  have hself : (s.shutdownOver i m).managers m = { (s.managers m).cleaned with stopping := false } := by
    rw [hmanagers, setStopping_self, cleanup_self]
    rfl
  refine @Attended.shut _ (s.shutdownOver i m) m h (fun j => (settle_point j _).trans (cleanup_point m j))
    (fun m' hm' => ?_) ?_ ?_ ?_ ?_ (fun m' he => ?_) fun m' he => ?_
  · rw [Host.shutdownOver, settle_control] at hm'
    exact hm'
  · rw [Host.shutdownOver, settle_control]
    rfl
  · rw [hself]
    rfl
  · rw [hself]
    rfl
  · rw [hself]
    exact fun h => absurd h Bool.false_ne_true
  · rw [hmanagers, setStopping_of_ne he, cleanup_of_ne he]
    rfl
  · rw [Host.shutdownOver, settle_cores]
    exact kill_of_ne (s := s) he

/-- A shutdown that throws had lost its client before. -/
theorem Attended.shutdownThrows (h : s.Attended) (hclosed : (s.managers m).connected = false) :
    (s.shutdownThrows i m).Attended := by
  have hmanagers : (s.shutdownThrows i m).managers = (s.setStopping m false).managers := settle_managers
  have hself : (s.shutdownThrows i m).managers m = { s.managers m with stopping := false } := by
    rw [hmanagers, setStopping_self]
  refine @Attended.shut _ (s.shutdownThrows i m) m h (fun j => settle_point j _)
    (fun m' hm' => ?_) ?_ ?_ ?_ ?_ (fun m' he => ?_) fun m' he => ?_
  · rw [Host.shutdownThrows, settle_control] at hm'
    exact hm'
  · rw [Host.shutdownThrows, settle_control]
    rfl
  · rw [hself]
    exact hclosed
  · rw [hself]
  · rw [hself]
    exact fun h => absurd h Bool.false_ne_true
  · rw [hmanagers, setStopping_of_ne he]
  · rw [Host.shutdownThrows, settle_cores]
    rfl

/-- What is disposed of will be taken. -/
theorem Attended.dispose {disposer : Disposer} (h : s.Attended) (hd : s.Disposes i disposer) :
    (s.disposeManager i disposer).Attended := by
  have hst : s.Still (s.disposeManager i disposer) :=
    disposeManager_goes.still nofun fun point hp hattends => absurd hattends (hd.aside point hp)
  have hmanagers : (s.disposeManager i disposer).managers = s.managers := disposeManager_managers
  refine ⟨fun m hm => ?_, fun m hm => ?_, fun m hm => ?_, fun m hm hlive => ?_, fun j m disposer' hj hm => ?_,
    fun m hm hs => ?_⟩
  · rw [disposeManager_control] at hm
    rw [hmanagers]
    exact h.steady m hm
  · rw [hmanagers] at hm ⊢
    exact h.once m hm
  · exact .inr ⟨i, disposer, disposeManager_goes.self⟩
  · rw [hmanagers] at hm hlive
    exact h.starting_still hst hm hlive
  · rw [hmanagers] at hm ⊢
    exact h.stops j m disposer' (hst.arrives j m disposer' hj) hm
  · rw [hmanagers] at hm hs
    have hcores : (s.disposeManager i disposer).cores = s.cores := awaitPresentations_cores
    rw [hcores]
    exact h.alive m hm hs

/-- Taking a manager stops it. -/
theorem takeManager_managers {disposer : Disposer} (m : ℕ) : (s.takeManager i disposer).managers m =
    if s.ipc = some m then { s.managers m with stopping := true } else s.managers m := by
  unfold takeManager shutdownManager
  split
  · next hnone =>
    have hipc : s.ipc ≠ some m := fun hm => by cases hnone.symm.trans (ipc_eq_some.1 hm).1
    rw [if_neg hipc]
    rfl
  · next m' hm' =>
    split
    · next hopen =>
      have hipc : s.ipc = some m' := ipc_eq_some.2 ⟨hm', hopen⟩
      rw [hipc]
      by_cases he : m' = m
      · subst he
        rw [if_pos rfl]
        exact setStopping_self (s := s.update HostController.dropManager) true
      · rw [if_neg fun hsome => he (Option.some.inj hsome)]
        exact setStopping_of_ne (s := s.update HostController.dropManager) (Ne.symm he) true
    · next hclosed =>
      have hipc : s.ipc ≠ some m := fun hm => by
        obtain ⟨hheld, hopen⟩ := ipc_eq_some.1 hm
        obtain rfl := Option.some.inj (hm'.symm.trans hheld)
        exact hclosed hopen
      rw [if_neg hipc]
      rfl

/-- The manager that is taken is attended to by its shutdown. -/
theorem Attended.take {disposer : Disposer} {outcome : Outcome} (h : s.Attended)
    (hr : s.Runs i (.disposeQueue disposer) outcome) : (s.takeManager i disposer).Attended := by
  obtain ⟨point, hgoes, hpoint⟩ := @takeManager_goes s i disposer
  refine ⟨fun m hm => ?_, fun m hm => ?_, fun m hm => ?_, fun m hm hlive => ?_, fun j m disposer' hj hm => ?_,
    fun m hm hs => ?_⟩
  · rw [takeManager_control] at hm
    cases hm
  · rw [takeManager_connected] at hm
    have honce := h.once m hm
    rw [takeManager_managers]
    split <;> exact honce
  · rw [takeManager_control] at hm
    cases hm
  · rw [takeManager_connected] at hm
    rw [takeManager_managers] at hlive
    have hlive' : (s.managers m).live = false := by split at hlive <;> exact hlive
    obtain ⟨j, spawner, step, hj⟩ := h.starting m hm hlive'
    -- The task that took a manager was not in a handshake.
    have hne : j ≠ i := by
      rintro rfl
      cases hj.symm.trans hr.point_eq
    exact ⟨j, spawner, step, (hgoes.point_eq hne).trans hj⟩
  · rw [takeManager_connected] at hm
    rw [takeManager_managers]
    split
    · rfl
    · next hipc =>
      by_cases he : j = i
      · subst he
        obtain ⟨rfl, -⟩ | ⟨m', hm', rfl⟩ := hpoint
        · cases hgoes.self.symm.trans hj
        · cases hgoes.self.symm.trans hj
          exact absurd hm' hipc
      · exact h.stops j m disposer' ((hgoes.point_eq he).symm.trans hj) hm
  · rw [takeManager_connected] at hm
    rw [takeManager_managers] at hs
    rw [takeManager_alive]
    split at hs
    · cases hs
    · exact h.alive m hm hs

/-- The manager that is created is attended to by its handshake. -/
theorem Attended.create {spawner : Spawner} (h : s.Attended) (hs : s.Sound)
    (hr : s.Returned i (.spawnAndStart spawner)) : (s.createManager i spawner).Attended := by
  have hgoes := @createManager_goes s i spawner
  have hnew : (s.createManager i spawner).managers s.control.created =
      { generation := s.control.managerGeneration + 1, connected := s.spawnOk } := by
    rw [createManager_managers, Function.update_self]
  have hold : ∀ m, m ≠ s.control.created → (s.createManager i spawner).managers m = s.managers m := by
    intro m hne
    rw [createManager_managers, Function.update_of_ne hne]
  have hheld : ∀ m, (s.createManager i spawner).control.manager = some m → m = s.control.created := by
    intro m hm
    rw [createManager_control] at hm
    exact (Option.some.inj (show some s.control.created = some m from hm)).symm
  refine ⟨fun m hm => ?_, fun m hm => ?_, fun m hm => ?_, fun m hm hlive => ?_, fun j m disposer hj hm => ?_,
    fun m hm hstop => ?_⟩
  · -- The manager that is held is the new one.
    rw [hheld m hm, hnew]
  · by_cases he : m = s.control.created
    · rw [he, hnew]
    · rw [hold m he] at hm ⊢
      exact h.once m hm
  · refine .inl ?_
    unfold Current
    rw [hheld m hm, hnew, createManager_control]
    rfl
  · by_cases he : m = s.control.created
    · -- A new manager that is connected starts with `hello`.
      subst he
      rw [hnew] at hm
      refine ⟨i, spawner, .hello, ?_⟩
      rw [hgoes.self, if_pos (by exact hm)]
    · rw [hold m he] at hm hlive
      obtain ⟨j, spawner', step, hj⟩ := h.starting m hm hlive
      have hne : j ≠ i := by
        rintro rfl
        exact hr.aside _ hj trivial
      exact ⟨j, spawner', step, (hgoes.point_eq hne).trans hj⟩
  · have hne : j ≠ i := by
      rintro rfl
      have hp := Option.some.inj (hgoes.self.symm.trans hj)
      split at hp <;> cases hp
    -- A task that shuts a manager down knew it before, so it is not the new one.
    have hj' := (hgoes.point_eq hne).symm.trans hj
    obtain ⟨task, ht, hpoint⟩ := Option.map_eq_some_iff.1 hj'
    have hlt : m < s.control.created := (hs.tasks j task ht).known m (by rw [hpoint]; rfl)
    rw [hold m hlt.ne] at hm ⊢
    exact h.stops j m disposer hj' hm
  · rw [createManager_alive]
    split
    · rfl
    · next hnot =>
      by_cases he : m = s.control.created
      · rw [he, hnew] at hm
        exact absurd ⟨he, hm⟩ hnot
      · rw [hold m he] at hm hstop
        exact h.alive m hm hstop

/-- The last request of the handshake makes the manager live. -/
theorem handshakeNext_managers {spawner : Spawner} {step : HandshakeStep} (m' : ℕ) :
    (s.handshakeNext i m spawner step).managers m' =
      if m' = m ∧ step = .start then { s.managers m with live := true } else s.managers m' := by
  cases step with
  | hello =>
    rw [if_neg fun hand => by cases hand.2]
    exact congrArg (fun managers => managers m') request_managers
  | setWatchlist =>
    rw [if_neg fun hand => by cases hand.2]
    exact congrArg (fun managers => managers m') request_managers
  | start =>
    refine (congrArg (fun managers => managers m') request_managers).trans ?_
    by_cases he : m' = m
    · subst he
      rw [if_pos ⟨rfl, rfl⟩]
      exact setManager_self s m' _
    · rw [if_neg fun hand => he hand.1]
      exact setManager_of_ne (s := s) he _

/-- The start of a manager goes on, until it is live. -/
theorem Attended.handshake {spawner : Spawner} {step : HandshakeStep} {outcome : Outcome} (h : s.Attended)
    (hr : s.Runs i (.handshake m spawner step) outcome) : (s.handshakeNext i m spawner step).Attended := by
  have hgoes := @handshakeNext_goes s i m spawner step
  have hopen : ∀ m', ((s.handshakeNext i m spawner step).managers m').connected = true →
      (s.managers m').connected = true := by
    intro m' hm'
    rwa [handshakeNext_connected] at hm'
  have hstopping : ∀ m', ((s.handshakeNext i m spawner step).managers m').stopping = (s.managers m').stopping := by
    intro m'
    rw [handshakeNext_managers]
    split
    · next hand => rw [hand.1]
    · rfl
  refine ⟨fun m' hm' => ?_, fun m' hm' => ?_, fun m' hm' => ?_, fun m' hm' hlive => ?_, fun j m' disposer hj hm' => ?_,
    fun m' hm' hs => ?_⟩
  · rw [handshakeNext_control] at hm'
    rw [hstopping]
    exact h.steady m' hm'
  · have honce := h.once m' (hopen m' hm')
    rw [handshakeNext_managers]
    split
    · next hand => rwa [hand.1] at honce
    · exact honce
  · rw [handshakeNext_control] at hm'
    -- The manager that is held is still current, or is being disposed of by a task that is not `i`.
    rcases h.held m' hm' with hcurrent | ⟨j, disposer, hj⟩
    · refine .inl ?_
      unfold Current at hcurrent ⊢
      rw [handshakeNext_control, handshakeNext_managers]
      split
      · next hand => rwa [hand.1] at hcurrent
      · exact hcurrent
    · have hne : j ≠ i := by
        rintro rfl
        cases hj.symm.trans hr.point_eq
      exact .inr ⟨j, disposer, (hgoes.point_eq hne).trans hj⟩
  · rw [handshakeNext_managers] at hlive
    split at hlive
    · -- It is live after the last answer.
      cases hlive
    · next hnot =>
      obtain ⟨j, spawner', step', hj⟩ := h.starting m' (hopen m' hm') hlive
      by_cases he : j = i
      · -- The task itself goes on to its next request.
        subst he
        cases hj.symm.trans hr.point_eq
        have hstep : step ≠ .start := fun hstep => hnot ⟨rfl, hstep⟩
        cases step with
        | hello => exact ⟨j, spawner, _, hgoes.self⟩
        | setWatchlist => exact ⟨j, spawner, _, hgoes.self⟩
        | start => exact absurd rfl hstep
      · exact ⟨j, spawner', step', (hgoes.point_eq he).trans hj⟩
  · have hne : j ≠ i := by
      rintro rfl
      -- Task `i` is at a request of the start now, so it stops no manager.
      have hp := Option.some.inj (hgoes.self.symm.trans hj)
      cases step <;> cases hp
    rw [hstopping]
    exact h.stops j m' disposer ((hgoes.point_eq hne).symm.trans hj) (hopen m' hm')
  · rw [hstopping] at hs
    rw [handshakeNext_alive]
    exact h.alive m' (hopen m' hm') hs

/-- What a manager does not hear of is the end of a child that it is stopping, or has dropped. -/
theorem Attended.unheard (h : s.Attended) (hh : s.Hears m e s')
    (hdeaf : (s.managers m).stopping = true ∨ (s.managers m).connected = false) : s'.Attended := by
  cases hh with
  | exit =>
    refine ⟨h.steady, h.once, h.held, h.starting, h.stops, fun m' hm' hs => ?_⟩
    have hne : m' ≠ m := by
      rintro rfl
      rcases hdeaf with hstop | hclosed
      · cases hstop.symm.trans hs
      · cases hclosed.symm.trans hm'
    rw [childEnds, setCore_of_ne hne]
    exact h.alive m' hm' hs
  | stdoutClosed => exact h
  | childError => exact h

/-- **Every part leaves the connected managers attended to.** -/
theorem Attended.part (hp : s₀.Part e s s') (h : s.Attended) (hs : s.Sound) : s'.Attended := by
  -- Most parts change no task's point, or let a task go on that takes care of no manager.
  have hsame : ∀ {s'' : Host}, s''.tasks = s.tasks → s.Still s'' := fun ht =>
    .of_eq fun j => congrArg (fun tasks : ℕ → Option Task => (tasks j).map Task.point) ht
  have hnew : ∀ {point : Point}, s.point s.called ≠ some point := fun hp => by
    unfold Host.point at hp
    rw [hs.unused _ le_rfl] at hp
    cases hp
  cases hp with
  | dispose hd => exact h.dispose hd
  | take hr => exact h.take hr
  | create hr => exact h.create hs hr
  | handshake hr _ => exact h.handshake hr
  | failStart _ => exact h.failStart
  | shutdownThrows _ _ hclosed => exact h.shutdownThrows hclosed
  | shutdownOver _ _ => exact h.shutdownOver
  | signal m => exact h.still (hsame rfl) rfl rfl rfl (kill_alive s m)
  | unheard _ hh hdeaf => exact h.unheard hh hdeaf
  | close _ hh _ _ => exact h.cleanup hh
  | disconnect _ hh _ _ _ =>
    have hshut := h.cleanup hh
    exact ⟨nofun, hshut.once, nofun, hshut.starting, hshut.stops, hshut.alive⟩
  | finish he => exact @Attended.still _ (s.finish _) h (still_finish he.aside) rfl rfl rfl fun _ => rfl
  | @endLoop _ _ i he =>
    have hst : s.Still (s.finish i) := still_finish he.aside
    exact @Attended.still _ (s.endLoop i) h ⟨hst.leaves, hst.arrives⟩ rfl rfl rfl fun _ => rfl
  | declineLoop _ =>
    have hst : s.Still (s.finish s.called) := still_finish fun point hp => absurd hp hnew
    exact @Attended.still _ (Host.endLoop _ _) h ⟨hst.leaves, hst.arrives⟩ rfl rfl rfl fun _ => rfl
  | round ht _ => exact h.still (.of_eq (parkReady_point ht)) rfl rfl rfl fun _ => rfl
  | thrown he _ =>
    exact h.still (parkReady_goes.still nofun fun point hp ha => absurd ha (he.aside point hp)) rfl rfl rfl fun _ => rfl
  | awaitShutdown hnew =>
    exact h.still (awaitPresentations_goes.still nofun fun _ hp => absurd hp hnew.aside)
      (by rw [awaitPresentations_control]) (by rw [awaitPresentations_control]) awaitPresentations_managers
      fun m => by rw [awaitPresentations_cores]
  | retry hf _ _ =>
    exact h.still (Goes.still (s := s) ⟨park_goes.self, park_goes.other⟩ nofun hf.aside) rfl rfl rfl fun _ => rfl
  | beginLoop _ _ _ _ =>
    exact h.still (Goes.still (s := s) ⟨park_goes.self, park_goes.other⟩ nofun fun point hp => absurd hp hnew) rfl rfl
      rfl fun _ => rfl
  | ask hnew _ hp =>
    refine h.still (request_goes.still (fun m disposer he => ?_) fun _ hp => absurd hp hnew.aside)
      (by rw [request_control]) (by rw [request_control]) request_managers request_alive
    obtain ⟨-, rfl, -⟩ | ⟨-, rfl, -⟩ := hp <;> cases he
  | feedback hnew _ _ =>
    exact h.still (tell_goes.still nofun fun _ hp => absurd hp hnew.aside) (by rw [tell_control])
      (by rw [tell_control]) tell_managers tell_alive
  | present hr hp =>
    refine h.still (tell_goes.still nofun fun point ht ha => absurd ha (hr.aside ?_ point ht)) (by rw [tell_control])
      (by rw [tell_control]) tell_managers tell_alive
    obtain rfl | rfl := hp <;> exact nofun
  | @presented _ _ i point _ hr hp =>
    have hdone : ∀ j, ((s.finish i).presentationDone).point j = (s.finish i).point j := fun j =>
      rewrite_point (s := { s.finish i with presentationsDone := s.presentationsDone + 1 }) (released_rewrites _) j
    have hattends : ¬ point.Attends := by cases point <;> first | exact id | exact False.elim hp
    have hst : s.Still (s.finish i) := still_finish fun point ht ha => absurd ha (hr.aside hattends point ht)
    exact h.still (hst.trans (.of_eq hdone) fun _ hclosed => hclosed) rfl rfl rfl fun _ => rfl
  | answered _ _ _ =>
    exact h.still (.of_eq fun j => settle_point (s := s.pop _ _) j _) (by rw [settle_control]; rfl)
      (by rw [settle_control]; rfl) (by rw [settle_managers]; rfl) fun m => by
        rw [settle_cores]
        exact pop_alive m
  | timeout _ _ =>
    exact h.still (.of_eq fun j => settle_point j _) (by rw [settle_control]) (by rw [settle_control])
      settle_managers fun m => by rw [settle_cores]
  | skipped _ _ _ => exact h.still (hsame rfl) rfl rfl rfl pop_alive
  | stateRead _ _ _ => exact h.still (hsame rfl) rfl rfl rfl pop_alive
  | @alertRead _ _ m candidates outbox _ _ _ =>
    have hgoes := @enqueueAlert_goes (s.pop m outbox) candidates
    refine h.still (Goes.still (s := s) ⟨hgoes.self, hgoes.other⟩ nofun fun _ hp => absurd hp hnew)
      (by rw [enqueueAlert_control]; rfl) (by rw [enqueueAlert_control]; rfl) (by rw [enqueueAlert_managers]; rfl)
      fun m => ?_
    rw [enqueueAlert_cores]
    exact pop_alive m
  | work _ _ => exact h.still (hsame rfl) rfl rfl rfl work_alive
  | write _ _ => exact h.still (hsame rfl) rfl rfl rfl write_alive
  | _ => exact h.still (hsame rfl) rfl rfl rfl fun _ => rfl

theorem Attended.parts (h : s.Attended) (hs : s.Sound) (hp : s₀.Parts e s s') : s'.Attended := by
  have hboth : s'.Sound ∧ s'.Attended := by
    induction hp with
    | refl => exact ⟨hs, h⟩
    | tail _ hp ih => exact ⟨ih.1.part hp, ih.2.part hp ih.1⟩
  exact hboth.2

/-- At first no manager is connected. -/
theorem attended_initial (maxRetries : ℕ) : (initial maxRetries).Attended :=
  ⟨nofun, nofun, nofun, nofun, nofun, nofun⟩

end Host

end MarketSentinel.Extension
