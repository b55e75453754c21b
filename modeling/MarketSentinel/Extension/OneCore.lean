import MarketSentinel.Extension.Quiet
import MarketSentinel.Extension.StepParts

/-!
# One core at a time

`disposeManager` takes the manager and awaits its shutdown; `spawnAndStart` then creates the next one, whatever
has happened in between. A manager may also lose its child while it lives: its stdout closes, its start fails, the
grace time of its shutdown is over.

* `LeavesNoChild`: no manager is let go while its child lives, and no child is started while another one lives.
* `one_core`: then at most one child lives, and it belongs to the manager that is held or to one that is being
  shut down.
* `two_cores`: two operations that overlap both get past the disposal, and the restart loop spawns a core next to
  one that has only closed its stdout.
-/

namespace MarketSentinel.Extension

open Lib Lib.Machine

/-- The manager whose shutdown is awaited. -/
def Point.shutsDown : Point → Option ℕ
  | managerShutdown m _ => some m
  | _ => none

/-- The job of the task takes the manager that is held. -/
def Task.takes : Task → Bool
  | ⟨.disposeQueue _, .ready _ 0 _⟩ => true
  | _ => false

/-- The job of the task creates a manager. -/
def Task.creates : Task → Bool
  | ⟨.disposed (.spawnAndStart _), .ready _ 0 _⟩ => true
  | ⟨.managerShutdown _ (.spawnAndStart _), .ready outcome 0 _⟩ => outcome ≠ .failed
  | _ => false

namespace Host

variable {s s' s₀ : Host} {i m : ℕ} {e : HostEvent}

/-- `manager.shutdown()` of the manager is awaited, and is not over. -/
def ShuttingDown (s : Host) (m : ℕ) : Prop := ∃ i disposer, s.tasks i = some ⟨.managerShutdown m disposer, .outside⟩

/-- At most one child lives, the manager of a child is held or being shut down, and a manager that is not held
any more is being shut down or has been. -/
structure OneCore (s : Host) : Prop where
  one : ∀ m m', (s.cores m).alive = true → (s.cores m').alive = true → m = m'
  owned : ∀ m, (s.cores m).alive = true → s.control.manager = some m ∨ s.ShuttingDown m
  replaced : ∀ m, m < s.control.created → s.control.manager ≠ some m →
    s.ShuttingDown m ∨ (s.managers m).connected = false ∧ (s.cores m).alive = false

/-- The task that a job runs takes the manager that is held. -/
def Takes (s : Host) (i : ℕ) : Prop := (s.tasks i).any Task.takes = true

/-- The task that a job runs creates a manager. -/
def Creates (s : Host) (i : ℕ) : Prop := (s.tasks i).any Task.creates = true

instance (s : Host) (i : ℕ) : Decidable (s.Takes i) := inferInstanceAs (Decidable (_ = _))

instance (s : Host) (i : ℕ) : Decidable (s.Creates i) := inferInstanceAs (Decidable (_ = _))

/-- The manager has its client, or its child lives. -/
def Busy (s : Host) (m : ℕ) : Prop := (s.managers m).connected = true ∨ (s.cores m).alive = true

instance (s : Host) (m : ℕ) : Decidable (s.Busy m) := inferInstanceAs (Decidable (_ ∨ _))

/-- A disposal takes a manager that has its client, or whose child has ended. -/
def TakesEnded (s : Host) (i : ℕ) : Prop :=
  s.Takes i → ∀ m ∈ s.control.manager, (s.managers m).connected = false → (s.cores m).alive = false

/-- A manager is created in place of one that has no client and no child any more, and a child is started only
while none lives. -/
def CreatesAlone (s : Host) (i : ℕ) : Prop :=
  s.Creates i → (∀ m ∈ s.control.manager, ¬ s.Busy m) ∧
    (s.spawnOk = true → ∀ m < s.control.created, (s.cores m).alive = false)

/-- A disconnect that the controller hears of is the end of the child. -/
def LosesEnded (s : Host) (m : ℕ) : Prop :=
  (s.managers m).notifies = true → s.Current m → (s.cores m).alive = false

/-- No manager is let go while its child lives, and no child is started while another one lives. -/
def LeavesNoChild (s : Host) : HostEvent → Prop
  | .job i => s.TakesEnded i ∧ s.CreatesAlone i
  | .shutdownOver i _ => ∀ m ∈ (s.point i).bind Point.shutsDown, (s.cores m).alive = false
  | .stdoutClosed m | .childError m => s.LosesEnded m
  | _ => True

instance (s : Host) (i : ℕ) : Decidable (s.TakesEnded i) :=
  inferInstanceAs (Decidable (s.Takes i → ∀ m ∈ s.control.manager, _ → _))

instance (s : Host) (i : ℕ) : Decidable (s.CreatesAlone i) :=
  inferInstanceAs (Decidable (s.Creates i → (∀ m ∈ s.control.manager, ¬ s.Busy m) ∧
    (s.spawnOk = true → ∀ m < s.control.created, _)))

instance (s : Host) (m : ℕ) : Decidable (s.LosesEnded m) := inferInstanceAs (Decidable (_ = true → s.Current m → _))

instance (s : Host) (e : HostEvent) : Decidable (s.LeavesNoChild e) :=
  match e with
  | .job i => inferInstanceAs (Decidable (s.TakesEnded i ∧ s.CreatesAlone i))
  | .shutdownOver i _ =>
    inferInstanceAs (Decidable (∀ m ∈ (s.point i).bind Point.shutsDown, (s.cores m).alive = false))
  | .stdoutClosed m | .childError m => inferInstanceAs (Decidable (s.LosesEnded m))
  | .start | .pause | .resume | .restartCore | .shutdown | .feedback _ | .chunk .. | .timeout _ | .delayOver _
  | .shutdownUnanswered _ | .exit _ | .work .. | .writeState .. | .writeAlert .. | .settings _ | .spawnable _ =>
    isTrue trivial

theorem Runs.takes {disposer : Disposer} {outcome : Outcome} (hr : s.Runs i (.disposeQueue disposer) outcome) :
    s.Takes i := by
  obtain ⟨time, ht⟩ := hr
  unfold Takes
  rw [ht]
  rfl

theorem Returned.creates {spawner : Spawner} (hr : s.Returned i (.spawnAndStart spawner)) : s.Creates i := by
  obtain ⟨point, outcome, ⟨time, ht⟩, hp⟩ := hr
  unfold Creates
  rw [ht]
  obtain rfl | ⟨m, rfl, ho⟩ := hp
  · rfl
  · exact decide_eq_true ho

/-! ## The invariant -/

/-- At most one child lives, and a manager with a client or a child is held or being shut down. -/
structure Alone (s : Host) : Prop where
  owned : ∀ m, s.Busy m → s.control.manager = some m ∨ s.ShuttingDown m
  one : ∀ m m', (s.cores m).alive = true → (s.cores m').alive = true → m = m'

/-- What awaits the shutdown of a manager is not awake. -/
theorem not_awake_outside {disposer : Disposer} (ht : s.tasks i = some ⟨.managerShutdown m disposer, .outside⟩) :
    ¬ s.Awake i := by
  rintro (hnone | ⟨point, outcome, time, hready⟩ | hbackoff)
  · cases ht.symm.trans hnone
  · cases ht.symm.trans hready
  · cases (congrArg (Option.map Task.point) ht).symm.trans hbackoff

/-- A manager that is being shut down is so still, while it has its client or its child lives. -/
theorem ShuttingDown.part (hm : s.ShuttingDown m) (h : s.Sound) (hp : s₀.Part e s s') (hleaves : s₀.LeavesNoChild e)
    (hbusy : (s'.managers m).connected = true ∨ (s.cores m).alive = true) : s'.ShuttingDown m := by
  obtain ⟨i, disposer, ht⟩ := hm
  refine ⟨i, disposer, (hp.waits h (not_awake_outside ht)).outside _ (fun hover => ?_) ht⟩
  -- The end of a shutdown closes the client, and the child had ended before.
  obtain ⟨rfl, ⟨throws, rfl⟩, hclosed⟩ := hover
  have hdead : (s.cores m).alive = false := by
    refine hleaves m ?_
    unfold point
    rw [ht]
    rfl
  rcases hbusy with hopen | halive
  · cases (hclosed m disposer _ ht).symm.trans hopen
  · cases hdead.symm.trans halive

theorem Alone.quiet (h : s.Alone) (hs : s.Sound) (hp : s₀.Part e s s') (hleaves : s₀.LeavesNoChild e)
    (hq : s.Quiet s') : s'.Alone := by
  refine ⟨fun m hm => ?_, fun m m' hm hm' => h.one m m' (hq.alive m hm) (hq.alive m' hm')⟩
  have hbusy : s.Busy m := hm.imp (hq.connected m) (hq.alive m)
  exact (h.owned m hbusy).imp (hq.manager.trans ·) fun hdown => hdown.part hs hp hleaves (hm.imp_right (hq.alive m))

/-- The manager that is taken is shut down by the one who takes it, or its child has ended. -/
theorem Alone.take {disposer : Disposer} {outcome : Outcome} (h : s.Alone) (hs : s.Sound)
    (hr : s.Runs i (.disposeQueue disposer) outcome) (hleaves : s.LeavesNoChild (.job i)) :
    (s.takeManager i disposer).Alone := by
  refine ⟨fun m hm => .inr ?_, fun m m' hm hm' => ?_⟩
  · have hbusy : s.Busy m := by
      unfold Busy at hm
      rwa [takeManager_connected, takeManager_alive] at hm
    rcases h.owned m hbusy with hheld | hdown
    · -- A manager without a client would have lost a child that lives.
      have hopen : (s.managers m).connected = true := by
        by_contra hclosed
        have hdead := hleaves.1 hr.takes m hheld (Bool.eq_false_of_not_eq_true hclosed)
        rcases hbusy with hopen | halive
        · exact hclosed hopen
        · cases hdead.symm.trans halive
      exact ⟨i, disposer, takeManager_shuts (ipc_eq_some.2 ⟨hheld, hopen⟩)⟩
    · exact hdown.part hs (.take hr) hleaves (hbusy.imp_left (takeManager_connected m).trans)
  · rw [takeManager_alive] at hm hm'
    exact h.one m m' hm hm'

/-- A manager is created while none has a child: it is the one that is held. -/
theorem Alone.create {spawner : Spawner} (h : s.Alone) (hs : s.Sound) (hr : s.Returned i (.spawnAndStart spawner))
    (hleaves : s.LeavesNoChild (.job i)) : (s.createManager i spawner).Alone := by
  obtain ⟨hfree, hnone⟩ := hleaves.2 hr.creates
  refine ⟨fun m hm => ?_, fun m m' hm hm' => ?_⟩
  · by_cases he : m = s.control.created
    · refine .inl ?_
      rw [createManager_control, he]
      rfl
    · -- The other managers were there before, and the one that was held is closed.
      have hconnected : ((s.createManager i spawner).managers m).connected = (s.managers m).connected := by
        rw [createManager_managers, Function.update_of_ne he]
      have halive : ((s.createManager i spawner).cores m).alive = (s.cores m).alive := by
        rw [createManager_alive, if_neg fun hand => he hand.1]
      have hbusy : s.Busy m := hm.imp hconnected.symm.trans halive.symm.trans
      refine .inr (((h.owned m hbusy).resolve_left fun hheld => hfree m hheld hbusy).part hs (.create hr) hleaves ?_)
      exact hm.imp_right halive.symm.trans
  · rw [createManager_alive] at hm hm'
    have hdead : ∀ m, (s.cores m).alive = true → s.spawnOk = true → False := fun m halive hok => by
      have hlt : m < s.control.created := by
        by_contra hge
        cases halive.symm.trans (hs.fresh m (not_lt.1 hge)).2
      cases (hnone hok m hlt).symm.trans halive
    split at hm
    · next hnew =>
      split at hm'
      · next hnew' => exact hnew.1.trans hnew'.1.symm
      · exact (hdead m' hm' hnew.2).elim
    · split at hm'
      · next hnew' => exact (hdead m hm hnew'.2).elim
      · exact h.one m m' hm hm'

/-- A disconnect lets go of a manager whose child has ended; it was the one that is held. -/
theorem Alone.disconnect {s₁ : Host} (h : s.Alone) (hs : s.Sound) (hh : s.Hears m e s₁)
    (hopen : (s.managers m).connected = true) (hcurrent : s.Current m) (hdead : (s₁.cores m).alive = false)
    (hp : s.Part e s ((s₁.cleanup m).update HostController.onDisconnect)) (hleaves : s.LeavesNoChild e) :
    ((s₁.cleanup m).update HostController.onDisconnect).Alone := by
  refine ⟨fun m' hm' => .inr ?_, fun m' m'' hm' hm'' => h.one m' m'' (hh.alive hm') (hh.alive hm'')⟩
  have hbusy : s.Busy m' := hm'.imp (fun hopen' => hh.connected (cleanup_closes hopen').2) hh.alive
  have hne : m' ≠ m := by
    rintro rfl
    rcases hm' with hopen' | halive
    · exact (cleanup_closes hopen').1 rfl
    · cases hdead.symm.trans halive
  have hdown := (h.owned m' hbusy).resolve_left fun hheld => hne (hs.current_held hopen hcurrent hheld)
  exact hdown.part hs hp hleaves (hm'.imp_right hh.alive)

theorem Alone.part (hp : s₀.Part e s s') (hleaves : s₀.LeavesNoChild e) (h : s.Alone) (hs : s.Sound) : s'.Alone := by
  rcases hp.quiet_or with hq | ⟨i, disposer, outcome, rfl, rfl, hr, rfl⟩ | ⟨i, spawner, rfl, rfl, hr, rfl⟩ |
    ⟨m, s₁, rfl, hh, hopen, hnotifies, hcurrent, rfl⟩
  · exact h.quiet hs hp hleaves hq
  · exact h.take hs hr hleaves
  · exact h.create hs hr hleaves
  · refine h.disconnect hs hh hopen hcurrent ?_ hp hleaves
    cases hh with
    | exit => exact childEnds_alive s m
    | stdoutClosed => exact hleaves hnotifies hcurrent
    | childError => exact hleaves hnotifies hcurrent

theorem alone_initial (maxRetries : ℕ) : (initial maxRetries).Alone :=
  ⟨fun _ hm => (hm.elim nofun nofun : False).elim, nofun⟩

/-- **No orphan core**, in every run in which no manager is let go while its child lives and no child is started
next to another one. -/
theorem one_core (maxRetries : ℕ) (events : List HostEvent) (s : Host)
    (hleaves : Along step LeavesNoChild (initial maxRetries) events)
    (hrun : run step (initial maxRetries) events = some s) : s.OneCore := by
  obtain ⟨-, h⟩ := run_inv_along (fun hc hs h hp => h.part hp hc hs) (alone_initial maxRetries) hleaves hrun
  refine ⟨h.one, fun m hm => h.owned m (.inr hm), fun m hlt hnot => ?_⟩
  by_cases hbusy : s.Busy m
  · exact .inl ((h.owned m hbusy).resolve_left hnot)
  · rw [Busy, not_or, Bool.not_eq_true, Bool.not_eq_true] at hbusy
    exact .inr hbusy

/-- The core is restarted: its manager is shut down, its child ends, and the next one is created. -/
def restartEvents : List HostEvent :=
  startEvents ++ [.restartCore, .job 1, .job 1, .exit 0, .shutdownOver 1 false, .job 1, .job 1] ++ spawnEvents 1 1

theorem one_core_restart : ∃ s, run step (initial 3) restartEvents = some s ∧ s.OneCore := by
  have hsome : (run step (initial 3) restartEvents).isSome := by decide +kernel
  obtain ⟨s, hs⟩ := Option.isSome_iff_exists.1 hsome
  exact ⟨s, hs, one_core 3 restartEvents s (by decide +kernel) hs⟩

/-- While the core is shut down for a restart, a start finds no manager and creates the next one. -/
def overlapEvents : List HostEvent :=
  startEvents ++ [.restartCore, .job 1, .job 1, .start, .job 2, .job 2, .job 2]

/-- The stdout of the core closes, and the restart loop spawns the next one while the first lives on. -/
def outlivedEvents : List HostEvent := startEvents ++ [.stdoutClosed 0, .delayOver 1, .job 1, .job 1, .job 1]

theorem not_oneCore {events : List HostEvent} (hlive : (run step (initial 3) events).map
    (fun s => ((s.cores 0).alive, (s.cores 1).alive)) = some (true, true)) :
    ∃ s, run step (initial 3) events = some s ∧ ¬ s.OneCore := by
  obtain ⟨s, hs, halive⟩ := Option.map_eq_some_iff.1 hlive
  simp only [Prod.mk.injEq] at halive
  exact ⟨s, hs, fun h => absurd (h.one 0 1 halive.1 halive.2) (by decide)⟩

/-- Two cores live. -/
theorem two_cores : (∃ s, run step (initial 3) overlapEvents = some s ∧ ¬ s.OneCore) ∧
    ∃ s, run step (initial 3) outlivedEvents = some s ∧ ¬ s.OneCore :=
  ⟨not_oneCore (by decide +kernel), not_oneCore (by decide +kernel)⟩

end Host

end MarketSentinel.Extension
