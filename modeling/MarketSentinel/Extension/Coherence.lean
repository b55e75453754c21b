import Mathlib.Tactic.IntervalCases
import MarketSentinel.Extension.Moves

/-!
# The state of the controller and its core

When nothing is in progress, `RUNNING` and `PAUSED` should mean that the controller holds a manager with a living
child. Each operation sets the state at its end, without a look at the manager: a core that ends while the restart
loop awaits its `get_state` leaves the controller `RUNNING` with no manager.

* `Coherent`: while no core is held, a task is in progress that sets the state.
* `running_connected`: the property, where the last task that sets the state finds a core (`SettlesConnected`).
* `running_disconnected`: the core that ends too early.
-/

namespace MarketSentinel.Extension

open Lib Lib.Machine

namespace Host

variable {s s' s₀ : Host} {i m : ℕ} {e : HostEvent}

/-- While the state is `RUNNING` or `PAUSED`, a manager with a client is held, or a task is in progress that sets
the state. -/
def Coherent (s : Host) : Prop :=
  s.control.actual = .running ∨ s.control.actual = .paused → (∃ m, s.ipc = some m) ∨ ∃ j, s.Decides j

/-- A job sets `RUNNING` or `PAUSED` only while a manager with a client is held or another task will decide. -/
def SettlesConnected (s : Host) : HostEvent → Prop
  | .job i => ((s.tasks i).bind Task.settles).isSome → s.ipc ≠ none ∨ ∃ j < s.called, j ≠ i ∧ s.Decides j
  | _ => True

instance (s : Host) (e : HostEvent) : Decidable (s.SettlesConnected e) :=
  match e with
  | .job i => inferInstanceAs (Decidable (((s.tasks i).bind Task.settles).isSome →
      s.ipc ≠ none ∨ ∃ j < s.called, j ≠ i ∧ s.Decides j))
  | .start | .pause | .resume | .restartCore | .shutdown | .feedback _ | .chunk .. | .timeout _ | .delayOver _
  | .shutdownUnanswered _ | .shutdownOver .. | .exit _ | .stdoutClosed _ | .childError _ | .work ..
  | .writeState .. | .writeAlert .. | .settings _ | .spawnable _ =>
    isTrue trivial

/-- The manager that was held has its client, or a task decides. -/
theorem Coherent.keeps {gone : ℕ → Prop} (h : (∃ m, s.ipc = some m) ∨ ∃ j, ¬ gone j ∧ s.Decides j)
    (hk : s.Keeps s' gone)
    (hipc : ∀ m, s.ipc = some m → (s'.managers m).connected = true ∨ ∃ j, s'.Decides j) : s'.Coherent := by
  refine fun _ => ?_
  rcases h with ⟨m, hm⟩ | ⟨j, hgone, hj⟩
  · rcases hipc m hm with hopen | hdecides
    · exact .inl ⟨m, ipc_eq_some.2 ⟨hk.manager.trans (ipc_eq_some.1 hm).1, hopen⟩⟩
    · exact .inr hdecides
  · exact .inr ⟨j, hk.decides j hgone hj⟩

theorem Coherent.step (h : s.Coherent) (hs : s.Sound) (ha : s.Attended) (hc : s.SettlesConnected e)
    (hstep : s.step e = some s') : s'.Coherent := by
  -- The tasks that go do not decide, so the one that does is still there.
  have hall : ∀ {gone : ℕ → Prop}, (∀ j, gone j → ¬ s.Decides j) →
      s.control.actual = .running ∨ s.control.actual = .paused →
        (∃ m, s.ipc = some m) ∨ ∃ j, ¬ gone j ∧ s.Decides j := fun hgone hstate =>
    (h hstate).imp_right fun hj => hj.imp fun j hj => ⟨fun hg => hgone j hg hj, hj⟩
  cases step_move hs ha hstep with
  | idle hrunning hpaused => exact fun hstate => absurd hstate (not_or.2 ⟨hrunning, hpaused⟩)
  | decided hj => exact fun _ => .inr ⟨_, hj⟩
  | pauses hm _ => exact fun _ => .inl ⟨_, hm⟩
  | unmoved hu =>
    intro hstate
    rw [hu.actual] at hstate
    refine Coherent.keeps (hall (fun _ hg => absurd hg id) hstate) hu.toKeeps (fun m hm => ?_) (by rwa [hu.actual])
    exact .inl (hu.connected m (ipc_eq_some.1 hm).2)
  | @closes _ _ m hk hactual hconnected hheld =>
    intro hstate
    rw [hactual] at hstate
    refine Coherent.keeps (hall (fun _ hg => absurd hg id) hstate) hk (fun m' hm' => ?_) (by rwa [hactual])
    obtain ⟨hheld', hopen⟩ := ipc_eq_some.1 hm'
    by_cases he : m' = m
    · exact .inr (hheld (he ▸ hheld'))
    · exact .inl (hconnected m' he hopen)
  | @fails _ i _ hr hk hactual hmanagers =>
    intro hstate
    rw [hactual] at hstate
    obtain ⟨time, ht⟩ := hr
    refine Coherent.keeps (hall (fun j he => ?_) hstate) hk (fun m hm => ?_) (by rwa [hactual])
    · subst he
      exact not_decides ht rfl
    · rw [hmanagers]
      exact .inl (ipc_eq_some.1 hm).2
  | @settles _ i task state ht hstate hk hactual hmanagers =>
    have hsome : ((s.tasks i).bind Task.settles).isSome := by
      rw [ht]
      exact Option.isSome_iff_exists.2 ⟨_, hstate⟩
    -- The answer settles the task, which the condition allows only with a client or another task that decides.
    have hfound := hc hsome
    refine Coherent.keeps (hfound.imp (Option.ne_none_iff_exists'.1 ·) fun hj => ?_) hk fun m hm => ?_
    · exact hj.imp fun j hj => hj.2
    · rw [hmanagers]
      exact .inl (ipc_eq_some.1 hm).2

/-! ## Runs -/

theorem coherent_initial (maxRetries : ℕ) : (initial maxRetries).Coherent := fun h => by rcases h with h | h <;> cases h

/-- **`RUNNING` and `PAUSED` mean a core**, at every quiescent point of every run in which the last task that sets
one of them finds a manager with a client. -/
theorem running_connected (maxRetries : ℕ) (events : List HostEvent) (s : Host)
    (hrun : run step (initial maxRetries) events = some s)
    (hsettles : Along step SettlesConnected (initial maxRetries) events) (hquiet : s.Quiescent)
    (hstate : s.control.actual = .running ∨ s.control.actual = .paused) :
    ∃ m, s.control.manager = some m ∧ (s.managers m).connected = true ∧ (s.cores m).alive = true := by
  have hinv : s.Sound ∧ s.Attended ∧ s.Coherent := by
    refine run_inv_of (I := fun s => s.Sound ∧ s.Attended ∧ s.Coherent) (fun s e s' hi hc hs => ?_)
      ⟨sound_initial maxRetries, attended_initial maxRetries, coherent_initial maxRetries⟩ hsettles hrun
    exact ⟨hi.1.step hs, hi.2.1.parts hi.1 (step_parts hi.1 hs), hi.2.2.step hi.1 hi.2.1 hc hs⟩
  obtain ⟨hs, ha, hc⟩ := hinv
  rcases hc hstate with ⟨m, hm⟩ | ⟨j, hj⟩
  · obtain ⟨hheld, hopen⟩ := ipc_eq_some.1 hm
    exact ⟨m, hheld, hopen, ha.alive m hopen (ha.steady m hheld)⟩
  · -- At a quiescent point no task decides.
    obtain ⟨⟨point, ticket⟩, ht, hd⟩ := decides_iff.1 hj
    have haside := hquiet j point (congrArg (Option.map Task.point) ht)
    cases point <;> first | exact False.elim haside | cases hd

theorem Sound.quiescent_iff (hs : s.Sound) : s.Quiescent ↔ ∀ i < s.called, ∀ point ∈ s.point i, point.Aside := by
  refine ⟨fun h i _ point hp => h i point hp, fun h i point hp => ?_⟩
  obtain ⟨task, ht, -⟩ := Option.map_eq_some_iff.1 hp
  exact h i (hs.lt_called ht) point hp

/-- The core ends, and the restart loop connects the next one. -/
theorem running_connected_recover : ∃ s, run step (initial 3) (startEvents ++ [.exit 0, .delayOver 1] ++
    spawnEvents 1 1 ++ answerEvents 1 1 1) = some s ∧ s.control.actual = .running ∧
    ∃ m, s.control.manager = some m ∧ (s.managers m).connected = true ∧ (s.cores m).alive = true := by
  have hsome : (run step (initial 3) (startEvents ++ [.exit 0, .delayOver 1] ++ spawnEvents 1 1 ++
      answerEvents 1 1 1)).map (fun s => (s.control.actual, s.called, s.point 0, s.point 1)) =
      some (.running, 2, none, none) := by decide +kernel
  obtain ⟨s, hs, hstate⟩ := Option.map_eq_some_iff.1 hsome
  simp only [Prod.mk.injEq] at hstate
  obtain ⟨hactual, hcalled, h0, h1⟩ := hstate
  refine ⟨s, hs, hactual, running_connected 3 _ s hs (by decide +kernel) ?_ (.inl hactual)⟩
  refine (sound_run hs).quiescent_iff.2 fun i hi point hp => ?_
  rw [hcalled] at hi
  interval_cases i
  · cases h0.symm.trans hp
  · cases h1.symm.trans hp

/-- The core of the restart loop ends while its `get_state` is awaited. -/
def earlyEvents : List HostEvent :=
  startEvents ++ [.exit 0, .delayOver 1] ++ spawnEvents 1 1 ++ [.exit 1, .job 1, .job 1]

/-- The controller stays `RUNNING` with no manager. -/
theorem running_disconnected : ∃ s, run step (initial 3) earlyEvents = some s ∧ s.Quiescent ∧
    s.control.actual = .running ∧ s.control.manager = none := by
  have hsome : (run step (initial 3) earlyEvents).map (fun s =>
      (s.control.actual, s.control.manager, s.called, s.point 0, s.point 1)) =
        some (.running, none, 2, none, none) := by
    decide +kernel
  obtain ⟨s, hs, hstate⟩ := Option.map_eq_some_iff.1 hsome
  simp only [Prod.mk.injEq] at hstate
  obtain ⟨hactual, hmanager, hcalled, h0, h1⟩ := hstate
  refine ⟨s, hs, (sound_run hs).quiescent_iff.2 fun i hi point hp => ?_, hactual, hmanager⟩
  rw [hcalled] at hi
  interval_cases i
  · cases h0.symm.trans hp
  · cases h1.symm.trans hp

end Host

end MarketSentinel.Extension
