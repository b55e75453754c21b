import MarketSentinel.Extension.Quiet
import MarketSentinel.Extension.StepParts

/-!
# The restart loop

After an unexpected disconnect `handleUnexpectedDisconnect` waits, connects, and waits again. Nothing tells it
that a user operation has connected a core meanwhile. Where none does so while the loop is in progress
(`ConnectsApart`), the loop disposes and spawns only while no manager with a core is held, it is the only one, and
it makes at most `maxRetries` attempts (`restarts_apart`). Otherwise it tears the new core down (`healthy_core_taken`).
-/

namespace MarketSentinel.Extension

open Lib Lib.Machine

/-- A point from which `spawnAndStart` takes the manager or creates the next one. -/
def Point.Acts : Point → Prop
  | disposeQueue _ | managerShutdown .. | disposed _ => True
  | _ => False

/-- The job of the task gives a user operation its core (if one can be spawned), or ends its `spawnAndStart`. -/
def Task.connects (spawnOk : Bool) : Task → Bool
  | ⟨.disposed (.spawnAndStart spawner), .ready _ 0 _⟩ => spawnOk && spawner ≠ .autoRestart
  | ⟨.managerShutdown _ (.spawnAndStart spawner), .ready outcome 0 _⟩ =>
    spawnOk && outcome ≠ .failed && spawner ≠ .autoRestart
  | ⟨.getState _ spawner, .ready _ 0 _⟩ => spawner ≠ .autoRestart
  | _ => false

namespace Host

variable {s s' s₀ : Host} {i m : ℕ} {e : HostEvent}

/-- The task is in the restart loop. -/
def LoopAt (s : Host) (i : ℕ) : Prop := (s.point i).bind Point.spawner = some .autoRestart

instance (s : Host) (i : ℕ) : Decidable (s.LoopAt i) := inferInstanceAs (Decidable (_ = _))

/-- There is at most one restart loop; when it has begun to dispose of a manager or goes on to create one, no
manager with a client is held; it never shuts one down; and it makes at most `maxRetries` attempts after a
disconnect. -/
structure RestartsApart (s : Host) : Prop where
  one : ∀ i j, s.LoopAt i → s.LoopAt j → i = j
  acts : ∀ i point, s.point i = some point → s.LoopAt i → point.Acts → s.ipc = none
  spares : ∀ i m, s.point i ≠ some (.managerShutdown m (.spawnAndStart .autoRestart))
  attempts : s.control.attempts ≤ s.control.maxRetries

/-- No user operation starts its core, or ends `spawnAndStart`, while the restart loop is in progress. -/
def ConnectsApart (s : Host) : HostEvent → Prop
  | .job i => (s.tasks i).any (Task.connects s.spawnOk) = true → ∀ j < s.called, ¬ s.LoopAt j
  | _ => True

instance (s : Host) (e : HostEvent) : Decidable (s.ConnectsApart e) :=
  match e with
  | .job i => inferInstanceAs (Decidable ((s.tasks i).any (Task.connects s.spawnOk) = true →
      ∀ j < s.called, ¬ s.LoopAt j))
  | .start | .pause | .resume | .restartCore | .shutdown | .feedback _ | .chunk .. | .timeout _ | .delayOver _
  | .shutdownUnanswered _ | .shutdownOver .. | .exit _ | .stdoutClosed _ | .childError _ | .work ..
  | .writeState .. | .writeAlert .. | .settings _ | .spawnable _ =>
    isTrue trivial

/-! ## The invariant -/

theorem loopAt_iff : s.LoopAt i ↔ ∃ point, s.point i = some point ∧ point.spawner = some .autoRestart :=
  Option.bind_eq_some_iff

/-- What the control of the loop keeps. -/
structure Counts (c c' : HostController) : Prop where
  flag : c.restartInFlight = true ∨ c.disposed = true → c'.restartInFlight = true ∨ c'.disposed = true
  count : c.attempts ≤ c.retryCount → c'.attempts ≤ c'.retryCount
  bound : c.attempts ≤ c.maxRetries → c'.attempts ≤ c'.maxRetries

theorem Counts.of_eq {c c' : HostController} (hflight : c'.restartInFlight = c.restartInFlight)
    (hdisposed : c'.disposed = c.disposed) (hattempts : c'.attempts = c.attempts)
    (hcount : c'.retryCount = c.retryCount) (hmax : c'.maxRetries = c.maxRetries) : Counts c c' := by
  refine ⟨fun h => ?_, fun h => ?_, fun h => ?_⟩
  · rwa [hflight, hdisposed]
  · rwa [hattempts, hcount]
  · rwa [hattempts, hmax]

/-- What the handlers hear of counts for nothing, and neither does the disconnect. -/
theorem Hears.counts (hh : s.Hears m e s') : Counts s.control s'.control := by
  rw [hh.control]
  exact .of_eq rfl rfl rfl rfl rfl

theorem Hears.disconnectCounts (hh : s.Hears m e s') : Counts s.control s'.control.onDisconnect := by
  rw [hh.control]
  exact .of_eq rfl rfl rfl rfl rfl

/-- The loop is known by its flag, a manager with a client is held only where it is the loop's own, and the
attempts are retries. -/
structure LoopInv (s : Host) : Prop where
  one : ∀ i j, s.LoopAt i → s.LoopAt j → i = j
  flag : ∀ i, s.LoopAt i → s.control.restartInFlight = true ∨ s.control.disposed = true
  own : ∀ i point m, s.point i = some point → point.spawner = some .autoRestart → s.ipc = some m →
    point.manager = some m
  spares : ∀ i m, s.point i ≠ some (.managerShutdown m (.spawnAndStart .autoRestart))
  count : ∀ i point, s.point i = some point → point.spawner = some .autoRestart →
    (∀ m, point ≠ .getState m .autoRestart) → s.control.attempts ≤ s.control.retryCount
  bound : s.control.attempts ≤ s.control.maxRetries

/-- No task comes to the loop. -/
theorem LoopInv.keep (h : s.LoopInv) (hc : Counts s.control s'.control)
    (hpoint : ∀ i point, s'.point i = some point → point.spawner = some .autoRestart → s.point i = some point)
    (hipc : ∀ m, s'.ipc = some m → s.ipc = some m) : s'.LoopInv := by
  have hloop : ∀ i, s'.LoopAt i → s.LoopAt i := fun i hi => by
    obtain ⟨point, hp, hspawner⟩ := loopAt_iff.1 hi
    exact loopAt_iff.2 ⟨point, hpoint i point hp hspawner, hspawner⟩
  refine ⟨fun i j hi hj => h.one i j (hloop i hi) (hloop j hj), fun i hi => hc.flag (h.flag i (hloop i hi)), ?_, ?_,
    ?_, hc.bound h.bound⟩
  · intro i point m hp hspawner hm
    exact h.own i point m (hpoint i point hp hspawner) hspawner (hipc m hm)
  · exact fun i m hp => h.spares i m (hpoint i _ hp rfl)
  · intro i point hp hspawner hnot
    exact hc.count (h.count i point (hpoint i point hp hspawner) hspawner hnot)

/-- One task comes to a point of the loop, from another one or as the first. -/
theorem LoopInv.goes {point : Point} (h : s.LoopInv) (hgoes : s.Goes s' i point) (hc : Counts s.control s'.control)
    (hi : ∀ j, s.LoopAt j → j = i)
    (hflag : s'.control.restartInFlight = true ∨ s'.control.disposed = true)
    (hown : ∀ m, s'.ipc = some m → point.manager = some m) (hspares : ∀ m d, point ≠ .managerShutdown m d)
    (hcount : (∀ m, point ≠ .getState m .autoRestart) → s'.control.attempts ≤ s'.control.retryCount) : s'.LoopInv := by
  have hself : ∀ j, s'.LoopAt j → j = i := by
    intro j hj
    by_contra hne
    obtain ⟨p, hp, hspawner⟩ := loopAt_iff.1 hj
    exact hne (hi j (loopAt_iff.2 ⟨p, (hgoes.point_eq hne).symm.trans hp, hspawner⟩))
  have hpoint : ∀ j p, s'.point j = some p → p.spawner = some .autoRestart → p = point := by
    intro j p hp hspawner
    obtain rfl := hself j (loopAt_iff.2 ⟨p, hp, hspawner⟩)
    exact Option.some.inj (hp.symm.trans hgoes.self)
  refine ⟨fun j k hj hk => (hself j hj).trans (hself k hk).symm, fun _ _ => hflag, ?_,
    fun j m hp => hspares m _ (hpoint j _ hp rfl).symm, ?_, hc.bound h.bound⟩
  · intro j p m hp hspawner hm
    rw [hpoint j p hp hspawner]
    exact hown m hm
  · intro j p hp hspawner hnot
    obtain rfl := hpoint j p hp hspawner
    exact hcount hnot

/-- No loop is in progress. -/
theorem LoopInv.idle (hnone : ∀ i, ¬ s.LoopAt i) (hbound : s.control.attempts ≤ s.control.maxRetries) : s.LoopInv := by
  refine ⟨fun i _ hi => absurd hi (hnone i), fun i hi => absurd hi (hnone i), fun i point m hp hspawner => ?_,
    fun i m hp => hnone i (loopAt_iff.2 ⟨_, hp, rfl⟩), fun i point hp hspawner => ?_, hbound⟩
  all_goals exact absurd (loopAt_iff.2 ⟨point, hp, hspawner⟩) (hnone i)

theorem Sound.loop_called (h : s.Sound) (hi : s.LoopAt i) : i < s.called := by
  obtain ⟨point, hp, -⟩ := loopAt_iff.1 hi
  obtain ⟨task, ht, -⟩ := Option.map_eq_some_iff.1 hp
  exact h.lt_called ht

/-- A task that goes to a point outside the loop brings no one into it. -/
theorem Goes.outside {point : Point} (hgoes : s.Goes s' i point) (hout : point.spawner ≠ some .autoRestart) :
    ∀ j p, s'.point j = some p → p.spawner = some .autoRestart → s.point j = some p := by
  intro j p hp hspawner
  by_cases hj : j = i
  · subst hj
    obtain rfl := Option.some.inj (hgoes.self.symm.trans hp)
    exact absurd hspawner hout
  · exact (hgoes.point_eq hj).symm.trans hp

/-- The loop disposes of a manager, or cannot. -/
theorem LoopInv.enters {spawner : Spawner} {point : Point} (h : s.LoopInv) (he : s.Enters i spawner)
    (hgoes : s.Goes s' i point) (hspares : ∀ m d, point ≠ .managerShutdown m d)
    (hpoint : point.spawner = some spawner) (hc : Counts s.control s'.control)
    (hflight : s'.control.restartInFlight = s.control.restartInFlight)
    (hdisposed : s'.control.disposed = s.control.disposed)
    (hipc : ∀ m, s'.ipc = some m → s.ipc = some m) : s'.LoopInv := by
  cases he with
  | autoRestart ht _ =>
    have hp : s.point i = some .backoff := congrArg (Option.map Task.point) ht
    have hloop : s.LoopAt i := loopAt_iff.2 ⟨_, hp, rfl⟩
    refine h.goes hgoes hc (fun j hj => h.one j i hj hloop) ?_ (fun m hm => ?_) hspares fun _ => ?_
    · rw [hflight, hdisposed]
      exact h.flag i hloop
    · exact nomatch h.own i _ m hp rfl (hipc m hm)
    · exact hc.count (h.count i _ hp rfl nofun)
  | _ => exact h.keep hc (hgoes.outside (by rw [hpoint]; nofun)) hipc

theorem LoopInv.take {disposer : Disposer} {outcome : Outcome} (h : s.LoopInv)
    (hr : s.Runs i (.disposeQueue disposer) outcome) : (s.takeManager i disposer).LoopInv := by
  have hc : Counts s.control (s.takeManager i disposer).control := by
    rw [takeManager_control]
    exact .of_eq rfl rfl rfl rfl rfl
  have hipc : ∀ m, (s.takeManager i disposer).ipc ≠ some m := fun m hm => by
    rw [takeManager_ipc] at hm
    cases hm
  obtain ⟨point, hgoes, hpoint⟩ := @takeManager_goes s i disposer
  have hspawner : point.spawner = (Point.disposeQueue disposer).spawner := by
    obtain ⟨rfl, -⟩ | ⟨m, -, rfl⟩ := hpoint <;> cases disposer <;> rfl
  by_cases hloop : (Point.disposeQueue disposer).spawner = some .autoRestart
  · have hi : s.LoopAt i := loopAt_iff.2 ⟨_, hr.point_eq, hloop⟩
    refine h.goes hgoes hc (fun j hj => h.one j i hj hi) (hc.flag (h.flag i hi)) (fun m hm => absurd hm (hipc m))
      (fun m d hp => ?_) fun _ => hc.count (h.count i _ hr.point_eq hloop nofun)
    -- No manager with a client is held, so none is shut down.
    obtain ⟨rfl, -⟩ | ⟨m', hm', -⟩ := hpoint
    · cases hp
    · cases h.own i _ m' hr.point_eq hloop hm'
  · exact h.keep hc (hgoes.outside (by rwa [hspawner])) fun m hm => absurd hm (hipc m)

theorem Returned.point {spawner : Spawner} (hr : s.Returned i (.spawnAndStart spawner)) :
    ∃ point, s.point i = some point ∧ point.spawner = some spawner ∧ ∀ m c, point ≠ .getState m c := by
  obtain ⟨point, outcome, hr, rfl | ⟨m, rfl, -⟩⟩ := hr
  · exact ⟨_, hr.point_eq, rfl, nofun⟩
  · exact ⟨_, hr.point_eq, rfl, nofun⟩

theorem LoopInv.create {spawner : Spawner} (h : s.LoopInv) (hs : s.Sound) (hr : s.Returned i (.spawnAndStart spawner))
    (hapart : s.ConnectsApart (.job i)) : (s.createManager i spawner).LoopInv := by
  have hgoes := @createManager_goes s i spawner
  have hc : Counts s.control (s.createManager i spawner).control := by
    rw [createManager_control]
    exact .of_eq rfl rfl rfl rfl rfl
  obtain ⟨point, hp, hspawner, hnot⟩ := hr.point
  by_cases hloop : spawner = .autoRestart
  · subst hloop
    -- The loop starts its core: it is the only one, and its flag is up.
    have hi : s.LoopAt i := loopAt_iff.2 ⟨_, hp, hspawner⟩
    refine h.goes hgoes hc (fun j hj => h.one j i hj hi) (hc.flag (h.flag i hi)) (fun m hm => ?_) (fun m d => ?_)
      fun _ => ?_
    · obtain ⟨rfl, hok⟩ := createManager_ipc hm
      rw [if_pos hok]
      rfl
    · split <;> nofun
    · exact hc.count (h.count i point hp hspawner fun m => hnot m _)
  · have hout : ∀ j p, (s.createManager i spawner).point j = some p → p.spawner = some .autoRestart →
        s.point j = some p := by
      refine hgoes.outside ?_
      split <;> exact fun he => hloop (Option.some.inj he)
    by_cases hok : s.spawnOk = true
    · -- A user operation starts its core, so no loop is in progress.
      have hnone : ∀ j, ¬ s.LoopAt j := fun j hj => by
        refine hapart ?_ j (hs.loop_called hj) hj
        obtain ⟨point, outcome, ⟨time, ht⟩, rfl | ⟨m, rfl, ho⟩⟩ := hr <;> rw [ht]
        · simp [Task.connects, hok, hloop]
        · simp [Task.connects, hok, hloop, ho]
      refine .idle (fun j hj => ?_) (hc.bound h.bound)
      obtain ⟨p, hp, hspawner⟩ := loopAt_iff.1 hj
      exact hnone j (loopAt_iff.2 ⟨p, hout j p hp hspawner, hspawner⟩)
    · exact h.keep hc hout fun m hm => absurd (createManager_ipc hm).2 hok

theorem LoopInv.ran {spawner : Spawner} {outcome : Outcome} (h : s.LoopInv) (hs : s.Sound)
    (hr : s.Runs i (.getState m spawner) outcome) (hapart : s.ConnectsApart (.job i))
    (market : Option MarketStateView) :
    ((s.update fun c => { c with lastMarket := market }).update HostController.ran).LoopInv := by
  by_cases hloop : spawner = .autoRestart
  · subst hloop
    have hi : s.LoopAt i := loopAt_iff.2 ⟨_, hr.point_eq, rfl⟩
    refine ⟨h.one, h.flag, h.own, h.spares, fun j point hp hspawner hnot => ?_, h.bound⟩
    -- The loop that goes on without its retries is the one that ends here.
    obtain rfl := h.one j i (loopAt_iff.2 ⟨point, hp, hspawner⟩) hi
    exact absurd (Option.some.inj (Eq.trans (by exact hp.symm) hr.point_eq)) (hnot m)
  · refine .idle (fun j hj => ?_) h.bound
    refine hapart ?_ j (hs.loop_called hj) hj
    obtain ⟨time, ht⟩ := hr
    rw [ht]
    simp [Task.connects, hloop]

/-- Where an attempt fails, no manager with a client is held. -/
theorem SpawnFails.loop (hf : s.SpawnFails i .autoRestart) :
    ∃ point, s.point i = some point ∧ point.spawner = some .autoRestart ∧ (∀ m c, point ≠ .getState m c) ∧
      ∀ m, point.manager = some m → (s.managers m).connected = false := by
  obtain ⟨-, point, outcome, hr, rfl | ⟨m, step, rfl, -, hclosed⟩ | ⟨m, rfl, -⟩⟩ := hf
  · exact ⟨_, hr.point_eq, rfl, nofun, nofun⟩
  · refine ⟨_, hr.point_eq, rfl, nofun, fun m' hm' => ?_⟩
    obtain rfl := Option.some.inj hm'
    exact hclosed
  · exact ⟨_, hr.point_eq, rfl, nofun, nofun⟩

theorem LoopInv.retry (h : s.LoopInv) (hf : s.SpawnFails i .autoRestart)
    (hretry : s.control.retryCount < s.control.maxRetries) :
    ((s.update HostController.retry).park i .backoff .outside).LoopInv := by
  obtain ⟨point, hp, hspawner, hnot, hclosed⟩ := hf.loop
  have hi : s.LoopAt i := loopAt_iff.2 ⟨_, hp, hspawner⟩
  have hcount := h.count i point hp hspawner fun m => hnot m _
  have hc : Counts s.control s.control.retry :=
    ⟨id, fun hle => Nat.succ_le_succ hle, fun _ => hcount.trans_lt hretry⟩
  have hgoes : s.Goes ((s.update HostController.retry).park i .backoff .outside) i .backoff :=
    ⟨park_goes.self, park_goes.other⟩
  refine h.goes hgoes hc (fun j hj => h.one j i hj hi) (h.flag i hi) (fun m hm => ?_) nofun fun _ => hc.count hcount
  have hm : s.ipc = some m := hm
  have hopen := (ipc_eq_some.1 hm).2
  cases (hclosed m (h.own i point m hp hspawner hm)).symm.trans hopen

theorem LoopInv.beginLoop (h : s.LoopInv) (hnone : s.control.manager = none) (hstays : ¬ s.control.Stays)
    (hidle : s.control.restartInFlight = false) (hretry : s.control.retryCount < s.control.maxRetries) :
    ((({ s with called := s.called + 1 }.update HostController.beginLoop).update
      HostController.retry).park s.called .backoff .outside).LoopInv := by
  have hloops : ∀ j, ¬ s.LoopAt j := fun j hj => by
    rcases h.flag j hj with hflight | hdisposed
    · cases hflight.symm.trans hidle
    · exact hstays (.inl hdisposed)
  have hc : Counts s.control s.control.beginLoop.retry :=
    ⟨fun _ => .inl rfl, fun _ => Nat.succ_le_succ (Nat.zero_le _),
      fun _ => (Nat.succ_le_succ (Nat.zero_le _)).trans hretry⟩
  have hgoes : s.Goes ((({ s with called := s.called + 1 }.update HostController.beginLoop).update
      HostController.retry).park s.called .backoff .outside) s.called .backoff :=
    ⟨park_goes.self, park_goes.other⟩
  refine h.goes hgoes hc (fun j hj => absurd hj (hloops j)) (.inl rfl)
    (fun m hm => ?_) nofun fun _ => Nat.succ_le_succ (Nat.zero_le _)
  have hheld := (ipc_eq_some.1 hm).1
  cases hnone.symm.trans hheld

theorem LoopEnds.loopAt (he : s.LoopEnds i) : s.LoopAt i := by
  cases he with
  | stays ht => exact loopAt_iff.2 ⟨.backoff, congrArg (Option.map Task.point) ht, rfl⟩
  | spawnFails hf =>
    obtain ⟨point, hp, hspawner, -⟩ := hf.loop
    exact loopAt_iff.2 ⟨point, hp, hspawner⟩
  | ran hr => exact loopAt_iff.2 ⟨_, hr.point_eq, rfl⟩

theorem LoopInv.endLoop (h : s.LoopInv) (he : s.LoopEnds i) : (s.endLoop i).LoopInv := by
  refine .idle (fun j hj => ?_) h.bound
  obtain ⟨point, hp, hspawner⟩ := loopAt_iff.1 hj
  obtain ⟨hne, hp⟩ := finish_point hp
  exact hne (h.one j i (loopAt_iff.2 ⟨point, hp, hspawner⟩) he.loopAt)

theorem LoopInv.handshake {spawner : Spawner} {step : HandshakeStep} {outcome : Outcome} (h : s.LoopInv)
    (hr : s.Runs i (.handshake m spawner step) outcome)
    (hipc : ∀ m', (s.handshakeNext i m spawner step).ipc = some m' → s.ipc = some m') :
    (s.handshakeNext i m spawner step).LoopInv := by
  have hc : Counts s.control (s.handshakeNext i m spawner step).control := by
    rw [handshakeNext_control]
    exact .of_eq rfl rfl rfl rfl rfl
  have hnext : (step.next m spawner).spawner = some spawner := by cases step <;> rfl
  by_cases hloop : spawner = .autoRestart
  · subst hloop
    have hi : s.LoopAt i := loopAt_iff.2 ⟨_, hr.point_eq, rfl⟩
    refine h.goes handshakeNext_goes hc (fun j hj => h.one j i hj hi) (hc.flag (h.flag i hi)) (fun m' hm' => ?_)
      (by cases step <;> nofun) fun _ => hc.count (h.count i _ hr.point_eq rfl nofun)
    have hown : (Point.handshake m .autoRestart step).manager = some m' := h.own i _ m' hr.point_eq rfl (hipc m' hm')
    cases step <;> exact hown
  · refine h.keep hc (handshakeNext_goes.outside ?_) hipc
    rw [hnext]
    exact fun he => hloop (Option.some.inj he)

theorem LoopInv.quiet (hp : s₀.Part e s s') (hapart : s₀.ConnectsApart e) (h : s.LoopInv) (hs : s.Sound)
    (hq : s.Quiet s') : s'.LoopInv := by
  have hipc : ∀ m, s'.ipc = some m → s.ipc = some m := fun m => hq.ipc
  cases hp with
  | commanded desired retryCount disposed restartInFlight hdesired hretry hloop =>
    refine h.keep ⟨fun hflag => ?_, fun _ => Nat.zero_le _, fun _ => Nat.zero_le _⟩ (fun _ _ hp _ => hp) hipc
    -- A command leaves the loop alone, or disposes of the controller.
    rcases hloop with ⟨rfl, rfl⟩ | rfl
    · exact hflag
    · exact .inr rfl
  | pauses => exact h.keep ⟨id, fun _ => Nat.zero_le _, fun _ => Nat.zero_le _⟩ (fun _ _ hp _ => hp) hipc
  | take hr => exact h.take hr
  | create hr => exact h.create hs hr hapart
  | ran market hr _ => exact h.ran hs hr hapart market
  | handshake hr _ => exact h.handshake hr hipc
  | retry hf _ hretry => exact h.retry hf hretry
  | beginLoop hnone hstays hidle hretry => exact h.beginLoop hnone hstays hidle hretry
  | declineLoop hidle =>
    refine @LoopInv.keep s (Host.endLoop _ _) h ⟨fun hflag => ?_, fun _ => Nat.zero_le _, fun _ => Nat.zero_le _⟩
      (fun _ _ hp _ => (finish_point hp).2) hipc
    -- The loop that is in flight is another one, and this one was declined for it.
    rcases hflag with hflight | hdisposed
    · cases hflight.symm.trans hidle
    · exact .inr hdisposed
  | endLoop he => exact h.endLoop he
  | dispose hd =>
    have hc : Counts s.control s.control.retire := .of_eq rfl rfl rfl rfl rfl
    cases hd with
    | spawnAndStart he =>
      exact h.enters he disposeManager_goes nofun rfl (by rw [disposeManager_control]; exact hc)
        (by rw [disposeManager_control]; rfl) (by rw [disposeManager_control]; rfl) hipc
    | restartCore _ =>
      exact h.keep (by rw [disposeManager_control]; exact hc) (disposeManager_goes.outside nofun) hipc
    | shutdown _ => exact h.keep (by rw [disposeManager_control]; exact hc) (disposeManager_goes.outside nofun) hipc
  | thrown he _ => exact h.enters he parkReady_goes nofun rfl (.of_eq rfl rfl rfl rfl rfl) rfl rfl hipc
  | finish _ => exact h.keep (.of_eq rfl rfl rfl rfl rfl) (fun _ _ hp _ => (finish_point hp).2) hipc
  | round ht _ => exact h.keep (.of_eq rfl rfl rfl rfl rfl) (fun j _ hp _ => (parkReady_point ht j).symm.trans hp) hipc
  | awaitShutdown _ =>
    exact h.keep (by rw [awaitPresentations_control]; exact .of_eq rfl rfl rfl rfl rfl)
      (awaitPresentations_goes.outside nofun) hipc
  | ask _ _ hp =>
    refine h.keep (by rw [request_control]; exact .of_eq rfl rfl rfl rfl rfl) (request_goes.outside ?_) hipc
    obtain ⟨-, rfl, -⟩ | ⟨-, rfl, -⟩ := hp <;> nofun
  | feedback _ _ _ =>
    exact h.keep (by rw [tell_control]; exact .of_eq rfl rfl rfl rfl rfl) (tell_goes.outside nofun) hipc
  | present _ _ =>
    exact h.keep (by rw [tell_control]; exact .of_eq rfl rfl rfl rfl rfl) (tell_goes.outside nofun) hipc
  | presented _ _ =>
    refine h.keep (.of_eq rfl rfl rfl rfl rfl) (fun j p hp _ => ?_) hipc
    exact (finish_point ((rewrite_point (released_rewrites _) j).symm.trans hp)).2
  | alertRead _ _ _ =>
    exact h.keep (by rw [enqueueAlert_control]; exact .of_eq rfl rfl rfl rfl rfl)
      (Goes.outside (s := s.pop _ _) enqueueAlert_goes nofun) hipc
  | answered _ _ _ =>
    exact h.keep (by rw [settle_control]; exact .of_eq rfl rfl rfl rfl rfl)
      (fun j _ hp _ => (settle_point (s := s.pop _ _) j _).symm.trans hp) hipc
  | timeout _ _ =>
    exact h.keep (by rw [settle_control]; exact .of_eq rfl rfl rfl rfl rfl)
      (fun j _ hp _ => (settle_point j _).symm.trans hp) hipc
  | shutdownThrows _ _ _ =>
    exact h.keep (by rw [Host.shutdownThrows, settle_control]; exact .of_eq rfl rfl rfl rfl rfl)
      (fun j _ hp _ => (settle_point (s := s.setStopping _ _) j _).symm.trans hp) hipc
  | shutdownOver _ _ =>
    refine h.keep (by rw [Host.shutdownOver, settle_control]; exact .of_eq rfl rfl rfl rfl rfl)
      (fun j _ hp _ => ?_) hipc
    -- The three steps of the end move no task, so the point is that of the state before.
    have hp : (s.kill _).point j = some _ :=
      (cleanup_point _ j).symm.trans ((settle_point (s := Host.setStopping _ _ _) j _).symm.trans hp)
    exact hp
  | failStart _ => exact h.keep (.of_eq rfl rfl rfl rfl rfl) (fun j _ hp _ => (cleanup_point _ j).symm.trans hp) hipc
  | unheard _ hh _ => exact h.keep hh.counts (fun j _ hp _ => (hh.point_eq j).symm.trans hp) hipc
  | close _ hh _ _ =>
    refine h.keep hh.counts (fun j _ hp _ => ?_) hipc
    exact (hh.point_eq j).symm.trans ((cleanup_point _ j).symm.trans hp)
  | disconnect _ hh _ _ _ =>
    refine h.keep hh.disconnectCounts (fun j _ hp _ => ?_) hipc
    exact (hh.point_eq j).symm.trans ((cleanup_point _ j).symm.trans hp)
  | _ => exact h.keep (.of_eq rfl rfl rfl rfl rfl) (fun _ _ hp _ => hp) hipc

theorem LoopInv.part (hp : s₀.Part e s s') (hapart : s₀.ConnectsApart e) (h : s.LoopInv) (hs : s.Sound) :
    s'.LoopInv := by
  rcases hp.quiet_or with hq | ⟨i, disposer, outcome, rfl, rfl, hr, rfl⟩ | ⟨i, spawner, rfl, rfl, hr, rfl⟩ |
    ⟨m, s₁, rfl, hh, -, -, -, rfl⟩
  · exact h.quiet hp hapart hs hq
  · exact h.take hr
  · exact h.create hs hr hapart
  · refine h.keep hh.disconnectCounts (fun j _ hp _ => ?_) fun m hm => ?_
    · exact (hh.point_eq j).symm.trans ((cleanup_point _ j).symm.trans hp)
    · cases (ipc_eq_some.1 hm).1

theorem loopInv_initial (maxRetries : ℕ) : (initial maxRetries).LoopInv :=
  .idle (fun _ hi => nomatch hi) (Nat.zero_le _)

/-- **Auto-restart never tears down a live core**, in every run in which no user operation connects one while the
loop is in progress. -/
theorem restarts_apart (maxRetries : ℕ) (events : List HostEvent) (s : Host)
    (hapart : Along step ConnectsApart (initial maxRetries) events)
    (hrun : run step (initial maxRetries) events = some s) : s.RestartsApart := by
  obtain ⟨-, h⟩ := run_inv_along (fun hc hs h hp => h.part hp hc hs) (loopInv_initial maxRetries) hapart hrun
  refine ⟨h.one, fun i point hp hloop hacts => ?_, h.spares, h.bound⟩
  obtain ⟨point', hp', hspawner⟩ := loopAt_iff.1 hloop
  obtain rfl := Option.some.inj (hp.symm.trans hp')
  cases hm : s.ipc with
  | none => rfl
  | some m =>
    have hmanager := h.own i point m hp hspawner hm
    cases point <;> first | exact False.elim hacts | cases hmanager

/-- The core ends, and the restart loop connects the next one. -/
def recoverEvents : List HostEvent :=
  startEvents ++ [.exit 0, .delayOver 1] ++ spawnEvents 1 1 ++ answerEvents 1 1 1

theorem restarts_apart_recover : ∃ s, run step (initial 3) recoverEvents = some s ∧ s.RestartsApart := by
  have hsome : (run step (initial 3) recoverEvents).isSome := by decide +kernel
  obtain ⟨s, hs⟩ := Option.isSome_iff_exists.1 hsome
  exact ⟨s, hs, restarts_apart 3 recoverEvents s (by decide +kernel) hs⟩

/-- The core ends, the user starts the next one, and then the wait of the restart loop is over. -/
def healthyEvents : List HostEvent :=
  startEvents ++ [.exit 0, .start] ++ spawnEvents 2 1 ++ answerEvents 2 1 1 ++ [.delayOver 1, .job 1, .job 1]

/-- The restart loop shuts the new core down. -/
theorem healthy_core_taken : ∃ s, run step (initial 3) healthyEvents = some s ∧ ¬ s.RestartsApart := by
  have hsome : (run step (initial 3) healthyEvents).isSome := by decide +kernel
  obtain ⟨s, hs⟩ := Option.isSome_iff_exists.1 hsome
  refine ⟨s, hs, fun h => ?_⟩
  have hpoint : (run step (initial 3) healthyEvents).map (fun s => s.point 1) =
      some (some (.managerShutdown 1 (.spawnAndStart .autoRestart))) := by decide +kernel
  rw [hs] at hpoint
  simp only [Option.map_some, Option.some.injEq] at hpoint
  exact h.spares 1 1 hpoint

end Host

end MarketSentinel.Extension
