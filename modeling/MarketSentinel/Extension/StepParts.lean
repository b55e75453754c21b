import MarketSentinel.Extension.ControllerParts

/-!
# The steps, part by part

`step_parts` takes every step apart. An invariant is then shown part by part, and of a run by `run_inv_along`.

* `parts_advance`, `parts_exitHandler` and the others: the parts of one operation.
* `Effect`, `step_effect`: what a step does, event by event, with what it has looked at.
* `Sound.step`, `sound_run`, `run_inv_along`: the rules for steps and runs.
-/

namespace MarketSentinel.Extension

open Lib Lib.Machine

namespace Host

variable {s s' s₀ : Host} {i m : ℕ} {e : HostEvent}

/-! ## The parts of the operations -/

variable {spawner : Spawner} {disposer : Disposer}

/-- Settings that are read keep the task where it was. -/
theorem Enters.configured (h : s.Enters i spawner) :
    (s.update fun c => { c with configured := true }).Enters i spawner := by
  cases h with
  | start hnew hdesired => exact .start hnew hdesired
  | resume hnew hdesired => exact .resume hnew hdesired
  | resumeFailed hr he => exact .resumeFailed hr he
  | restartCore hr hdesired => exact .restartCore hr hdesired
  | autoRestart ht hstays => exact .autoRestart ht hstays

/-- `spawnAndStart` begins a disposal, or has thrown. -/
theorem parts_spawnAndStart (h : s.Enters i spawner) : s₀.Parts e s (s.spawnAndStart i spawner) := by
  unfold Host.spawnAndStart
  split
  · exact .single (.dispose (.spawnAndStart h))
  · exact .single (.thrown h 1)

/-- Settings that cannot be read are an exception too. -/
theorem parts_connectFromSettings (h : s.Enters i spawner) : s₀.Parts e s (s.connectFromSettings i spawner) := by
  unfold Host.connectFromSettings
  split
  · exact (parts_spawnAndStart h.configured).head .configured
  · exact .single (.thrown h 0)

theorem parts_connectWithRuntimeWatchlist (h : s.Enters i .autoRestart) :
    s₀.Parts e s (s.connectWithRuntimeWatchlist i) := by
  unfold Host.connectWithRuntimeWatchlist
  split
  · exact parts_spawnAndStart h
  · exact parts_connectFromSettings h

/-- The loop waits again, or ends. -/
theorem parts_restartLoop (h : s.SpawnFails i .autoRestart) : s₀.Parts e s (s.restartLoop i) := by
  unfold Host.restartLoop
  split
  · exact .single (.endLoop (.spawnFails h))
  · next hstays =>
    split
    · refine .head (.actual .disconnected nofun nofun) (.single (.endLoop (.spawnFails ⟨rfl, h.2⟩)))
    · next hretry => exact .single (.retry h hstays (not_le.1 hretry))

/-- What awaits `spawnAndStart` has caught what it threw. -/
theorem parts_catchSpawn (h : (s.update HostController.failDisconnected).SpawnFails i spawner) :
    s₀.Parts e (s.update HostController.failDisconnected) (s.catchSpawn i spawner) := by
  unfold Host.catchSpawn
  split
  · next he =>
    subst he
    exact parts_restartLoop h
  · next he => exact .single (.finish (.spawnFails h he))

/-- A disposal that throws is a failed start, or the end of the command. -/
theorem parts_disposeFails (hr : s.Runs i (.managerShutdown m disposer) .failed) :
    s₀.Parts e s (s.disposeFails i disposer) := by
  cases disposer with
  | spawnAndStart spawner => exact .head .failed (parts_catchSpawn ⟨rfl, _, _, hr, .inr (.inr ⟨m, rfl, rfl⟩)⟩)
  | restartCore => exact .single (.finish (.disposeFails hr (.inl rfl)))
  | shutdown => exact .single (.finish (.disposeFails hr (.inr rfl)))

/-- After a disposal the task ends, spawns, or creates the next manager. -/
theorem parts_afterDispose (hr : s.Returned i disposer) : s.Parts (.job i) s (s.afterDispose i disposer) := by
  cases disposer with
  | spawnAndStart spawner => exact .single (.create hr)
  | shutdown => exact .head (.actual .stopped nofun nofun) (.single (.finish (.stopped hr (.inr rfl) rfl)))
  | restartCore =>
    show s.Parts _ s (if s.control.desired = .paused then (s.update fun c => c.setActual .stopped).finish i
      else s.connectFromSettings i .restartCore)
    split
    · exact .head (.actual .stopped nofun nofun) (.single (.finish (.stopped hr (.inl rfl) rfl)))
    · next hdesired => exact parts_connectFromSettings (.restartCore hr hdesired)

/-- The next signal of an alert is reported, or the presentation is done. -/
theorem parts_flushNext {origin : Option ℕ} {ids : List String} {point : Point} {outcome : Outcome}
    (hr : s.Runs i point outcome) (hp : point = .flushTurn origin ids ∨ ∃ m, origin = some m ∧ point = .flush m ids) :
    s₀.Parts e s (s.flushNext i origin ids) := by
  have haside : point.Aside := by
    obtain rfl | ⟨m, -, rfl⟩ := hp <;> trivial
  unfold Host.flushNext
  split
  · refine .single (.present hr ?_)
    obtain rfl | ⟨m, hm, rfl⟩ := hp
    · exact .inl rfl
    · cases hm
      exact .inr rfl
  · exact .single (.presented hr haside)

/-- A start that has got its state is over. -/
theorem parts_spawnDone {outcome : Outcome} {market : Option MarketStateView}
    (hr : s.Runs i (.getState m spawner) outcome)
    (hmarket : market = s.control.lastMarket ∨ ∃ state, outcome = .state state ∧ market = some state) :
    s.Parts (.job i) s ((s.update fun c => { c with lastMarket := market }).spawnDone i spawner) := by
  refine .head (.ran market hr hmarket) ?_
  unfold Host.spawnDone
  split
  · next he =>
    subst he
    exact .single (.endLoop (.ran hr))
  · next he => exact .single (.finish (.ran hr he))

/-- After the delay the loop ends or connects. -/
theorem parts_backoff {ticket : Ticket} (ht : s.tasks i = some ⟨.backoff, ticket⟩) (outcome : Outcome) :
    s₀.Parts e s (s.advance i .backoff outcome) := by
  show s₀.Parts e s (if s.control.Stays then s.endLoop i else s.connectWithRuntimeWatchlist i)
  split
  · exact .single (.endLoop (.stays ht))
  · next hstays => exact parts_connectWithRuntimeWatchlist (.autoRestart ht hstays)

/-- **The parts of a job.** -/
theorem parts_advance {point : Point} {outcome : Outcome} {time : ℕ} (hfirst : s.First time)
    (ht : s.tasks i = some ⟨point, .ready outcome 0 time⟩) : s.Parts (.job i) s (s.advance i point outcome) := by
  have hr : s.Runs i point outcome := ⟨time, ht⟩
  cases point with
  | shutdown =>
    show s.Parts _ s (if s.control.actual = .stopped ∧ s.control.manager = none then s.finish i
      else (s.update fun c => c.setActual .stopping).disposeManager i .shutdown)
    split
    · exact .single (.finish (.shutdown hr))
    · exact .head (.actual .stopping nofun nofun) (.single (.dispose (.shutdown hr)))
  | disposeQueue disposer => exact .single (.take hr)
  | managerShutdown m disposer =>
    cases outcome with
    | failed => exact parts_disposeFails hr
    | done => exact parts_afterDispose ⟨_, _, hr, .inr ⟨m, rfl, nofun⟩⟩
    | state market => exact parts_afterDispose ⟨_, _, hr, .inr ⟨m, rfl, nofun⟩⟩
  | disposed disposer => exact parts_afterDispose ⟨_, _, hr, .inl rfl⟩
  | thrown spawner => exact .head .failed (parts_catchSpawn ⟨rfl, _, _, hr, .inl rfl⟩)
  -- A start that fails closes its manager first, and then ends like one that was thrown.
  | handshake m spawner step =>
    cases outcome with
    | failed =>
      refine .head (.failStart hr) (parts_catchSpawn ⟨rfl, _, _, ⟨time, cleanup_ready m ht⟩, .inr (.inl ?_)⟩)
      exact ⟨m, step, rfl, rfl, (setStopping_connected _ _ _ _).trans (cleanup_connected _ _)⟩
    | done => exact .single (.handshake hr nofun)
    | state market => exact .single (.handshake hr nofun)
  | getState m spawner =>
    cases outcome with
    | state market => exact parts_spawnDone hr (.inr ⟨market, rfl, rfl⟩)
    | done => exact parts_spawnDone hr (.inl rfl)
    | failed => exact parts_spawnDone hr (.inl rfl)
  | backoff => exact parts_backoff ht .done
  -- An acknowledged command sets the state before its task ends.
  | pause m =>
    cases outcome with
    | failed => exact .single (.finish (.paused hr (.inl rfl)))
    | done => exact .head (.acked hfirst ht nofun (.inl ⟨rfl, rfl⟩)) (.single (.finish (.paused hr (.inr rfl))))
    | state market => exact .head (.acked hfirst ht nofun (.inl ⟨rfl, rfl⟩)) (.single (.finish (.paused hr (.inr rfl))))
  | resume m =>
    cases outcome with
    | failed => exact .head (.actual .disconnected nofun nofun) (parts_connectFromSettings (.resumeFailed hr rfl))
    | done => exact .head (.acked hfirst ht nofun (.inr ⟨rfl, rfl⟩)) (.single (.finish (.resumed hr nofun)))
    | state market => exact .head (.acked hfirst ht nofun (.inr ⟨rfl, rfl⟩)) (.single (.finish (.resumed hr nofun)))
  | flushTurn origin ids => exact parts_flushNext hr (.inl rfl)
  | flush m ids => exact parts_flushNext hr (.inr ⟨m, rfl, rfl⟩)
  | feedback m => exact .single (.finish (.feedback hr))

/-- A new task is called. -/
theorem Sound.new (h : s.Sound) (f : HostController → HostController) :
    Host.New { s.update f with called := s.called + 1 } s.called :=
  ⟨Nat.lt_succ_self _, h.unused _ le_rfl⟩

/-- A request and a change of the controller do not see each other. -/
theorem request_update {f : HostController → HostController} {command : HostCommandType} {point : Point} :
    (s.update f).request i m command point = (s.request i m command point).update f := by
  unfold Host.request
  by_cases hopen : (s.managers m).connected = true
  · rw [if_pos hopen]
    exact if_pos hopen
  · rw [if_neg hopen]
    exact if_neg hopen

/-- A start connects with the settings. -/
theorem parts_start (h : s.Sound) : s₀.Parts e s s.start :=
  .head (.commanded .running s.control.retryCount s.control.disposed s.control.restartInFlight (.inl rfl) (.inr rfl)
    (.inl ⟨rfl, rfl⟩)) (.head .call (parts_connectFromSettings (.start (h.new _) rfl)))

/-- A pause is a request, unless nothing is connected. -/
theorem parts_pause (h : s.Sound) : s₀.Parts .pause s s.pause := by
  unfold Host.pause
  split
  · exact .single .pauses
  · unfold Host.pauseManager
    split
    · refine .head (.actual .disconnected nofun nofun) (.single .pauses)
    · next m hm =>
      show s₀.Parts .pause s ((Host.update { s with called := s.called + 1 } fun c =>
        { c with desired := .paused, attempts := 0 }).request s.called m .pause (.pause m))
      rw [request_update]
      exact .head .call (.head (.ask (h.new id) hm (.inl ⟨rfl, rfl, rfl⟩)) (.single .pauses))

/-- A resume is a request, or connects. -/
theorem parts_resume (h : s.Sound) : s₀.Parts .resume s s.resume := by
  refine .head (.commanded .running 0 s.control.disposed s.control.restartInFlight (.inl rfl) (.inl rfl)
    (.inl ⟨rfl, rfl⟩)) (.head .call ?_)
  unfold Host.resume Host.call
  dsimp only
  split
  · next m hm =>
    split at hm
    · next hpaused => exact .single (.ask (h.new _) hm (.inr ⟨rfl, rfl, rfl, hpaused⟩))
    · cases hm
  · exact parts_connectFromSettings (.resume (h.new _) rfl)

/-- A restart disposes of the manager. -/
theorem parts_restartCore (h : s.Sound) : s₀.Parts e s s.restartCore :=
  .head (.commanded s.control.desired 0 s.control.disposed s.control.restartInFlight (.inr rfl) (.inl rfl)
    (.inl ⟨rfl, rfl⟩)) (.head .call (.single (.dispose (.restartCore (h.new _)))))

/-- A shutdown waits for the presentations. -/
theorem parts_shutdown (h : s.Sound) : s₀.Parts e s s.shutdown :=
  .head (.commanded s.control.desired s.control.retryCount true false (.inr rfl) (.inr rfl) (.inr rfl))
    (.head .call (.single (.awaitShutdown (h.new _))))

/-- Feedback is sent for a target only. -/
theorem parts_submitSignalFeedback (h : s.Sound) (signalId : String) :
    s₀.Parts e s (s.submitSignalFeedback signalId) := by
  unfold Host.submitSignalFeedback
  split
  · exact .refl
  · split
    · exact .refl
    · next m hm =>
      split
      · next hid => exact .head .call (.single (.feedback (h.new id) hm hid))
      · exact .refl

/-- One message of a core is read. -/
theorem parts_read {output : CoreOutput} {outbox : List CoreOutput} (hopen : (s.managers m).connected = true)
    (hout : (s.cores m).outbox = output :: outbox) : s₀.Parts e s ((s.pop m outbox).read m output) := by
  unfold Host.read
  split
  · next i time outcome =>
    split
    · next point time' ht =>
      split
      · next he =>
        subst he
        exact .single (.answered hopen hout ht)
      · next hne =>
        refine .single (.skipped hopen hout fun j time'' outcome' he point' ht' => hne ?_)
        cases he
        cases ht.symm.trans ht'
        rfl
    · next hnone =>
      refine .single (.skipped hopen hout fun j time' outcome' he point ht => ?_)
      cases he
      exact hnone _ _ ht
  · split
    · next hcurrent => exact .single (.stateRead hopen hout hcurrent)
    · exact .single (.skipped hopen hout nofun)
  · split
    · next hcurrent => exact .single (.alertRead hopen hout hcurrent)
    · exact .single (.skipped hopen hout nofun)

/-- What is read of a core is no manager's. -/
theorem read_managers (s : Host) (m : ℕ) (output : CoreOutput) : (s.read m output).managers = s.managers := by
  unfold Host.read
  split
  · split
    · split
      · exact settle_managers
      · rfl
    · rfl
  · split <;> rfl
  · split
    · exact awaitPresentations_managers
    · rfl

/-- The messages of a chunk are parts, one after the other. -/
theorem parts_receive : ∀ (n : ℕ) {s : Host}, (s.managers m).connected = true → s₀.Parts e s (s.receive m n) := by
  intro n
  induction n with
  | zero => exact fun _ => .refl
  | succ n ih =>
    intro s hopen
    unfold Host.receive
    split
    · exact .refl
    · next output outbox hout =>
      refine (parts_read hopen hout).trans (ih ?_)
      rw [read_managers]
      exact hopen

/-- After a disconnect the restart loop begins, unless one is in progress. -/
theorem parts_handleUnexpectedDisconnect :
    s₀.Parts e (s.update HostController.onDisconnect) s.handleUnexpectedDisconnect := by
  unfold Host.handleUnexpectedDisconnect Host.autoRestart
  split
  · exact .refl
  · next hloop =>
    rw [not_or, Bool.not_eq_true] at hloop
    unfold Host.call Host.restartLoop
    rw [if_neg (by exact hloop.1)]
    split
    · exact .single (.declineLoop hloop.2)
    · next hretry => exact .single (.beginLoop rfl hloop.1 hloop.2 (not_le.1 hretry))

/-- What the controller hears of a child that has ended, or closed its stdout, or failed. -/
theorem parts_exitHandler (hcalm : s.Calm) (hh : s.Hears m e s') : s.Parts e s (s'.exitHandler m) := by
  have hcurrent : s'.Current m ↔ s.Current m := by
    unfold Current
    rw [hh.managers, hh.control]
  unfold Host.exitHandler
  rw [hh.managers]
  split
  · next hdeaf => exact .single (.unheard hcalm hh hdeaf)
  · next hheard =>
    rw [not_or, Bool.not_eq_false] at hheard
    split
    · next hnotified =>
      exact .head (.disconnect hcalm hh hheard.2 hnotified.1 (hcurrent.1 hnotified.2)) parts_handleUnexpectedDisconnect
    · next hquiet => exact .single (.close hcalm hh hheard.2 fun hn => hquiet ⟨hn.1, hcurrent.2 hn.2⟩)

/-! ## The parts of a step -/

/-- **What a step does**, event by event, with what it has looked at. -/
inductive Effect (s : Host) : HostEvent → Host → Prop
  | start : s.Effect .start s.start
  | pause : s.Effect .pause s.pause
  | resume : s.Effect .resume s.resume
  | restartCore : s.Effect .restartCore s.restartCore
  | shutdown : s.Effect .shutdown s.shutdown
  | feedback (signalId : String) : s.Effect (.feedback signalId) (s.submitSignalFeedback signalId)
  | job {i : ℕ} {point : Point} {outcome : Outcome} {time : ℕ}
      (ht : s.tasks i = some ⟨point, .ready outcome 0 time⟩) (hfirst : s.First time) :
      s.Effect (.job i) (s.advance i point outcome)
  | round {i : ℕ} {point : Point} {outcome : Outcome} {rounds time : ℕ}
      (ht : s.tasks i = some ⟨point, .ready outcome (rounds + 1) time⟩) (hfirst : s.First time) :
      s.Effect (.job i) (s.parkReady i point outcome rounds)
  | work {m : ℕ} {accepts : Bool} {market : MarketStateView} {request : Request} {inbox : List Request}
      (hin : (s.cores m).inbox = request :: inbox) (halive : (s.cores m).alive = true) :
      s.Effect (.work m accepts market) (s.work m request inbox accepts market)
  | writeState {m : ℕ} {market : MarketStateView} (halive : (s.cores m).alive = true) :
      s.Effect (.writeState m market) (s.write m (.state market))
  | writeAlert {m : ℕ} {candidates : List AlertCandidateView} (halive : (s.cores m).alive = true) :
      s.Effect (.writeAlert m candidates) (s.write m (.alert candidates))
  | settings (ok : Bool) : s.Effect (.settings ok) { s with settingsOk := ok }
  | spawnable (ok : Bool) : s.Effect (.spawnable ok) { s with spawnOk := ok }
  /- What waits until no job is left. -/
  | chunk {m : ℕ} (n : ℕ) (hcalm : s.Calm) (hopen : (s.managers m).connected = true) :
      s.Effect (.chunk m n) (s.receive m n)
  | timeout {i : ℕ} {point : Point} {time : ℕ} (hcalm : s.Calm) (ht : s.tasks i = some ⟨point, .asked time⟩) :
      s.Effect (.timeout i) (s.settle i .failed)
  | delayOver {i : ℕ} {ticket : Ticket} (hcalm : s.Calm) (ht : s.tasks i = some ⟨.backoff, ticket⟩) :
      s.Effect (.delayOver i) (s.advance i .backoff .done)
  | shutdownOver {i m : ℕ} {disposer : Disposer} (hcalm : s.Calm)
      (ht : s.tasks i = some ⟨.managerShutdown m disposer, .outside⟩) :
      s.Effect (.shutdownOver i false) (s.shutdownOver i m)
  | shutdownThrows {i m : ℕ} {disposer : Disposer} (hcalm : s.Calm)
      (ht : s.tasks i = some ⟨.managerShutdown m disposer, .outside⟩) (hclosed : (s.managers m).connected = false) :
      s.Effect (.shutdownOver i true) (s.shutdownThrows i m)
  | shutdownUnanswered {i m : ℕ} {disposer : Disposer} (hcalm : s.Calm)
      (ht : s.tasks i = some ⟨.managerShutdown m disposer, .outside⟩) (hopen : (s.managers m).connected = true) :
      s.Effect (.shutdownUnanswered i) (s.kill m)
  | heard {e : HostEvent} {s' : Host} {m : ℕ} (hcalm : s.Calm) (hh : s.Hears m e s') :
      s.Effect e (s'.exitHandler m)

/-- What an event from outside the host does, when no job is left. -/
theorem handle_effect (hcalm : s.Calm) (hs : s.handle e = some s') : s.Effect e s' := by
  unfold Host.handle at hs
  split at hs
  · split at hs
    · next hopen =>
      obtain rfl := Option.some.inj hs
      exact .chunk _ hcalm hopen
    · cases hs
  · split at hs
    · next ht =>
      obtain rfl := Option.some.inj hs
      exact .timeout hcalm ht
    · cases hs
  · split at hs
    · next ht =>
      obtain rfl := Option.some.inj hs
      exact .delayOver hcalm ht
    · cases hs
  · split at hs
    · next ht =>
      split at hs
      · next hopen =>
        obtain rfl := Option.some.inj hs
        exact .shutdownUnanswered hcalm ht hopen
      · cases hs
    · cases hs
  · next throws =>
    split at hs
    · next ht =>
      cases throws with
      | false =>
        obtain rfl := Option.some.inj hs
        exact .shutdownOver hcalm ht
      | true =>
        rw [if_neg nofun] at hs
        split at hs
        · next hclosed =>
          obtain rfl := Option.some.inj hs
          exact .shutdownThrows hcalm ht hclosed
        · cases hs
    · cases hs
  · split at hs
    · obtain rfl := Option.some.inj hs
      exact .heard hcalm .exit
    · cases hs
  · split at hs
    · obtain rfl := Option.some.inj hs
      exact .heard hcalm .stdoutClosed
    · cases hs
  · split at hs
    · obtain rfl := Option.some.inj hs
      exact .heard hcalm .childError
    · cases hs
  · cases hs

/-- Every step has one of these effects. -/
theorem step_effect (hs : s.step e = some s') : s.Effect e s' := by
  unfold Host.step at hs
  split at hs
  · obtain rfl := Option.some.inj hs
    exact .start
  · obtain rfl := Option.some.inj hs
    exact .pause
  · obtain rfl := Option.some.inj hs
    exact .resume
  · obtain rfl := Option.some.inj hs
    exact .restartCore
  · obtain rfl := Option.some.inj hs
    exact .shutdown
  · obtain rfl := Option.some.inj hs
    exact .feedback _
  · split at hs
    · next ht =>
      split at hs
      · next hfirst =>
        obtain rfl := Option.some.inj hs
        exact .job ht hfirst
      · cases hs
    · next ht =>
      split at hs
      · next hfirst =>
        obtain rfl := Option.some.inj hs
        exact .round ht hfirst
      · cases hs
    · cases hs
  · split at hs
    · cases hs
    · next hin =>
      split at hs
      · next halive =>
        obtain rfl := Option.some.inj hs
        exact .work hin halive
      · cases hs
  · split at hs
    · next halive =>
      obtain rfl := Option.some.inj hs
      exact .writeState halive
    · cases hs
  · split at hs
    · next halive =>
      obtain rfl := Option.some.inj hs
      exact .writeAlert halive
    · cases hs
  · obtain rfl := Option.some.inj hs
    exact .settings _
  · obtain rfl := Option.some.inj hs
    exact .spawnable _
  · split at hs
    · next hcalm => exact handle_effect hcalm hs
    · cases hs

/-- **Every step is a sequence of parts.** -/
theorem step_parts (h : s.Sound) (hs : s.step e = some s') : s.Parts e s s' := by
  cases step_effect hs with
  | start => exact parts_start h
  | pause => exact parts_pause h
  | resume => exact parts_resume h
  | restartCore => exact parts_restartCore h
  | shutdown => exact parts_shutdown h
  | feedback signalId => exact parts_submitSignalFeedback h signalId
  | job ht hfirst => exact parts_advance hfirst ht
  | round ht hfirst => exact .single (.round ht hfirst)
  | work hin halive => exact .single (.work halive hin)
  | writeState halive => exact .single (.write halive nofun)
  | writeAlert halive => exact .single (.write halive nofun)
  | settings ok => exact .single (.environment _ _)
  | spawnable ok => exact .single (.environment _ _)
  | chunk n hcalm hopen => exact parts_receive n hopen
  | timeout hcalm ht => exact .single (.timeout hcalm ht)
  | delayOver hcalm ht => exact parts_backoff ht .done
  | shutdownOver hcalm ht => exact .single (.shutdownOver hcalm ht)
  | shutdownThrows hcalm ht hclosed => exact .single (.shutdownThrows hcalm ht hclosed)
  | shutdownUnanswered hcalm ht hopen => exact .single (.signal _)
  | heard hcalm hh => exact parts_exitHandler hcalm hh

/-- So it keeps a host sound. -/
theorem Sound.step (h : s.Sound) (hs : s.step e = some s') : s'.Sound := h.parts (step_parts h hs)

/-- Every state that is reached is sound. -/
theorem sound_run {maxRetries : ℕ} {events : List HostEvent} (hr : run step (initial maxRetries) events = some s) :
    s.Sound :=
  run_inv (fun _ _ _ h hs => h.step hs) (sound_initial maxRetries) hr

/-- **The invariant rule.** What every part of a step keeps, where the step meets its condition, holds along
every run whose steps all do. -/
theorem run_inv_along {C : Host → HostEvent → Prop} {I : Host → Prop}
    (hpart : ∀ {s₀ e s s'}, C s₀ e → s.Sound → I s → Part s₀ e s s' → I s') {maxRetries : ℕ}
    (h0 : I (initial maxRetries)) {events : List HostEvent} (ha : Along step C (initial maxRetries) events)
    (hr : run step (initial maxRetries) events = some s) : s.Sound ∧ I s := by
  refine run_inv_of (I := fun s => s.Sound ∧ I s) (fun s e s' hi hc hs => ?_) ⟨sound_initial maxRetries, h0⟩ ha hr
  have hparts : s.Parts e s s' := step_parts hi.1 hs
  clear hs
  induction hparts with
  | refl => exact hi
  | tail _ hp ih => exact ⟨ih.1.part hp, hpart hc ih.1 ih.2 hp⟩

/-! ## Some events -/

/-- A state with no symbols. -/
def noMarket : MarketStateView where
  watchlistCount := 0
  feedStatus := "LIVE"
  symbols := []
  intelligenceEnabled := false
  replayComplete := false
  lastMarketTimestamp := none

/-- A core answers a request of a task, and the job of the task runs, after its other promises. -/
def answerEvents (i m promises : ℕ) : List HostEvent :=
  [.work m true noMarket, .chunk m 1] ++ List.replicate (promises + 1) (.job i)

/-- A task that has nothing to dispose of creates a manager, and its core is started. -/
def spawnEvents (i m : ℕ) : List HostEvent :=
  [.job i, .job i, .job i] ++ answerEvents i m 0 ++ answerEvents i m 0 ++ answerEvents i m 2

/-- The first start, up to its end. -/
def startEvents : List HostEvent := [.start] ++ spawnEvents 0 0 ++ answerEvents 0 0 1

end Host

end MarketSentinel.Extension
