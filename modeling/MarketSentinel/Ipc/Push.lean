import MarketSentinel.Ipc.Tasks
import MarketSentinel.Ipc.Totality
import MarketSentinel.Runtime.CallBudget

/-!
# What the daemon pushes

* `TasksInv`: a tick under way holds the lock while the daemon runs, and its watchlist is the
  engine's; a daemon that shuts down has no task left.
* `push_protocol`: what is written and in which order, over every interleaving of lines and ticks.
-/

namespace MarketSentinel

open Lib Machine

/-- A message that answers no command. -/
def Unsolicited (m : Message) : Prop :=
  messageType m = .str "alert" ∨ messageType m = .str "state" ∧ Json.field m "request_id" = .null

namespace Daemon

variable {d d' : Daemon}

theorem not_unsolicited_error {code : ErrorCode} {message : String} {id : Option String} :
    ¬ Unsolicited (encodeError code message id) := by
  simp [Unsolicited, encodeError]

/-- **What a line writes.** -/
theorem dispatchLine_sent {env : DispatchEnv} {line : String} (h : d.dispatchLine env line = .ok d') :
    d' = d ∨ ∃ m, d'.written = d.written ++ [m] ∧ d'.Sent m ∧ ¬ Unsolicited m := by
  have herror : ∀ code message id, d.send (encodeError code message id) = d' →
      d' = d ∨ ∃ m, d'.written = d.written ++ [m] ∧ d'.Sent m ∧ ¬ Unsolicited m := by
    rintro code message id rfl
    exact .inr ⟨_, rfl, sent_encode _ (by decide), not_unsolicited_error⟩
  unfold dispatchLine at h
  rcases decodeLine_cases env.py line with ⟨-, heq⟩ | ⟨-, m, heq, -⟩ | ⟨command, type, -, -, -, -, -, heq⟩
  · rw [heq] at h
    exact .inl (Except.ok.inj h).symm
  · obtain ⟨code, message, id, rfl⟩ := decodeLine_error heq
    rw [heq] at h
    exact herror _ _ _ (Except.ok.inj h)
  · rw [heq] at h
    dsimp only at h
    split at h
    · exact herror _ _ _ (Except.ok.inj h)
    next hknown =>
      split at h
      · exact herror _ _ _ (Except.ok.inj h)
      next id hid =>
        split at h
        · exact herror _ _ _ (Except.ok.inj h)
        · rcases raises_handle d env command (not_not.1 hknown) id with ⟨⟨err, herr⟩, -⟩ |
            ⟨⟨d₁, hd₁, hresponds⟩, -⟩
          · rw [herr] at h
            cases h
          · -- A handler answers once, under the id of the request, so what it writes is asked for.
            obtain rfl : d₁ = d' := Except.ok.inj (hd₁.symm.trans h)
            obtain ⟨m, hm, hmid, hsent⟩ := hresponds.once
            refine .inr ⟨m, hm, hsent, ?_⟩
            rintro (halert | ⟨-, hnull⟩)
            · exact hsent.1 halert
            · rw [hmid] at hnull
              cases hnull

end Daemon

/-! ## Messages in order -/

/-- Each alerted signal is listed in the row of its symbol. -/
def Listed (state : WireMarketState) (candidates : List WireAlertCandidate) : Prop :=
  ∀ c ∈ candidates, ∃ row ∈ state.symbols, row.symbol = c.symbol ∧
    ∃ signal ∈ row.activeSignals, signal.id = c.id

/-- An alert follows a state that lists its signals. -/
def AlertsFollow (written : List Message) : Prop :=
  ∀ pre m post, written = pre ++ m :: post → messageType m = .str "alert" →
    ∃ before state candidates marketTimestamp, pre = before ++ [stateMessage state] ∧
      m = alertMessage candidates marketTimestamp ∧ Listed state candidates

/-- A shutdown acknowledgement is the last message. -/
def AckLast (written : List Message) : Prop :=
  ∀ pre m post, written = pre ++ m :: post → messageType m = .str "shutdown_ack" → post = []

/-- A split of an extended list is a split of the list, or splits off the new end. -/
theorem append_singleton_split {A : Type} {l pre post : List A} {x m : A}
    (h : l ++ [x] = pre ++ m :: post) :
    (∃ post', post = post' ++ [x] ∧ l = pre ++ m :: post') ∨ pre = l ∧ m = x ∧ post = [] := by
  rcases List.eq_nil_or_concat post with rfl | ⟨post', y, rfl⟩
  · obtain ⟨rfl, hx⟩ := List.append_inj' h rfl
    cases hx
    exact .inr ⟨rfl, rfl, rfl⟩
  · have h' : l ++ [x] = (pre ++ m :: post') ++ [y] := by simpa using h
    obtain ⟨rfl, hx⟩ := List.append_inj' h' rfl
    cases hx
    exact .inl ⟨post', by simp, rfl⟩

theorem AlertsFollow.snoc {written : List Message} {x : Message} (h : AlertsFollow written)
    (hx : messageType x = .str "alert" →
      ∃ before state candidates marketTimestamp, written = before ++ [stateMessage state] ∧
        x = alertMessage candidates marketTimestamp ∧ Listed state candidates) :
    AlertsFollow (written ++ [x]) := by
  intro pre m post heq halert
  rcases append_singleton_split heq with ⟨post', -, heq⟩ | ⟨rfl, rfl, -⟩
  · exact h pre m post' heq halert
  · exact hx halert

/-- No acknowledgement has been written. -/
def NoAck (written : List Message) : Prop := ∀ m ∈ written, messageType m ≠ .str "shutdown_ack"

theorem NoAck.ackLast {written : List Message} (h : NoAck written) : AckLast written := by
  rintro pre m post rfl hack
  exact absurd hack (h m (List.mem_append_right _ List.mem_cons_self))

theorem NoAck.snoc {written : List Message} {x : Message} (h : NoAck written) :
    AckLast (written ++ [x]) := by
  intro pre m post heq hack
  rcases append_singleton_split heq with ⟨post', -, rfl⟩ | ⟨-, -, rfl⟩
  · exact absurd hack (h m (List.mem_append_right _ List.mem_cons_self))
  · rfl

theorem NoAck.append {written new : List Message} (h : NoAck written) (hnew : NoAck new) :
    NoAck (written ++ new) :=
  fun m hm => (List.mem_append.1 hm).elim (h m) (hnew m)

/-! ## A tick -/

/-- What a tick saw of the watchlist is one watchlist. -/
structure TickRecord.Coherent (t : TickRecord) : Prop where
  requested : t.requested.Sublist t.watchlist.enabledSymbols
  processed : t.processed = t.requested
  rows : t.pushed.symbols.map (·.symbol) = t.watchlist.list.map (·.symbol)
  count : t.pushed.watchlistCount = t.watchlist.list.length

/-- The row of a listed symbol. -/
theorem mapEngineState_row (e : MarketEngine) (now : ℚ) (exhausted : Bool) {symbol : String}
    (h : symbol ∈ e.watchlist.list.map (·.symbol)) :
    ∃ row ∈ (mapEngineState e now exhausted).1.symbols, row.symbol = symbol ∧
      row.activeSignals = (e.states.signalsOf symbol).map fun s => mapSignal s (e.annotationOf s.id) := by
  obtain ⟨item, hitem, rfl⟩ := List.mem_map.1 h
  exact ⟨_, List.mem_map_of_mem hitem, rfl, rfl⟩

theorem mapEngineState_symbols (e : MarketEngine) (now : ℚ) (exhausted : Bool) :
    (mapEngineState e now exhausted).1.symbols.map (·.symbol) = e.watchlist.list.map (·.symbol) := by
  unfold mapEngineState
  rw [List.map_map]
  rfl

/-- **What a tick alerts is listed** in the state that is pushed before. -/
theorem listed_of_effect {e e' : MarketEngine} {env : TickEnv} {plan : TickPlan} {fetched : List String}
    {tick : EngineTickResult} (h : MarketEngine.TickEffect e env plan fetched tick e')
    (hdue : ∀ symbol ∈ plan.due, symbol ∈ e.watchlist.list.map (·.symbol)) (now : ℚ)
    (exhausted : Bool) : Listed (mapEngineState e' now exhausted).1 (mapTickAlerts tick).1 := by
  intro c hc
  obtain ⟨a, ha, rfl⟩ := List.mem_map.1 hc
  obtain ⟨row, hrow, ha⟩ := List.mem_flatMap.1 ha
  obtain ⟨hsymbol, hupdate⟩ := h.alerts row hrow a ha
  obtain ⟨-, -, hstate⟩ := h.updates row hrow a hupdate
  have hlisted : row.symbol ∈ e'.watchlist.list.map (·.symbol) := by
    rw [h.watchlist]
    exact hdue _ (h.symbols ▸ List.mem_map_of_mem hrow)
  obtain ⟨wire, hwire, heq, hactive⟩ := mapEngineState_row e' now exhausted hlisted
  refine ⟨wire, hwire, heq.trans hsymbol.symm, mapSignal a (e'.annotationOf a.id), ?_, rfl⟩
  rw [hactive]
  exact List.mem_map_of_mem hstate

namespace Daemon

/-- The messages of a tick. -/
theorem emitTick_written (d : Daemon) (now : ℚ) (exhausted : Bool) (tick : EngineTickResult) :
    (d.emitTick now exhausted tick).phase = d.phase ∧
      ∃ alerts, (d.emitTick now exhausted tick).written =
        d.written ++ [stateMessage (mapEngineState d.engine now exhausted).1] ++ alerts ∧
        (alerts = [] ∨ ∃ marketTimestamp, alerts = [alertMessage (mapTickAlerts tick).1 marketTimestamp]) := by
  unfold emitTick
  generalize mapEngineState d.engine now exhausted = r
  generalize mapTickAlerts tick = alerts
  dsimp only
  split
  · exact ⟨rfl, [], by simp [send, setEngine], .inl rfl⟩
  · exact ⟨rfl, _, rfl, .inr ⟨_, rfl⟩⟩

end Daemon

/-! ## Every interleaving -/

namespace DaemonTasks

variable {s s' : DaemonTasks}

structure TasksInv (s : DaemonTasks) : Prop where
  lock : s.locked = false → ∀ plan watchlist, s.ticker ≠ .fetching plan watchlist
  running : s.reader = .returned ∨ s.phase ≠ .shuttingDown
  left : s.reader = .returned → s.ticker = .returned ∧ s.phase = .shuttingDown
  fetching : ∀ plan watchlist, s.ticker = .fetching plan watchlist →
    s.phase = .running ∧ s.engine.watchlist = watchlist ∧
      plan.due.Sublist watchlist.enabledSymbols ∧ plan.due.Nodup
  noAck : s.reader ≠ .returned → NoAck s.written
  ackLast : AckLast s.written
  alerts : AlertsFollow s.written
  ticks : ∀ t ∈ s.ticks, t.Coherent

theorem tasksInv_start (engine : MarketEngine) : (start engine).TasksInv where
  lock := fun _ _ _ h => by cases h
  running := .inr (by simp [start, phase])
  left := fun h => by cases h
  fetching := fun _ _ h => by cases h
  noAck := fun _ m hm => absurd hm List.not_mem_nil
  ackLast := NoAck.ackLast fun m hm => absurd hm List.not_mem_nil
  alerts := fun pre m post h => by
    have := congrArg List.length h
    simp [start, written] at this
  ticks := fun t ht => absurd ht List.not_mem_nil

/-- **What a step does.** -/
theorem step_cases {l : TaskStep} (h : s.step l = some s') :
    (∃ text, s.reader = .reading ∧ s' = { s with reader := .holding text }) ∨
    (∃ env text, s.reader = .holding text ∧ s.locked = false ∧ s' = s.handleLine env text) ∨
    (s.reader ≠ .returned ∧ s' = s.leave s.daemon) ∨
    (∃ due, s.Free ∧ s.phase = .running ∧ s' = s.fetch (s.engine.beginTick due)) ∨
    (∃ env outcome now exhausted plan watchlist, s.ticker = .fetching plan watchlist ∧
      s' = s.push watchlist plan now exhausted (s.engine.endTick env plan outcome)) ∨
    (∃ due env now exhausted, s.Free ∧ s.phase = .running ∧
      s' = s.push s.engine.watchlist (s.engine.beginTick due).1 now exhausted
        ((s.engine.beginTick due).2.endIdleTick env (s.engine.beginTick due).1)) ∨
    (∃ ticker, (s.ticker = .waiting ∨ s.ticker = .sleeping) ∧
      (∀ plan watchlist, ticker ≠ .fetching plan watchlist) ∧ s' = s.setTicker ticker) ∨
    ∃ c, s' = s.setEngine (s.engine.setIntelligence c) := by
  cases l with
  | line text =>
    simp only [step] at h
    split at h
    · next hreader => exact .inl ⟨text, hreader, (Option.some.inj h).symm⟩
    · cases h
  | dispatch env =>
    simp only [step] at h
    split at h
    · next text hreader =>
      split at h
      · cases h
      · next hlock =>
        exact .inr (.inl ⟨env, text, hreader, by simpa using hlock, (Option.some.inj h).symm⟩)
    · cases h
  | abort =>
    simp only [step] at h
    split at h
    · cases h
    · next hreader => exact .inr (.inr (.inl ⟨hreader, (Option.some.inj h).symm⟩))
  | begin due =>
    simp only [step] at h
    split at h
    · next hok => exact .inr (.inr (.inr (.inl ⟨due, hok.1, hok.2.1, (Option.some.inj h).symm⟩)))
    · cases h
  | finish env outcome now exhausted =>
    simp only [step] at h
    split at h
    · next plan watchlist hticker =>
      exact .inr (.inr (.inr (.inr (.inl
        ⟨env, outcome, now, exhausted, plan, watchlist, hticker, (Option.some.inj h).symm⟩))))
    · cases h
  | idle due env now exhausted =>
    simp only [step] at h
    split at h
    · next hok =>
      exact .inr (.inr (.inr (.inr (.inr (.inl
        ⟨due, env, now, exhausted, hok.1, hok.2, (Option.some.inj h).symm⟩)))))
    · cases h
  | skip =>
    simp only [step] at h
    split at h
    · next hok =>
      -- A free tick loop that is about to begin is one that waits.
      have hwaiting : s.ticker = .waiting := by
        have := hok.1.2
        unfold TickerAt.isWaiting at this
        split at this
        · assumption
        · cases this
      refine .inr (.inr (.inr (.inr (.inr (.inr (.inl
        ⟨_, .inl hwaiting, fun plan watchlist => ?_, (Option.some.inj h).symm⟩))))))
      split <;> exact fun heq => by cases heq
    · cases h
  | wake =>
    simp only [step] at h
    split at h
    · next hsleeping =>
      refine .inr (.inr (.inr (.inr (.inr (.inr (.inl
        ⟨_, .inr hsleeping, fun plan watchlist => ?_, (Option.some.inj h).symm⟩))))))
      split <;> exact fun heq => by cases heq
    · cases h
  | worker w =>
    simp only [step] at h
    obtain ⟨e', he', rfl⟩ := Option.map_eq_some_iff.1 h
    -- A worker only moves the coordinator, whatever it does.
    obtain ⟨c, c', -, -, rfl⟩ := EngineSession.work_cases he'
    exact .inr (.inr (.inr (.inr (.inr (.inr (.inr ⟨c', rfl⟩))))))

/-! ### The reader -/

/-- The messages of a line that has been handled. -/
structure Handled (s : DaemonTasks) (d : Daemon) : Prop where
  written : d.written = s.written ∨
    ∃ m, d.written = s.written ++ [m] ∧ d.Sent m ∧ ¬ Unsolicited m

theorem TasksInv.ackLast_handled {d : Daemon} (h : s.TasksInv) (hreader : s.reader ≠ .returned)
    (hd : s.Handled d) : AckLast d.written := by
  rcases hd.written with heq | ⟨m, heq, -⟩ <;> rw [heq]
  · exact h.ackLast
  · exact (h.noAck hreader).snoc

theorem TasksInv.alerts_handled {d : Daemon} (h : s.TasksInv) (hd : s.Handled d) :
    AlertsFollow d.written := by
  rcases hd.written with heq | ⟨m, heq, hsent, -⟩ <;> rw [heq]
  · exact h.alerts
  · exact h.alerts.snoc fun halert => absurd halert hsent.1

theorem TasksInv.leave {d : Daemon} (h : s.TasksInv) (hreader : s.reader ≠ .returned)
    (hd : s.Handled d) : (s.leave d).TasksInv where
  lock := fun _ _ _ heq => by cases heq
  running := .inl rfl
  left := fun _ => ⟨rfl, rfl⟩
  fetching := fun _ _ heq => by cases heq
  noAck := fun hne => absurd rfl hne
  ackLast := h.ackLast_handled (d := d) hreader hd
  alerts := h.alerts_handled (d := d) hd
  ticks := h.ticks

theorem TasksInv.nextLine {d : Daemon} (h : s.TasksInv) (hreader : s.reader ≠ .returned)
    (hfree : s.locked = false) (hd : s.Handled d) (hlive : d.phase ≠ .shuttingDown) :
    (s.nextLine d).TasksInv where
  lock := h.lock
  running := .inr hlive
  left := fun heq => by cases heq
  fetching := fun plan watchlist heq => absurd heq (h.lock hfree plan watchlist)
  noAck := fun _ => by
    have hno := h.noAck hreader
    show NoAck d.written
    rcases hd.written with heq | ⟨m, heq, hsent, -⟩ <;> rw [heq]
    · exact hno
    · refine hno.append fun m' hm' => ?_
      obtain rfl := List.mem_singleton.1 hm'
      exact fun hack => hlive (hsent.2 hack)
  ackLast := h.ackLast_handled hreader hd
  alerts := h.alerts_handled hd
  ticks := h.ticks

theorem handled_shutdown (s : DaemonTasks) : s.Handled (s.daemon.shutdownSync none) :=
  ⟨.inr ⟨_, rfl, ⟨by simp, fun _ => rfl⟩, by simp [Unsolicited]⟩⟩

theorem handled_dispatch {env : DispatchEnv} {line : String} {d : Daemon}
    (h : s.daemon.dispatchLine env line = .ok d) : s.Handled d := by
  rcases Daemon.dispatchLine_sent h with rfl | hd
  · exact ⟨.inl rfl⟩
  · exact ⟨.inr hd⟩

/-- How the reader handles a line. -/
theorem handleLine_cases (s : DaemonTasks) (env : DispatchEnv) (line : String) :
    ∃ d, s.Handled d ∧ (s.handleLine env line = s.leave d ∨
      d.phase ≠ .shuttingDown ∧ s.handleLine env line = s.nextLine d) := by
  unfold handleLine
  split
  · exact ⟨_, s.handled_shutdown, .inl rfl⟩
  · split
    · exact ⟨s.daemon, ⟨.inl rfl⟩, .inl rfl⟩
    · next d hd =>
      refine ⟨d, handled_dispatch hd, ?_⟩
      split
      · exact .inl rfl
      · next hlive => exact .inr ⟨fun h => hlive (.inl h), rfl⟩

/-! ### The ticker -/

/-- The end of a tick of the running daemon, on the watchlist that the tick began with. -/
structure Ends (s : DaemonTasks) (watchlist : Watchlist) (plan : TickPlan)
    (r : EngineTickResult × MarketEngine) : Prop where
  running : s.phase = .running
  due : plan.due.Sublist watchlist.enabledSymbols
  watchlist : r.2.watchlist = watchlist
  processed : r.1.symbolResults.map (·.symbol) = plan.due
  listed : ∀ now exhausted, Listed (mapEngineState r.2 now exhausted).1 (mapTickAlerts r.1).1

theorem ends_of_effect {e : MarketEngine} {env : TickEnv} {plan : TickPlan} {fetched : List String}
    {r : EngineTickResult × MarketEngine} (hrunning : s.phase = .running)
    (hdue : plan.due.Sublist e.watchlist.enabledSymbols)
    (h : MarketEngine.TickEffect e env plan fetched r.1 r.2) : s.Ends e.watchlist plan r where
  running := hrunning
  due := hdue
  watchlist := h.watchlist
  processed := h.symbols
  listed := listed_of_effect h fun _ hs => e.watchlist.mem_list_of_enabled (hdue.subset hs)

theorem TasksInv.ends_finish {plan : TickPlan} {watchlist : Watchlist} (h : s.TasksInv)
    (hticker : s.ticker = .fetching plan watchlist) (env : TickEnv) (outcome : FetchOutcome) :
    s.Ends watchlist plan (s.engine.endTick env plan outcome) := by
  obtain ⟨hrunning, rfl, hdue, hnodup⟩ := h.fetching plan watchlist hticker
  exact ends_of_effect hrunning hdue (s.engine.endTick_effect env hnodup outcome)

theorem ends_idle (hrunning : s.phase = .running) (due : ℚ) (env : TickEnv) :
    s.Ends s.engine.watchlist (s.engine.beginTick due).1
      ((s.engine.beginTick due).2.endIdleTick env (s.engine.beginTick due).1) := by
  obtain ⟨hdue, hnodup⟩ := s.engine.beginTick_due due
  exact ends_of_effect (e := (s.engine.beginTick due).2) hrunning hdue
    (MarketEngine.endIdleTick_effect _ env hnodup)

theorem TasksInv.reader_of_running (h : s.TasksInv) (hrunning : s.phase = .running) :
    s.reader ≠ .returned := by
  intro hreader
  have hleft := (h.left hreader).2
  rw [hrunning] at hleft
  cases hleft

/-- What the end of a tick writes. -/
theorem push_written (s : DaemonTasks) (watchlist : Watchlist) (plan : TickPlan) (now : ℚ)
    (exhausted : Bool) (r : EngineTickResult × MarketEngine) :
    (s.push watchlist plan now exhausted r).phase = s.phase ∧
      ∃ alerts, (s.push watchlist plan now exhausted r).written =
        s.written ++ [stateMessage (mapEngineState r.2 now exhausted).1] ++ alerts ∧
        (alerts = [] ∨ ∃ marketTimestamp, alerts = [alertMessage (mapTickAlerts r.1).1 marketTimestamp]) :=
  (s.daemon.setEngine r.2).emitTick_written now exhausted r.1

theorem TasksInv.push {watchlist : Watchlist} {plan : TickPlan}
    {r : EngineTickResult × MarketEngine} (h : s.TasksInv) (hends : s.Ends watchlist plan r) (now : ℚ)
    (exhausted : Bool) : (s.push watchlist plan now exhausted r).TasksInv := by
  obtain ⟨hphase, alerts, hwritten, halerts⟩ := s.push_written watchlist plan now exhausted r
  have hreader := h.reader_of_running hends.running
  -- A tick writes a state and alerts, and none of them is an acknowledgement.
  have hno : NoAck (s.push watchlist plan now exhausted r).written := by
    rw [hwritten]
    refine ((h.noAck hreader).append ?_).append ?_
    · simp [NoAck, stateMessage]
    · rcases halerts with rfl | ⟨marketTimestamp, rfl⟩ <;> simp [NoAck, alertMessage]
  exact
    { lock := fun _ _ _ heq => by cases heq
      running := .inr (by rw [hphase, hends.running]; decide)
      left := fun heq => absurd heq hreader
      fetching := fun _ _ heq => by cases heq
      noAck := fun _ => hno
      ackLast := hno.ackLast
      alerts := by
        rw [hwritten]
        have hstate := h.alerts.snoc (x := stateMessage (mapEngineState r.2 now exhausted).1)
          fun halert => absurd halert (by simp [stateMessage])
        rcases halerts with rfl | ⟨marketTimestamp, rfl⟩
        · rwa [List.append_nil]
        · exact hstate.snoc fun _ => ⟨_, _, _, _, rfl, rfl, hends.listed now exhausted⟩
      ticks := by
        intro t ht
        rcases List.mem_append.1 ht with ht | ht
        · exact h.ticks t ht
        · obtain rfl := List.mem_singleton.1 ht
          have hrows := mapEngineState_symbols r.2 now exhausted
          rw [hends.watchlist] at hrows
          exact ⟨hends.due, hends.processed, hrows, by rw [← hends.watchlist]; rfl⟩ }

theorem TasksInv.fetch (h : s.TasksInv) (hrunning : s.phase = .running) (due : ℚ) :
    (s.fetch (s.engine.beginTick due)).TasksInv where
  lock := fun hlock => by cases hlock
  running := .inr (by show s.phase ≠ _; rw [hrunning]; decide)
  left := fun heq => absurd heq (h.reader_of_running hrunning)
  fetching := by
    rintro plan watchlist heq
    cases heq
    obtain ⟨hdue, hnodup⟩ := s.engine.beginTick_due due
    exact ⟨hrunning, rfl, hdue, hnodup⟩
  noAck := h.noAck
  ackLast := h.ackLast
  alerts := h.alerts
  ticks := h.ticks

theorem TasksInv.setTicker {ticker : TickerAt} (h : s.TasksInv)
    (hbefore : s.ticker = .waiting ∨ s.ticker = .sleeping)
    (hafter : ∀ plan watchlist, ticker ≠ .fetching plan watchlist) : (s.setTicker ticker).TasksInv where
  lock := fun _ => hafter
  running := h.running
  left := fun hreader => by
    have hleft := (h.left hreader).1
    rcases hbefore with heq | heq <;> rw [hleft] at heq <;> cases heq
  fetching := fun plan watchlist heq => absurd heq (hafter plan watchlist)
  noAck := h.noAck
  ackLast := h.ackLast
  alerts := h.alerts
  ticks := h.ticks

theorem TasksInv.of_step {l : TaskStep} (h : s.TasksInv) (hs : s.step l = some s') : s'.TasksInv := by
  rcases step_cases hs with ⟨text, hreader, rfl⟩ | ⟨env, text, hreader, hfree, rfl⟩ | ⟨hreader, rfl⟩ |
    ⟨due, -, hrunning, rfl⟩ | ⟨env, outcome, now, exhausted, plan, watchlist, hticker, rfl⟩ |
    ⟨due, env, now, exhausted, -, hrunning, rfl⟩ | ⟨ticker, hbefore, hafter, rfl⟩ | ⟨c, rfl⟩
  · have hlive : s.reader ≠ .returned := by rw [hreader]; exact fun heq => by cases heq
    exact ⟨h.lock, .inr (h.running.resolve_left hlive), fun heq => (by cases heq), h.fetching,
      fun _ => h.noAck hlive, h.ackLast, h.alerts, h.ticks⟩
  · have hlive : s.reader ≠ .returned := by rw [hreader]; exact fun heq => by cases heq
    obtain ⟨d, hd, heq | ⟨hphase, heq⟩⟩ := s.handleLine_cases env text <;> rw [heq]
    · exact h.leave hlive hd
    · exact h.nextLine hlive hfree hd hphase
  · exact h.leave hreader ⟨.inl rfl⟩
  · exact h.fetch hrunning due
  · exact h.push (h.ends_finish hticker env outcome) now exhausted
  · exact h.push (ends_idle hrunning due env) now exhausted
  · exact h.setTicker hbefore hafter
  · exact ⟨h.lock, h.running, h.left, h.fetching, h.noAck, h.ackLast, h.alerts, h.ticks⟩

/-- An unsolicited message is written from one running state to another. -/
def PushesRunning (s s' : DaemonTasks) : Prop :=
  ∃ new, s'.written = s.written ++ new ∧
    ∀ m ∈ new, Unsolicited m → s.phase = .running ∧ s'.phase = .running

theorem pushesRunning_of_same (h : s'.written = s.written) : s.PushesRunning s' :=
  ⟨[], by rw [h, List.append_nil], fun _ hm => absurd hm List.not_mem_nil⟩

theorem pushesRunning_of_handled {d : Daemon} (hd : s.Handled d) (h : s'.written = d.written) :
    s.PushesRunning s' := by
  rcases hd.written with heq | ⟨m, heq, -, hm⟩
  · exact pushesRunning_of_same (h.trans heq)
  · refine ⟨[m], h.trans heq, fun m' hm' hu => ?_⟩
    obtain rfl := List.mem_singleton.1 hm'
    exact absurd hu hm

theorem Ends.pushesRunning {watchlist : Watchlist} {plan : TickPlan}
    {r : EngineTickResult × MarketEngine} (h : s.Ends watchlist plan r) (now : ℚ) (exhausted : Bool) :
    s.PushesRunning (s.push watchlist plan now exhausted r) := by
  obtain ⟨hphase, alerts, hwritten, -⟩ := s.push_written watchlist plan now exhausted r
  exact ⟨_, by rw [hwritten, List.append_assoc], fun _ _ _ => ⟨h.running, hphase.trans h.running⟩⟩

theorem TasksInv.pushesRunning {l : TaskStep} (h : s.TasksInv) (hs : s.step l = some s') :
    s.PushesRunning s' := by
  rcases step_cases hs with ⟨text, -, rfl⟩ | ⟨env, text, -, -, rfl⟩ | ⟨-, rfl⟩ |
    ⟨due, -, -, rfl⟩ | ⟨env, outcome, now, exhausted, plan, watchlist, hticker, rfl⟩ |
    ⟨due, env, now, exhausted, -, hrunning, rfl⟩ | ⟨ticker, -, -, rfl⟩ | ⟨c, rfl⟩
  · exact pushesRunning_of_same rfl
  · obtain ⟨d, hd, heq | ⟨-, heq⟩⟩ := s.handleLine_cases env text <;> rw [heq] <;>
      exact pushesRunning_of_handled hd rfl
  · exact pushesRunning_of_same rfl
  · exact pushesRunning_of_same rfl
  · exact (h.ends_finish hticker env outcome).pushesRunning now exhausted
  · exact (ends_idle hrunning due env).pushesRunning now exhausted
  · exact pushesRunning_of_same rfl
  · exact pushesRunning_of_same rfl

/-- The push protocol, in a state: what the next step writes, and the order of what was written. -/
structure PushProtocol (s : DaemonTasks) : Prop where
  running : ∀ l s', s.step l = some s' → s.PushesRunning s'
  alerts : AlertsFollow s.written
  ticks : ∀ t ∈ s.ticks, t.Coherent
  last : AckLast s.written

/-- **The push protocol** holds in every interleaving of lines and ticks. -/
theorem push_protocol {engine : MarketEngine} {steps : List TaskStep}
    (hrun : run step (start engine) steps = some s) : s.PushProtocol := by
  have h : s.TasksInv := run_inv (fun _ _ _ h hs => h.of_step hs) (tasksInv_start engine) hrun
  exact ⟨fun _ _ hs => h.pushesRunning hs, h.alerts, h.ticks, h.ackLast⟩

/-- A line is read and dispatched; it reads as a command of a type with other members. -/
def commandSteps (line type id : String) (fields : Message) : List TaskStep :=
  [.line line,
    .dispatch ⟨⟨fun _ => some (.obj ([("protocol_version", .int 1), ("type", .str type),
      ("request_id", .str id)] ++ fields)), fun _ => ""⟩, 0, false, true⟩]

/-- "A" is watched and rises by 2% in a minute; the input ends while the quotes are awaited. -/
def alertRun : List TaskStep :=
  commandSteps "\x7b\"protocol_version\": 1, \"type\": \"hello\", \"request_id\": \"1\"\x7d" "hello" "1" [] ++
  commandSteps
    ("\x7b\"protocol_version\": 1, \"type\": \"set_watchlist\", \"request_id\": \"2\", " ++
      "\"items\": [\x7b\"symbol\": \"A\"\x7d]\x7d")
    "set_watchlist" "2" [("items", .list [.obj [("symbol", .str "A")]])] ++
  commandSteps "\x7b\"protocol_version\": 1, \"type\": \"start\", \"request_id\": \"3\"\x7d" "start" "3" [] ++
  [.begin 0, .finish (EngineSession.tickAt "a" 0) (.quotes [EngineSession.quoteAt 100 200 100000]) 0 false,
    .wake, .begin 60, .line "",
    .finish (EngineSession.tickAt "b" 60) (.quotes [EngineSession.quoteAt 102 200 100060]) 60 false,
    .dispatch ⟨⟨fun _ => none, fun _ => ""⟩, 60, false, true⟩]

theorem push_protocol_alert : ∃ s, run step (start {}) alertRun = some s ∧
    s.written.map (fun m => textOf (messageType m)) =
      ["ready", "ack", "ack", "state", "state", "alert", "shutdown_ack"].map some ∧ s.PushProtocol := by
  have hrun : (run step (start {}) alertRun).map (fun s => s.written.map fun m => textOf (messageType m)) =
      some (["ready", "ack", "ack", "state", "state", "alert", "shutdown_ack"].map some) := by
    decide +kernel
  obtain ⟨s, hs, hw⟩ := Option.map_eq_some_iff.1 hrun
  exact ⟨s, hs, hw, push_protocol hs⟩

end DaemonTasks

end MarketSentinel
