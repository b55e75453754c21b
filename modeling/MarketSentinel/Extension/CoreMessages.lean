import MarketSentinel.Ipc.Push
import MarketSentinel.Extension.RoundTrip

/-!
# Every message of a run is read back

* `dispatchLine_writes`: the messages that a line can write, handler by handler.
* `sent_run`: in every interleaving of lines and ticks nothing else is written.
* `wire_round_trip`: the host reads what was sent.
-/

namespace MarketSentinel

open Lib Machine Extension

namespace Daemon

variable {d d' : Daemon} {id : String}

/-- One message is written. -/
def Writes (d d' : Daemon) : Prop :=
  ∃ sent : CoreSend, sent.Genuine ∧ d'.written = d.written ++ [sent.encode]

/-- A refusal is one error. -/
theorem writes_refuse (d : Daemon) (id : String) (code : ErrorCode) (message : String) :
    d.Writes (d.refuse id code message) := ⟨.error (some id) code message, trivial, rfl⟩

/-- An acknowledgement is one message. -/
theorem writes_ack {d₁ : Daemon} (hid : id ≠ "") (hw : d₁.written = d.written) :
    d.Writes (d₁.ack id) := by
  refine ⟨.ack id none, hid, ?_⟩
  show d₁.written ++ _ = _
  rw [hw]
  rfl

theorem writes_ackCount {d₁ : Daemon} (hid : id ≠ "") (hw : d₁.written = d.written) (n : ℕ) :
    d.Writes (d₁.ack id [("watchlist_count", .int n)]) := by
  refine ⟨.ack id (some n), hid, ?_⟩
  show d₁.written ++ _ = _
  rw [hw]
  rfl

/-- A command before the hello is refused. -/
theorem writes_ifReady {rest : Daemon} (h : d.Writes rest) :
    d.Writes (d.ifReady id (fun d => d) rest) := by
  unfold ifReady
  split
  · exact writes_refuse ..
  · exact h

/-- `start`, `pause` and `resume` write a refusal or an acknowledgement. -/
theorem writes_ackUnless {refused : Prop} [Decidable refused] {d₁ : Daemon} (hid : id ≠ "") {code : ErrorCode}
    {message : String} (hw : d₁.written = d.written) :
    d.Writes (d.ifReady id (fun d => d) (if refused then d.refuse id code message else d₁.ack id)) := by
  apply writes_ifReady
  split
  · exact writes_refuse ..
  · exact writes_ack hid hw

theorem writes_hello (hid : id ≠ "") : d.Writes (d.hello id) := by
  refine ⟨.ready id, hid, ?_⟩
  unfold hello
  split <;> rfl

/-- The watchlist is acknowledged or refused. -/
theorem writes_setWatchlist (hid : id ≠ "") (command : Message) :
    d.Writes (d.setWatchlist id command) := by
  apply writes_ifReady
  split
  · split
    · exact writes_refuse ..
    · unfold replaceItems
      split
      · exact writes_refuse ..
      · exact writes_ackCount hid rfl _
  · exact writes_refuse ..

/-- The state is one message. -/
theorem writes_getState (hid : id ≠ "") (env : DispatchEnv) : d.Writes (d.getState env id) := by
  apply writes_ifReady
  have hne : some id ≠ some "" := fun heq => hid (Option.some.inj heq)
  exact ⟨.state (some id) (mapEngineState d.engine env.now env.exhausted).1,
    ⟨hne, d.engine, env.now, env.exhausted, rfl⟩, rfl⟩

/-- An interaction is acknowledged or refused. -/
theorem writes_hostInteraction (hid : id ≠ "") {env : DispatchEnv} {command : Message}
    (h : d.hostInteraction env id command = .ok d') : d.Writes d' := by
  unfold hostInteraction ifReady at h
  split at h
  · cases h
    exact writes_refuse ..
  · obtain ⟨parsed, -, hrest⟩ := bind_eq_ok.1 h
    split at hrest
    · cases hrest
      exact writes_refuse ..
    · cases hrest
      exact writes_ack hid rfl

/-- So is feedback. -/
theorem writes_userFeedback (hid : id ≠ "") {env : DispatchEnv} {command : Message}
    (h : d.userFeedback env id command = .ok d') : d.Writes d' := by
  unfold userFeedback ifReady at h
  split at h
  · cases h
    exact writes_refuse ..
  · obtain ⟨parsed, -, hrest⟩ := bind_eq_ok.1 h
    split at hrest
    · cases hrest
      exact writes_refuse ..
    · split at hrest
      · cases hrest
        exact writes_ack hid rfl
      · cases hrest
        exact writes_refuse ..

theorem writes_shutdownSync {id : Option String} (hid : id ≠ some "") : d.Writes (d.shutdownSync id) :=
  ⟨.shutdownAck id, hid, rfl⟩

/-- **Every command that is handled writes one message.** -/
theorem writes_handle (hid : id ≠ "") {env : DispatchEnv} {command : Message} {type : String}
    (h : d.handle env command type id = .ok d') : d.Writes d' := by
  unfold handle at h
  split at h
  · cases h
    exact writes_shutdownSync fun heq => hid (Option.some.inj heq)
  split at h
  · cases h
    exact writes_refuse ..
  split at h
  · cases h
    exact writes_hello hid
  split at h
  · cases h
    exact writes_ackUnless hid rfl
  split at h
  · cases h
    exact writes_ackUnless hid rfl
  split at h
  · cases h
    exact writes_ackUnless hid rfl
  split at h
  · cases h
    exact writes_setWatchlist hid command
  split at h
  · cases h
    exact writes_getState hid env
  split at h
  · exact writes_hostInteraction hid h
  · exact writes_userFeedback hid h

/-- **What a line writes**, in full. -/
theorem dispatchLine_writes {env : DispatchEnv} {line : String} (h : d.dispatchLine env line = .ok d') :
    d' = d ∨ d.Writes d' := by
  have herror : ∀ code message id, d.send (encodeError code message id) = d' → d.Writes d' := by
    rintro code message id rfl
    exact ⟨.error id code message, trivial, rfl⟩
  unfold dispatchLine at h
  cases hline : decodeLine env.py line with
  | blank =>
    rw [hline] at h
    exact .inl (Except.ok.inj h).symm
  | error m =>
    obtain ⟨code, message, id, rfl⟩ := decodeLine_error hline
    rw [hline] at h
    exact .inr (herror _ _ _ (Except.ok.inj h))
  | command command type =>
    rw [hline] at h
    dsimp only at h
    right
    split at h
    · exact herror _ _ _ (Except.ok.inj h)
    split at h
    · exact herror _ _ _ (Except.ok.inj h)
    split at h
    · exact herror _ _ _ (Except.ok.inj h)
    next hid => exact writes_handle hid h

end Daemon

namespace DaemonTasks

variable {s s' : DaemonTasks}

/-- Everything that was written is a message of the engine, or an answer. -/
def AllSent (written : List Message) : Prop :=
  ∀ m ∈ written, ∃ sent : CoreSend, sent.Genuine ∧ m = sent.encode

/-- One message more. -/
theorem AllSent.snoc {written : List Message} (h : AllSent written) {sent : CoreSend} (hsent : sent.Genuine) :
    AllSent (written ++ [sent.encode]) := by
  intro m hm
  rcases List.mem_append.1 hm with hm | hm
  · exact h m hm
  · exact ⟨sent, hsent, List.mem_singleton.1 hm⟩

/-- Handlers write genuine messages. -/
theorem AllSent.of_writes {d d' : Daemon} (h : AllSent d.written) (hw : d.Writes d') :
    AllSent d'.written := by
  obtain ⟨sent, hsent, heq⟩ := hw
  rw [heq]
  exact h.snoc hsent

/-- A line writes genuine messages, whether it is a command or not. -/
theorem AllSent.handleLine (h : AllSent s.written) (env : DispatchEnv) (line : String) :
    AllSent (s.handleLine env line).written := by
  unfold DaemonTasks.handleLine
  split
  · exact h.of_writes (d := s.daemon) (Daemon.writes_shutdownSync nofun)
  · split
    · exact h
    · next d hd =>
      have hsent : AllSent d.written := by
        rcases Daemon.dispatchLine_writes hd with rfl | hw
        · exact h
        · exact AllSent.of_writes (d := s.daemon) h hw
      split
      · exact hsent
      · exact hsent

/-- A tick pushes genuine messages. -/
theorem AllSent.push (h : AllSent s.written) (watchlist : Watchlist) (plan : TickPlan) (now : ℚ)
    (exhausted : Bool) (r : EngineTickResult × MarketEngine) :
    AllSent (s.push watchlist plan now exhausted r).written := by
  have hgenuine : CoreSend.Genuine (.state none (mapEngineState r.2 now exhausted).1) :=
    ⟨nofun, r.2, now, exhausted, rfl⟩
  have hstate := h.snoc hgenuine
  show AllSent ((s.daemon.setEngine r.2).emitTick now exhausted r.1).written
  unfold Daemon.emitTick
  dsimp only
  split
  · exact hstate
  · have halert : CoreSend.Genuine (.alert (mapTickAlerts r.1).1 (mapTickAlerts r.1).2) := ⟨r.1, rfl⟩
    exact hstate.snoc halert

/-- Every step writes genuine messages. -/
theorem AllSent.of_step {l : TaskStep} (h : AllSent s.written) (hs : s.step l = some s') :
    AllSent s'.written := by
  rcases step_cases hs with ⟨text, -, rfl⟩ | ⟨env, text, -, -, rfl⟩ | ⟨-, rfl⟩ | ⟨due, -, -, rfl⟩ |
    ⟨env, outcome, now, exhausted, plan, watchlist, -, rfl⟩ |
    ⟨due, env, now, exhausted, -, -, rfl⟩ | ⟨ticker, -, -, rfl⟩ | ⟨c, rfl⟩
  · exact h
  · exact h.handleLine env text
  · exact h
  · exact h
  · exact h.push watchlist plan now exhausted _
  · exact h.push _ _ now exhausted _
  · exact h
  · exact h

/-- **All messages of a run are genuine.** -/
theorem sent_run {engine : MarketEngine} {steps : List TaskStep}
    (hrun : run step (start engine) steps = some s) : AllSent s.written :=
  run_inv (I := fun s => AllSent s.written) (fun _ _ _ h hs => h.of_step hs)
    (fun _ hm => absurd hm List.not_mem_nil) hrun

end DaemonTasks

/-- **The wire round trip.** The states and the alerts of an engine, and all that a daemon writes in
any run, are read back by the host; an empty id of an error reads as no id. -/
theorem wire_round_trip :
    (∀ (e : MarketEngine) now exhausted id, id ≠ some "" →
      (e.watchlist.list.length : ℤ) < Json.floatLimit →
      parseCoreMessage (.obj
          (encodeMessage "state" id [("state", (mapEngineState e now exhausted).1.toWire)])) =
        .ok (.state id (received (mapEngineState e now exhausted).1))) ∧
    (∀ tick : EngineTickResult,
      parseCoreMessage (.obj (alertMessage (mapTickAlerts tick).1 (mapTickAlerts tick).2)) =
        .ok (.alert none ((mapTickAlerts tick).1.map receivedCandidate) (mapTickAlerts tick).2)) ∧
    ∀ engine steps s, run DaemonTasks.step (.start engine) steps = some s → ∀ m ∈ s.written,
      ∃ sent : CoreSend, sent.Genuine ∧ m = sent.encode ∧
        (sent.FiniteNumbers → parseCoreMessage (.obj m) = .ok sent.read) := by
  refine ⟨fun e now exhausted id hid hcount => ?_, fun tick => ?_, ?_⟩
  · have hgenuine : (CoreSend.state id (mapEngineState e now exhausted).1).Genuine :=
      ⟨hid, e, now, exhausted, rfl⟩
    have hlen : (mapEngineState e now exhausted).1.watchlistCount = e.watchlist.list.length := rfl
    apply CoreSend.parse_encode hgenuine
    show ((mapEngineState e now exhausted).1.watchlistCount : ℤ) < Json.floatLimit
    rw [hlen]
    exact hcount
  · exact @CoreSend.parse_encode (.alert _ _) ⟨tick, rfl⟩ trivial
  · intro engine steps s hrun m hm
    obtain ⟨sent, hgenuine, rfl⟩ := DaemonTasks.sent_run hrun m hm
    exact ⟨sent, hgenuine, rfl, CoreSend.parse_encode hgenuine⟩

/-- The count that a member of a message is. -/
def countOfMember : Json → List ℤ
  | .int n => [n]
  | _ => []

/-- The counts in a message: `watchlist_count`, of an acknowledgement or of its state. -/
def wireCounts (m : Message) : List ℤ :=
  countOfMember (Json.field m "watchlist_count") ++
    match Json.field m "state" with
    | .obj fields => countOfMember (Json.field fields "watchlist_count")
    | _ => []

/-- A message whose counts are floats has finite numbers. -/
theorem finiteNumbers_of_counts {sent : CoreSend} (h : ∀ n ∈ wireCounts sent.encode, n < Json.floatLimit) :
    sent.FiniteNumbers := by
  cases sent with
  | ack id count =>
    cases count with
    | none => trivial
    | some count => exact h count (List.mem_append_left _ List.mem_cons_self)
  | state id payload => exact h payload.watchlistCount (by cases id <;> exact List.mem_cons_self)
  | ready id => trivial
  | error id code message => trivial
  | alert candidates marketTimestamp => trivial
  | shutdownAck id => trivial

/-- A symbol rises, and its signal comes to the host in a state and in an alert. -/
theorem wire_round_trip_alert : ∃ s, run DaemonTasks.step (.start {}) DaemonTasks.alertRun = some s ∧
    (mapEngineState s.daemon.engine 60 false).1.symbols.map (·.activeSignals.length) = [1] ∧
    parseCoreMessage (.obj
        (encodeMessage "state" (some "4") [("state", (mapEngineState s.daemon.engine 60 false).1.toWire)])) =
      .ok (.state (some "4") (received (mapEngineState s.daemon.engine 60 false).1)) ∧
    s.written.map wireCounts = [[], [1], [], [1], [1], [], []] ∧
    ∀ m ∈ s.written, ∃ sent : CoreSend, m = sent.encode ∧ parseCoreMessage (.obj m) = .ok sent.read := by
  have hrun : (run DaemonTasks.step (.start {}) DaemonTasks.alertRun).map (fun s =>
      ((mapEngineState s.daemon.engine 60 false).1.symbols.map (·.activeSignals.length),
        s.daemon.engine.watchlist.list.length, s.written.map wireCounts)) =
      some ([1], 1, [[], [1], [], [1], [1], [], []]) := by
    decide +kernel
  obtain ⟨s, hs, hends⟩ := Option.map_eq_some_iff.1 hrun
  simp only [Prod.mk.injEq] at hends
  obtain ⟨hsignals, hlength, hcounts⟩ := hends
  obtain ⟨hstate, -, hwritten⟩ := wire_round_trip
  refine ⟨s, hs, hsignals, hstate _ 60 false (some "4") (by decide) ?_, hcounts, fun m hm => ?_⟩
  · rw [hlength]
    exact Extension.one_lt_floatLimit
  · obtain ⟨sent, -, rfl, hread⟩ := hwritten _ _ s hs m hm
    refine ⟨sent, rfl, hread (finiteNumbers_of_counts fun n hn => ?_)⟩
    -- All counts on the wire are ones.
    have hmem : wireCounts sent.encode ∈ s.written.map wireCounts := List.mem_map_of_mem hm
    rw [hcounts] at hmem
    have hone : ∀ counts ∈ [[], [1], [], [1], [1], [], ([] : List ℤ)], ∀ n ∈ counts, n = 1 := by decide
    rw [hone _ hmem n hn]
    exact Extension.one_lt_floatLimit

/-- A command of another version, with an empty id. -/
def emptyIdText : PyText where
  loads := fun _ => some (.obj [("protocol_version", .int 2), ("type", .str "hello"), ("request_id", .str "")])
  repr := fun _ => "2"

/-- The daemon answers it with the id; the host reads an error without one. -/
theorem empty_id_lost : ¬ ∀ engine steps s, run DaemonTasks.step (.start engine) steps = some s →
    ∀ m ∈ s.written, ∃ message, parseCoreMessage (.obj m) = .ok message ∧
      ∀ id, Json.field m "request_id" = .str id → message.requestId = some id := by
  intro h
  have hrun : (run DaemonTasks.step (.start {})
      [.line "\x7b\x7d", .dispatch ⟨emptyIdText, 0, false, true⟩]).map
        (fun s => s.written.map fun m => Json.field m "request_id") = some [.str ""] := by
    rfl
  obtain ⟨s, hs, hw⟩ := Option.map_eq_some_iff.1 hrun
  obtain ⟨m, hm, hid⟩ := List.mem_map.1 (hw ▸ List.mem_singleton_self (Json.str ""))
  obtain ⟨message, hparse, hread⟩ := h {} _ s hs m hm
  have hpeek := parseCoreMessage_requestId hparse
  rw [hread "" hid] at hpeek
  exact peekRequestId_ne_empty _ hpeek.symm

end MarketSentinel
