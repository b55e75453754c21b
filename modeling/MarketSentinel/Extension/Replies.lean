import MarketSentinel.Extension.Client
import MarketSentinel.Extension.CoreMessages

/-!
# The reply to a command

Every handler of the daemon writes one message, the reply; the client waits for it under the id of the command.

* `replies_handle`: the reply to a command is an error, or of the type that `EXPECTED_RESPONSE` has for it.
* `dispatchLine_replies`: what a line writes, when it is a command and when it is not.
* `sends_run`: the messages of a run, with counts that are numbers for the host.
-/

namespace MarketSentinel

open Lib Machine Extension TelemetryEvent

/-- A watchlist whose length is a number for the host, now and after any replacement. -/
structure Watchlist.Countable (w : Watchlist) : Prop where
  limit : w.limit < Json.floatLimit
  length : (w.list.length : ℤ) < Json.floatLimit

theorem Watchlist.Countable.replace {w w' : Watchlist} {items : List WatchItem} (h : w.Countable)
    (heq : w.replace items = .ok w') : w'.Countable := by
  unfold Watchlist.replace at heq
  split at heq
  · cases heq
  · next seen _ =>
    split at heq
    · cases heq
    · next hlimit =>
      obtain rfl := Except.ok.inj heq
      refine ⟨h.limit, ?_⟩
      have hbound := h.limit
      show ((seen.entries.map Prod.snd).length : ℤ) < Json.floatLimit
      rw [List.length_map]
      omega

namespace Extension.CoreSend

/-- A message that the host can read. -/
structure Readable (sent : CoreSend) : Prop where
  genuine : sent.Genuine
  finite : sent.FiniteNumbers

/-- It is an error for the id, or a response of the type that is expected. -/
def RepliesTo (sent : CoreSend) (type : HostCommandType) (id : String) : Prop :=
  (∃ code message, sent = .error (some id) code message) ∨
    sent.read.type = expectedResponse type ∧ sent.read.requestId = some id

/-- A message that is no reply. -/
def Unasked : CoreSend → Prop
  | .state none _ | .alert .. | .shutdownAck none => True
  | _ => False

end Extension.CoreSend

namespace Daemon

variable {d d' : Daemon} {id : String} {type : HostCommandType}

/-- One reply is written. -/
structure Replies (d : Daemon) (type : HostCommandType) (id : String) (d' : Daemon) : Prop where
  countable : d'.engine.watchlist.Countable
  sent : ∃ sent : CoreSend, sent.Readable ∧ sent.RepliesTo type id ∧ d'.written = d.written ++ [sent.encode]

theorem replies_refuse (h : d.engine.watchlist.Countable) (code : ErrorCode) (message : String) :
    d.Replies type id (d.refuse id code message) :=
  ⟨h, .error (some id) code message, ⟨trivial, trivial⟩, .inl ⟨code, message, rfl⟩, rfl⟩

theorem replies_ack {d₁ : Daemon} (h : d₁.engine.watchlist.Countable) (hid : id ≠ "")
    (htype : expectedResponse type = .ack) (hw : d₁.written = d.written) : d.Replies type id (d₁.ack id) := by
  refine ⟨h, .ack id none, ⟨hid, trivial⟩, .inr ⟨htype.symm, rfl⟩, ?_⟩
  show d₁.written ++ _ = _
  rw [hw]
  rfl

theorem replies_ackCount {d₁ : Daemon} (h : d₁.engine.watchlist.Countable) (hid : id ≠ "")
    (htype : expectedResponse type = .ack) (hw : d₁.written = d.written) {n : ℕ}
    (hn : (n : ℤ) < Json.floatLimit) :
    d.Replies type id (d₁.ack id [("watchlist_count", .int n)]) := by
  refine ⟨h, .ack id (some n), ⟨hid, hn⟩, .inr ⟨htype.symm, rfl⟩, ?_⟩
  show d₁.written ++ _ = _
  rw [hw]
  rfl

theorem replies_ifReady {rest : Daemon} (hd : d.engine.watchlist.Countable) (h : d.Replies type id rest) :
    d.Replies type id (d.ifReady id (fun d => d) rest) := by
  unfold ifReady
  split
  · exact replies_refuse hd ..
  · exact h

theorem replies_hello (hd : d.engine.watchlist.Countable) (hid : id ≠ "") : d.Replies .hello id (d.hello id) := by
  unfold hello
  split
  · exact ⟨hd, .ready id, ⟨hid, trivial⟩, .inr ⟨rfl, rfl⟩, rfl⟩
  · exact ⟨hd, .ready id, ⟨hid, trivial⟩, .inr ⟨rfl, rfl⟩, rfl⟩

/-- `start`, `pause` and `resume` reply with a refusal or an acknowledgement. -/
theorem replies_ackUnless {refused : Prop} [Decidable refused] {d₁ : Daemon} (hd : d.engine.watchlist.Countable)
    (hid : id ≠ "") {code : ErrorCode} {message : String} (htype : expectedResponse type = .ack)
    (hw : d₁.written = d.written) (hengine : d₁.engine = d.engine) :
    d.Replies type id (d.ifReady id (fun d => d) (if refused then d.refuse id code message else d₁.ack id)) := by
  apply replies_ifReady hd
  split
  · exact replies_refuse hd ..
  · exact replies_ack (hengine ▸ hd) hid htype hw

theorem replies_setWatchlist (hd : d.engine.watchlist.Countable) (hid : id ≠ "") (command : Message) :
    d.Replies .setWatchlist id (d.setWatchlist id command) := by
  apply replies_ifReady hd
  split
  · split
    · exact replies_refuse hd ..
    · unfold replaceItems
      split
      · exact replies_refuse hd ..
      · next watchlist hreplace =>
        have hnew := hd.replace hreplace
        exact @replies_ackCount d id .setWatchlist (d.setEngine { d.engine with watchlist := watchlist }) hnew hid
          rfl rfl _ hnew.length
  · exact replies_refuse hd ..

theorem replies_getState (hd : d.engine.watchlist.Countable) (hid : id ≠ "") (env : DispatchEnv) :
    d.Replies .getState id (d.getState env id) := by
  apply replies_ifReady hd
  have hne : some id ≠ some "" := fun heq => hid (Option.some.inj heq)
  have hlength : (mapEngineState d.engine env.now env.exhausted).1.watchlistCount =
      d.engine.watchlist.list.length := rfl
  refine ⟨hd, .state (some id) (mapEngineState d.engine env.now env.exhausted).1,
    ⟨⟨hne, d.engine, env.now, env.exhausted, rfl⟩, ?_⟩, .inr ⟨rfl, rfl⟩, rfl⟩
  show ((mapEngineState d.engine env.now env.exhausted).1.watchlistCount : ℤ) < Json.floatLimit
  rw [hlength]
  exact hd.length

theorem replies_hostInteraction (hd : d.engine.watchlist.Countable) (hid : id ≠ "") {env : DispatchEnv}
    {command : Message} (h : d.hostInteraction env id command = .ok d') : d.Replies .hostInteraction id d' := by
  unfold hostInteraction ifReady at h
  split at h
  · cases h
    exact replies_refuse hd ..
  · obtain ⟨parsed, -, hrest⟩ := bind_eq_ok.1 h
    split at hrest
    · cases hrest
      exact replies_refuse hd ..
    · next fact =>
      cases hrest
      have hsame : (d.emitHost fact).engine.watchlist = d.engine.watchlist := rfl
      exact replies_ack (hsame ▸ hd) hid rfl rfl

theorem replies_userFeedback (hd : d.engine.watchlist.Countable) (hid : id ≠ "") {env : DispatchEnv}
    {command : Message} (h : d.userFeedback env id command = .ok d') : d.Replies .userFeedback id d' := by
  unfold userFeedback ifReady at h
  split at h
  · cases h
    exact replies_refuse hd ..
  · obtain ⟨parsed, -, hrest⟩ := bind_eq_ok.1 h
    split at hrest
    · cases hrest
      exact replies_refuse hd ..
    · split at hrest
      · cases hrest
        exact replies_ack hd hid rfl rfl
      · cases hrest
        exact replies_refuse hd ..

theorem replies_shutdown (hd : d.engine.watchlist.Countable) (hid : id ≠ "") :
    d.Replies .shutdown id (d.shutdownSync (some id)) :=
  ⟨hd, .shutdownAck (some id), ⟨fun heq => hid (Option.some.inj heq), trivial⟩, .inr ⟨rfl, rfl⟩, rfl⟩

/-- **The reply to a command.** -/
theorem replies_handle (hd : d.engine.watchlist.Countable) (hid : id ≠ "") {env : DispatchEnv} {command : Message}
    (h : d.handle env command type.value id = .ok d') : d.Replies type id d' := by
  unfold handle at h
  cases type with
  | shutdown =>
    have htype : HostCommandType.shutdown.value = "shutdown" := rfl
    rw [if_pos htype] at h
    cases h
    exact replies_shutdown hd hid
  | hello | start | pause | resume | setWatchlist | getState | hostInteraction | userFeedback =>
    rw [if_neg (by decide)] at h
    split at h
    · cases h
      exact replies_refuse hd ..
    simp only [HostCommandType.value, String.reduceEq, if_true, if_false] at h
    first
      | exact replies_hostInteraction hd hid h
      | exact replies_userFeedback hd hid h
      | obtain rfl := Except.ok.inj h
        first
          | exact replies_hello hd hid
          | exact replies_setWatchlist hd hid command
          | exact replies_getState hd hid env
          | exact replies_ackUnless hd hid rfl rfl rfl

theorem exists_command {type : String} (h : type ∈ hostCommands) : ∃ t : HostCommandType, t.value = type := by
  simp only [hostCommands, List.mem_cons, List.not_mem_nil, or_false] at h
  rcases h with rfl | rfl | rfl | rfl | rfl | rfl | rfl | rfl | rfl
  · exact ⟨.hello, rfl⟩
  · exact ⟨.start, rfl⟩
  · exact ⟨.pause, rfl⟩
  · exact ⟨.resume, rfl⟩
  · exact ⟨.setWatchlist, rfl⟩
  · exact ⟨.getState, rfl⟩
  · exact ⟨.hostInteraction, rfl⟩
  · exact ⟨.userFeedback, rfl⟩
  · exact ⟨.shutdown, rfl⟩

/-- One message is written that the host can read. -/
def Sends (d d' : Daemon) : Prop :=
  d'.engine.watchlist.Countable ∧ ∃ sent : CoreSend, sent.Readable ∧ d'.written = d.written ++ [sent.encode]

/-- **What a line writes**: nothing, or one message that the host can read. -/
theorem dispatchLine_sends (hd : d.engine.watchlist.Countable) {env : DispatchEnv} {line : String}
    (h : d.dispatchLine env line = .ok d') : d' = d ∨ d.Sends d' := by
  have herror : ∀ code message id, d.send (encodeError code message id) = d' → d.Sends d' := by
    rintro code message id rfl
    exact ⟨hd, .error id code message, ⟨trivial, trivial⟩, rfl⟩
  unfold dispatchLine at h
  cases hline : decodeLine env.py line with
  | blank =>
    rw [hline] at h
    exact .inl (Except.ok.inj h).symm
  | error m =>
    obtain ⟨code, message, id, rfl⟩ := decodeLine_error hline
    rw [hline] at h
    exact .inr (herror _ _ _ (Except.ok.inj h))
  | command command type =>
    rw [hline] at h
    dsimp only at h
    right
    split at h
    · exact herror _ _ _ (Except.ok.inj h)
    next hknown =>
      split at h
      · exact herror _ _ _ (Except.ok.inj h)
      split at h
      · exact herror _ _ _ (Except.ok.inj h)
      next hid =>
        obtain ⟨t, rfl⟩ := exists_command (not_not.1 hknown)
        obtain ⟨hcountable, sent, hreadable, -, hwritten⟩ := replies_handle hd hid h
        exact ⟨hcountable, sent, hreadable, hwritten⟩

/-- **What a command of the host writes**: the reply. -/
theorem dispatchLine_replies (hd : d.engine.watchlist.Countable) {env : DispatchEnv} {line : String}
    {command : Message} (hline : LineCommand env.py line command type.value id)
    (h : d.dispatchLine env line = .ok d') : d.Replies type id d' := by
  obtain ⟨hblank, hloads, hversion, htype, hne, hid, hid'⟩ := hline
  have hdecode : decodeLine env.py line = .command command type.value := by
    unfold decodeLine
    rw [hblank, hloads]
    simp [hversion, htype, hne]
  have hknown : type.value ∈ hostCommands := by cases type <;> decide
  unfold dispatchLine at h
  rw [hdecode] at h
  dsimp only at h
  rw [if_neg (not_not.2 hknown), hid] at h
  simp only [textOf, if_neg hid'] at h
  exact replies_handle hd hid' h

end Daemon

namespace DaemonTasks

variable {s s' : DaemonTasks}

/-! ## What the steps write -/

/-- Messages are written that the host can read. -/
structure Adds (s s' : DaemonTasks) (news : List CoreSend) : Prop where
  countable : s'.engine.watchlist.Countable
  written : s'.written = s.written ++ news.map CoreSend.encode
  readable : ∀ sent ∈ news, sent.Readable

theorem adds_nothing (h : s'.engine.watchlist.Countable) (hwritten : s'.written = s.written) : s.Adds s' [] :=
  ⟨h, by rw [hwritten, List.map_nil, List.append_nil], fun _ hm => absurd hm List.not_mem_nil⟩

theorem adds_one {sent : CoreSend} (h : s'.engine.watchlist.Countable) (hsent : sent.Readable)
    (hwritten : s'.written = s.written ++ [sent.encode]) : s.Adds s' [sent] :=
  ⟨h, hwritten, List.forall_mem_singleton.2 hsent⟩

/-- The end of input is answered by a shutdown that nobody asked for. -/
theorem adds_end (h : s.engine.watchlist.Countable) (env : DispatchEnv) :
    s.Adds (s.handleLine env "") [.shutdownAck none] := adds_one h ⟨nofun, trivial⟩ rfl

/-- A command is answered by its reply, or it raises. -/
theorem adds_command (h : s.engine.watchlist.Countable) {env : DispatchEnv} {line id : String} {command : Message}
    {type : HostCommandType} (hline : Daemon.LineCommand env.py line command type.value id) :
    ∃ news, s.Adds (s.handleLine env line) news ∧ (news = [] ∨ ∃ sent, news = [sent] ∧ sent.RepliesTo type id) := by
  have hne : line ≠ "" := by
    rintro rfl
    have hblank := hline.1
    exact absurd hblank (by decide)
  unfold DaemonTasks.handleLine
  rw [if_neg hne]
  split
  · exact ⟨[], adds_nothing h rfl, .inl rfl⟩
  · next d hd =>
    obtain ⟨hcountable, sent, hsent, hreplies, hwritten⟩ := Daemon.dispatchLine_replies h hline hd
    refine ⟨[sent], ?_, .inr ⟨sent, rfl, hreplies⟩⟩
    split
    · exact adds_one hcountable hsent hwritten
    · exact adds_one hcountable hsent hwritten

theorem adds_handleLine (h : s.engine.watchlist.Countable) (env : DispatchEnv) (line : String) :
    ∃ news, s.Adds (s.handleLine env line) news := by
  unfold DaemonTasks.handleLine
  split
  · exact ⟨_, @adds_one s _ (.shutdownAck none) h ⟨nofun, trivial⟩ rfl⟩
  · split
    · exact ⟨[], adds_nothing h rfl⟩
    · next d hd =>
      rcases Daemon.dispatchLine_sends h hd with rfl | ⟨hcountable, sent, hsent, hwritten⟩
      · refine ⟨[], ?_⟩
        split <;> exact adds_nothing h rfl
      · refine ⟨[sent], ?_⟩
        split <;> exact adds_one hcountable hsent hwritten

/-- A tick pushes its state, and its alerts. -/
theorem adds_push {r : EngineTickResult × MarketEngine} (hr : r.2.watchlist.Countable) (watchlist : Watchlist)
    (plan : TickPlan) (now : ℚ) (exhausted : Bool) :
    ∃ news, s.Adds (s.push watchlist plan now exhausted r) news ∧ ∀ sent ∈ news, sent.Unasked := by
  have hstate : CoreSend.Readable (.state none (mapEngineState r.2 now exhausted).1) :=
    ⟨⟨nofun, r.2, now, exhausted, rfl⟩, hr.length⟩
  have halert : CoreSend.Readable (.alert (mapTickAlerts r.1).1 (mapTickAlerts r.1).2) := ⟨⟨r.1, rfl⟩, trivial⟩
  have hemit : (s.push watchlist plan now exhausted r).daemon = (s.daemon.setEngine r.2).emitTick now exhausted r.1 :=
    rfl
  unfold Daemon.emitTick at hemit
  dsimp only at hemit
  split at hemit
  · refine ⟨[.state none (mapEngineState r.2 now exhausted).1], adds_one ?_ hstate ?_,
      List.forall_mem_singleton.2 trivial⟩
    · unfold engine
      rw [hemit]
      exact hr
    · unfold written
      rw [hemit]
      rfl
  · refine ⟨[.state none (mapEngineState r.2 now exhausted).1, .alert (mapTickAlerts r.1).1 (mapTickAlerts r.1).2],
      ⟨?_, ?_, ?_⟩, ?_⟩
    · unfold engine
      rw [hemit]
      exact hr
    · unfold written
      rw [hemit]
      exact List.append_assoc ..
    · exact List.forall_mem_cons.2 ⟨hstate, List.forall_mem_singleton.2 halert⟩
    · exact List.forall_mem_cons.2 ⟨trivial, List.forall_mem_singleton.2 trivial⟩

/-- **What the other steps write**: no replies. -/
theorem adds_of_step {l : TaskStep} (hinv : s.TasksInv) (h : s.engine.watchlist.Countable)
    (hs : s.step l = some s') (hl : ∀ env, l ≠ .dispatch env) :
    ∃ news, s.Adds s' news ∧ ∀ sent ∈ news, sent.Unasked := by
  have hnothing : s'.engine.watchlist = s.engine.watchlist → s'.written = s.written →
      ∃ news, s.Adds s' news ∧ ∀ sent ∈ news, sent.Unasked := fun hengine hwritten =>
    ⟨[], adds_nothing (hengine ▸ h) hwritten, fun _ hm => absurd hm List.not_mem_nil⟩
  cases l with
  | dispatch env => exact absurd rfl (hl env)
  | finish env outcome now exhausted =>
    simp only [step] at hs
    split at hs
    · next plan watchlist hticker =>
      obtain rfl := Option.some.inj hs
      obtain ⟨-, hsame, -⟩ := hinv.fetching plan watchlist hticker
      have hends := (hinv.ends_finish hticker env outcome).watchlist
      exact adds_push (hends ▸ hsame ▸ h) watchlist plan now exhausted
    · cases hs
  | idle due env now exhausted =>
    simp only [step] at hs
    split at hs
    · next hok =>
      obtain rfl := Option.some.inj hs
      have hends := (ends_idle hok.2 due env).watchlist
      exact adds_push (hends ▸ h) _ _ now exhausted
    · cases hs
  | worker w =>
    simp only [step] at hs
    obtain ⟨e', he', rfl⟩ := Option.map_eq_some_iff.1 hs
    obtain ⟨c, c', -, -, rfl⟩ := EngineSession.work_cases he'
    exact hnothing rfl rfl
  | line | abort | begin | skip | wake =>
    -- These write nothing and keep the watchlist.
    simp only [step] at hs
    split at hs <;> first
      | cases hs; done
      | (obtain rfl := Option.some.inj hs
         exact hnothing rfl rfl)

/-- The messages are some that the host can read, in order. -/
structure Legible (s : DaemonTasks) : Prop where
  countable : s.engine.watchlist.Countable
  sends : ∃ sends : List CoreSend, s.written = sends.map CoreSend.encode ∧ ∀ sent ∈ sends, sent.Readable

theorem Legible.adds {news : List CoreSend} (h : s.Legible) (hadds : s.Adds s' news) : s'.Legible := by
  obtain ⟨sends, hwritten, hsends⟩ := h.sends
  refine ⟨hadds.countable, sends ++ news, ?_, List.forall_mem_append.2 ⟨hsends, hadds.readable⟩⟩
  rw [hadds.written, hwritten, List.map_append]

theorem Legible.of_step {l : TaskStep} (h : s.Legible) (hinv : s.TasksInv) (hs : s.step l = some s') :
    s'.Legible := by
  by_cases hl : ∃ env, l = .dispatch env
  · obtain ⟨env, rfl⟩ := hl
    simp only [step] at hs
    split at hs
    · split at hs
      · cases hs
      · obtain rfl := Option.some.inj hs
        obtain ⟨news, hadds⟩ := adds_handleLine h.countable env _
        exact h.adds hadds
    · cases hs
  · obtain ⟨news, hadds, -⟩ := adds_of_step hinv h.countable hs fun env heq => hl ⟨env, heq⟩
    exact h.adds hadds

/-- **The messages of a run.** -/
theorem sends_run {engine : MarketEngine} (hcount : engine.watchlist.Countable) {steps : List TaskStep}
    (hrun : run step (start engine) steps = some s) : s.TasksInv ∧ s.Legible :=
  run_inv (I := fun s => s.TasksInv ∧ s.Legible)
    (fun _ _ _ h hs => ⟨h.1.of_step hs, h.2.of_step h.1 hs⟩)
    ⟨tasksInv_start engine, hcount, [], rfl, fun _ hm => absurd hm List.not_mem_nil⟩ hrun

end DaemonTasks

end MarketSentinel
