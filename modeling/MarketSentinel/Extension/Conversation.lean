import MarketSentinel.Extension.Heard

/-!
# The two sides of the pipes

The client writes commands as lines of JSON to the daemon's stdin, which it reads line by line; the daemon's
output reaches the client in chunks of bytes. Requests, timeouts, lines, ticks and chunks come in any order.

* `isCommand_line`: a line of the client is a command for the daemon.
* `chunk_eq`: a chunk hands the messages that it completes.
* `Agrees.of_step`: what the two sides make of each other, from step to step.
* `conversation_understood`: what they make of each other in every run, with requests that JSON can hold and from
  a watchlist whose length is a number for the host. The numbers of a message are finite.
-/

namespace MarketSentinel.Extension

open Lib Machine Lib.JsonText

/-! ## The model -/

/-- The two pipes. -/
structure Pipes where
  out : Stdio
  /-- `JSON.stringify` and `json.loads`. -/
  host : Dialect

namespace Pipes

variable (pipes : Pipes)

/-- The line of a command, as `readline` returns it. -/
def line (m : Message) : String := String.ofList (write pipes.host (.obj m) ++ ['\n'])

/-- `json.loads`, and `repr`. -/
def py (repr : Json → String) : PyText where
  loads := fun text => JsonText.parse pipes.host text.toList
  repr := repr

end Pipes

structure Conversation where
  client : IpcClient
  tasks : DaemonTasks
  /-- How many commands the daemon has read. -/
  read : ℕ := 0
  /-- How many bytes the client has got. -/
  got : ℕ := 0

inductive ConversationStep
  /-- A request, a timeout, or another event of the client. -/
  | client (e : ClientEvent)
  /-- Some more bytes come through the pipe. -/
  | chunk (n : ℕ)
  /-- `readline` returns the next command. -/
  | line
  /-- `readline` returns the empty line. -/
  | endOfInput
  /-- The reader gets the lock. -/
  | dispatch (repr : Json → String) (now : ℚ) (exhausted stored : Bool)
  /-- Another step of the daemon. -/
  | task (l : TaskStep)

/-- A request of the host has members that JSON can hold, under names of their own. -/
def ConversationStep.Lawful : ConversationStep → Prop
  | .client (.request body) => body.Lawful
  | _ => True

namespace Conversation

/-- The output of the daemon so far. -/
def bytes (pipes : Pipes) (s : Conversation) : List UInt8 := Utf8.encode (pipes.out.output s.tasks.written)

def setTasks (s : Conversation) (t : DaemonTasks) : Conversation := { s with tasks := t }

def step (pipes : Pipes) (s : Conversation) : ConversationStep → Option Conversation
  | .client (.feed _) => none
  | .client e => some { s with client := s.client.step pipes.out.parse e }
  | .chunk n =>
    let chunk := ((s.bytes pipes).drop s.got).take n
    some { s with client := s.client.feedBuffer pipes.out.parse chunk, got := s.got + chunk.length }
  | .line =>
    match s.client.written[s.read]? with
    | none => none
    | some m => (s.tasks.step (.line (pipes.line m))).map fun t => { s with tasks := t, read := s.read + 1 }
  | .endOfInput => (s.tasks.step (.line "")).map s.setTasks
  | .dispatch repr now exhausted stored =>
    (s.tasks.step (.dispatch ⟨pipes.py repr, now, exhausted, stored⟩)).map s.setTasks
  | .task (.line _) | .task (.dispatch _) => none
  | .task l => (s.tasks.step l).map s.setTasks

/-- Before the first request. -/
def start (engine : MarketEngine) (helloTimeoutMs defaultTimeoutMs : ℕ) : Conversation where
  client := { helloTimeoutMs := helloTimeoutMs, defaultTimeoutMs := defaultTimeoutMs }
  tasks := .start engine

/-- How many commands have been dispatched: one that is held is not yet. -/
def dispatched (s : Conversation) : ℕ :=
  match s.tasks.reader with
  | .holding text => if text = "" then s.read else s.read - 1
  | _ => s.read

end Conversation

/-! ## The commands -/

theorem ends_writeMembers (d : Dialect) (fields : List (String × Json)) :
    ∃ members, writeMembers d fields = members ++ ['\x7d'] := by
  induction fields with
  | nil => exact ⟨[], rfl⟩
  | cons f fields ih =>
    obtain ⟨members, hmembers⟩ := ih
    refine ⟨',' :: '"' :: (writeString d f.1 ++ ':' :: (write d f.2 ++ members)), ?_⟩
    conv_lhs => unfold writeMembers
    rw [hmembers]
    simp

/-- An object stands between braces. -/
theorem write_obj (d : Dialect) (fields : List (String × Json)) :
    ∃ members, write d (.obj fields) = '\x7b' :: (members ++ ['\x7d']) := by
  cases fields with
  | nil => exact ⟨[], rfl⟩
  | cons f fields =>
    obtain ⟨members, hmembers⟩ := ends_writeMembers d fields
    refine ⟨'"' :: (writeString d f.1 ++ ':' :: (write d f.2 ++ members)), ?_⟩
    conv_lhs => unfold write
    rw [hmembers]
    simp

theorem strip_line (pipes : Pipes) (m : Message) :
    strip (pipes.line m) = String.ofList (write pipes.host (.obj m)) ∧ isBlank (pipes.line m) = false := by
  obtain ⟨members, hmembers⟩ := write_obj pipes.host m
  have hnewline : isSpace '\n' = true := by decide
  have hopen : isSpace '\x7b' = false := by decide
  have hclose : isSpace '\x7d' = false := by decide
  unfold Pipes.line
  rw [hmembers]
  constructor
  · unfold strip
    rw [String.toList_ofList, List.cons_append, List.dropWhile_cons_of_neg (by simp [hopen]), ← List.cons_append,
      List.rdropWhile_concat_pos _ _ _ (by simp [hnewline]), ← List.cons_append,
      List.rdropWhile_concat_neg _ _ _ (by simp [hclose])]
  · simp [isBlank, isSpace]

/-- **A line of the client** is a command for the daemon. -/
theorem isCommand_line {pipes : Pipes} {m : Message} {cmd : Command} (h : IsCommand m cmd) (repr : Json → String) :
    Daemon.LineCommand (pipes.py repr) (pipes.line m) m cmd.1.value cmd.2 := by
  obtain ⟨hstrip, hblank⟩ := strip_line pipes m
  refine ⟨hblank, ?_, ?_, h.type, ?_, h.id, h.nonempty⟩
  · rw [hstrip]
    show JsonText.parse pipes.host (String.ofList _).toList = _
    rw [String.toList_ofList]
    exact parse_write h.proper
  · rw [h.version]
    decide
  · cases cmd.1 <;> decide

/-! ## The chunks -/

/-- **A chunk** hands the messages that it completes, and leaves what it begins in the buffer. -/
theorem chunk_eq {io : Stdio} {ms : List Message} (h : ∀ m ∈ ms, Proper (.obj m)) {got n : ℕ} {chunk : List UInt8}
    (hchunk : chunk = ((Utf8.encode (io.output ms)).drop got).take n) {c : IpcClient}
    (hbuffer : c.buffer = JsonlDecoder.rest ((io.output ms).toList.take got)) :
    c.feedBuffer io.parse chunk =
      (((ms.take (((Utf8.encode (io.output ms)).take (got + chunk.length)).count 10)).drop
          (ms.take (((Utf8.encode (io.output ms)).take got).count 10)).length).foldl IpcClient.handLine c).setBuffer
        (JsonlDecoder.rest ((io.output ms).toList.take (got + chunk.length))) := by
  have hascii := Stdio.ascii_output io h
  have hencode : Utf8.encode (io.output ms) = (io.output ms).toList.map asciiByte := encode_ascii hascii
  generalize htext : (io.output ms).toList = text at *
  have htaken : ∀ k, ∀ c ∈ text.take k, c.toNat < 0x80 := fun k c hc => hascii c (List.mem_of_mem_take hc)
  have hcount : ∀ k, ((Utf8.encode (io.output ms)).take k).count 10 = (text.take k).count '\n' := by
    intro k
    rw [hencode, ← List.map_take, count_ascii (htaken k)]
  have hlines : ∀ k, JsonlDecoder.linesOf (text.take k) = (ms.take ((text.take k).count '\n')).map io.dumps := by
    intro k
    exact Stdio.linesOf_output h (htext ▸ List.take_prefix k text)
  -- The chunk is the next part of the text.
  have hpart : chunk = ((text.drop got).take n).map asciiByte := by
    rw [hchunk, hencode, List.map_take, List.map_drop]
  have hread : Utf8.lossy chunk = (text.drop got).take n := by
    have hall := @lossy_chunks ((text.drop got).take n)
      (fun c hc => hascii c (List.mem_of_mem_drop (List.mem_of_mem_take hc))) [chunk] (by simp [hpart])
    simpa using hall
  have hnext : text.take (got + chunk.length) = text.take got ++ (text.drop got).take n := by
    rw [hpart, List.length_map, List.take_add, List.length_take, ← List.take_eq_take_min]
  have hemitted := JsonlDecoder.linesOf_append (text.take got) ((text.drop got).take n)
  rw [← hnext, hlines, hlines] at hemitted
  have hnew : JsonlDecoder.linesOf (c.buffer ++ Utf8.lossy chunk) =
      ((ms.take ((text.take (got + chunk.length)).count '\n')).drop
        (ms.take ((text.take got).count '\n')).length).map io.dumps := by
    rw [hbuffer, hread, List.map_drop, hemitted]
    have hlength : (ms.take ((text.take got).count '\n')).length =
        ((ms.take ((text.take got).count '\n')).map io.dumps).length := (List.length_map _).symm
    rw [hlength, List.drop_left]
  have hproper : ∀ m ∈ (ms.take ((text.take (got + chunk.length)).count '\n')).drop
      (ms.take ((text.take got).count '\n')).length, Proper (.obj m) :=
    fun m hm => h m (List.mem_of_mem_take (List.mem_of_mem_drop hm))
  have hfeed := @IpcClient.feeds_eq io.parse c [chunk]
  have hpushes : JsonlDecoder.pushes c.buffer [chunk] = ((JsonlDecoder.pushBuffer c.buffer chunk).1 ++ [],
    (JsonlDecoder.pushBuffer c.buffer chunk).2) := rfl
  rw [hpushes, JsonlDecoder.pushBuffer_eq, hnew, List.append_nil, List.map_map] at hfeed
  rw [hcount, hcount]
  refine hfeed.trans ?_
  have hrest : JsonlDecoder.rest (c.buffer ++ Utf8.lossy chunk) =
      JsonlDecoder.rest (text.take (got + chunk.length)) := by
    rw [hbuffer, hread, JsonlDecoder.rest_append, hnext]
  rw [hrest]
  exact congrArg (fun c : IpcClient => c.setBuffer _) (foldl_dumps hproper c)

/-! ## The answers -/

/-- The replies answer the commands in their order, each at most once; the other messages were not asked for. -/
inductive Conversation.Answers : List CoreSend → List Command → Prop
  | nil : Answers [] []
  | unasked {sends : List CoreSend} {cmds : List Command} {sent : CoreSend} (h : Answers sends cmds)
      (hsent : sent.Unasked) : Answers (sends ++ [sent]) cmds
  | reply {sends : List CoreSend} {cmds : List Command} {cmd : Command} {sent : CoreSend} (h : Answers sends cmds)
      (hsent : sent.RepliesTo cmd.1 cmd.2) : Answers (sends ++ [sent]) (cmds ++ [cmd])
  | silent {sends : List CoreSend} {cmds : List Command} (cmd : Command) (h : Answers sends cmds) :
      Answers sends (cmds ++ [cmd])

/-- The id that a message carries. -/
def CoreSend.replyId (sent : CoreSend) : Option String := sent.read.requestId

theorem replyId_unasked {sent : CoreSend} (h : sent.Unasked) : sent.replyId = none := by
  cases sent with
  | state id payload =>
    cases id with
    | none => rfl
    | some id => exact h.elim
  | shutdownAck id =>
    cases id with
    | none => rfl
    | some id => exact h.elim
  | alert => rfl
  | ready | ack | error => exact h.elim

theorem replyId_reply {sent : CoreSend} {type : HostCommandType} {id : String} (h : sent.RepliesTo type id)
    (hid : id ≠ "") : sent.replyId = some id := by
  rcases h with ⟨code, text, rfl⟩ | ⟨-, hread⟩
  · exact filter_nonempty fun heq => hid (Option.some.inj heq)
  · exact hread

namespace Conversation.Answers

variable {sends : List CoreSend} {cmds : List Command}

theorem unaskeds (h : Answers sends cmds) {news : List CoreSend} (hnews : ∀ sent ∈ news, sent.Unasked) :
    Answers (sends ++ news) cmds := by
  induction news generalizing sends with
  | nil => rwa [List.append_nil]
  | cons sent news ih =>
    rw [List.forall_mem_cons] at hnews
    have hrest := ih (h.unasked hnews.1) hnews.2
    rwa [List.append_assoc] at hrest

/-- **The replies come in the order of the commands.** -/
theorem sublist (h : Answers sends cmds) (hids : ∀ cmd ∈ cmds, cmd.2 ≠ "") :
    (sends.filterMap CoreSend.replyId).Sublist (cmds.map Prod.snd) := by
  induction h with
  | nil => exact List.Sublist.refl _
  | unasked h hsent ih =>
    rw [List.filterMap_append, List.filterMap_cons, replyId_unasked hsent]
    exact (List.append_nil _).symm ▸ ih hids
  | reply h hsent ih =>
    rw [List.forall_mem_append, List.forall_mem_singleton] at hids
    rw [List.filterMap_append, List.filterMap_cons, replyId_reply hsent hids.2, List.map_append]
    exact (ih hids.1).append (List.Sublist.refl _)
  | silent cmd h ih =>
    rw [List.forall_mem_append] at hids
    rw [List.map_append]
    exact (ih hids.1).trans (List.sublist_append_left _ _)

/-- A message was not asked for, or is the reply to a command. -/
theorem of_mem (h : Answers sends cmds) {sent : CoreSend} (hsent : sent ∈ sends) :
    sent.Unasked ∨ ∃ cmd ∈ cmds, sent.RepliesTo cmd.1 cmd.2 := by
  induction h with
  | nil => exact absurd hsent List.not_mem_nil
  | unasked h hnew ih =>
    rcases List.mem_append.1 hsent with hsent | hsent
    · exact ih hsent
    · exact .inl (List.mem_singleton.1 hsent ▸ hnew)
  | @reply _ _ cmd _ h hnew ih =>
    rcases List.mem_append.1 hsent with hsent | hsent
    · rcases ih hsent with hunasked | ⟨cmd', hcmd', hreplies⟩
      · exact .inl hunasked
      · exact .inr ⟨cmd', List.mem_append_left _ hcmd', hreplies⟩
    · exact .inr ⟨cmd, List.mem_append_right _ (List.mem_singleton_self _), List.mem_singleton.1 hsent ▸ hnew⟩
  | silent cmd h ih =>
    rcases ih hsent with hunasked | ⟨cmd', hcmd', hreplies⟩
    · exact .inl hunasked
    · exact .inr ⟨cmd', List.mem_append_left _ hcmd', hreplies⟩

/-- **The next message** answers a command that none before it answers, or was not asked for. -/
theorem next (h : Answers sends cmds) {handed rest : List CoreSend} {sent : CoreSend}
    (heq : sends = handed ++ sent :: rest) (hids : ∀ cmd ∈ cmds, cmd.2 ≠ "") (hnodup : (cmds.map Prod.snd).Nodup)
    {c : IpcClient} (hcmds : cmds ⊆ c.commands) : c.Answering handed sent := by
  have hmem : sent ∈ sends := heq ▸ List.mem_append_right _ List.mem_cons_self
  rcases h.of_mem hmem with hunasked | ⟨cmd, hcmd, hreplies⟩
  · exact .inl hunasked
  · refine .inr ⟨cmd, hcmds hcmd, hids cmd hcmd, hreplies, fun s hs hid => ?_⟩
    have hreply := replyId_reply hreplies (hids cmd hcmd)
    have hdistinct := hnodup.sublist (h.sublist hids)
    rw [heq, List.filterMap_append, List.filterMap_cons, hreply, List.nodup_append] at hdistinct
    exact hdistinct.2.2 cmd.2 (List.mem_filterMap.2 ⟨s, hs, hid⟩) cmd.2 List.mem_cons_self rfl

end Conversation.Answers

/-! ## The invariant -/

namespace Conversation

variable {pipes : Pipes} {s s' : Conversation} {sends : List CoreSend}

/-- How many messages the client was handed. -/
def handed (pipes : Pipes) (s : Conversation) : ℕ := ((s.bytes pipes).take s.got).count 10

/-- The daemon has written `sends`, which answer the commands that it has dispatched; the client has made of the
first of them what it was handed. -/
structure Agrees (pipes : Pipes) (s : Conversation) (sends : List CoreSend) : Prop where
  tasks : s.tasks.TasksInv
  countable : s.tasks.engine.watchlist.Countable
  written : s.tasks.written = sends.map CoreSend.encode
  readable : ∀ sent ∈ sends, sent.Readable
  speaks : s.client.Speaks
  read : s.read ≤ s.client.commands.length
  held : ∀ text, s.tasks.reader = .holding text → text = "" ∨
    0 < s.read ∧ ∃ m, s.client.written[s.read - 1]? = some m ∧ text = pipes.line m
  answers : Answers sends (s.client.commands.take s.dispatched)
  got : s.got ≤ (s.bytes pipes).length
  buffer : s.client.buffer = JsonlDecoder.rest ((pipes.out.output s.tasks.written).toList.take s.got)
  heard : s.client.Heard (sends.take (s.handed pipes))

theorem Agrees.proper (h : s.Agrees pipes sends) : ∀ m ∈ s.tasks.written, Proper (.obj m) := by
  rw [h.written]
  intro m hm
  obtain ⟨sent, -, rfl⟩ := List.mem_map.1 hm
  exact sent.proper_encode

theorem Agrees.nonempty (h : s.Agrees pipes sends) : ∀ cmd ∈ s.client.commands, cmd.2 ≠ "" :=
  IpcClient.nonempty_of_forall₂ h.speaks.written

theorem dispatched_le (s : Conversation) : s.dispatched ≤ s.read := by
  unfold dispatched
  split
  · split <;> omega
  · exact le_rfl

/-! ### The client's events -/

/-- What the events of the client keep. -/
theorem client_keeps (c : IpcClient) (parse : String → Option Json) {e : ClientEvent}
    (hfeed : ∀ chunk, e ≠ .feed chunk) : c.commands <+: (c.step parse e).commands ∧
      c.written <+: (c.step parse e).written ∧ (c.step parse e).buffer = c.buffer := by
  have hclose : ∀ reason, (c.rejectAll reason).commands = c.commands ∧ (c.rejectAll reason).written = c.written ∧
      (c.rejectAll reason).buffer = c.buffer := by
    intro reason
    refine ⟨?_, (IpcClient.foldl_rejectItem_written reason c.pending.values _).1, ?_⟩
    · unfold IpcClient.commands
      exact congrArg _ (IpcClient.foldl_rejectItem reason c.pending.values _).2.2.2.1
    · exact List.foldlRecOn (motive := fun c' : IpcClient => c'.buffer = c.buffer) c.pending.values _ rfl
        fun _ hc _ _ => hc
  cases e with
  | request body =>
    show c.commands <+: (c.request body).commands ∧ c.written <+: (c.request body).written ∧
      (c.request body).buffer = c.buffer
    cases hclosed : c.closed with
    | true =>
      rw [IpcClient.request_of_closed hclosed]
      refine ⟨?_, List.prefix_refl _, rfl⟩
      show _ <+: (c.requests ++ [_]).filterMap _
      rw [List.filterMap_append]
      exact List.prefix_append ..
    | false =>
      unfold IpcClient.request
      rw [if_neg (by rw [hclosed]; decide)]
      refine ⟨?_, List.prefix_append .., rfl⟩
      show _ <+: (c.requests ++ [_]).filterMap _
      rw [List.filterMap_append]
      exact List.prefix_append ..
  | feed chunk => exact absurd rfl (hfeed chunk)
  | timeout timer =>
    show c.commands <+: (c.onTimeout timer).commands ∧ c.written <+: (c.onTimeout timer).written ∧
      (c.onTimeout timer).buffer = c.buffer
    unfold IpcClient.onTimeout
    split
    · exact ⟨List.prefix_refl _, List.prefix_refl _, rfl⟩
    · exact ⟨List.prefix_refl _, List.prefix_refl _, rfl⟩
  | notifyClosed reason =>
    obtain ⟨hcommands, hwritten, hbuffer⟩ := hclose (.disconnected reason)
    exact ⟨hcommands ▸ List.prefix_refl _, hwritten ▸ List.prefix_refl _, hbuffer⟩
  | dispose =>
    obtain ⟨hcommands, hwritten, hbuffer⟩ := hclose (.disconnected "client disposed")
    exact ⟨hcommands ▸ List.prefix_refl _, hwritten ▸ List.prefix_refl _, hbuffer⟩
  | listen kind handler => exact ⟨List.prefix_refl _, List.prefix_refl _, rfl⟩
  | unlisten kind handler => exact ⟨List.prefix_refl _, List.prefix_refl _, rfl⟩

theorem take_of_prefix {A : Type} {xs ys : List A} (h : xs <+: ys) {n : ℕ} (hn : n ≤ xs.length) :
    ys.take n = xs.take n := by
  obtain ⟨more, rfl⟩ := h
  exact List.take_append_of_le_length hn

theorem Agrees.client (h : s.Agrees pipes sends) {e : ClientEvent} (hfeed : ∀ chunk, e ≠ .feed chunk)
    (hlawful : ∀ body, e = .request body → body.Lawful) :
    Agrees pipes { s with client := s.client.step pipes.out.parse e } sends := by
  obtain ⟨hcommands, hwritten, hbuffer⟩ := client_keeps s.client pipes.out.parse hfeed
  refine ⟨h.tasks, h.countable, h.written, h.readable, h.speaks.of_step _ hfeed hlawful,
    h.read.trans hcommands.length_le, ?_, ?_, h.got, hbuffer.trans h.buffer, h.heard.of_step h.speaks _ hfeed⟩
  · intro text htext
    rcases h.held text htext with hempty | ⟨hpos, m, hm, heq⟩
    · exact .inl hempty
    · obtain ⟨more, hmore⟩ := hwritten
      refine .inr ⟨hpos, m, ?_, heq⟩
      rw [← hmore]
      exact IpcClient.getElem?_append_of_some hm _
  · have hle : s.dispatched ≤ s.client.commands.length := s.dispatched_le.trans h.read
    have hsame := take_of_prefix hcommands hle
    show Answers sends ((s.client.step pipes.out.parse e).commands.take s.dispatched)
    rw [hsame]
    exact h.answers

/-! ### The chunks -/

/-- What the client makes of some of the messages. -/
theorem foldl_heard {c : IpcClient} (hs : c.Speaks) {sends : List CoreSend} {cmds : List Command}
    (hanswers : Answers sends cmds) (hpre : cmds <+: c.commands) (before news after : List CoreSend)
    (heq : sends = before ++ news ++ after) (h : c.Heard before) :
    ((news.map CoreSend.read).foldl IpcClient.dispatchMessage c).Heard (before ++ news) ∧
      ((news.map CoreSend.read).foldl IpcClient.dispatchMessage c).Speaks ∧
      ((news.map CoreSend.read).foldl IpcClient.dispatchMessage c).commands = c.commands ∧
      ((news.map CoreSend.read).foldl IpcClient.dispatchMessage c).written = c.written := by
  induction news generalizing c before with
  | nil =>
    rw [List.append_nil]
    exact ⟨h, hs, rfl, rfl⟩
  | cons sent news ih =>
    have hids : ∀ cmd ∈ cmds, cmd.2 ≠ "" := fun cmd hcmd =>
      IpcClient.nonempty_of_forall₂ hs.written cmd (hpre.subset hcmd)
    have hnodup : (cmds.map Prod.snd).Nodup := hs.distinct.sublist (hpre.sublist.map _)
    have hsplit : sends = before ++ sent :: (news ++ after) := by
      rw [heq, List.append_assoc]
      rfl
    have hnext := h.next hs (hanswers.next hsplit hids hnodup hpre.subset)
    have hkept : (c.dispatchMessage sent.read).commands = c.commands := by
      unfold IpcClient.commands
      rcases c.dispatchMessage_cases sent.read with hq | ⟨id, p, s, -, hsettles⟩
      · rw [hq.requests]
      · rw [hsettles.requests]
    have hrest := ih (hs.dispatchMessage sent.read) (hkept ▸ hpre) (before ++ [sent])
      (by rw [heq]; simp) hnext
    rw [List.append_assoc, hkept, c.dispatchMessage_written sent.read] at hrest
    exact hrest

theorem take_append_drop {A : Type} (xs : List A) {a b : ℕ} (h : a ≤ b) :
    xs = xs.take a ++ (xs.take b).drop (xs.take a).length ++ xs.drop b := by
  have hpre : xs.take a <+: xs.take b := List.take_prefix_take_left h
  rw [List.prefix_iff_eq_append.1 hpre, List.take_append_drop]

theorem Agrees.chunk (h : s.Agrees pipes sends) {n : ℕ} {chunk : List UInt8}
    (hchunk : chunk = ((s.bytes pipes).drop s.got).take n) :
    Agrees pipes { s with client := s.client.feedBuffer pipes.out.parse chunk, got := s.got + chunk.length } sends := by
  have hfed := chunk_eq h.proper hchunk h.buffer
  have hgot : s.got + chunk.length ≤ (s.bytes pipes).length := by
    have hle := h.got
    rw [hchunk, List.length_take, List.length_drop]
    omega
  have hle : s.handed pipes ≤ ((s.bytes pipes).take (s.got + chunk.length)).count 10 := by
    refine List.Sublist.count_le _ ?_
    exact (List.take_prefix_take_left (Nat.le_add_right _ _)).sublist
  have hnews : ∀ b, (s.tasks.written.take b).drop (s.tasks.written.take (s.handed pipes)).length =
      ((sends.take b).drop (sends.take (s.handed pipes)).length).map CoreSend.encode := by
    intro b
    rw [h.written, ← List.map_take, ← List.map_take, List.length_map, List.map_drop]
  have hreadable : ∀ b, ∀ sent ∈ (sends.take b).drop (sends.take (s.handed pipes)).length, sent.Readable :=
    fun b sent hsent => h.readable sent (List.mem_of_mem_take (List.mem_of_mem_drop hsent))
  have hbytes : ∀ k, ((Utf8.encode (pipes.out.output s.tasks.written)).take k) = (s.bytes pipes).take k := fun _ => rfl
  rw [hbytes, hbytes] at hfed
  change _ = ((List.foldl IpcClient.handLine s.client ((s.tasks.written.take _).drop
    (s.tasks.written.take (s.handed pipes)).length)).setBuffer _) at hfed
  rw [hnews, foldl_handLine (hreadable _)] at hfed
  obtain ⟨hheard, hspeaks, hcommands, hwritten⟩ := foldl_heard h.speaks h.answers (List.take_prefix ..)
    (sends.take (s.handed pipes))
    ((sends.take (((s.bytes pipes).take (s.got + chunk.length)).count 10)).drop
      (sends.take (s.handed pipes)).length) _ (take_append_drop sends hle) h.heard
  rw [List.prefix_iff_eq_append.1 (List.take_prefix_take_left hle)] at hheard
  rw [hfed]
  refine ⟨h.tasks, h.countable, h.written, h.readable, ?_, ?_, ?_, ?_, hgot, rfl, ?_⟩
  · exact hspeaks.of_same (hspeaks.inv.of_quiet ⟨rfl, rfl, rfl, rfl, rfl, rfl, rfl, fun _ hm => hm⟩) rfl rfl
  · exact h.read.trans_eq (congrArg List.length hcommands.symm)
  · intro text htext
    rcases h.held text htext with hempty | ⟨hpos, m, hm, heq⟩
    · exact .inl hempty
    · exact .inr ⟨hpos, m, (congrArg (fun ms : List Message => ms[s.read - 1]?) hwritten).trans hm, heq⟩
  · refine Eq.mp (congrArg (Answers sends) ?_) h.answers
    exact congrArg (List.take s.dispatched) hcommands.symm
  · exact hheard.of_grow ⟨List.prefix_refl _, fun _ hm => hm⟩ rfl rfl hheard.waiting fun _ _ _ _ hi => hi

/-! ### The daemon's steps -/

theorem output_append (io : Stdio) (ms news : List Message) :
    (io.output (ms ++ news)).toList = (io.output ms).toList ++ (io.output news).toList := by
  rw [Stdio.toList_output, Stdio.toList_output, Stdio.toList_output, List.map_append, Lines.join_append]

/-- More output leaves what the client has got alone. -/
theorem Agrees.grow (h : s.Agrees pipes sends) {t : DaemonTasks} {news : List CoreSend} (read : ℕ)
    (hinv : t.TasksInv) (hadds : s.tasks.Adds t news) (hread : read ≤ s.client.commands.length)
    (hheld : ∀ text, t.reader = .holding text → text = "" ∨
      0 < read ∧ ∃ m, s.client.written[read - 1]? = some m ∧ text = pipes.line m)
    (hanswers : Answers (sends ++ news)
      (s.client.commands.take (dispatched { s with tasks := t, read := read }))) :
    Agrees pipes { s with tasks := t, read := read } (sends ++ news) := by
  have hwritten : t.written = (sends ++ news).map CoreSend.encode := by
    rw [hadds.written, h.written, List.map_append]
  have hascii := Stdio.ascii_output pipes.out h.proper
  have hencode : s.bytes pipes = (pipes.out.output s.tasks.written).toList.map asciiByte := encode_ascii hascii
  have hlength : s.got ≤ (pipes.out.output s.tasks.written).toList.length := by
    have hgot := h.got
    rwa [hencode, List.length_map] at hgot
  have htext : (pipes.out.output t.written).toList.take s.got =
      (pipes.out.output s.tasks.written).toList.take s.got := by
    rw [hadds.written, output_append, List.take_append_of_le_length hlength]
  have hbytes : bytes pipes { s with tasks := t, read := read } = s.bytes pipes ++
      (pipes.out.output (news.map CoreSend.encode)).toList.flatMap String.utf8EncodeChar := by
    unfold bytes Utf8.encode
    dsimp only
    rw [hadds.written, output_append, List.flatMap_append]
  have hhanded : handed pipes { s with tasks := t, read := read } = s.handed pipes := by
    unfold handed
    rw [hbytes, List.take_append_of_le_length h.got]
  have hcount : s.handed pipes ≤ sends.length := by
    have htotal := @Stdio.count_output pipes.out _ h.proper
    rw [h.written, List.length_map] at htotal
    rw [← htotal, ← h.written]
    exact (List.take_sublist _ _).count_le _
  refine ⟨hinv, hadds.countable, hwritten, List.forall_mem_append.2 ⟨h.readable, hadds.readable⟩, h.speaks, hread,
    hheld, hanswers, ?_, ?_, ?_⟩
  · rw [hbytes, List.length_append]
    exact h.got.trans (Nat.le_add_right _ _)
  · exact h.buffer.trans (congrArg JsonlDecoder.rest htext.symm)
  · rw [hhanded, List.take_append_of_le_length hcount]
    exact h.heard

/-- A line has come. -/
theorem Agrees.holding (h : s.Agrees pipes sends) {text : String} {t : DaemonTasks} {read : ℕ}
    (ht : s.tasks.step (.line text) = some t) (hread : read ≤ s.client.commands.length)
    (hheld : text = "" ∧ read = s.read ∨
      read = s.read + 1 ∧ ∃ m, s.client.written[s.read]? = some m ∧ text = pipes.line m) :
    Agrees pipes { s with tasks := t, read := read } sends := by
  have hinv := h.tasks.of_step ht
  have hstep := ht
  simp only [DaemonTasks.step] at hstep
  split at hstep
  · next hreader =>
    obtain rfl := Option.some.inj hstep
    have hbefore : s.dispatched = s.read := by
      unfold dispatched
      rw [hreader]
    have hafter : dispatched { s with tasks := { s.tasks with reader := .holding text }, read := read } = s.read := by
      unfold dispatched
      dsimp only
      rcases hheld with ⟨rfl, rfl⟩ | ⟨rfl, m, -, rfl⟩
      · exact if_pos rfl
      · have hne : pipes.line m ≠ "" := by
          intro hempty
          have hblank := (strip_line pipes m).2
          rw [hempty] at hblank
          exact absurd hblank (by decide)
        rw [if_neg hne]
        rfl
    have hgrow := h.grow read hinv (DaemonTasks.adds_nothing h.countable rfl) hread
      (fun text' htext' => ?_) ?_
    · rwa [List.append_nil] at hgrow
    · obtain rfl : text = text' := ReaderAt.holding.inj htext'
      rcases hheld with ⟨hempty, -⟩ | ⟨rfl, m, hm, heq⟩
      · exact .inl hempty
      · exact .inr ⟨Nat.succ_pos _, m, hm, heq⟩
    · rw [hafter, List.append_nil, ← hbefore]
      exact h.answers
  · cases hstep

theorem handleLine_reader (t : DaemonTasks) (env : DispatchEnv) (line : String) :
    ∀ text, (t.handleLine env line).reader ≠ .holding text := by
  intro text
  unfold DaemonTasks.handleLine
  split
  · nofun
  · split
    · nofun
    · split
      · nofun
      · nofun

theorem dispatched_of_reader (hreader : ∀ text, s.tasks.reader ≠ .holding text) : s.dispatched = s.read := by
  unfold dispatched
  split
  · next text htext => exact absurd htext (hreader text)
  · rfl

/-- The command that is held is the next one. -/
theorem Agrees.next (h : s.Agrees pipes sends) {text : String} (hreader : s.tasks.reader = .holding text)
    (hne : text ≠ "") : ∃ m cmd, text = pipes.line m ∧ IsCommand m cmd ∧
      s.client.commands.take s.read = s.client.commands.take s.dispatched ++ [cmd] := by
  obtain ⟨hpos, m, hm, heq⟩ := (h.held text hreader).resolve_left hne
  obtain ⟨cmd, hcmd, his⟩ := h.speaks.getElem? hm
  have hbefore : s.dispatched = s.read - 1 := by
    unfold dispatched
    rw [hreader]
    exact if_neg hne
  refine ⟨m, cmd, heq, his, ?_⟩
  obtain ⟨n, hn⟩ : ∃ n, s.read = n + 1 := ⟨s.read - 1, by omega⟩
  rw [hn, Nat.add_sub_cancel] at hcmd hbefore
  rw [hbefore, hn, List.take_add_one, hcmd]
  rfl

theorem Agrees.dispatch (h : s.Agrees pipes sends) {repr : Json → String} {now : ℚ} {exhausted stored : Bool}
    {t : DaemonTasks} (ht : s.tasks.step (.dispatch ⟨pipes.py repr, now, exhausted, stored⟩) = some t) :
    ∃ news, (s.setTasks t).Agrees pipes (sends ++ news) := by
  have hinv := h.tasks.of_step ht
  simp only [DaemonTasks.step] at ht
  split at ht
  · next text hreader =>
    split at ht
    · cases ht
    obtain rfl := Option.some.inj ht
    generalize henv : (⟨pipes.py repr, now, exhausted, stored⟩ : DispatchEnv) = env at *
    have hdone : dispatched { s with tasks := s.tasks.handleLine env text, read := s.read } = s.read :=
      dispatched_of_reader (handleLine_reader _ _ _)
    have hreads : ∀ text', (s.tasks.handleLine env text).reader = .holding text' →
        text' = "" ∨ 0 < s.read ∧ ∃ m, s.client.written[s.read - 1]? = some m ∧ text' = pipes.line m :=
      fun text' htext' => absurd htext' (handleLine_reader _ _ _ text')
    by_cases hempty : text = ""
    · subst hempty
      have hbefore : s.dispatched = s.read := by
        unfold dispatched
        rw [hreader]
        exact if_pos rfl
      refine ⟨_, h.grow s.read hinv (DaemonTasks.adds_end h.countable _) h.read hreads ?_⟩
      rw [hdone, ← hbefore]
      exact h.answers.unasked trivial
    · obtain ⟨m, cmd, rfl, hcmd, htake⟩ := h.next hreader hempty
      have hcommand := @isCommand_line pipes _ _ hcmd repr
      have hpy : env.py = pipes.py repr := henv ▸ rfl
      rw [← hpy] at hcommand
      obtain ⟨news, hadds, hnews⟩ := DaemonTasks.adds_command h.countable hcommand
      refine ⟨news, h.grow s.read hinv hadds h.read hreads ?_⟩
      have hanswers : Answers (sends ++ news) (s.client.commands.take s.read) := by
        rw [htake]
        rcases hnews with rfl | ⟨sent, rfl, hreplies⟩
        · rw [List.append_nil]
          exact .silent cmd h.answers
        · exact .reply h.answers hreplies
      rw [hdone]
      exact hanswers
  · cases ht

/-- The other steps of the daemon leave the reader where it is, or end it. -/
theorem reader_of_step {t t' : DaemonTasks} {l : TaskStep} (hs : t.step l = some t') (hline : ∀ text, l ≠ .line text)
    (hl : ∀ env, l ≠ .dispatch env) : t'.reader = t.reader ∨ t'.reader = .returned := by
  cases l with
  | line text => exact absurd rfl (hline text)
  | dispatch env => exact absurd rfl (hl env)
  | worker w =>
    simp only [DaemonTasks.step] at hs
    obtain ⟨e', -, rfl⟩ := Option.map_eq_some_iff.1 hs
    exact .inl rfl
  | abort =>
    simp only [DaemonTasks.step] at hs
    split at hs
    · cases hs
    · obtain rfl := Option.some.inj hs
      exact .inr rfl
  | begin | finish | idle | skip | wake =>
    simp only [DaemonTasks.step] at hs
    split at hs <;> first
      | (cases hs; done)
      | (obtain rfl := Option.some.inj hs
         exact .inl rfl)

theorem Agrees.task (h : s.Agrees pipes sends) {l : TaskStep} {t : DaemonTasks} (ht : s.tasks.step l = some t)
    (hline : ∀ text, l ≠ .line text) (hl : ∀ env, l ≠ .dispatch env) :
    ∃ news, (s.setTasks t).Agrees pipes (sends ++ news) := by
  have hinv := h.tasks.of_step ht
  obtain ⟨news, hadds, hunasked⟩ := DaemonTasks.adds_of_step h.tasks h.countable ht hl
  refine ⟨news, h.grow s.read hinv hadds h.read ?_ ?_⟩
  · intro text htext
    rcases reader_of_step ht hline hl with hsame | hreturned
    · exact h.held text (hsame ▸ htext)
    · rw [hreturned] at htext
      cases htext
  · have hall := h.answers.unaskeds hunasked
    rcases reader_of_step ht hline hl with hsame | hreturned
    · have hdispatched : dispatched { s with tasks := t, read := s.read } = s.dispatched := by
        unfold dispatched
        dsimp only
        rw [hsame]
      rw [hdispatched]
      exact hall
    · -- A command that was held is not answered.
      have hdone : dispatched { s with tasks := t, read := s.read } = s.read :=
        dispatched_of_reader fun text htext => by
          dsimp only at htext
          rw [hreturned] at htext
          cases htext
      rw [hdone]
      by_cases hheld : ∃ text, s.tasks.reader = .holding text ∧ text ≠ ""
      · obtain ⟨text, hreader, hne⟩ := hheld
        obtain ⟨m, cmd, -, -, htake⟩ := h.next hreader hne
        rw [htake]
        exact .silent cmd hall
      · have hbefore : s.dispatched = s.read := by
          unfold dispatched
          split
          · next text htext => exact if_pos (by_contra fun hne => hheld ⟨text, htext, hne⟩)
          · rfl
        rw [← hbefore]
        exact hall

/-! ## Runs -/

theorem Agrees.of_step (h : s.Agrees pipes sends) {l : ConversationStep} (hl : l.Lawful)
    (hs : s.step pipes l = some s') : ∃ news, s'.Agrees pipes (sends ++ news) := by
  have hsame : ∀ {s'' : Conversation}, s''.Agrees pipes sends → ∃ news, s''.Agrees pipes (sends ++ news) :=
    fun h => ⟨[], by rwa [List.append_nil]⟩
  cases l with
  | client e =>
    cases e with
    | feed chunk => cases hs
    | request body =>
      obtain rfl := Option.some.inj hs
      exact hsame (h.client nofun fun body' heq => ClientEvent.request.inj heq ▸ hl)
    | timeout | notifyClosed | dispose | listen | unlisten =>
      obtain rfl := Option.some.inj hs
      exact hsame (h.client nofun nofun)
  | chunk n =>
    obtain rfl := Option.some.inj hs
    exact hsame (h.chunk rfl)
  | line =>
    simp only [step] at hs
    split at hs
    · cases hs
    · next m hm =>
      obtain ⟨t, ht, rfl⟩ := Option.map_eq_some_iff.1 hs
      have hlt : s.read < s.client.commands.length :=
        h.speaks.written.length_eq ▸ (List.getElem?_eq_some_iff.1 hm).1
      exact hsame (h.holding ht hlt (.inr ⟨rfl, m, hm, rfl⟩))
  | endOfInput =>
    obtain ⟨t, ht, rfl⟩ := Option.map_eq_some_iff.1 hs
    exact hsame (h.holding ht h.read (.inl ⟨rfl, rfl⟩))
  | dispatch repr now exhausted stored =>
    obtain ⟨t, ht, rfl⟩ := Option.map_eq_some_iff.1 hs
    exact h.dispatch ht
  | task l =>
    cases l with
    | line | dispatch => cases hs
    | abort | begin | finish | idle | skip | wake | worker =>
      obtain ⟨t, ht, rfl⟩ := Option.map_eq_some_iff.1 hs
      exact h.task ht nofun nofun

theorem agrees_start {engine : MarketEngine} (hcount : engine.watchlist.Countable) (hello default : ℕ) :
    (start engine hello default).Agrees pipes [] where
  tasks := DaemonTasks.tasksInv_start engine
  countable := hcount
  written := rfl
  readable := fun _ hm => absurd hm List.not_mem_nil
  speaks := ⟨IpcClient.inv_new hello default, .nil, List.nodup_nil⟩
  read := le_rfl
  held := nofun
  answers := .nil
  got := Nat.zero_le _
  buffer := rfl
  heard := ⟨rfl, nofun, nofun, nofun⟩

/-- What the two sides make of each other. -/
structure Understood (pipes : Pipes) (s : Conversation) (sends : List CoreSend) : Prop where
  /-- The daemon writes messages that the host can read. -/
  written : s.tasks.written = sends.map CoreSend.encode
  /-- A command has at most one reply, and the replies come in the order of the commands. -/
  order : (sends.filterMap CoreSend.replyId).Sublist (s.client.commands.map Prod.snd)
  distinct : (s.client.commands.map Prod.snd).Nodup
  /-- The client receives what was sent, in order, as far as whole lines have come. -/
  received : s.client.received = (sends.take (s.handed pipes)).map CoreSend.read
  /-- A request is resolved by the reply to its own command. -/
  resolved : ∀ i m, (i, .resolved m) ∈ s.client.settlements → ∃ r id sent, s.client.requests[i]? = some r ∧
    r.requestId = some id ∧ sent ∈ sends ∧ sent.RepliesTo r.type id ∧ m = sent.read
  /-- A request that is rejected for a message was answered by that error. -/
  rejected : ∀ i code text rid, (i, .rejected (.protocol code text rid)) ∈ s.client.settlements →
    ∃ r id code', s.client.requests[i]? = some r ∧ r.requestId = some id ∧ rid = some id ∧ code = code'.value ∧
      CoreSend.error (some id) code' text ∈ sends
  /-- The handlers of errors hear only of replies that come after the client has given up. -/
  reports : ∀ h e, (h, Delivery.error e) ∈ s.client.delivered → s.client.Reported sends e

theorem Agrees.understood (h : s.Agrees pipes sends) : s.Understood pipes sends where
  written := h.written
  order := by
    have hids : ∀ cmd ∈ s.client.commands.take s.dispatched, cmd.2 ≠ "" :=
      fun cmd hcmd => h.nonempty cmd (List.mem_of_mem_take hcmd)
    exact (h.answers.sublist hids).trans ((List.take_sublist _ _).map _)
  distinct := h.speaks.distinct
  received := h.heard.received
  resolved := by
    intro i m hm
    obtain ⟨hreceived, r, id, hr, hid, hmid, htype⟩ := h.speaks.inv.resolved i m hm
    rw [h.heard.received] at hreceived
    obtain ⟨sent, hsent, rfl⟩ := List.mem_map.1 hreceived
    exact ⟨r, id, sent, hr, hid, List.mem_of_mem_take hsent, .inr ⟨htype, hmid⟩, rfl⟩
  rejected := by
    intro i code text rid hi
    obtain ⟨r, id, code', hr, hid, hrid, hcode, hsent⟩ := h.heard.rejected i code text rid hi
    exact ⟨r, id, code', hr, hid, hrid, hcode, List.mem_of_mem_take hsent⟩
  reports := by
    intro i e hi
    exact (h.heard.reports i e hi).grow ⟨List.prefix_refl _, fun _ hs => hs⟩ (List.take_subset _ _)

/-- **The conversation.** With finite numbers and requests that JSON can hold, in every interleaving of requests,
timeouts, lines, ticks and chunks, the client and the daemon understand each other. -/
theorem conversation_understood (pipes : Pipes) {engine : MarketEngine} (hcount : engine.watchlist.Countable)
    (hello default : ℕ) {steps : List ConversationStep} (hlawful : ∀ l ∈ steps, l.Lawful)
    (hrun : run (step pipes) (start engine hello default) steps = some s) :
    ∃ sends, s.Understood pipes sends := by
  have halong := Along.and_mem (@along_true _ _ (step pipes) steps (start engine hello default)) hlawful
  have hinv : ∃ sends, s.Agrees pipes sends :=
    run_inv_of (I := fun s : Conversation => ∃ sends, s.Agrees pipes sends)
      (fun _ _ _ ⟨_, h⟩ hl hs => (h.of_step hl.2 hs).imp' _ fun _ h => h) ⟨[], agrees_start hcount hello default⟩
      halong hrun
  obtain ⟨sends, h⟩ := hinv
  exact ⟨sends, h.understood⟩

/-- Floats are fractions, at both ends. -/
def fractionPipes : Pipes where
  out := fractionStdio true
  host := (fractionStdio true).dialect

/-- The client says hello twice, and gives the second one up before the reply comes, in two chunks. -/
def helloTalk : List ConversationStep :=
  [.client (.request ⟨.hello, []⟩), .client (.listen .error 7), .line, .client (.request ⟨.hello, []⟩),
    .dispatch (fun _ => "") 0 false true, .chunk 40, .client (.timeout 1), .line, .chunk 100,
    .dispatch (fun _ => "") 0 false true, .chunk 1000]

theorem conversation_understood_hello : ∃ s, run (step fractionPipes) (start {} 10000 5000) helloTalk = some s ∧
    s.client.settlements = [(1, .rejected (.timeout "r2" 10000)), (0, .resolved (.ready "r1" "0.7.0"))] ∧
    ∃ sends, s.Understood fractionPipes sends := by
  have hrun : (run (step fractionPipes) (start {} 10000 5000) helloTalk).map (fun s => s.client.settlements) =
      some [(1, .rejected (.timeout "r2" 10000)), (0, .resolved (.ready "r1" "0.7.0"))] := by
    decide +kernel
  obtain ⟨s, hs, hsettled⟩ := Option.map_eq_some_iff.1 hrun
  have hcount : ({} : MarketEngine).watchlist.Countable := ⟨by decide +kernel, by decide +kernel⟩
  have hlawful : ∀ l ∈ helloTalk, l.Lawful := by
    have hbody : HostCommandBody.Lawful ⟨.hello, []⟩ := ⟨by decide, fun _ hf => absurd hf List.not_mem_nil⟩
    intro l hl
    simp only [helloTalk, List.mem_cons, List.not_mem_nil, or_false] at hl
    rcases hl with rfl | rfl | rfl | rfl | rfl | rfl | rfl | rfl | rfl | rfl | rfl <;> first
      | exact hbody
      | exact trivial
  exact ⟨s, hs, hsettled, conversation_understood fractionPipes hcount 10000 5000 hlawful hs⟩

end Conversation

end MarketSentinel.Extension
