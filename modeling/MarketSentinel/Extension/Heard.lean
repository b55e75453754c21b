import MarketSentinel.Extension.ClientRuns
import MarketSentinel.Extension.Stream

/-!
# What a client makes of the replies

A client is handed messages of which each answers a command that it sent, at most one for a command, or was
not asked for.

* `Heard.next`: what it makes of one more message.
* `Heard.of_step`: what its other events keep.
* `Speaks.of_step`: the commands that it writes, one for each request of an open client.
-/

namespace MarketSentinel.Extension

open Lib Machine Lib.JsonText

/-- The client itself has given up, and no message was bad. -/
def ClientError.Local : ClientError → Prop
  | .protocol .. => False
  | .timeout .. | .disconnected .. => True

/-- A command and its id. -/
abbrev Command := HostCommandType × String

/-- A message is a command of the host. -/
structure IsCommand (m : Message) (cmd : Command) : Prop where
  proper : Proper (.obj m)
  version : Json.field m "protocol_version" = .int protocolVersion
  type : Json.field m "type" = .str cmd.1.value
  id : Json.field m "request_id" = .str cmd.2
  nonempty : cmd.2 ≠ ""

/-- The members of a body have other names than those that `request` adds, and are JSON. -/
structure HostCommandBody.Lawful (body : HostCommandBody) : Prop where
  keys : (["protocol_version", "request_id", "type"] ++ body.fields.map Prod.fst).Nodup
  proper : ∀ f ∈ body.fields, Proper f.2

namespace IpcClient

variable {c c' : IpcClient} {handed : List CoreSend} {sent : CoreSend} {id : String}

/-- The commands that were sent. -/
def commands (c : IpcClient) : List Command := c.requests.filterMap fun r => r.requestId.map fun id => (r.type, id)

/-- The request of an id was given up. -/
def GaveUp (c : IpcClient) (id : String) : Prop :=
  ∃ i r e, c.requests[i]? = some r ∧ r.requestId = some id ∧ (i, .rejected e) ∈ c.settlements ∧ e.Local

/-- An error that the handlers are told of: the reply to a request that was given up, or a shutdown that nobody
asked for. -/
def Reported (c : IpcClient) (handed : List CoreSend) (e : ClientError) : Prop :=
  ∃ sent ∈ handed,
    (∃ id, sent.read.requestId = some id ∧ c.GaveUp id ∧
      (e = .protocol "unknown_request_id" ("no pending request for " ++ id) (some id) ∨
        ∃ code text, sent = .error (some id) code text ∧ e = .protocol code.value text (some id))) ∨
    sent = .shutdownAck none ∧ e = .protocol "unknown_request_id" "no pending request for missing id" none

/-- The commands are written as they are requested, under ids of their own. -/
structure Speaks (c : IpcClient) : Prop where
  inv : c.Inv
  written : List.Forall₂ IsCommand c.written c.commands
  distinct : (c.commands.map Prod.snd).Nodup

/-- What a client has made of the messages that it was handed. -/
structure Heard (c : IpcClient) (handed : List CoreSend) : Prop where
  received : c.received = handed.map CoreSend.read
  /-- A request is pending, was answered or was given up. -/
  waiting : ∀ cmd ∈ c.commands, (∃ p, c.pending.get? cmd.2 = some p) ∨
    (∃ sent ∈ handed, sent.read.requestId = some cmd.2) ∨ c.GaveUp cmd.2
  /-- A request that is rejected for a message was answered by that error. -/
  rejected : ∀ i code text rid, (i, .rejected (.protocol code text rid)) ∈ c.settlements →
    ∃ r id code', c.requests[i]? = some r ∧ r.requestId = some id ∧ rid = some id ∧ code = code'.value ∧
      CoreSend.error (some id) code' text ∈ handed
  reports : ∀ h e, (h, Delivery.error e) ∈ c.delivered → c.Reported handed e

/-! ## Growing -/

/-- The requests and the settlements are kept. -/
structure Grows (c c' : IpcClient) : Prop where
  requests : c.requests <+: c'.requests
  settlements : c.settlements ⊆ c'.settlements

theorem Grows.getElem? (h : c.Grows c') {i : ℕ} {r : RequestRecord} (hr : c.requests[i]? = some r) :
    c'.requests[i]? = some r := by
  obtain ⟨more, hmore⟩ := h.requests
  rw [← hmore]
  exact getElem?_append_of_some hr _

theorem GaveUp.grow (hg : c.GaveUp id) (h : c.Grows c') : c'.GaveUp id := by
  obtain ⟨i, r, e, hr, hid, hs, he⟩ := hg
  exact ⟨i, r, e, h.getElem? hr, hid, h.settlements hs, he⟩

theorem Reported.grow {handed' : List CoreSend} {e : ClientError} (hr : c.Reported handed e) (h : c.Grows c')
    (hhanded : handed ⊆ handed') : c'.Reported handed' e := by
  obtain ⟨sent, hsent, ⟨id, hid, hgone, he⟩ | hdown⟩ := hr
  · exact ⟨sent, hhanded hsent, .inl ⟨id, hid, hgone.grow h, he⟩⟩
  · exact ⟨sent, hhanded hsent, .inr hdown⟩

theorem mem_commands {cmd : Command} : cmd ∈ c.commands ↔ ∃ r ∈ c.requests, r.requestId = some cmd.2 ∧
    r.type = cmd.1 := by
  unfold commands
  rw [List.mem_filterMap]
  constructor
  · rintro ⟨r, hr, heq⟩
    obtain ⟨id, hid, rfl⟩ := Option.map_eq_some_iff.1 heq
    exact ⟨r, hr, hid, rfl⟩
  · rintro ⟨r, hr, hid, htype⟩
    exact ⟨r, hr, by rw [hid, htype]; rfl⟩

/-- Two commands of one id are one. -/
theorem Speaks.type_eq (h : c.Speaks) {type type' : HostCommandType} (ht : (type, id) ∈ c.commands)
    (ht' : (type', id) ∈ c.commands) : type = type' :=
  congrArg Prod.fst (List.inj_on_of_nodup_map h.distinct ht ht' rfl)

theorem nonempty_of_forall₂ {ms : List Message} {cmds : List Command} (h : List.Forall₂ IsCommand ms cmds) :
    ∀ cmd ∈ cmds, cmd.2 ≠ "" := by
  induction h with
  | nil => exact fun _ hcmd => absurd hcmd List.not_mem_nil
  | cons hm _ ih => exact List.forall_mem_cons.2 ⟨hm.nonempty, ih⟩

/-- The command of a line. -/
theorem Speaks.getElem? (h : c.Speaks) {i : ℕ} {m : Message} (hm : c.written[i]? = some m) :
    ∃ cmd, c.commands[i]? = some cmd ∧ IsCommand m cmd := by
  obtain ⟨hi, rfl⟩ := List.getElem?_eq_some_iff.1 hm
  have hi' : i < c.commands.length := h.written.length_eq ▸ hi
  exact ⟨c.commands[i], List.getElem?_eq_getElem hi', h.written.get hi hi'⟩

/-! ## One more message -/

/-- The message answers a command that no other one has answered, or was not asked for. -/
def Answering (c : IpcClient) (handed : List CoreSend) (sent : CoreSend) : Prop :=
  sent.Unasked ∨ ∃ cmd ∈ c.commands, cmd.2 ≠ "" ∧ sent.RepliesTo cmd.1 cmd.2 ∧
    ∀ s ∈ handed, s.read.requestId ≠ some cmd.2

/-- `dispatchMessage` has noted the message. -/
def note (c : IpcClient) (m : CoreMessage) : IpcClient := { c with received := c.received ++ [m] }

/-- Handlers are called. -/
def call (c : IpcClient) (new : List (ℕ × Delivery)) : IpcClient := { c with delivered := c.delivered ++ new }

theorem Heard.call (h : c.Heard handed) {new : List (ℕ × Delivery)}
    (hnew : ∀ i e, (i, Delivery.error e) ∈ new → c.Reported (handed ++ [sent]) e) :
    (IpcClient.call (c.note sent.read) new).Heard (handed ++ [sent]) where
  received := by
    show c.received ++ [sent.read] = _
    rw [h.received, List.map_append]
    rfl
  waiting := by
    intro cmd hcmd
    rcases h.waiting cmd hcmd with hp | ⟨s, hs, hid⟩ | hgone
    · exact .inl hp
    · exact .inr (.inl ⟨s, List.mem_append_left _ hs, hid⟩)
    · exact .inr (.inr hgone)
  rejected := by
    intro i code text rid hi
    obtain ⟨r, id, code', hr, hid, hrid, hcode, hmem⟩ := h.rejected i code text rid hi
    exact ⟨r, id, code', hr, hid, hrid, hcode, List.mem_append_left _ hmem⟩
  reports := by
    intro i e hi
    rcases List.mem_append.1 hi with hi | hi
    · exact (h.reports i e hi).grow ⟨List.prefix_refl _, fun _ hs => hs⟩ (List.subset_append_left _ _)
    · exact hnew i e hi

theorem Heard.settle (h : c.Heard handed) (hinv : c.Inv) {p : PendingRequest} (hp : c.pending.get? id = some p)
    (hid : sent.read.requestId = some id) {s : Settlement} (hs : (∃ m, s = .resolved m) ∨
      ∃ code text, sent = .error (some id) code text ∧ s = .rejected (.protocol code.value text (some id))) :
    (IpcClient.settle ((c.note sent.read).clearPending id) p.promise s).Heard (handed ++ [sent]) := by
  have hclear : (c.note sent.read).clearPending id =
      { (c.note sent.read).clearTimeout p.timer with pending := c.pending.pop id } := by
    have hfound : (c.note sent.read).pending.get? id = some p := hp
    simp only [clearPending, hfound]
    rfl
  rw [hclear]
  have hgrows : c.Grows (IpcClient.settle { (c.note sent.read).clearTimeout p.timer with pending := c.pending.pop id }
      p.promise s) := ⟨List.prefix_refl _, fun _ hmem => List.mem_append_left _ hmem⟩
  refine ⟨?_, ?_, ?_, ?_⟩
  · show c.received ++ [sent.read] = _
    rw [h.received, List.map_append]
    rfl
  · intro cmd hcmd
    by_cases heq : cmd.2 = id
    · exact .inr (.inl ⟨sent, List.mem_append_right _ (List.mem_singleton_self _), heq ▸ hid⟩)
    · rcases h.waiting cmd hcmd with ⟨p', hp'⟩ | ⟨s', hs', hid'⟩ | hgone
      · exact .inl ⟨p', (Dict.get?_pop_ne _ heq).trans hp'⟩
      · exact .inr (.inl ⟨s', List.mem_append_left _ hs', hid'⟩)
      · exact .inr (.inr (hgone.grow hgrows))
  · intro i code text rid hi
    rcases List.mem_append.1 hi with hi | hi
    · obtain ⟨r, id', code', hr, hrest, hrid, hcode, hmem⟩ := h.rejected i code text rid hi
      exact ⟨r, id', code', hr, hrest, hrid, hcode, List.mem_append_left _ hmem⟩
    · -- The new settlement is that of the message.
      obtain ⟨-, ⟨r, hr, hrid, -⟩, -⟩ := hinv.pending id p hp
      obtain ⟨rfl, rfl⟩ := Prod.mk.inj (List.mem_singleton.1 hi)
      rcases hs with ⟨m, hm⟩ | ⟨code', text', hsent, hrej⟩
      · cases hm
      · obtain ⟨rfl, rfl, rfl⟩ := ClientError.protocol.inj (Settlement.rejected.inj hrej)
        exact ⟨r, id, code', hr, hrid, rfl, rfl, List.mem_append_right _ (hsent ▸ List.mem_singleton_self _)⟩
  · intro i e hi
    exact (h.reports i e hi).grow hgrows (List.subset_append_left _ _)

/-- What is reported of a message that no pending request waits for. -/
def unknownReport : CoreMessage → ClientError
  | .error requestId code text => .protocol code text requestId
  | m => .protocol "unknown_request_id" ("no pending request for " ++ m.requestId.getD "missing id") m.requestId

theorem dispatchResponse_unknown {m : CoreMessage}
    (h : (m.requestId.bind fun id => (c.pending.get? id).map fun pending => (id, pending)) = none) :
    c.dispatchResponse m = c.emitProtocolError (unknownReport m) := by
  unfold dispatchResponse
  rw [h]
  cases m <;> rfl

/-- A message with an id, but no alert. -/
theorem dispatchMessage_of_id {m : CoreMessage} (hid : m.requestId = some id) (halert : m.type ≠ .alert) :
    c.dispatchMessage m = (c.note m).dispatchResponse m := by
  cases m with
  | alert => exact absurd rfl halert
  | state id' payload =>
    obtain rfl : id' = some id := hid
    rfl
  | ready | ack | error | shutdownAck => rfl

/-- A response of the type that is expected resolves the request. -/
theorem dispatchResponse_resolved {m : CoreMessage} {p : PendingRequest} (hp : c.pending.get? id = some p)
    (hid : m.requestId = some id) (htype : m.type = p.expectedType) (herror : m.type ≠ .error) :
    c.dispatchResponse m = (c.clearPending id).settle p.promise (.resolved m) := by
  have hfound : (m.requestId.bind fun id => (c.pending.get? id).map fun pending => (id, pending)) = some (id, p) := by
    rw [hid, Option.bind_some, hp]
    rfl
  have hsame : ¬ m.type ≠ p.expectedType := not_not.2 htype
  unfold dispatchResponse
  rw [hfound]
  cases m with
  | error => exact absurd rfl herror
  | ready | ack | state | alert | shutdownAck => exact if_neg hsame

theorem expectedResponse_ne (type : HostCommandType) :
    expectedResponse type ≠ .alert ∧ expectedResponse type ≠ .error := by
  cases type <;> decide

theorem unknownReport_of_id {m : CoreMessage} (hid : m.requestId = some id) (herror : m.type ≠ .error) :
    unknownReport m = .protocol "unknown_request_id" ("no pending request for " ++ id) (some id) := by
  have hreport : unknownReport m = .protocol "unknown_request_id"
      ("no pending request for " ++ m.requestId.getD "missing id") m.requestId := by
    cases m with
    | error => exact absurd rfl herror
    | ready | ack | state | alert | shutdownAck => rfl
  rw [hreport, hid]
  rfl

theorem note_pending (c : IpcClient) (m : CoreMessage) : (c.note m).pending = c.pending := rfl

/-- **A reply** settles the request, or the request was given up. -/
theorem Heard.reply (hs : c.Speaks) (h : c.Heard handed) {type : HostCommandType} (hcmd : (type, id) ∈ c.commands)
    (hne : id ≠ "") (hreplies : sent.RepliesTo type id) (hfirst : ∀ s ∈ handed, s.read.requestId ≠ some id) :
    (c.dispatchMessage sent.read).Heard (handed ++ [sent]) := by
  have hfilter : (some id).filter (· ≠ "") = some id := filter_nonempty fun heq => hne (Option.some.inj heq)
  have hid : sent.read.requestId = some id := by
    rcases hreplies with ⟨code, text, rfl⟩ | ⟨-, hid⟩
    · exact hfilter
    · exact hid
  have halert : sent.read.type ≠ .alert := by
    rcases hreplies with ⟨code, text, rfl⟩ | ⟨htype, -⟩
    · nofun
    · rw [htype]
      exact (expectedResponse_ne type).1
  rw [dispatchMessage_of_id hid halert]
  cases hp : c.pending.get? id with
  | some p =>
    obtain ⟨-, ⟨r, hr, hrid, hexpected⟩, -⟩ := hs.inv.pending id p hp
    have htype : r.type = type :=
      hs.type_eq (mem_commands.2 ⟨r, List.mem_of_getElem? hr, hrid, rfl⟩) hcmd
    rcases hreplies with ⟨code, text, rfl⟩ | ⟨hresponse, -⟩
    · have hread : (CoreSend.error (some id) code text).read = .error (some id) code.value text := by
        show CoreMessage.error ((some id).filter (· ≠ "")) _ _ = _
        rw [hfilter]
      have hreject : (c.note (CoreSend.error (some id) code text).read).dispatchResponse
          (CoreSend.error (some id) code text).read =
          ((c.note (CoreSend.error (some id) code text).read).clearPending id).settle p.promise
            (.rejected (.protocol code.value text (some id))) := by
        have hfound : (c.note (CoreSend.error (some id) code text).read).pending.get? id = some p := hp
        conv_lhs => rw [hread]
        unfold dispatchResponse rejectPending
        simp only [CoreMessage.requestId, Option.bind_some, note_pending, hp, Option.map_some]
        rw [hread]
      rw [hreject]
      exact h.settle hs.inv hp hid (.inr ⟨code, text, rfl, rfl⟩)
    · rw [dispatchResponse_resolved (c := c.note sent.read) hp hid (by rw [hresponse, hexpected, htype])
        (by rw [hresponse]; exact (expectedResponse_ne type).2)]
      exact h.settle hs.inv hp hid (.inl ⟨_, rfl⟩)
  | none =>
    -- The request is no longer pending, and this is the first message with its id.
    have hgone : c.GaveUp id := by
      rcases h.waiting (type, id) hcmd with ⟨p, hp'⟩ | ⟨s, hs', hid'⟩ | hgone
      · rw [hp] at hp'
        cases hp'
      · exact absurd hid' (hfirst s hs')
      · exact hgone
    have hunknown : (sent.read.requestId.bind fun id =>
        ((c.note sent.read).pending.get? id).map fun pending => (id, pending)) = none := by
      rw [hid, Option.bind_some, note_pending, hp]
      rfl
    rw [dispatchResponse_unknown hunknown]
    refine h.call fun i e hi => ?_
    obtain ⟨_, -, heq⟩ := List.mem_map.1 hi
    obtain rfl := Delivery.error.inj (Prod.mk.inj heq).2
    refine ⟨sent, List.mem_append_right _ (List.mem_singleton_self _), .inl ⟨id, hid, hgone, ?_⟩⟩
    rcases hreplies with ⟨code, text, rfl⟩ | ⟨hresponse, -⟩
    · right
      refine ⟨code, text, rfl, ?_⟩
      show ClientError.protocol code.value text ((some id).filter (· ≠ "")) = _
      rw [hfilter]
    · left
      exact unknownReport_of_id hid (by rw [hresponse]; exact (expectedResponse_ne type).2)

/-- **One more message.** -/
theorem Heard.next (hs : c.Speaks) (h : c.Heard handed) (hsent : c.Answering handed sent) :
    (c.dispatchMessage sent.read).Heard (handed ++ [sent]) := by
  rcases hsent with hunasked | ⟨⟨type, id⟩, hcmd, hne, hreplies, hfirst⟩
  · -- States and alerts go to their handlers; a shutdown that nobody asked for is reported.
    have hhandled : ∀ (kind : HandlerKind) (d : Delivery), (∀ e, d ≠ .error e) →
        ((c.note sent.read).call ((c.handlers kind).map fun h => (h, d))).Heard (handed ++ [sent]) := by
      intro kind d hd
      refine h.call fun i e hi => ?_
      obtain ⟨_, -, heq⟩ := List.mem_map.1 hi
      exact absurd (Prod.mk.inj heq).2 (hd e)
    cases sent with
    | state id payload =>
      cases id with
      | none => exact hhandled .state _ nofun
      | some id => exact hunasked.elim
    | alert candidates marketTimestamp => exact hhandled .alert _ nofun
    | shutdownAck id =>
      cases id with
      | none =>
        refine @Heard.call _ _ (.shutdownAck none) h _ fun i e hi => ?_
        obtain ⟨_, -, heq⟩ := List.mem_map.1 hi
        obtain rfl := Delivery.error.inj (Prod.mk.inj heq).2
        exact ⟨.shutdownAck none, List.mem_append_right _ (List.mem_singleton_self _), .inr ⟨rfl, rfl⟩⟩
      | some id => exact hunasked.elim
    | ready | ack | error => exact hunasked.elim
  · exact h.reply hs hcmd hne hreplies hfirst

/-! ## The other events -/

/-- What `request` writes. -/
def payload (id : String) (body : HostCommandBody) : Message :=
  [("protocol_version", .int protocolVersion), ("request_id", .str id), ("type", .str body.type.value)] ++ body.fields

theorem isCommand_payload {body : HostCommandBody} (h : body.Lawful) (hid : id ≠ "") :
    IsCommand (payload id body) (body.type, id) where
  proper := by
    refine .obj ?_ ?_
    · unfold payload
      rw [List.map_append]
      exact h.keys
    · unfold payload
      refine List.forall_mem_append.2 ⟨?_, h.proper⟩
      simp only [List.forall_mem_cons]
      exact ⟨.int _, .str _, .str _, fun _ hf => absurd hf List.not_mem_nil⟩
  version := by simp [payload, Json.field]
  type := by simp [payload, Json.field, List.lookup_cons]
  id := by simp [payload, Json.field, List.lookup_cons]
  nonempty := hid

theorem defaultId_ne (n : ℕ) : defaultId n ≠ "" := by
  intro h
  have hlength := congrArg String.length h
  unfold defaultId at hlength
  rw [String.length_append] at hlength
  have hone : "r".length = 1 := rfl
  have hzero : "".length = 0 := rfl
  omega

theorem Speaks.of_same (h : c.Speaks) (hinv : c'.Inv) (hwritten : c'.written = c.written)
    (hrequests : c'.requests = c.requests) : c'.Speaks := by
  have hcommands : c'.commands = c.commands := by
    unfold commands
    rw [hrequests]
  exact ⟨hinv, by rw [hwritten, hcommands]; exact h.written, by rw [hcommands]; exact h.distinct⟩

theorem Speaks.request (h : c.Speaks) {body : HostCommandBody} (hbody : body.Lawful) : (c.request body).Speaks := by
  have hinv := h.inv.request body
  cases hclosed : c.closed with
  | true =>
    rw [request_of_closed hclosed] at hinv ⊢
    have hcommands : (IpcClient.settle { c with requests := c.requests ++ [⟨body.type, none⟩] } c.requests.length
        (.rejected (.disconnected "ipc disconnected"))).commands = c.commands := by
      show (c.requests ++ [_]).filterMap _ = _
      rw [List.filterMap_append]
      exact List.append_nil _
    exact ⟨hinv, by rw [hcommands]; exact h.written, by rw [hcommands]; exact h.distinct⟩
  | false =>
    have hcommands : (c.request body).commands = c.commands ++ [(body.type, defaultId (c.seq + 1))] := by
      unfold IpcClient.request
      rw [if_neg (by rw [hclosed]; decide)]
      show (c.requests ++ [_]).filterMap _ = _
      rw [List.filterMap_append]
      rfl
    have hwritten : (c.request body).written = c.written ++ [payload (defaultId (c.seq + 1)) body] := by
      unfold IpcClient.request
      rw [if_neg (by rw [hclosed]; decide)]
      rfl
    refine ⟨hinv, ?_, ?_⟩
    · rw [hcommands, hwritten]
      exact List.rel_append h.written (.cons (isCommand_payload hbody (defaultId_ne _)) .nil)
    · rw [hcommands, List.map_append, List.nodup_append]
      refine ⟨h.distinct, List.nodup_singleton _, fun a ha b hb hab => ?_⟩
      obtain rfl : b = defaultId (c.seq + 1) := List.mem_singleton.1 hb
      obtain ⟨cmd, hcmd, rfl⟩ := List.mem_map.1 ha
      obtain ⟨r, hr, hid, -⟩ := mem_commands.1 hcmd
      exact h.inv.next_unused hr (hab ▸ hid)

theorem foldl_rejectItem_written (e : ClientError) (items : List PendingRequest) (c : IpcClient) :
    (items.foldl (rejectItem e) c).written = c.written ∧ (items.foldl (rejectItem e) c).delivered = c.delivered := by
  induction items generalizing c with
  | nil => exact ⟨rfl, rfl⟩
  | cons item items ih => exact ih (rejectItem e c item)

/-- **What is written**: a command for each request of an open client. -/
theorem Speaks.of_step (h : c.Speaks) (parse : String → Option Json) {e : ClientEvent}
    (hfeed : ∀ chunk, e ≠ .feed chunk) (hlawful : ∀ body, e = .request body → body.Lawful) :
    (c.step parse e).Speaks := by
  have hinv := h.inv.of_step parse e
  have hclosed : ∀ reason, (c.rejectAll reason).written = c.written ∧ (c.rejectAll reason).requests = c.requests :=
    fun reason => ⟨(foldl_rejectItem_written reason c.pending.values _).1,
      (foldl_rejectItem reason c.pending.values _).2.2.2.1⟩
  cases e with
  | request body => exact h.request (hlawful body rfl)
  | feed chunk => exact absurd rfl (hfeed chunk)
  | timeout timer =>
    refine h.of_same hinv ?_ ?_
    · show (c.onTimeout timer).written = _
      unfold onTimeout
      split <;> rfl
    · show (c.onTimeout timer).requests = _
      unfold onTimeout
      split <;> rfl
  | notifyClosed reason => exact h.of_same hinv (hclosed _).1 (hclosed _).2
  | dispose => exact h.of_same hinv (hclosed _).1 (hclosed _).2
  | listen kind handler => exact h.of_same hinv rfl rfl
  | unlisten kind handler => exact h.of_same hinv rfl rfl

theorem clearPending_written (c : IpcClient) (id : String) : (c.clearPending id).written = c.written := by
  unfold clearPending
  split <;> rfl

theorem rejectPending_written (c : IpcClient) (id : String) (error : ClientError) :
    (c.rejectPending id error).written = c.written := by
  unfold rejectPending
  split
  · rfl
  · exact clearPending_written c id

theorem dispatchMessage_written (c : IpcClient) (m : CoreMessage) : (c.dispatchMessage m).written = c.written := by
  have hresponse : ∀ c : IpcClient, (c.dispatchResponse m).written = c.written := by
    intro c
    unfold dispatchResponse
    split
    · split
      · exact rejectPending_written ..
      · split
        · exact rejectPending_written ..
        · exact clearPending_written ..
    · split <;> rfl
  unfold dispatchMessage
  dsimp only
  split
  · rfl
  · rfl
  · exact hresponse _

theorem Speaks.dispatchMessage (h : c.Speaks) (m : CoreMessage) : (c.dispatchMessage m).Speaks := by
  rcases c.dispatchMessage_cases m with hq | ⟨id, p, s, -, hs⟩
  · exact h.of_same (h.inv.of_quiet hq) (c.dispatchMessage_written m) hq.requests
  · exact h.of_same (h.inv.of_settles hs) (c.dispatchMessage_written m) hs.requests

/-! ### What is known of the replies -/

theorem Heard.of_grow (h : c.Heard handed) (hgrows : c.Grows c') (hreceived : c'.received = c.received)
    (hdelivered : c'.delivered = c.delivered)
    (hwaiting : ∀ cmd ∈ c'.commands, (∃ p, c'.pending.get? cmd.2 = some p) ∨
      (∃ sent ∈ handed, sent.read.requestId = some cmd.2) ∨ c'.GaveUp cmd.2)
    (hrejected : ∀ i code text rid, (i, .rejected (.protocol code text rid)) ∈ c'.settlements →
      (i, .rejected (.protocol code text rid)) ∈ c.settlements) : c'.Heard handed where
  received := hreceived.trans h.received
  waiting := hwaiting
  rejected := by
    intro i code text rid hi
    obtain ⟨r, id, code', hr, hrest⟩ := h.rejected i code text rid (hrejected _ _ _ _ hi)
    exact ⟨r, id, code', hgrows.getElem? hr, hrest⟩
  reports := by
    intro i e hi
    rw [hdelivered] at hi
    exact (h.reports i e hi).grow hgrows (fun _ hs => hs)

theorem Heard.request (h : c.Heard handed) (body : HostCommandBody) : (c.request body).Heard handed := by
  cases hclosed : c.closed with
  | true =>
    rw [request_of_closed hclosed]
    have hgrows : c.Grows (IpcClient.settle { c with requests := c.requests ++ [⟨body.type, none⟩] }
        c.requests.length (.rejected (.disconnected "ipc disconnected"))) :=
      ⟨List.prefix_append .., List.subset_append_left _ _⟩
    refine h.of_grow hgrows rfl rfl (fun cmd hcmd => ?_) fun i code text rid hi => ?_
    · obtain ⟨r, hr, hid, htype⟩ := mem_commands.1 hcmd
      rcases List.mem_append.1 hr with hr | hr
      · rcases h.waiting cmd (mem_commands.2 ⟨r, hr, hid, htype⟩) with hp | hs | hgone
        · exact .inl hp
        · exact .inr (.inl hs)
        · exact .inr (.inr (hgone.grow hgrows))
      · obtain rfl := List.mem_singleton.1 hr
        cases hid
    · rcases List.mem_append.1 hi with hi | hi
      · exact hi
      · cases List.mem_singleton.1 hi
  | false =>
    obtain ⟨written, heq⟩ := request_of_open hclosed body
    rw [heq]
    have hgrows : c.Grows (c.request body) := by
      rw [heq]
      exact ⟨List.prefix_append .., fun _ hs => hs⟩
    rw [heq] at hgrows
    refine h.of_grow hgrows rfl rfl (fun cmd hcmd => ?_) fun i code text rid hi => hi
    obtain ⟨r, hr, hid, htype⟩ := mem_commands.1 hcmd
    by_cases hnew : cmd.2 = defaultId (c.seq + 1)
    · exact .inl ⟨_, by rw [hnew]; exact Dict.get?_set_self _ _ _⟩
    · rcases List.mem_append.1 hr with hr | hr
      · rcases h.waiting cmd (mem_commands.2 ⟨r, hr, hid, htype⟩) with ⟨p, hp⟩ | hs | hgone
        · exact .inl ⟨p, (Dict.get?_set_ne _ hnew _).trans hp⟩
        · exact .inr (.inl hs)
        · exact .inr (.inr (hgone.grow hgrows))
      · obtain rfl := List.mem_singleton.1 hr
        exact absurd (Option.some.inj hid).symm hnew

theorem Heard.timeout (h : c.Heard handed) (hs : c.Speaks) (timer : ℕ) : (c.onTimeout timer).Heard handed := by
  unfold onTimeout
  cases ht : c.timers.get? timer with
  | none => exact h
  | some t =>
    obtain ⟨-, p, hp, -, hpromise⟩ := hs.inv.timers timer t ht
    obtain ⟨-, ⟨r, hr, hid, -⟩, -⟩ := hs.inv.pending t.requestId p hp
    have hgrows : c.Grows (IpcClient.settle
        { c with timers := c.timers.pop timer, pending := c.pending.pop t.requestId }
        t.promise (.rejected (.timeout t.requestId t.timeoutMs))) :=
      ⟨List.prefix_refl _, List.subset_append_left _ _⟩
    refine h.of_grow hgrows rfl rfl (fun cmd hcmd => ?_) fun i code text rid hi => ?_
    · by_cases heq : cmd.2 = t.requestId
      · refine .inr (.inr ⟨t.promise, r, .timeout t.requestId t.timeoutMs, hpromise ▸ hr, heq ▸ hid, ?_, trivial⟩)
        exact List.mem_append_right _ (List.mem_singleton_self _)
      · rcases h.waiting cmd hcmd with ⟨p', hp'⟩ | hs' | hgone
        · exact .inl ⟨p', (Dict.get?_pop_ne _ heq).trans hp'⟩
        · exact .inr (.inl hs')
        · exact .inr (.inr (hgone.grow hgrows))
    · rcases List.mem_append.1 hi with hi | hi
      · exact hi
      · cases List.mem_singleton.1 hi

/-- The client is closed, and what was pending is given up. -/
theorem Heard.close (h : c.Heard handed) (hs : c.Speaks) (reason : String) (handlers : HandlerKind → List ℕ) :
    Heard { c.rejectAll (.disconnected reason) with closed := true, handlers := handlers } handed := by
  obtain ⟨hpending, -, hsettlements, hrequests, -, hreceived⟩ := rejectAll_spec hs.inv (.disconnected reason)
  have hgrows : c.Grows { c.rejectAll (.disconnected reason) with closed := true, handlers := handlers } :=
    ⟨by rw [hrequests], by rw [hsettlements]; exact List.subset_append_left _ _⟩
  refine h.of_grow hgrows hreceived (foldl_rejectItem_written _ c.pending.values _).2 (fun cmd hcmd => ?_)
    fun i code text rid hi => ?_
  · have hcmd' : cmd ∈ c.commands := by
      unfold commands at hcmd ⊢
      rwa [hrequests] at hcmd
    rcases h.waiting cmd hcmd' with ⟨p, hp⟩ | hs' | hgone
    · obtain ⟨-, ⟨r, hr, hid, -⟩, -⟩ := hs.inv.pending cmd.2 p hp
      have hwaits : p.promise ∈ c.waiting := mem_waiting.2 ⟨_, p, hp, rfl⟩
      refine .inr (.inr ⟨p.promise, r, .disconnected reason, hgrows.getElem? hr, hid, ?_, trivial⟩)
      show _ ∈ (c.rejectAll _).settlements
      rw [hsettlements]
      exact List.mem_append_right _ (List.mem_map_of_mem hwaits)
    · exact .inr (.inl hs')
    · exact .inr (.inr (hgone.grow hgrows))
  · have hi : _ ∈ (c.rejectAll (.disconnected reason)).settlements := hi
    rw [hsettlements] at hi
    rcases List.mem_append.1 hi with hi | hi
    · exact hi
    · obtain ⟨j, -, heq⟩ := List.mem_map.1 hi
      cases heq

/-- **The other events** of a client. -/
theorem Heard.of_step (h : c.Heard handed) (hs : c.Speaks) (parse : String → Option Json) {e : ClientEvent}
    (hfeed : ∀ chunk, e ≠ .feed chunk) : (c.step parse e).Heard handed := by
  cases e with
  | request body => exact h.request body
  | feed chunk => exact absurd rfl (hfeed chunk)
  | timeout timer => exact h.timeout hs timer
  | notifyClosed reason => exact h.close hs reason _
  | dispose => exact h.close hs "client disposed" _
  | listen kind handler =>
    exact h.of_grow ⟨List.prefix_refl _, fun _ hs => hs⟩ rfl rfl h.waiting fun _ _ _ _ hi => hi
  | unlisten kind handler =>
    exact h.of_grow ⟨List.prefix_refl _, fun _ hs => hs⟩ rfl rfl h.waiting fun _ _ _ _ hi => hi

end IpcClient

end MarketSentinel.Extension
