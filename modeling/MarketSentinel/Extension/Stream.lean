import MarketSentinel.Extension.Chunks
import MarketSentinel.Extension.Replies
import MarketSentinel.Lib.JsonChars

/-!
# From the daemon's writer to the client

`ProtocolWriter.send` of `ipc/writer.py` writes a message as a line of JSON, in ASCII; the bytes reach
`IpcClient.feed` in chunks of any sizes. The numbers of a message are finite: a float that has overflowed would be
written as `Infinity`, which `JSON.parse` refuses.

* `proper_encode`: the messages are JSON objects without a member twice.
* `pushes_output`: the lines of the chunks are the texts of the first messages.
* `stream_delivered`: the client does what it does when it is handed the messages.
-/

namespace MarketSentinel

open Lib Machine Extension Lib.JsonText TelemetryEvent

/-! ## The messages -/

/-- Members of some keys at most, in that order. -/
structure Members (keys : List String) (fields : Message) : Prop where
  sublist : (fields.map Prod.fst).Sublist keys
  proper : ∀ f ∈ fields, Proper f.2

namespace Members

variable {keys keys' : List String} {fields fields' : Message}

/-- Members after members. -/
theorem append (h : Members keys fields) (h' : Members keys' fields') :
    Members (keys ++ keys') (fields ++ fields') where
  sublist := by
    rw [List.map_append]
    exact h.sublist.append h'.sublist
  proper := List.forall_mem_append.2 ⟨h.proper, h'.proper⟩

theorem nil : Members [] [] := ⟨List.Sublist.refl _, fun _ h => absurd h List.not_mem_nil⟩

/-- One member more. -/
theorem cons (key : String) {v : Json} (hv : Proper v) (h : Members keys fields) :
    Members (key :: keys) ((key, v) :: fields) where
  sublist := h.sublist.cons_cons key
  proper := List.forall_mem_cons.2 ⟨hv, h.proper⟩

/-- An optional member, there or not. -/
theorem member {A : Type} (key : String) {encode : A → Json} (hencode : ∀ x, Proper (encode x)) (v : Option A) :
    Members [key] (MarketSentinel.member key encode v) := by
  cases v with
  | none => exact ⟨List.nil_sublist _, fun _ h => absurd h List.not_mem_nil⟩
  | some x => exact cons key (hencode x) nil

/-- A flag, there or not. -/
theorem flag (key : String) (b : Bool) : Members [key] (MarketSentinel.flag key b) := by
  cases b with
  | false => exact ⟨List.nil_sublist _, fun _ h => absurd h List.not_mem_nil⟩
  | true => exact cons key (.bool true) nil

/-- Members of different keys make an object. -/
theorem obj (h : Members keys fields) (hkeys : keys.Nodup) : Proper (.obj fields) :=
  .obj (hkeys.sublist h.sublist) h.proper

end Members

theorem proper_numberField (q : Option ℚ) : Proper (numberField q) := by
  cases q with
  | none => exact .null
  | some q => exact .float q

/-- A list of proper values. -/
theorem proper_items {A : Type} {encode : A → Json} (hencode : ∀ x, Proper (encode x)) (xs : List A) :
    Proper (.list (xs.map encode)) := by
  refine .list fun v hv => ?_
  obtain ⟨x, -, rfl⟩ := List.mem_map.1 hv
  exact hencode x

theorem proper_intelligence (i : WireIntelligence) : Proper i.toWire := by
  have hmembers := (((((Members.nil.cons "status" (.str i.status)).append
    (.member "summary" .str i.summary)).append (.member "reason" .str i.reason)).append
    (.member "confidence" .float i.confidence)).append (.member "fallback_reason" .str i.fallbackReason)).append
    (.member "worth_highlight" .bool i.worthHighlight)
  exact hmembers.obj (by decide)

/-- A signal on the wire. -/
theorem proper_signal (s : WireSignal) : Proper s.toWire := by
  have hfixed := (((((Members.nil.cons "summary" (.str s.summary)).cons "title" (.str s.title)).cons
    "priority" (.str s.priority)).cons "direction" (.str s.direction)).cons "family" (.str s.family)).cons
    "id" (.str s.id)
  exact (hfixed.append (.member "intelligence" proper_intelligence s.intelligence)).obj (by decide)

/-- The state of a symbol on the wire. -/
theorem proper_symbolState (s : WireSymbolState) : Proper s.toWire := by
  have hfixed := (((((((((((((Members.nil.cons "active_signals" (proper_items proper_signal s.activeSignals)).cons
    "vwap" (proper_numberField s.vwap)).cons "rsi14" (proper_numberField s.rsi14)).cons
    "ema20" (proper_numberField s.ema20)).cons "ema5" (proper_numberField s.ema5)).cons
    "volume_ratio_5m" (proper_numberField s.volumeRatio5m)).cons
    "volume_ratio_1m" (proper_numberField s.volumeRatio1m)).cons
    "change_15m" (proper_numberField s.change15m)).cons "change_5m" (proper_numberField s.change5m)).cons
    "change_1m" (proper_numberField s.change1m)).cons "feed_status" (.str s.feedStatus)).cons
    "scheduler_level" (.str s.schedulerLevel)).cons "price" (proper_numberField s.price)).cons
    "symbol" (.str s.symbol)
  have hmembers := ((((((hfixed.append (.member "change_day" .float s.changeDay)).append
    (.member "above_vwap" .bool s.aboveVwap)).append
    (.member "session_high_obs" .float s.sessionHighObs)).append
    (.member "session_low_obs" .float s.sessionLowObs)).append
    (.member "session_high_ref" .float s.sessionHighRef)).append
    (.member "session_low_ref" .float s.sessionLowRef)).append
    (.member "market_timestamp" .float s.marketTimestamp)
  exact hmembers.obj (by decide)

/-- A state on the wire. -/
theorem proper_marketState (s : WireMarketState) : Proper s.toWire := by
  have hfixed := ((Members.nil.cons "symbols" (proper_items proper_symbolState s.symbols)).cons
    "feed_status" (.str s.feedStatus)).cons "watchlist_count" (.int s.watchlistCount)
  have hmembers := ((hfixed.append (.flag "intelligence_enabled" s.intelligenceEnabled)).append
    (.flag "replay_complete" s.replayComplete)).append
    (.member "last_market_timestamp" .float s.lastMarketTimestamp)
  exact hmembers.obj (by decide)

theorem proper_candidate (c : WireAlertCandidate) : Proper c.toWire :=
  Members.obj ((((((((Members.nil.cons "summary" (.str c.summary)).cons "title" (.str c.title)).cons
    "priority" (.str c.priority)).cons "direction" (.str c.direction)).cons "family" (.str c.family)).cons
    "symbol" (.str c.symbol)).cons "id" (.str c.id))) (by decide)

/-- A message, with its envelope. -/
theorem proper_message {keys : List String} {fields : Message} (t : String) (id : Option String)
    (h : Members keys fields) (hkeys : (["protocol_version", "type", "request_id"] ++ keys).Nodup) :
    Proper (.obj (encodeMessage t id fields)) := by
  have hid : Members ["request_id"] (id.toList.map fun r => ("request_id", Json.str r)) := by
    cases id with
    | none => exact ⟨List.nil_sublist _, fun _ h => absurd h List.not_mem_nil⟩
    | some r => exact Members.nil.cons "request_id" (.str r)
  have hhead := (Members.nil.cons "type" (.str t)).cons "protocol_version" (.int protocolVersion)
  exact ((hhead.append hid).append h).obj hkeys

/-- **A message of the daemon** is an object that JSON can hold. -/
theorem Extension.CoreSend.proper_encode (sent : CoreSend) : Proper (.obj sent.encode) := by
  cases sent with
  | ready id => exact proper_message _ _ (Members.nil.cons "core_version" (.str coreVersion)) (by decide)
  | ack id count =>
    have hcount := @Members.member ℕ "watchlist_count" (fun n => .int n) (fun n => .int n) count
    exact proper_message _ _ hcount (by decide)
  | error id code message =>
    have hfields := (Members.nil.cons "message" (.str message)).cons "code" (.str code.value)
    exact proper_message _ _ hfields (by decide)
  | state id payload =>
    exact proper_message _ _ (Members.nil.cons "state" (proper_marketState payload)) (by decide)
  | alert candidates marketTimestamp =>
    exact proper_message _ _ ((Members.nil.cons "market_timestamp" (proper_numberField marketTimestamp)).cons
      "candidates" (proper_items proper_candidate candidates)) (by decide)
  | shutdownAck id => exact proper_message _ _ .nil (by decide)

namespace Extension

/-! ## The stream -/

/-- The runtimes at the two ends of the pipe. -/
structure Stdio where
  dialect : Dialect
  /-- `ensure_ascii`. -/
  ascii : ∀ c, dialect.plain c = true → c.toNat < 0x80
  /-- The text layer writes a newline as two characters. -/
  crlf : Bool

namespace Stdio

variable (io : Stdio)

/-- `json.dumps`. -/
def dumps (m : Message) : List Char := write io.dialect (.obj m)

/-- `JSON.parse`. -/
def parse (text : String) : Option Json := JsonText.parse io.dialect text.toList

/-- A message as it comes out of the text layer, without the newline. -/
def line (m : Message) : List Char := io.dumps m ++ if io.crlf then ['\r'] else []

/-- What `send` has written. -/
def output (ms : List Message) : String := String.ofList (Lines.join '\n' (ms.map io.line))

variable {io} {m : Message} {ms : List Message}

/-- A message is written in ASCII. -/
theorem ascii_dumps (h : Proper (.obj m)) : ∀ c ∈ io.dumps m, c.toNat < 0x80 := by
  intro c hc
  rcases mem_write h c hc with hplain | hprintable
  · exact io.ascii c hplain
  · exact Nat.lt_trans hprintable.2 (by decide)

/-- So is the output. -/
theorem ascii_output (io : Stdio) (h : ∀ m ∈ ms, Proper (.obj m)) : ∀ c ∈ (io.output ms).toList, c.toNat < 0x80 := by
  intro c hc
  unfold output at hc
  rw [String.toList_ofList] at hc
  obtain ⟨text, htext, hc⟩ := List.mem_flatMap.1 hc
  obtain ⟨m, hm, rfl⟩ := List.mem_map.1 htext
  unfold line at hc
  rcases List.mem_append.1 hc with hc | hc
  · rcases List.mem_append.1 hc with hc | hc
    · exact ascii_dumps (h m hm) c hc
    · split at hc
      · obtain rfl := List.mem_singleton.1 hc
        decide
      · exact absurd hc List.not_mem_nil
  · obtain rfl := List.mem_singleton.1 hc
    decide

/-- A message is one line. -/
theorem notMem_line (h : Proper (.obj m)) : '\n' ∉ io.line m := by
  unfold line
  rw [List.mem_append, not_or]
  refine ⟨notMem_write h (by decide), ?_⟩
  split <;> decide

theorem notMem_lines (io : Stdio) (h : ∀ m ∈ ms, Proper (.obj m)) : ∀ line ∈ ms.map io.line, '\n' ∉ line := by
  intro line hline
  obtain ⟨m, hm, rfl⟩ := List.mem_map.1 hline
  exact notMem_line (h m hm)

/-- The output is the lines of the messages. -/
theorem toList_output : (io.output ms).toList = Lines.join '\n' (ms.map io.line) := String.toList_ofList

/-- The line of a message is its text, and is emitted. -/
theorem emitted_line (h : Proper (.obj m)) : JsonlDecoder.emitted (io.line m) = [io.dumps m] := by
  have hbegins : ∃ cs, io.dumps m = '\x7b' :: cs := by
    unfold dumps
    cases m with
    | nil => exact ⟨_, rfl⟩
    | cons f fields => exact ⟨_, rfl⟩
  have hline : withoutReturn (io.line m) = io.dumps m := by
    have hnone : '\r' ∉ io.dumps m := notMem_write h (by decide)
    unfold line
    cases io.crlf with
    | true =>
      rw [if_pos rfl]
      unfold withoutReturn
      rw [List.getLast?_concat, if_pos rfl, List.dropLast_concat]
    | false =>
      rw [if_neg Bool.false_ne_true, List.append_nil]
      unfold withoutReturn
      exact if_neg fun hlast => hnone (List.mem_of_getLast? hlast)
  have hshown : (io.dumps m).all isJsSpace = false := by
    obtain ⟨cs, hcs⟩ := hbegins
    rw [hcs, List.all_cons, show isJsSpace '\x7b' = false by decide, Bool.false_and]
  unfold JsonlDecoder.emitted
  rw [hline, hshown]
  rfl

/-- A line is parsed to its message. -/
theorem parse_dumps (h : Proper (.obj m)) : io.parse (String.ofList (io.dumps m)) = some (.obj m) := by
  unfold parse
  rw [String.toList_ofList]
  exact parse_write h

end Stdio

/-! ## The bytes -/

/-- The byte of an ASCII character. -/
def asciiByte (c : Char) : UInt8 := UInt8.ofNat c.toNat

/-- Every ASCII character is one byte. -/
theorem encode_ascii {cs : List Char} (h : ∀ c ∈ cs, c.toNat < 0x80) :
    cs.flatMap String.utf8EncodeChar = cs.map asciiByte := by
  induction cs with
  | nil => rfl
  | cons c cs ih =>
    rw [List.forall_mem_cons] at h
    have hone : String.utf8EncodeChar c = [asciiByte c] := by
      have hle : c.val.toNat ≤ 0x7f := Nat.le_of_lt_succ h.1
      unfold String.utf8EncodeChar
      dsimp only
      rw [if_pos hle]
      rfl
    rw [List.flatMap_cons, hone, ih h.2]
    rfl

/-- So line ends can be counted in the bytes. -/
theorem count_ascii {cs : List Char} (h : ∀ c ∈ cs, c.toNat < 0x80) :
    (cs.map asciiByte).count 10 = cs.count '\n' := by
  rw [List.count_eq_countP, List.count_eq_countP, List.countP_map]
  refine List.countP_congr fun c hc => ?_
  have hlt := h c hc
  have hbyte : (asciiByte c).toNat = c.toNat := by
    unfold asciiByte
    rw [UInt8.toNat_ofNat']
    omega
  simp only [Function.comp_apply, beq_iff_eq]
  constructor
  · intro heq
    have hnat := congrArg UInt8.toNat heq
    rw [hbyte] at hnat
    exact Char.toNat_inj.1 hnat
  · rintro rfl
    rfl

/-- **Chunks of ASCII** are decoded one by one as they are together. -/
theorem lossy_chunks {cs : List Char} (h : ∀ c ∈ cs, c.toNat < 0x80) {chunks : List (List UInt8)}
    (hchunks : chunks.flatten = cs.map asciiByte) : chunks.flatMap Utf8.lossy = cs := by
  induction chunks generalizing cs with
  | nil => exact (List.map_eq_nil_iff.1 hchunks.symm).symm
  | cons chunk chunks ih =>
    obtain ⟨front, back, rfl, hfront, hback⟩ := List.map_eq_append_iff.1 hchunks.symm
    rw [List.forall_mem_append] at h
    have hread := Utf8.lossy_flatMap_append front []
    rw [List.append_nil, encode_ascii h.1, hfront] at hread
    rw [List.flatMap_cons, hread, ih h.2 hback.symm]
    exact congrArg (· ++ back) (List.append_nil front)

/-! ## The client -/

namespace JsonlDecoder

/-- The part of a line that is left, and what follows. -/
theorem rest_append (text more : List Char) : rest (rest text ++ more) = rest (text ++ more) := by
  obtain ⟨lines, part, rfl, hpart, hlines⟩ := Lines.exists_join '\n' text
  have hne : (part ++ more).splitOn '\n' ≠ [] := List.splitOnP_ne_nil _ _
  unfold rest
  rw [List.append_assoc, Lines.splitOn_join_append hlines, Lines.splitOn_join_append hlines,
    Lines.splitOn_of_notMem hpart, List.getLast?_concat, Option.getD_some, List.getLast?_append_of_ne_nil _ hne]

/-- A chunk completes lines, and leaves the rest in the buffer. -/
theorem pushBuffer_eq (buffer : List Char) (chunk : List UInt8) : pushBuffer buffer chunk =
    ((linesOf (buffer ++ Utf8.lossy chunk)).map String.ofList, rest (buffer ++ Utf8.lossy chunk)) := by
  unfold pushBuffer
  rw [push_eq, String.toList_ofList]
  rfl

/-- The last buffer of some chunks. -/
theorem pushes_buffer {buffer : List Char} (h : '\n' ∉ buffer) (chunks : List (List UInt8)) :
    (pushes buffer chunks).2 = rest (buffer ++ chunks.flatMap Utf8.lossy) := by
  induction chunks generalizing buffer with
  | nil =>
    unfold rest
    rw [List.flatMap_nil, List.append_nil, Lines.splitOn_of_notMem h]
    rfl
  | cons chunk chunks ih =>
    unfold pushes
    dsimp only
    rw [pushBuffer_eq, ih (notMem_rest _), rest_append, List.flatMap_cons, List.append_assoc]

end JsonlDecoder

namespace IpcClient

variable {c : IpcClient} {parse : String → Option Json}

/-- The client with another buffer. -/
def setBuffer (c : IpcClient) (buffer : List Char) : IpcClient := { c with buffer := buffer }

/-- `feed` of a `Buffer`. -/
def feedBuffer (parse : String → Option Json) (c : IpcClient) (chunk : List UInt8) : IpcClient :=
  c.feed parse (String.ofList (Utf8.lossy chunk))

/-- `JSON.parse` gave the message. -/
def handLine (c : IpcClient) (m : Message) : IpcClient := c.dispatchLine (some (.obj m))

theorem clearPending_setBuffer (c : IpcClient) (buffer : List Char) (id : String) :
    (c.setBuffer buffer).clearPending id = (c.clearPending id).setBuffer buffer := by
  have hpending : (c.setBuffer buffer).pending = c.pending := rfl
  unfold clearPending
  rw [hpending]
  cases c.pending.get? id <;> rfl

theorem rejectPending_setBuffer (c : IpcClient) (buffer : List Char) (id : String) (error : ClientError) :
    (c.setBuffer buffer).rejectPending id error = (c.rejectPending id error).setBuffer buffer := by
  have hpending : (c.setBuffer buffer).pending = c.pending := rfl
  unfold rejectPending
  rw [hpending, clearPending_setBuffer]
  cases c.pending.get? id <;> rfl

theorem dispatchResponse_setBuffer (c : IpcClient) (buffer : List Char) (m : CoreMessage) :
    (c.setBuffer buffer).dispatchResponse m = (c.dispatchResponse m).setBuffer buffer := by
  unfold dispatchResponse
  have hpending : (c.setBuffer buffer).pending = c.pending := rfl
  rw [hpending]
  split
  · split
    · exact rejectPending_setBuffer ..
    · split
      · exact rejectPending_setBuffer ..
      · rw [clearPending_setBuffer]
        rfl
  · split <;> rfl

/-- A message is dispatched whatever is in the buffer. -/
theorem dispatchMessage_setBuffer (c : IpcClient) (buffer : List Char) (m : CoreMessage) :
    (c.setBuffer buffer).dispatchMessage m = (c.dispatchMessage m).setBuffer buffer := by
  unfold dispatchMessage
  dsimp only
  split
  · rfl
  · rfl
  · exact dispatchResponse_setBuffer { c with received := c.received ++ [m] } buffer m

/-- **Dispatching** neither reads nor writes the buffer. -/
theorem dispatchLine_setBuffer (c : IpcClient) (buffer : List Char) (raw : Option Json) :
    (c.setBuffer buffer).dispatchLine raw = (c.dispatchLine raw).setBuffer buffer := by
  unfold dispatchLine
  have hpending : (c.setBuffer buffer).pending = c.pending := rfl
  rw [hpending]
  split
  · rfl
  · split
    · exact dispatchMessage_setBuffer ..
    · dsimp only
      split
      · rfl
      · split
        · exact rejectPending_setBuffer ..
        · rfl

/-- So are all lines of a chunk. -/
theorem foldl_setBuffer {A : Type} (raw : A → Option Json) (xs : List A) (c : IpcClient) (buffer : List Char) :
    xs.foldl (fun c x => c.dispatchLine (raw x)) (c.setBuffer buffer) =
      (xs.foldl (fun c x => c.dispatchLine (raw x)) c).setBuffer buffer := by
  induction xs generalizing c with
  | nil => rfl
  | cons x xs ih => rw [List.foldl_cons, List.foldl_cons, dispatchLine_setBuffer, ih]

/-- What the client does with the lines of some chunks. -/
theorem feeds_eq (c : IpcClient) (chunks : List (List UInt8)) :
    chunks.foldl (feedBuffer parse) c =
      ((JsonlDecoder.pushes c.buffer chunks).1.foldl (fun c line => c.dispatchLine (parse line)) c).setBuffer
        (JsonlDecoder.pushes c.buffer chunks).2 := by
  induction chunks generalizing c with
  | nil => rfl
  | cons chunk chunks ih =>
    have hfeed : feedBuffer parse c chunk =
        ((JsonlDecoder.pushBuffer c.buffer chunk).1.foldl (fun c line => c.dispatchLine (parse line)) c).setBuffer
          (JsonlDecoder.pushBuffer c.buffer chunk).2 := by
      rw [← foldl_setBuffer]
      rfl
    have hpushes : JsonlDecoder.pushes c.buffer (chunk :: chunks) = ((JsonlDecoder.pushBuffer c.buffer chunk).1 ++
        (JsonlDecoder.pushes (JsonlDecoder.pushBuffer c.buffer chunk).2 chunks).1,
        (JsonlDecoder.pushes (JsonlDecoder.pushBuffer c.buffer chunk).2 chunks).2) := rfl
    rw [List.foldl_cons, hfeed, ih, foldl_setBuffer, hpushes, List.foldl_append]
    rfl

end IpcClient

/-- **The lines of a part of the output** are the texts of the first messages, one for each newline. -/
theorem Stdio.linesOf_output {io : Stdio} {ms : List Message} (h : ∀ m ∈ ms, Proper (.obj m)) {text : List Char}
    (htext : text <+: (io.output ms).toList) :
    JsonlDecoder.linesOf text = (ms.take (text.count '\n')).map io.dumps := by
  have hlines := notMem_lines io h
  rw [toList_output] at htext
  obtain ⟨part, hpart, hnot⟩ := Lines.prefix_join hlines htext
  have hkept : ∀ line ∈ (ms.map io.line).take (text.count '\n'), '\n' ∉ line :=
    fun line hline => hlines line (List.mem_of_mem_take hline)
  generalize text.count '\n' = n at hpart hkept
  have hread : ∀ m ∈ ms.take n, JsonlDecoder.emitted (io.line m) = [io.dumps m] :=
    fun m hm => emitted_line (h m (List.mem_of_mem_take hm))
  rw [JsonlDecoder.linesOf_eq, hpart, Lines.splitOn_join_append hkept, Lines.splitOn_of_notMem hnot,
    List.dropLast_concat, ← List.map_take, List.flatMap_map, List.flatMap_congr hread]
  exact List.map_eq_flatMap.symm

/-- The bytes are those of a part of the text. -/
theorem Stdio.prefix_output {io : Stdio} {ms : List Message} (h : ∀ m ∈ ms, Proper (.obj m)) {bytes : List UInt8}
    (hbytes : bytes <+: Utf8.encode (io.output ms)) :
    ∃ text, text <+: (io.output ms).toList ∧ bytes = text.map asciiByte ∧ ∀ c ∈ text, c.toNat < 0x80 := by
  have hascii := ascii_output io h
  unfold Utf8.encode at hbytes
  rw [encode_ascii hascii] at hbytes
  refine ⟨(io.output ms).toList.take bytes.length, List.take_prefix .., ?_,
    fun c hc => hascii c (List.mem_of_mem_take hc)⟩
  rw [List.map_take]
  exact List.prefix_iff_eq_take.1 hbytes

/-- **The lines of the chunks.** -/
theorem Stdio.pushes_output {io : Stdio} {ms : List Message} (h : ∀ m ∈ ms, Proper (.obj m))
    {chunks : List (List UInt8)} (hchunks : chunks.flatten <+: Utf8.encode (io.output ms)) :
    (JsonlDecoder.pushes [] chunks).1 =
      (ms.take (chunks.flatten.count 10)).map fun m => String.ofList (io.dumps m) := by
  obtain ⟨text, htext, hbytes, hascii⟩ := prefix_output h hchunks
  rw [JsonlDecoder.pushes_eq List.not_mem_nil, List.nil_append, lossy_chunks hascii hbytes, hbytes,
    count_ascii hascii, linesOf_output h htext, List.map_map]
  rfl

/-- There are as many line ends in the output as messages. -/
theorem Stdio.count_output {io : Stdio} {ms : List Message} (h : ∀ m ∈ ms, Proper (.obj m)) :
    (Utf8.encode (io.output ms)).count 10 = ms.length := by
  have hlines := notMem_lines io h
  have hascii := ascii_output io h
  unfold Utf8.encode
  rw [encode_ascii hascii, count_ascii hascii, toList_output, Lines.count_join hlines, List.length_map]

/-- All of the output leaves nothing in the buffer. -/
theorem Stdio.buffer_output {io : Stdio} {ms : List Message} (h : ∀ m ∈ ms, Proper (.obj m))
    {chunks : List (List UInt8)} (hchunks : chunks.flatten = Utf8.encode (io.output ms)) :
    (JsonlDecoder.pushes [] chunks).2 = [] := by
  have hascii := ascii_output io h
  have hlines := notMem_lines io h
  unfold Utf8.encode at hchunks
  rw [encode_ascii hascii] at hchunks
  rw [JsonlDecoder.pushes_buffer List.not_mem_nil, List.nil_append, lossy_chunks hascii hchunks, toList_output]
  unfold JsonlDecoder.rest
  rw [Lines.splitOn_join hlines, List.getLast?_concat]
  rfl

/-- A dumped message is handed. -/
theorem foldl_dumps {io : Stdio} {ms : List Message} (h : ∀ m ∈ ms, Proper (.obj m)) (c : IpcClient) :
    (ms.map fun m => String.ofList (io.dumps m)).foldl (fun c line => c.dispatchLine (io.parse line)) c =
      ms.foldl IpcClient.handLine c := by
  induction ms generalizing c with
  | nil => rfl
  | cons m ms ih =>
    rw [List.forall_mem_cons] at h
    rw [List.map_cons, List.foldl_cons, List.foldl_cons, Stdio.parse_dumps h.1, ih h.2]
    rfl

/-- A message of the daemon is dispatched as what the host reads. -/
theorem foldl_handLine {sends : List CoreSend} (h : ∀ sent ∈ sends, sent.Readable) (c : IpcClient) :
    (sends.map CoreSend.encode).foldl IpcClient.handLine c =
      (sends.map CoreSend.read).foldl IpcClient.dispatchMessage c := by
  induction sends generalizing c with
  | nil => rfl
  | cons sent sends ih =>
    rw [List.forall_mem_cons] at h
    have hread := CoreSend.parse_encode h.1.genuine h.1.finite
    have hhand : c.handLine sent.encode = c.dispatchMessage sent.read := by
      unfold IpcClient.handLine IpcClient.dispatchLine
      dsimp only
      rw [hread]
    rw [List.map_cons, List.map_cons, List.foldl_cons, List.foldl_cons, hhand, ih h.2]

/-- **The stream.** In every run of the daemon with finite numbers, whose watchlist has a length that the host can
read, whatever of its output has come through the pipe and however it is cut into chunks, the client is where it is
when the first messages are handed to it as values, one for each newline; the rest of the chunks is in the buffer,
which is empty when all has come. -/
theorem stream_delivered (io : Stdio) {engine : MarketEngine} (hcount : engine.watchlist.Countable)
    {steps : List TaskStep} {s : DaemonTasks} (hrun : run DaemonTasks.step (.start engine) steps = some s)
    {chunks : List (List UInt8)} (hchunks : chunks.flatten <+: Utf8.encode (io.output s.written)) {c : IpcClient}
    (hc : c.buffer = []) : ∃ sends : List CoreSend, s.written = sends.map CoreSend.encode ∧
      ∃ buffer, chunks.foldl (IpcClient.feedBuffer io.parse) c =
          (((sends.take (chunks.flatten.count 10)).map CoreSend.read).foldl IpcClient.dispatchMessage c).setBuffer
            buffer ∧
        (chunks.flatten = Utf8.encode (io.output s.written) →
          chunks.flatten.count 10 = sends.length ∧ buffer = []) := by
  obtain ⟨-, -, sends, hwritten, hsends⟩ := DaemonTasks.sends_run hcount hrun
  have hproper : ∀ m ∈ s.written, Proper (.obj m) := by
    rw [hwritten]
    intro m hm
    obtain ⟨sent, -, rfl⟩ := List.mem_map.1 hm
    exact sent.proper_encode
  refine ⟨sends, hwritten, (JsonlDecoder.pushes [] chunks).2, ?_, fun hall => ⟨?_, ?_⟩⟩
  · have htaken : ∀ sent ∈ sends.take (chunks.flatten.count 10), sent.Readable :=
      fun sent hsent => hsends sent (List.mem_of_mem_take hsent)
    rw [IpcClient.feeds_eq, hc, Stdio.pushes_output hproper hchunks,
      foldl_dumps fun m hm => hproper m (List.mem_of_mem_take hm), hwritten, ← List.map_take, foldl_handLine htaken]
  · rw [hall, Stdio.count_output hproper, hwritten, List.length_map]
  · exact Stdio.buffer_output hproper hall

/-- A runtime whose floats are fractions. -/
def fractionStdio (crlf : Bool) : Stdio where
  dialect := fractions (fun c => 0x20 ≤ c.toNat && c.toNat < 0x7f && c ≠ '"' && c ≠ '\\') fun c h => by
    simp only [Bool.and_eq_true, decide_eq_true_eq] at h
    exact ⟨h.1.1.1, h.1.2, h.2⟩
  ascii := fun c h => by
    have hlt : c.toNat < 0x7f := by
      simp only [fractions, Bool.and_eq_true, decide_eq_true_eq] at h
      exact h.1.1.2
    exact Nat.lt_trans hlt (by decide)
  crlf := crlf

/-- The host says hello, and the line of a message ends with two characters. -/
def helloSteps : List TaskStep :=
  DaemonTasks.commandSteps
    "\x7b\"protocol_version\": 1, \"type\": \"hello\", \"request_id\": \"r1\"\x7d" "hello" "r1" []

/-- A handshake, byte by byte. -/
theorem stream_delivered_bytes : ∃ s, run DaemonTasks.step (.start {}) helloSteps = some s ∧
    s.written.length = 1 ∧ ∃ sends : List CoreSend, s.written = sends.map CoreSend.encode ∧
      ((Utf8.encode ((fractionStdio true).output s.written)).map fun b => [b]).foldl
          (IpcClient.feedBuffer (fractionStdio true).parse) {} =
        ((sends.map CoreSend.read).foldl IpcClient.dispatchMessage {}).setBuffer [] := by
  have hrun : (run DaemonTasks.step (.start {}) helloSteps).map (fun s => s.written.length) = some 1 := by
    decide +kernel
  obtain ⟨s, hs, hlength⟩ := Option.map_eq_some_iff.1 hrun
  have hflat : ((Utf8.encode ((fractionStdio true).output s.written)).map fun b => [b]).flatten =
      Utf8.encode ((fractionStdio true).output s.written) := by
    rw [← List.flatMap_def, List.flatMap_singleton']
  have hcount : MarketEngine.watchlist {} |>.Countable := ⟨by decide +kernel, by decide +kernel⟩
  obtain ⟨sends, hwritten, buffer, hfed, hall⟩ := stream_delivered (fractionStdio true) hcount hs
    (by rw [hflat]) (c := {}) rfl
  obtain ⟨hevery, rfl⟩ := hall hflat
  rw [hevery, List.take_length] at hfed
  exact ⟨s, hs, hlength, sends, hwritten, hfed⟩

end Extension

end MarketSentinel
