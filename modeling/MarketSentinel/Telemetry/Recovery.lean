import MarketSentinel.Telemetry.Jsonl

/-!
# Recovery after a cut

A telemetry file that was cut at any byte, opened again and written on.

* `readJsonl_join`: the lines of some payloads are read back.
* `truncate_cut`: opening a cut file keeps the lines whose text is complete.
* `readJsonl_truncate`: opening a file changes nothing that its reader sees.
* `crash_recovery`: all of it, over sequences of writes.
-/

namespace MarketSentinel

open Lib Utf8

/-- The text of a payload in a file. -/
def textBytes (json : JsonModule) (payload : Payload) : Bytes := encode (json.dumps payload)

/-- What is relied on of `json`, for a payload: it is parsed back, and its text is one line that starts with
a brace. -/
structure RoundTrips (json : JsonModule) (payload : Payload) : Prop where
  round : json.loads (json.dumps payload) = some (.obj payload)
  oneLine : '\n' ∉ (json.dumps payload).toList
  opens : ∃ rest, (json.dumps payload).toList = '{' :: rest

/-- And no proper prefix of the text parses. -/
structure Serialises (json : JsonModule) (payload : Payload) : Prop extends RoundTrips json payload where
  whole : ∀ t : String, t.toList <+: (json.dumps payload).toList → t ≠ json.dumps payload → json.loads t = none

variable {json : JsonModule}

namespace RoundTrips

variable {payload : Payload}

theorem newline_notMem (h : RoundTrips json payload) : newline ∉ textBytes json payload := by
  intro hmem
  obtain ⟨c, hc, hval⟩ := mem_encode_ascii hmem (by decide)
  have hchar : c = '\n' := Char.toNat_inj.1 hval
  exact h.oneLine (hchar ▸ hc)

theorem brace_mem (h : RoundTrips json payload) : 123 ∈ textBytes json payload := by
  obtain ⟨rest, hrest⟩ := h.opens
  unfold textBytes encode
  rw [hrest, List.flatMap_cons]
  exact List.mem_append_left _ (by decide)

theorem text_ne_nil (h : RoundTrips json payload) : textBytes json payload ≠ [] :=
  List.ne_nil_of_mem h.brace_mem

theorem not_blank (h : RoundTrips json payload) : isBlankLine (textBytes json payload) = false := by
  rw [isBlankLine, List.all_eq_false]
  exact ⟨123, h.brace_mem, by decide⟩

/-- The text is read. -/
theorem text_read (h : RoundTrips json payload) :
    (decode (textBytes json payload)).bind json.loads = some (.obj payload) := by
  unfold textBytes
  rw [decode_encode]
  exact h.round

end RoundTrips

/-- A proper part of the text is not read. -/
theorem Serialises.part_unread {payload : Payload} (h : Serialises json payload) {part : Bytes}
    (hpart : part <+: textBytes json payload)
    (hne : part ≠ textBytes json payload) : (decode part).bind json.loads = none := by
  cases hdecode : decode part with
  | none => rfl
  | some t =>
    refine h.whole t (prefix_of_decode hdecode hpart) fun ht => hne ?_
    rw [← encode_of_decode hdecode, ht]
    rfl

/-! ## Reading lines -/

theorem readLine_text {payload : Payload} (h : RoundTrips json payload) (r : List Payload × ℕ) :
    readLine json r (textBytes json payload) = (r.1 ++ [payload], r.2) := by
  unfold readLine
  rw [if_neg (by simp [h.not_blank]), h.text_read]

theorem foldl_readLine_texts : ∀ {payloads : List Payload}, (∀ r ∈ payloads, RoundTrips json r) →
    ∀ r : List Payload × ℕ, (payloads.map (textBytes json)).foldl (readLine json) r = (r.1 ++ payloads, r.2) := by
  intro payloads
  induction payloads with
  | nil => intro _ r; simp
  | cons payload payloads ih =>
    intro h r
    rw [List.forall_mem_cons] at h
    rw [List.map_cons, List.foldl_cons, readLine_text h.1, ih h.2, List.append_assoc, List.singleton_append]

theorem endsWithNewline_append (raw : Bytes) : endsWithNewline (raw ++ [newline]) = true := by
  unfold endsWithNewline
  rw [List.getLast?_concat]
  exact decide_eq_true rfl

theorem endsWithNewline_iff {raw : Bytes} : endsWithNewline raw = true ↔ ∃ init, raw = init ++ [newline] := by
  constructor
  · intro h
    exact List.getLast?_eq_some_iff.1 (of_decide_eq_true h)
  · rintro ⟨init, rfl⟩
    exact endsWithNewline_append init

theorem newlineTerminatedLines_append (raw : Bytes) :
    newlineTerminatedLines (raw ++ [newline]) = raw.splitOn newline := by
  unfold newlineTerminatedLines
  rw [if_neg (by simp), endsWithNewline_append, if_pos rfl]
  have hsplit : (raw ++ [newline]).splitOn newline = raw.splitOn newline ++ [[]] :=
    Lines.splitOn_append_cons raw []
  rw [hsplit, List.dropLast_concat]

theorem newlineTerminatedLines_join {lines : List Bytes} (h : ∀ line ∈ lines, newline ∉ line) :
    newlineTerminatedLines (Lines.join newline lines) = lines := by
  by_cases hlines : lines = []
  · subst hlines
    rfl
  · obtain ⟨init, hinit⟩ := Lines.join_eq_concat newline hlines
    have hsplit := Lines.splitOn_join h
    rw [hinit, Lines.splitOn_append_cons, Lines.splitOn_of_notMem List.not_mem_nil] at hsplit
    rw [hinit, newlineTerminatedLines_append]
    exact List.append_cancel_right hsplit

/-- A file is closed when no partial line ends it. -/
def Closed (raw : Bytes) : Prop := raw = [] ∨ endsWithNewline raw = true

instance (raw : Bytes) : Decidable (Closed raw) := inferInstanceAs (Decidable (_ ∨ _))

theorem not_closed {raw : Bytes} : ¬ Closed raw ↔ raw ≠ [] ∧ endsWithNewline raw = false := by
  unfold Closed
  rw [not_or, Bool.not_eq_true]

/-- Lines are complete, or there are none. -/
theorem join_complete (lines : List Bytes) : Closed (Lines.join newline lines) := by
  by_cases hlines : lines = []
  · subst hlines
    exact .inl rfl
  · obtain ⟨init, hinit⟩ := Lines.join_eq_concat newline hlines
    rw [hinit]
    exact .inr (endsWithNewline_append init)

theorem readJsonl_closed {raw : Bytes} (h : Closed raw) :
    readJsonl json (some raw) =
      ⟨(readLines json (newlineTerminatedLines raw)).1, false,
        (readLines json (newlineTerminatedLines raw)).2⟩ := by
  unfold readJsonl
  dsimp only
  rw [if_neg fun hopen => not_closed.2 hopen h]
  simp

/-- **The lines of some payloads are read back.** -/
theorem readJsonl_join {payloads : List Payload} (h : ∀ r ∈ payloads, RoundTrips json r) :
    readJsonl json (some (Lines.join newline (payloads.map (textBytes json)))) = ⟨payloads, false, 0⟩ := by
  have hlines : ∀ line ∈ payloads.map (textBytes json), newline ∉ line := by
    intro line hline
    obtain ⟨r, hr, rfl⟩ := List.mem_map.1 hline
    exact (h r hr).newline_notMem
  rw [readJsonl_closed (join_complete _), newlineTerminatedLines_join hlines, readLines, foldl_readLine_texts h]
  rfl

/-! ## Opening a file -/

/-- A closed file is left alone. -/
theorem truncate_closed {raw : Bytes} (h : Closed raw) : truncateTrailingPartial json (some raw) = some raw := by
  unfold truncateTrailingPartial
  dsimp only
  split
  · rfl
  · rename_i hne
    rw [if_pos (h.resolve_left hne)]

theorem truncate_open {raw : Bytes} (h : ¬ Closed raw) :
    truncateTrailingPartial json (some raw) =
      match (decode (Lines.tail newline raw)).bind json.loads with
      | none => some (Lines.body newline raw)
      | some _ => some (raw ++ [newline]) := by
  obtain ⟨hne, hends⟩ := not_closed.1 h
  unfold truncateTrailingPartial
  dsimp only
  rw [if_neg hne, hends]
  refine (if_neg Bool.false_ne_true).trans ?_
  cases (decode (Lines.tail newline raw)).bind json.loads <;> rfl

/-- What follows the last newline is dropped or completed. -/
theorem truncate_rest (lines : List Bytes) {rest : Bytes} (hne : rest ≠ []) (hrest : newline ∉ rest) :
    truncateTrailingPartial json (some (Lines.join newline lines ++ rest)) =
      match (decode rest).bind json.loads with
      | none => some (Lines.join newline lines)
      | some _ => some (Lines.join newline lines ++ rest ++ [newline]) := by
  have hopen : ¬ Closed (Lines.join newline lines ++ rest) := by
    rintro (hnil | hends)
    · exact hne (List.append_eq_nil_iff.1 hnil).2
    · obtain ⟨init, hinit⟩ := endsWithNewline_iff.1 hends
      have htail := Lines.tail_join_append lines hrest
      rw [hinit, Lines.tail_append List.not_mem_nil] at htail
      exact hne htail.symm
  rw [truncate_open hopen, Lines.tail_join_append lines hrest, Lines.body_join_append lines hrest]

/-- **Opening a cut file** keeps the lines whose text is complete. -/
theorem truncate_cut {payloads kept : List Payload} {raw : Bytes}
    (h : ∀ r ∈ payloads, Serialises json r) (hcut : Lines.Cut newline (textBytes json) payloads kept raw) :
    truncateTrailingPartial json (some raw) = some (Lines.join newline (kept.map (textBytes json))) := by
  cases hcut with
  | clean => exact truncate_closed (join_complete _)
  | bare kept r hr =>
    have hser := h r hr
    rw [truncate_rest _ hser.text_ne_nil hser.newline_notMem, hser.text_read]
    simp [Lines.join]
  | torn _ r hr part hpart hne hlt =>
    have hser := h r hr
    have hnewline : newline ∉ part := fun hmem => hser.newline_notMem (hpart.subset hmem)
    rw [truncate_rest _ hne hnewline, hser.part_unread hpart hlt]

/-- **Opening a file changes nothing that its reader sees**, except that the partial line is gone. -/
theorem readJsonl_truncate (json : JsonModule) (file : Option Bytes) :
    (readJsonl json (truncateTrailingPartial json file)).records = (readJsonl json file).records ∧
      (readJsonl json (truncateTrailingPartial json file)).malformedCompleteLines =
        (readJsonl json file).malformedCompleteLines := by
  cases file with
  | none => exact ⟨rfl, rfl⟩
  | some raw =>
    by_cases hclosed : Closed raw
    · rw [truncate_closed hclosed]
      exact ⟨rfl, rfl⟩
    · have hbody : Closed (Lines.body newline raw) :=
        (Lines.body_eq newline raw).imp_right fun ⟨init, h⟩ => by rw [h]; exact endsWithNewline_append init
      have hread : readJsonl json (some raw) =
          match (decode (Lines.tail newline raw)).bind json.loads with
          | none =>
            ⟨(readLines json (newlineTerminatedLines (Lines.body newline raw))).1, true,
              (readLines json (newlineTerminatedLines (Lines.body newline raw))).2⟩
          | some _ =>
            ⟨(readLines json (newlineTerminatedLines (Lines.body newline raw) ++ [Lines.tail newline raw])).1, false,
              (readLines json (newlineTerminatedLines (Lines.body newline raw) ++ [Lines.tail newline raw])).2⟩ := by
        unfold readJsonl
        dsimp only
        rw [if_pos (not_closed.1 hclosed)]
        cases (decode (Lines.tail newline raw)).bind json.loads with
        | none => simp
        | some value => rfl
      rw [truncate_open hclosed, hread]
      cases (decode (Lines.tail newline raw)).bind json.loads with
      | none =>
        dsimp only
        rw [readJsonl_closed hbody]
        exact ⟨rfl, rfl⟩
      | some value =>
        -- The completed line comes after the lines of the body.
        have hlines : newlineTerminatedLines (raw ++ [newline]) =
            newlineTerminatedLines (Lines.body newline raw) ++ [Lines.tail newline raw] := by
          rw [newlineTerminatedLines_append]
          conv_lhs => rw [← Lines.body_append_tail newline raw]
          rcases Lines.body_eq newline raw with hnil | ⟨init, hinit⟩
          · rw [hnil, List.nil_append, Lines.splitOn_of_notMem (Lines.notMem_tail raw)]
            rfl
          · rw [hinit, newlineTerminatedLines_append, List.append_assoc, List.singleton_append,
              Lines.splitOn_append_cons, Lines.splitOn_of_notMem (Lines.notMem_tail raw)]
        dsimp only
        rw [readJsonl_closed (.inr (endsWithNewline_append raw)), hlines]
        exact ⟨rfl, rfl⟩

/-! ## Sequences of writes -/

namespace JsonlTelemetrySink

/-- The files after a sequence of writes; a refused record is not written. -/
def writes (json : JsonModule) (sink : JsonlTelemetrySink) (d : Directory) (records : List Payload) : Directory :=
  records.foldl (fun d record => (sink.write json d record).getD d) d

/-- What a sequence of writes writes. -/
def written (sink : JsonlTelemetrySink) (records : List Payload) : List Payload :=
  records.filterMap fun record => projectAllowlist record sink.allowlist

/-- No write of the sequence reaches `max_bytes`. -/
def Unrotated (json : JsonModule) (sink : JsonlTelemetrySink) (d : Directory) (records : List Payload) : Prop :=
  ∀ pre record post, records = pre ++ record :: post →
    ∀ payload ∈ projectAllowlist record sink.allowlist,
      ((append json (sink.writes json d pre) payload 0).getD []).length < sink.maxBytes

variable {sink : JsonlTelemetrySink} {d : Directory}

@[simp] theorem written_nil : sink.written [] = [] := rfl

theorem written_cons (record : Payload) (records : List Payload) :
    sink.written (record :: records) =
      (projectAllowlist record sink.allowlist).toList ++ sink.written records := by
  unfold written
  rw [List.filterMap_cons]
  cases projectAllowlist record sink.allowlist <;> rfl

theorem encode_line (json : JsonModule) (payload : Payload) :
    encode (json.dumps payload ++ "\n") = textBytes json payload ++ [newline] := by
  rw [encode_append]
  rfl

theorem append_eq {raw : Bytes} (hd : d 0 = some raw) (payload : Payload) :
    append json d payload = Function.update d 0 (some (raw ++ (textBytes json payload ++ [newline]))) := by
  unfold append
  rw [hd, encode_line]
  rfl

/-- **Writes without rotation** append their lines. -/
theorem writes_unrotated {records : List Payload} {raw : Bytes} (hd : d 0 = some raw)
    (h : sink.Unrotated json d records) :
    sink.writes json d records =
      Function.update d 0 (some (raw ++ Lines.join newline ((sink.written records).map (textBytes json)))) := by
  induction records generalizing d raw with
  | nil =>
    have hsame : sink.writes json d [] = d := rfl
    rw [hsame, written_nil, List.map_nil, Lines.join_nil, List.append_nil, ← hd, Function.update_eq_self]
  | cons record records ih =>
    have hnext : ∀ d', (sink.write json d record).getD d = d' → sink.Unrotated json d' records := by
      rintro d' rfl pre record' post heq payload hpayload
      exact h (record :: pre) record' post (by rw [heq]; rfl) payload hpayload
    have hcons : sink.writes json d (record :: records) =
        sink.writes json ((sink.write json d record).getD d) records := rfl
    rw [hcons, written_cons]
    cases hproject : projectAllowlist record sink.allowlist with
    | none =>
      have hwrite : (sink.write json d record).getD d = d := by
        unfold write
        rw [hproject]
        rfl
      rw [hwrite, ih hd (hnext d hwrite)]
      rfl
    | some payload =>
      -- The file is still below the limit, so the line is appended to it.
      have hsize := h [] record records rfl payload hproject
      have hwrite : (sink.write json d record).getD d = append json d payload := by
        unfold write
        rw [hproject, Option.map_some, Option.getD_some]
        exact if_neg (not_le.2 hsize)
      rw [hwrite, Option.toList_some, List.singleton_append, List.map_cons, Lines.join_cons]
      have happend := @append_eq json d raw hd payload
      have hfile : append json d payload 0 = some (raw ++ (textBytes json payload ++ [newline])) := by
        rw [happend, Function.update_self]
      rw [ih hfile (hnext _ hwrite), happend, Function.update_idem]
      simp

theorem written_append (records records' : List Payload) :
    sink.written (records ++ records') = sink.written records ++ sink.written records' := List.filterMap_append

/-- Writes that fit in `max_bytes` together. -/
theorem unrotated_of_size {records : List Payload} {raw : Bytes} (hd : d 0 = some raw)
    (h : raw.length + (Lines.join newline ((sink.written records).map (textBytes json))).length < sink.maxBytes) :
    sink.Unrotated json d records := by
  induction records using List.reverseRecOn with
  | nil =>
    intro pre record post heq
    cases pre <;> cases heq
  | append_singleton records last ih =>
    rw [written_append, List.map_append, Lines.join_append, List.length_append] at h
    have hbefore := ih (by omega)
    intro pre record post heq payload hpayload
    rcases List.eq_nil_or_concat post with rfl | ⟨post, last', rfl⟩
    · obtain ⟨rfl, hlast⟩ := List.append_inj' heq rfl
      obtain rfl := List.singleton_inj.1 hlast
      have hfile : sink.writes json d records 0 =
          some (raw ++ Lines.join newline ((sink.written records).map (textBytes json))) := by
        rw [writes_unrotated hd hbefore, Function.update_self]
      rw [append_eq hfile, Function.update_self, Option.getD_some, List.length_append, List.length_append,
        List.length_append]
      have hproject : projectAllowlist last sink.allowlist = some payload := hpayload
      rw [written_cons, hproject, written_nil, List.append_nil, Option.toList_some, List.map_singleton,
        Lines.join_cons, Lines.join_nil, List.length_append] at h
      simp only [List.length_cons, List.length_nil] at h ⊢
      omega
    · rw [List.concat_eq_append, ← List.cons_append, ← List.append_assoc] at heq
      obtain ⟨rfl, -⟩ := List.append_inj' heq rfl
      exact hbefore pre record post rfl payload hpayload

theorem create_some {raw : Bytes} (h : truncateTrailingPartial json (d 0) = some raw) :
    create json d = Function.update d 0 (some raw) := by
  unfold create FileOp.apply
  rw [h]
  simp

theorem create_none (hd : d 0 = none) : create json d = Function.update d 0 (some []) := by
  unfold create FileOp.apply
  rw [hd]
  simp [truncateTrailingPartial]

end JsonlTelemetrySink

open JsonlTelemetrySink

/-- The file at the path is cut at a byte. -/
def Directory.cut (d : Directory) (k : ℕ) : Directory := Function.update d 0 ((d 0).map (·.take k))

/-- **Opening the file of a new sink that was cut.** -/
theorem create_cut {first : JsonlTelemetrySink} {d : Directory} {records : List Payload} (hd : d 0 = none)
    (hserialises : ∀ r ∈ first.written records, Serialises json r)
    (hfirst : first.Unrotated json (create json d) records) (k : ℕ) :
    create json ((first.writes json (create json d) records).cut k) 0 =
      some (Lines.join newline
        ((Lines.before (textBytes json) k 0 (first.written records)).map (textBytes json))) := by
  have hnew : create json d 0 = some [] := by rw [create_none hd, Function.update_self]
  have hcontent : (first.writes json (create json d) records).cut k 0 =
      some ((Lines.join newline ((first.written records).map (textBytes json))).take k) := by
    rw [writes_unrotated hnew hfirst]
    simp [Directory.cut]
  have hpieces := @Lines.cut_join _ _ newline _ _ (fun r hr => (hserialises r hr).text_ne_nil) 0 k
  rw [Nat.zero_add] at hpieces
  rw [create_some (by rw [hcontent, truncate_cut hserialises hpieces]), Function.update_self]

/-- The file at the path when a first sink writes, the file is cut and a second sink writes on. -/
def rewritten (json : JsonModule) (first second : JsonlTelemetrySink) (d : Directory) (records : List Payload)
    (k : ℕ) (later : List Payload) : Option Bytes :=
  second.writes json (create json ((first.writes json (create json d) records).cut k)) later 0

/-- **Crash recovery.** A new file is written without rotation, cut at any byte, opened by a new sink and
written on without rotation: its reader gets the payloads whose text lies completely before the cut, and
the later ones, and finds the file healthy. And whatever a file contains, opening it leaves the records
that its reader gets. -/
theorem crash_recovery {first second : JsonlTelemetrySink} {d : Directory} {records later : List Payload}
    {k : ℕ} (hd : d 0 = none)
    (hserialises : ∀ r ∈ first.written records ++ second.written later, Serialises json r)
    (hfirst : first.Unrotated json (create json d) records)
    (hsecond : second.Unrotated json
      (create json ((first.writes json (create json d) records).cut k)) later) :
    ((readJsonl json (rewritten json first second d records k later)).records =
        Lines.before (textBytes json) k 0 (first.written records) ++ second.written later ∧
      (readJsonl json (rewritten json first second d records k later)).skippedTrailingPartial = false ∧
      (readJsonl json (rewritten json first second d records k later)).healthy = true) ∧
    ∀ file, (readJsonl json (truncateTrailingPartial json file)).records = (readJsonl json file).records := by
  refine ⟨?_, fun file => (readJsonl_truncate json file).1⟩
  have hwritten : ∀ r ∈ first.written records, Serialises json r := fun r hr =>
    hserialises r (List.mem_append_left _ hr)
  have hfile := writes_unrotated (create_cut hd hwritten hfirst k) hsecond
  have hkept : ∀ r ∈ Lines.before (textBytes json) k 0 (first.written records) ++ second.written later,
      Serialises json r := by
    intro r hr
    rcases List.mem_append.1 hr with hr | hr
    · exact hwritten r (Lines.before_subset hr)
    · exact hserialises r (List.mem_append_right _ hr)
  unfold rewritten
  rw [hfile, Function.update_self, ← Lines.join_append, ← List.map_append,
    readJsonl_join fun r hr => (hkept r hr).toRoundTrips]
  exact ⟨rfl, rfl, rfl⟩

/-- The text of a row with nothing but a symbol. -/
def symbolText (symbol : String) : String := "\x7b\"symbol\":\"" ++ symbol ++ "\"\x7d"

/-- `json` on the rows with one of two symbols. -/
def symbolJson : JsonModule where
  loads t :=
    if t = symbolText "B" then some (.obj [("symbol", .str "B")])
    else if t = symbolText "测" then some (.obj [("symbol", .str "测")])
    else none
  dumps payload :=
    match payload with
    | [("symbol", .str symbol)] => symbolText symbol
    | _ => "\x7b\x7d"

theorem symbolJson_serialises {symbol : String} (h : symbol = "B" ∨ symbol = "测") :
    Serialises symbolJson [("symbol", .str symbol)] := by
  have hloads : ∀ t value, symbolJson.loads t = some value → t = symbolText "B" ∨ t = symbolText "测" := by
    intro t value ht
    unfold symbolJson at ht
    dsimp only at ht
    split at ht
    · exact .inl ‹_›
    · split at ht
      · exact .inr ‹_›
      · cases ht
  rcases h with rfl | rfl
  · refine ⟨⟨rfl, by decide, ⟨_, rfl⟩⟩, fun t hprefix hne => ?_⟩
    cases hread : symbolJson.loads t with
    | none => rfl
    | some value =>
      rcases hloads t value hread with rfl | rfl
      · exact absurd rfl hne
      · exact absurd hprefix (by decide)
  · refine ⟨⟨rfl, by decide, ⟨_, rfl⟩⟩, fun t hprefix hne => ?_⟩
    cases hread : symbolJson.loads t with
    | none => rfl
    | some value =>
      rcases hloads t value hread with rfl | rfl
      · exact absurd hprefix (by decide)
      · exact absurd rfl hne

/-- The cut is inside the three bytes of a character of the second row. -/
theorem crash_recovery_inside_character :
    let sink : JsonlTelemetrySink := {}
    let rows : List Payload := [[("symbol", .str "B")], [("symbol", .str "测")]]
    (readJsonl symbolJson (rewritten symbolJson sink sink (fun _ => none) rows 27 rows)).records =
      [[("symbol", .str "B")], [("symbol", .str "B")], [("symbol", .str "测")]] := by
  intro sink rows
  have hwritten : sink.written rows = rows := rfl
  have hrows : ∀ r ∈ rows, Serialises symbolJson r := by
    intro r hr
    rcases List.mem_pair.1 hr with rfl | rfl
    · exact symbolJson_serialises (.inl rfl)
    · exact symbolJson_serialises (.inr rfl)
  have hnew : create symbolJson (fun _ => none) 0 = some [] := by
    rw [create_none rfl, Function.update_self]
  have hfirst : sink.Unrotated symbolJson (create symbolJson fun _ => none) rows :=
    unrotated_of_size hnew (by decide)
  -- The first line ends before the cut, the second one does not.
  have hkept : Lines.before (textBytes symbolJson) 27 0 rows = [[("symbol", .str "B")]] := by
    rw [Lines.before, if_pos (by decide), Lines.before, if_neg (by decide)]
    rfl
  have hfile := create_cut rfl (hwritten ▸ hrows) hfirst 27
  rw [hwritten, hkept] at hfile
  have hall : ∀ r ∈ sink.written rows ++ sink.written rows, Serialises symbolJson r := by
    intro r hr
    rcases List.mem_append.1 hr with hr | hr
    · exact hrows r (hwritten ▸ hr)
    · exact hrows r (hwritten ▸ hr)
  obtain ⟨⟨hread, -, -⟩, -⟩ := crash_recovery rfl hall hfirst (unrotated_of_size hfile (by decide))
  rw [hwritten, hkept] at hread
  exact hread

end MarketSentinel
