import MarketSentinel.Ipc.Daemon

/-!
# Every line is answered

* `dispatch_answers_iff`: a line is answered once, with its request id, and moves the phase along the
  protocol, unless it is a telemetry command with an oversized integer for a timestamp, which raises.
-/

namespace MarketSentinel

open Lib

/-- The moves of the phase. -/
inductive PhaseMove : DaemonPhase → DaemonPhase → Prop
  | stay (p : DaemonPhase) : PhaseMove p p
  | hello : PhaseMove .awaitingHello .ready
  | start : PhaseMove .ready .running
  | pause : PhaseMove .running .paused
  | resume : PhaseMove .paused .running
  | shutdown (p : DaemonPhase) : PhaseMove p .shuttingDown

namespace Daemon

variable {d d' : Daemon} {id : String}

/-- A message that a handler may write: no alert, and an acknowledged shutdown is one. -/
def Sent (d : Daemon) (m : Message) : Prop :=
  messageType m ≠ .str "alert" ∧ (messageType m = .str "shutdown_ack" → d.phase = .shuttingDown)

/-- A request is answered by one message that carries its id. -/
structure Responds (d : Daemon) (id : String) (d' : Daemon) : Prop where
  move : PhaseMove d.phase d'.phase
  once : ∃ m, d'.written = d.written ++ [m] ∧ Json.field m "request_id" = .str id ∧ d'.Sent m

/-- Messages of the other types may be written by any handler. -/
theorem sent_encode (d : Daemon) {t : String} {r : Option String} {fields : Message}
    (ht : t ∈ ["error", "ready", "ack", "state"]) : d.Sent (encodeMessage t r fields) := by
  simp only [List.mem_cons, List.not_mem_nil, or_false] at ht
  rcases ht with rfl | rfl | rfl | rfl <;> simp [Sent]

theorem responds_refuse (d : Daemon) (id : String) (code : ErrorCode) (message : String) :
    d.Responds id (d.refuse id code message) :=
  ⟨.stay _, _, rfl, requestId_encode, sent_encode _ (by decide)⟩

theorem responds_ack (d d₁ : Daemon) {id : String} (hw : d₁.written = d.written)
    (hm : PhaseMove d.phase d₁.phase) (fields : Message) : d.Responds id (d₁.ack id fields) :=
  ⟨hm, _, by rw [ack, send, hw], requestId_encode, sent_encode _ (by decide)⟩

/-- A handler whose rest responds responds. -/
theorem responds_ifReady {rest : Daemon}
    (h : d.phase ≠ .awaitingHello → d.Responds id rest) : d.Responds id (d.ifReady id (fun d => d) rest) := by
  unfold ifReady
  split
  · exact responds_refuse ..
  · next hphase => exact h hphase

theorem responds_hello (d : Daemon) (id : String) : d.Responds id (d.hello id) := by
  unfold hello
  split
  · next h => exact ⟨h ▸ .hello, _, rfl, requestId_encode, sent_encode _ (by decide)⟩
  · exact ⟨.stay _, _, rfl, requestId_encode, sent_encode _ (by decide)⟩

theorem responds_start (hlive : d.phase ≠ .shuttingDown) : d.Responds id (d.start id) := by
  refine responds_ifReady fun hready => ?_
  split
  · exact responds_refuse ..
  · next hpaused =>
    refine responds_ack d (d.setPhase .running) rfl ?_ _
    cases hphase : d.phase with
    | ready => exact .start
    | running => exact .stay _
    | awaitingHello => exact absurd hphase hready
    | paused => exact absurd hphase hpaused
    | shuttingDown => exact absurd hphase hlive

theorem responds_pause (hlive : d.phase ≠ .shuttingDown) : d.Responds id (d.pause id) := by
  refine responds_ifReady fun hready => ?_
  split
  · exact responds_refuse ..
  · next hstarted =>
    refine responds_ack d (d.setPhase .paused) rfl ?_ _
    cases hphase : d.phase with
    | running => exact .pause
    | paused => exact .stay _
    | awaitingHello => exact absurd hphase hready
    | ready => exact absurd hphase hstarted
    | shuttingDown => exact absurd hphase hlive

theorem responds_resume (hlive : d.phase ≠ .shuttingDown) : d.Responds id (d.resume id) := by
  refine responds_ifReady fun hready => ?_
  split
  · exact responds_refuse ..
  · next hstarted =>
    refine responds_ack d (d.setPhase .running) rfl ?_ _
    cases hphase : d.phase with
    | running => exact .stay _
    | paused => exact .resume
    | awaitingHello => exact absurd hphase hready
    | ready => exact absurd hphase hstarted
    | shuttingDown => exact absurd hphase hlive

theorem responds_setWatchlist (d : Daemon) (id : String) (command : Message) :
    d.Responds id (d.setWatchlist id command) := by
  refine responds_ifReady fun _ => ?_
  split
  · split
    · exact responds_refuse ..
    · unfold replaceItems
      split
      · exact responds_refuse ..
      · next watchlist _ =>
        exact responds_ack d (d.setEngine { d.engine with watchlist := watchlist }) rfl (.stay _) _
  · exact responds_refuse ..

theorem responds_getState (d : Daemon) (env : DispatchEnv) (id : String) :
    d.Responds id (d.getState env id) :=
  responds_ifReady fun _ => ⟨.stay _, _, rfl, requestId_encode, sent_encode _ (by decide)⟩

/-- A handler raises, or it responds. -/
def RaisesIff (d : Daemon) (id : String) (overflow : Prop) (r : Except PyError Daemon) : Prop :=
  ((∃ err, r = .error err) ∧ overflow) ∨ (∃ d', r = .ok d' ∧ d.Responds id d') ∧ ¬ overflow

theorem raises_hostInteraction (d : Daemon) (env : DispatchEnv) (id : String) (command : Message) :
    d.RaisesIff id (d.phase ≠ .awaitingHello ∧ HostOverflow env.py command)
      (d.hostInteraction env id command) := by
  unfold hostInteraction ifReady
  split
  · next h => exact .inr ⟨⟨_, rfl, responds_refuse ..⟩, fun hover => hover.1 h⟩
  · next h =>
    rcases parseHostInteraction_error env.py command with ⟨⟨err, herr⟩, hover⟩ | ⟨⟨r, hr⟩, hfine⟩
    · exact .inl ⟨⟨err, by rw [herr]; rfl⟩, h, hover⟩
    · refine .inr ⟨?_, fun hover => hfine hover.2⟩
      rw [hr]
      cases r with
      | inl message => exact ⟨_, rfl, responds_refuse ..⟩
      | inr fact => exact ⟨_, rfl, responds_ack d (d.emitHost fact) rfl (.stay _) _⟩

theorem raises_userFeedback (d : Daemon) (env : DispatchEnv) (id : String) (command : Message) :
    d.RaisesIff id (d.phase ≠ .awaitingHello ∧ FeedbackOverflow env.py command)
      (d.userFeedback env id command) := by
  unfold userFeedback ifReady
  split
  · next h => exact .inr ⟨⟨_, rfl, responds_refuse ..⟩, fun hover => hover.1 h⟩
  · next h =>
    rcases parseUserFeedback_error env.py command with ⟨⟨err, herr⟩, hover⟩ | ⟨⟨r, hr⟩, hfine⟩
    · exact .inl ⟨⟨err, by rw [herr]; rfl⟩, h, hover⟩
    · refine .inr ⟨?_, fun hover => hfine hover.2⟩
      rw [hr]
      cases r with
      | inl message => exact ⟨_, rfl, responds_refuse ..⟩
      | inr fact =>
        by_cases hstored : env.stored = true
        · refine ⟨{ d with feedback := d.feedback ++ [fact] }.ack id, ?_,
            responds_ack d { d with feedback := d.feedback ++ [fact] } rfl (.stay _) _⟩
          simp [bind, Except.bind, hstored, pure, Except.pure]
        · refine ⟨d.refuse id .invalidPayload "feedback storage failed", ?_, responds_refuse ..⟩
          simp [bind, Except.bind, hstored, pure, Except.pure]

/-- A telemetry command that is past its other checks and has an oversized timestamp. -/
def CommandOverflow (d : Daemon) (py : PyText) (command : Message) (type : String) : Prop :=
  d.phase ≠ .awaitingHello ∧ d.phase ≠ .shuttingDown ∧
    (type = "host_interaction" ∧ HostOverflow py command ∨
      type = "user_feedback" ∧ FeedbackOverflow py command)

/-- **A command of a known type.** -/
theorem raises_handle (d : Daemon) (env : DispatchEnv) (command : Message) {type : String}
    (htype : type ∈ hostCommands) (id : String) :
    d.RaisesIff id (d.CommandOverflow env.py command type) (d.handle env command type id) := by
  -- A command of one of the other types responds.
  have hother : ∀ {d'}, d.Responds id d' → type ≠ "host_interaction" → type ≠ "user_feedback" →
      d.RaisesIff id (d.CommandOverflow env.py command type) (.ok d') := by
    intro d' hd hhost hfeedback
    refine .inr ⟨⟨d', rfl, hd⟩, ?_⟩
    rintro ⟨-, -, ⟨h, -⟩ | ⟨h, -⟩⟩
    · exact hhost h
    · exact hfeedback h
  unfold handle
  by_cases hshutdown : type = "shutdown"
  · rw [if_pos hshutdown]
    have hsent : (d.shutdownSync (some id)).Sent (encodeMessage "shutdown_ack" (some id) []) :=
      ⟨by simp, fun _ => rfl⟩
    exact hother ⟨.shutdown _, _, rfl, requestId_encode, hsent⟩ (by simp [hshutdown]) (by simp [hshutdown])
  rw [if_neg hshutdown]
  by_cases hlive : d.phase = .shuttingDown
  · rw [if_pos hlive]
    exact .inr ⟨⟨_, rfl, responds_refuse ..⟩, fun h => h.2.1 hlive⟩
  rw [if_neg hlive]
  simp only [hostCommands, List.mem_cons, List.not_mem_nil, or_false] at htype
  rcases htype with rfl | rfl | rfl | rfl | rfl | rfl | rfl | rfl | rfl
  · exact hother (responds_hello d id) (by decide) (by decide)
  · exact hother (responds_start hlive) (by decide) (by decide)
  · exact hother (responds_pause hlive) (by decide) (by decide)
  · exact hother (responds_resume hlive) (by decide) (by decide)
  · exact hother (responds_setWatchlist d id command) (by decide) (by decide)
  · exact hother (responds_getState d env id) (by decide) (by decide)
  · have h := raises_hostInteraction d env id command
    simpa [CommandOverflow, RaisesIff, hlive] using h
  · have h := raises_userFeedback d env id command
    simpa [CommandOverflow, RaisesIff, hlive] using h
  · exact absurd rfl hshutdown

/-- The line is a command past the checks of the envelope, of a known type. -/
def LineCommand (py : PyText) (line : String) (command : Message) (type id : String) : Prop :=
  isBlank line = false ∧ py.loads (strip line) = some (.obj command) ∧
    (Json.field command "protocol_version").eqInt protocolVersion = true ∧
      Json.field command "type" = .str type ∧ type ≠ "" ∧
        Json.field command "request_id" = .str id ∧ id ≠ ""

/-- The line is a telemetry command that raises. -/
def Overflows (d : Daemon) (py : PyText) (line : String) : Prop :=
  ∃ command type id, LineCommand py line command type id ∧ type ∈ hostCommands ∧
    d.CommandOverflow py command type

/-- A line is answered: by nothing when it is blank, and else by one message, with the request id when
the line carries a non-empty one under a supported version. -/
structure Answers (d : Daemon) (py : PyText) (line : String) (d' : Daemon) : Prop where
  move : PhaseMove d.phase d'.phase
  blank : isBlank line = true → d'.written = d.written
  once : isBlank line = false → ∃ m, d'.written = d.written ++ [m] ∧
    ∀ command id, py.loads (strip line) = some (.obj command) →
      (Json.field command "protocol_version").eqInt protocolVersion = true →
        Json.field command "request_id" = .str id → id ≠ "" → Json.field m "request_id" = .str id

/-- What `decode_line` returns, with what it has checked. -/
theorem decodeLine_cases (py : PyText) (line : String) :
    (isBlank line = true ∧ decodeLine py line = .blank) ∨
    (isBlank line = false ∧ ∃ m, decodeLine py line = .error m ∧
      (∀ command type id, ¬ LineCommand py line command type id) ∧
      ∀ command id, py.loads (strip line) = some (.obj command) →
        (Json.field command "protocol_version").eqInt protocolVersion = true →
          Json.field command "request_id" = .str id → Json.field m "request_id" = .str id) ∨
    ∃ command type, isBlank line = false ∧ py.loads (strip line) = some (.obj command) ∧
      (Json.field command "protocol_version").eqInt protocolVersion = true ∧
        Json.field command "type" = .str type ∧ type ≠ "" ∧
          decodeLine py line = .command command type := by
  unfold decodeLine LineCommand
  by_cases hblank : isBlank line = true
  · exact .inl ⟨hblank, if_pos hblank⟩
  refine .inr ?_
  simp only [hblank, Bool.false_eq_true, if_false, true_and]
  cases hloads : py.loads (strip line) with
  | none => exact .inl ⟨_, rfl, by simp, by simp⟩
  | some value =>
    cases value with
    | obj raw =>
      by_cases hversion : (Json.field raw "protocol_version").eqInt protocolVersion = true
      · -- Only a command of this version with a type is handed on.
        cases htype : Json.field raw "type" with
        | str type =>
          by_cases hempty : type = ""
          · refine .inl ⟨_, by simp [hversion, htype, hempty]; rfl, ?_, ?_⟩
            · rintro command type' id ⟨hc, -, ht, hne, -⟩
              cases hc
              rw [htype] at ht
              cases ht
              exact hne hempty
            · rintro command id hc - hid
              cases hc
              rw [hid]
              exact requestId_encode
          · exact .inr ⟨raw, type, rfl, hversion, htype, hempty, by simp [hversion, htype, hempty]⟩
        | null | bool | int | float | list | obj =>
          refine .inl ⟨_, by simp [hversion, htype]; rfl, ?_, ?_⟩
          · rintro command type' id ⟨hc, -, ht, -⟩
            cases hc
            rw [htype] at ht
            cases ht
          · rintro command id hc - hid
            cases hc
            rw [hid]
            exact requestId_encode
      · -- Another version is answered before the type is looked at.
        refine .inl ⟨_, by simp [hversion]; rfl, ?_, ?_⟩
        · rintro command type' id ⟨hc, hv, -⟩
          cases hc
          exact hversion hv
        · rintro command id hc hv
          cases hc
          exact absurd hv hversion
    | null | bool | int | float | list | str => exact .inl ⟨_, rfl, by simp, by simp⟩

/-- **A line raises nothing and is answered once, unless it overflows.** -/
theorem dispatch_answers_iff (d : Daemon) (env : DispatchEnv) (line : String) :
    (∃ d', d.dispatchLine env line = .ok d' ∧ d.Answers env.py line d') ↔
      ¬ d.Overflows env.py line := by
  unfold dispatchLine
  rcases decodeLine_cases env.py line with ⟨hblank, heq⟩ | ⟨hline, m, heq, hnone, hecho⟩ |
    ⟨command, type, hline, hloads, hversion, htype, hne, heq⟩ <;> rw [heq] <;> dsimp only
  · refine iff_of_true ⟨d, rfl, .stay _, fun _ => rfl, fun h => ?_⟩ ?_
    · exact absurd (hblank.symm.trans h) (by simp)
    · rintro ⟨_, _, _, ⟨h, -⟩, -⟩
      exact absurd (hblank.symm.trans h) (by simp)
  · refine iff_of_true ⟨d.send m, rfl, .stay _, fun h => ?_, fun _ => ⟨m, rfl, ?_⟩⟩ ?_
    · exact absurd (hline.symm.trans h) (by simp)
    · exact fun command id hc hv hid _ => hecho command id hc hv hid
    · rintro ⟨command, type, id, hcommand, -⟩
      exact hnone command type id hcommand
  · have hsame : ∀ {command' : Message}, env.py.loads (strip line) = some (.obj command') →
        command' = command := by
      intro command' h
      rw [hloads] at h
      cases h
      rfl
    -- An answer in the same phase.
    have hsend : ∀ m, (∀ id, Json.field command "request_id" = .str id → id ≠ "" →
        Json.field m "request_id" = .str id) → d.Answers env.py line (d.send m) := by
      intro m hm
      refine ⟨.stay _, fun h => absurd (hline.symm.trans h) (by simp), fun _ => ⟨m, rfl, ?_⟩⟩
      intro command' id hc _ hid hid'
      obtain rfl := hsame hc
      exact hm id hid hid'
    by_cases hknown : type ∈ hostCommands
    · rw [if_neg (not_not.2 hknown)]
      have hover : ∀ id, Json.field command "request_id" = .str id → id ≠ "" →
          (d.Overflows env.py line ↔ d.CommandOverflow env.py command type) := by
        intro id hid hid'
        refine ⟨?_, fun h => ⟨command, type, id, ⟨hline, hloads, hversion, htype, hne, hid, hid'⟩,
          hknown, h⟩⟩
        rintro ⟨command', type', id', ⟨-, hc, -, ht, -⟩, -, h⟩
        obtain rfl := hsame hc
        rw [htype] at ht
        cases ht
        exact h
      by_cases hid : ∃ id, Json.field command "request_id" = .str id ∧ id ≠ ""
      · obtain ⟨id, hid, hid'⟩ := hid
        rw [hover id hid hid', hid]
        simp only [textOf, if_neg hid']
        rcases raises_handle d env command hknown id with ⟨⟨err, herr⟩, hoverflow⟩ |
          ⟨⟨d', hd', hresponds⟩, hfine⟩
        · refine iff_of_false ?_ (not_not.2 hoverflow)
          rintro ⟨d', hd', -⟩
          rw [herr] at hd'
          cases hd'
        · obtain ⟨m, hm, hmid, -⟩ := hresponds.once
          refine iff_of_true ⟨d', hd', hresponds.move, fun h => ?_, fun _ => ⟨m, hm, ?_⟩⟩ hfine
          · exact absurd (hline.symm.trans h) (by simp)
          · intro command' id' hc _ hid'' _
            obtain rfl := hsame hc
            rw [hid] at hid''
            cases hid''
            exact hmid
      · -- The request id is missing.
        have hmissing : ∀ id, Json.field command "request_id" = .str id → id ≠ "" → False :=
          fun id h h' => hid ⟨id, h, h'⟩
        have hanswers := hsend (encodeError .missingRequestId "request_id is required" none)
          fun id h h' => (hmissing id h h').elim
        have hfine : ¬ d.Overflows env.py line := by
          rintro ⟨command', type', id', ⟨-, hc, -, -, -, hid', hne'⟩, -⟩
          obtain rfl := hsame hc
          exact hmissing id' hid' hne'
        refine iff_of_true ?_ hfine
        cases htext : textOf (Json.field command "request_id") with
        | none => exact ⟨_, rfl, hanswers⟩
        | some id =>
          have hstr : Json.field command "request_id" = .str id := by
            unfold textOf at htext
            split at htext
            · next heq => rw [heq]; cases htext; rfl
            · cases htext
          by_cases hempty : id = ""
          · exact ⟨_, if_pos hempty, hanswers⟩
          · exact (hmissing id hstr hempty).elim
    · rw [if_pos hknown]
      refine iff_of_true ⟨_, rfl, hsend _ fun id hid _ => ?_⟩ ?_
      · rw [hid]
        exact requestId_encode
      · rintro ⟨command', type', id', ⟨-, hc, -, ht, -⟩, hmem, -⟩
        obtain rfl := hsame hc
        rw [htype] at ht
        cases ht
        exact hknown hmem

/-- A badge reset at the time 10 ^ 400. -/
def lateReset : Message :=
  [("protocol_version", .int 1), ("type", .str "host_interaction"), ("request_id", .str "r1"),
    ("action", .str "alert_badge_reset"), ("created_timestamp", .int (10 ^ 400))]

/-- The text of an object, from what stands between its braces. -/
def objectText (members : List Char) : String :=
  String.ofList ('\x7b' :: (members ++ ['\x7d']))

theorem isBlank_objectText (members : List Char) : isBlank (objectText members) = false := by
  simp [isBlank, objectText, isSpace]

theorem strip_objectText (members : List Char) : strip (objectText members) = objectText members := by
  have hopen : isSpace '\x7b' = false := by decide
  have hclose : isSpace '\x7d' = false := by decide
  unfold strip objectText
  rw [String.toList_ofList, List.dropWhile_cons_of_neg (by simp [hopen]), ← List.cons_append,
    List.rdropWhile_concat_neg _ _ _ (by simp [hclose])]

/-- The line of `lateReset`. -/
def lateResetLine : String :=
  objectText ("\"protocol_version\": 1, \"type\": \"host_interaction\", \"request_id\": \"r1\", ".toList ++
    "\"action\": \"alert_badge_reset\", \"created_timestamp\": 1".toList ++ List.replicate 400 '0')

/-- `json.loads` on that line. -/
def lateResetText : PyText where
  loads text := if text = lateResetLine then some (.obj lateReset) else none
  repr _ := ""

theorem lateReset_raises (py : PyText) :
    parseHostInteraction py lateReset = .error .overflowError := by
  have hextra : extraKeys hostAllowedKeys lateReset = [] := by decide +kernel
  have haction : hostAction lateReset = some ("alert_badge_reset", .alertBadgeReset) := by decide +kernel
  have hcreated : Json.field lateReset "created_timestamp" = .int (10 ^ 400) := rfl
  have hlimit : Json.intToFloat (10 ^ 400) = none := by decide +kernel
  simp only [parseHostInteraction, keyError, hextra, haction, hcreated, parseTimestamp, hlimit]
  rfl

/-- A ready daemon raises on any line that reads as `lateReset`. -/
theorem dispatch_lateReset (env : DispatchEnv) {line : String} (hline : isBlank line = false)
    (hloads : env.py.loads (strip line) = some (.obj lateReset)) :
    ({ engine := {}, phase := .ready } : Daemon).dispatchLine env line = .error .overflowError := by
  have hversion : (Json.field lateReset "protocol_version").eqInt protocolVersion = true := by
    decide +kernel
  have htype : Json.field lateReset "type" = .str "host_interaction" := rfl
  have hid : textOf (Json.field lateReset "request_id") = some "r1" := rfl
  have hdecode : decodeLine env.py line = .command lateReset "host_interaction" := by
    simp [decodeLine, hline, hloads, hversion, htype]
  simp only [dispatchLine, hdecode, hid]
  simp [hostCommands, handle, hostInteraction, ifReady, lateReset_raises, bind, Except.bind]

/-- The daemon raises on the line of `lateReset`. -/
theorem dispatch_raises :
    ({ engine := {}, phase := .ready } : Daemon).dispatchLine ⟨lateResetText, 0, false, true⟩ lateResetLine =
      .error .overflowError := by
  have hstrip : strip lateResetLine = lateResetLine := by
    unfold lateResetLine
    exact strip_objectText _
  refine dispatch_lateReset _ (isBlank_objectText _) ?_
  show lateResetText.loads (strip lateResetLine) = _
  rw [hstrip]
  simp [lateResetText]

end Daemon

end MarketSentinel
