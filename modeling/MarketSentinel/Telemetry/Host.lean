import Mathlib.Data.List.Sort
import MarketSentinel.Ipc.Codec

/-!
# Host commands with a telemetry payload

`telemetry/host_interaction.py` and `telemetry/user_feedback.py`: the two parsers return the message
of the error or the fact; `float(created)` of an integer may raise.

* `parseTimestamp_error`: the one way for a parser to raise.
-/

namespace MarketSentinel

open Lib

/-- `TELEMETRY_DENYLIST`. -/
def telemetryDenylist : List String :=
  ["workspace", "source_code", "conversation", "files", "ticks", "snapshots", "ring_buffer",
    "features", "prompt", "api_key", "title", "summary", "reason", "notes", "session_id", "event_ids",
    "rule_names", "priority_reason", "delete_event", "rewrite_threshold", "mutate_signal",
    "apply_online"]

/-- The keys of a command outside a list, `sorted`. -/
def extraKeys (allowed : List String) (command : Message) : List String :=
  ((command.map Prod.fst).dedup.filter fun key => decide (key ∉ allowed)).insertionSort (· ≤ ·)

/-- `repr` of a list of strings. -/
def PyText.reprKeys (py : PyText) (keys : List String) : String := py.repr (.list (keys.map .str))

/-- The key checks that both parsers start with. -/
def keyError (py : PyText) (allowed : List String) (command : Message) : Option String :=
  let extra := extraKeys allowed command
  let denied := extra.filter fun key => decide (key ∈ telemetryDenylist)
  if denied ≠ [] then some ("denied keys: " ++ py.reprKeys denied)
  else if extra ≠ [] then some ("unknown keys: " ++ py.reprKeys extra)
  else none

/-- `isinstance(created, int | float)`, no `bool`, and `math.isfinite(float(created))`. -/
def parseTimestamp : Json → Except PyError (Option ℚ)
  | .int n =>
    match Json.intToFloat n with
    | none => .error .overflowError
    | some (.finite q) => .ok (some q)
    | some _ => .ok none
  | .float (.finite q) => .ok (some q)
  | _ => .ok none

/-- An integer that `float` refuses. -/
def Oversized : Json → Prop
  | .int n => Json.floatLimit ≤ n ∨ n ≤ -Json.floatLimit
  | _ => False

/-- **Converting a timestamp raises on an oversized integer, and on nothing else.** -/
theorem parseTimestamp_error (created : Json) :
    (parseTimestamp created = .error .overflowError ∧ Oversized created) ∨
      (∃ q, parseTimestamp created = .ok q) ∧ ¬ Oversized created := by
  cases created with
  | int n =>
    by_cases h : Json.floatLimit ≤ n ∨ n ≤ -Json.floatLimit
    · exact .inl ⟨by simp [parseTimestamp, Json.intToFloat_eq_none.2 h], h⟩
    · refine .inr ⟨?_, h⟩
      simp [parseTimestamp, Json.intToFloat, h]
  | float x => cases x <;> exact .inr ⟨⟨_, rfl⟩, id⟩
  | null => exact .inr ⟨⟨_, rfl⟩, id⟩
  | bool b => exact .inr ⟨⟨_, rfl⟩, id⟩
  | str s => exact .inr ⟨⟨_, rfl⟩, id⟩
  | list xs => exact .inr ⟨⟨_, rfl⟩, id⟩
  | obj fields => exact .inr ⟨⟨_, rfl⟩, id⟩

/-! ## host_interaction -/

def hostAllowedKeys : List String :=
  ["protocol_version", "type", "request_id", "action", "signal_id", "created_timestamp"]

/-- `HOST_INTERACTION_ACTIONS`. -/
def hostInteractionAction : String → Option TelemetryName
  | "alert_presented" => some .alertPresented
  | "alert_badge_reset" => some .alertBadgeReset
  | "signal_opened" => some .signalOpened
  | "alert_dismissed" => some .alertDismissed
  | "signal_muted" => some .signalMuted
  | _ => none

/-- `_SIGNAL_REQUIRED`. -/
def signalRequired (name : TelemetryName) : Bool :=
  name ∈ [TelemetryName.alertPresented, .signalOpened, .alertDismissed, .signalMuted]

/-- `_HOST_ACTION`, on the names that an action has. -/
def hostActionOf : TelemetryName → String
  | .alertPresented => "presented"
  | .alertBadgeReset => "reset_unread"
  | .signalOpened => "opened"
  | .alertDismissed => "dismissed"
  | _ => "muted"

structure HostInteractionFact where
  name : TelemetryName
  createdTimestamp : Option ℚ
  signalId : Option String
  hostAction : String
  deriving DecidableEq, Repr

def notFinite : String := "created_timestamp must be a finite number"

/-- The checks of `parse_host_interaction` on the signal id. -/
def hostSignal (action : String) (name : TelemetryName) (created : Option ℚ) (signalId : Json) :
    String ⊕ HostInteractionFact :=
  let blank : Bool := match signalId with
    | .null => false
    | .str s => isBlank s
    | _ => true
  if blank then .inl "signal_id must be a non-empty string when present"
  else if signalRequired name && (textOf signalId).isNone then .inl (action ++ " requires signal_id")
  else
    .inr
      { name := name
        createdTimestamp := created
        -- A reset of the badge is about no signal, whichever it names.
        signalId := if name = .alertBadgeReset then none else textOf signalId
        hostAction := hostActionOf name }

/-- The action of a command. -/
def hostAction (command : Message) : Option (String × TelemetryName) :=
  (textOf (Json.field command "action")).bind fun action =>
    (hostInteractionAction action).map fun name => (action, name)

/-- `parse_host_interaction`: the message of the error, or the fact. -/
def parseHostInteraction (py : PyText) (command : Message) :
    Except PyError (String ⊕ HostInteractionFact) :=
  match keyError py hostAllowedKeys command with
  | some message => .ok (.inl message)
  | none =>
    match hostAction command with
    | none => .ok (.inl "action is invalid")
    | some (action, name) =>
      match Json.field command "created_timestamp" with
      | .null => .ok (hostSignal action name none (Json.field command "signal_id"))
      | created => do
        match ← parseTimestamp created with
        | none => return .inl notFinite
        | some q => return hostSignal action name (some q) (Json.field command "signal_id")

/-! ## user_feedback -/

def feedbackAllowedKeys : List String :=
  ["protocol_version", "type", "request_id", "signal_id", "feedback_type", "created_timestamp"]

inductive FeedbackLabel
  | useful | notUseful | tooNoisy | tooLate
  deriving DecidableEq, Repr

/-- `FeedbackLabel(raw_type)`. -/
def FeedbackLabel.parse : String → Option FeedbackLabel
  | "useful" => some .useful
  | "not_useful" => some .notUseful
  | "too_noisy" => some .tooNoisy
  | "too_late" => some .tooLate
  | _ => none

structure UserFeedbackFact where
  signalId : String
  label : FeedbackLabel
  createdTimestamp : ℚ
  deriving DecidableEq, Repr

/-- `value if isinstance(value, str) and value.strip() != ""`. -/
def nonBlankText (value : Json) : Option String := (textOf value).filter fun s => !isBlank s

/-- `parse_user_feedback`: the message of the error, or the fact. -/
def parseUserFeedback (py : PyText) (command : Message) :
    Except PyError (String ⊕ UserFeedbackFact) :=
  match keyError py feedbackAllowedKeys command with
  | some message => .ok (.inl message)
  | none =>
    match (textOf (Json.field command "feedback_type")).bind FeedbackLabel.parse with
    | none => .ok (.inl "feedback_type is invalid")
    | some label =>
      match nonBlankText (Json.field command "signal_id") with
      | none => .ok (.inl "signal_id is required")
      | some signalId =>
        match Json.field command "created_timestamp" with
        | .null => .ok (.inl "created_timestamp is required")
        | created => do
          match ← parseTimestamp created with
          | none => return .inl notFinite
          | some q => return .inr ⟨signalId, label, q⟩

/-! ## When a parser raises -/

/-- A `host_interaction` whose keys and action pass, with an oversized timestamp. -/
def HostOverflow (py : PyText) (command : Message) : Prop :=
  keyError py hostAllowedKeys command = none ∧ (hostAction command).isSome ∧
    Oversized (Json.field command "created_timestamp")

/-- A `user_feedback` whose other checks pass, with an oversized timestamp. -/
def FeedbackOverflow (py : PyText) (command : Message) : Prop :=
  keyError py feedbackAllowedKeys command = none ∧
    ((textOf (Json.field command "feedback_type")).bind FeedbackLabel.parse).isSome ∧
      (nonBlankText (Json.field command "signal_id")).isSome ∧
        Oversized (Json.field command "created_timestamp")

theorem parseHostInteraction_error (py : PyText) (command : Message) :
    ((∃ err, parseHostInteraction py command = .error err) ∧ HostOverflow py command) ∨
      (∃ r, parseHostInteraction py command = .ok r) ∧ ¬ HostOverflow py command := by
  unfold parseHostInteraction HostOverflow
  cases hkey : keyError py hostAllowedKeys command with
  | some message => exact .inr ⟨⟨_, rfl⟩, by simp⟩
  | none =>
    cases haction : hostAction command with
    | none => exact .inr ⟨⟨_, rfl⟩, by simp⟩
    | some a =>
      generalize Json.field command "created_timestamp" = created
      rcases parseTimestamp_error created with ⟨hraise, hover⟩ | ⟨⟨q, hq⟩, hfine⟩
      · refine .inl ⟨?_, rfl, rfl, hover⟩
        cases created <;> simp_all [Oversized, bind, Except.bind]
      · refine .inr ⟨?_, fun h => hfine h.2.2⟩
        cases created <;> simp only [hq, bind, Except.bind, pure, Except.pure] <;> first
          | exact ⟨_, rfl⟩
          | (cases q <;> exact ⟨_, rfl⟩)

theorem parseUserFeedback_error (py : PyText) (command : Message) :
    ((∃ err, parseUserFeedback py command = .error err) ∧ FeedbackOverflow py command) ∨
      (∃ r, parseUserFeedback py command = .ok r) ∧ ¬ FeedbackOverflow py command := by
  unfold parseUserFeedback FeedbackOverflow
  cases hkey : keyError py feedbackAllowedKeys command with
  | some message => exact .inr ⟨⟨_, rfl⟩, by simp⟩
  | none =>
    cases hlabel : (textOf (Json.field command "feedback_type")).bind FeedbackLabel.parse with
    | none => exact .inr ⟨⟨_, rfl⟩, by simp⟩
    | some label =>
      cases hsignal : nonBlankText (Json.field command "signal_id") with
      | none => exact .inr ⟨⟨_, rfl⟩, by simp⟩
      | some signalId =>
        generalize Json.field command "created_timestamp" = created
        rcases parseTimestamp_error created with ⟨hraise, hover⟩ | ⟨⟨q, hq⟩, hfine⟩
        · refine .inl ⟨?_, rfl, rfl, rfl, hover⟩
          cases created <;> simp_all [Oversized, bind, Except.bind]
        · refine .inr ⟨?_, fun h => hfine h.2.2.2⟩
          cases created <;> simp only [hq, bind, Except.bind, pure, Except.pure] <;> first
            | exact ⟨_, rfl⟩
            | (cases q <;> exact ⟨_, rfl⟩)

end MarketSentinel
