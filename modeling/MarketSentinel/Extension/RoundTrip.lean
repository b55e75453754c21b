import MarketSentinel.Extension.Guards
import MarketSentinel.Ipc.Tasks

/-!
# What the host reads is what the core sent

The wire form of `ipc/dto.py` read back by the guards, one lemma for each level of it, and the
messages that the daemon writes.

* `parseSymbolState_toWire`, `parseMarketState_toWire`, `parseCandidate_toWire`: a record is read back.
* `CoreSend.parse_encode`: so is a message; the empty request id of an error reads as no id.
-/

namespace MarketSentinel.Extension

open Lib TelemetryEvent

/-! ## Members -/

/-- An optional field is there when it is not null. -/
theorem lookup_member {A : Type} (key key' : String) (encode : A → Json) (v : Option A) :
    (member key' encode v).lookup key = if key = key' then v.map encode else none := by
  cases v with
  | none => simp [member]
  | some x =>
    have hcons : (member key' encode (some x)).lookup key =
        match key == key' with | true => some (encode x) | false => none := rfl
    rw [hcons]
    by_cases h : key = key'
    · rw [beq_iff_eq.2 h, if_pos h]
      rfl
    · rw [beq_eq_false_iff_ne.2 h, if_neg h]

/-- A flag is there when it is true. -/
theorem lookup_flag (key key' : String) (b : Bool) :
    (flag key' b).lookup key = if key = key' then (if b then some (.bool true) else none) else none := by
  cases b with
  | false => simp [flag]
  | true =>
    have hmember := lookup_member key key' Json.bool (some true)
    exact hmember

theorem one_lt_floatLimit : (1 : ℤ) < Json.floatLimit := by
  have hpow : (2 : ℤ) ^ 1024 = 2 ^ 970 * 2 ^ 54 := by rw [← pow_add]
  have hpos : (0 : ℤ) < 2 ^ 970 := pow_pos (by norm_num) 970
  unfold Json.floatLimit
  rw [hpow]
  generalize (2 : ℤ) ^ 970 = x at hpos
  omega

/-- A count below the greatest float is a finite number. -/
theorem isFiniteNumber_int {n : ℕ} (h : (n : ℤ) < Json.floatLimit) :
    isFiniteNumber (some (.int n)) = some (n : ℚ) := by
  have hpos : ¬ (n : ℤ) ≤ -Json.floatLimit := by
    have hlimit := one_lt_floatLimit
    omega
  have hint : Json.intToFloat n = some (.finite (nearestFloat n)) := by
    unfold Json.intToFloat
    rw [if_neg (by omega)]
  simp only [isFiniteNumber, hint, Option.map_some, Int.cast_natCast]

/-- A number or null is read back. -/
theorem isNumberOrNull_numberField (q : Option ℚ) : isNumberOrNull (some (numberField q)) = some q := by
  cases q <;> rfl

/-- A text of an enumeration is read back. -/
theorem includes_of_mem {allowed : List String} {s : String} (h : s ∈ allowed) :
    includes allowed (some (.str s)) = some s := by
  simp only [includes, isString, Option.filter_some, h, decide_true, if_true]

variable {record : Message} {key : String}

theorem required_some {A : Type} (error : String) (x : A) : required error (some x) = .ok x := rfl

/-- A field with a number or null is read back. -/
theorem readNumberOrNull_of_prop {q : Option ℚ} (h : prop record key = some (numberField q)) :
    readNumberOrNull record key = .ok q := by
  unfold readNumberOrNull
  rw [h, isNumberOrNull_numberField]
  rfl

/-- A number that is left out when there is none reads as `null` then. -/
theorem readOptionalNumberOrNull_of_prop {q : Option ℚ} (h : prop record key = q.map number) :
    readOptionalNumberOrNull record key = .ok q := by
  unfold readOptionalNumberOrNull
  cases q with
  | none =>
    rw [h]
    rfl
  | some q =>
    rw [h]
    exact readNumberOrNull_of_prop h

/-- A flag that was omitted is read as absent. -/
theorem readOptionalBoolOrNull_of_prop {b : Option Bool} (h : prop record key = b.map .bool) :
    readOptionalBoolOrNull record key = .ok b := by
  unfold readOptionalBoolOrNull
  cases b <;> rw [h] <;> rfl

/-- A flag that is left out when it is false reads as false then. -/
theorem readOptionalBool_of_prop {b : Bool} (h : prop record key = if b then some (.bool true) else none) :
    readOptionalBool record key = .ok b := by
  unfold readOptionalBool
  cases b <;> rw [h] <;> rfl

/-- An optional field that was written is read back, and one that was omitted is absent. -/
theorem optional_of_prop {A : Type} {encode : A → Json} (guard : Option Json → Except String A)
    {v : Option A} (h : prop record key = v.map encode)
    (hguard : ∀ x ∈ v, guard (some (encode x)) = .ok x) : optional guard (prop record key) = .ok v := by
  rw [h]
  cases v with
  | none => rfl
  | some x =>
    show (guard (some (encode x))).map some = .ok (some x)
    rw [hguard x rfl]
    rfl

/-- The count of an acknowledgement is read back. -/
theorem optional_count {count : Option ℕ} (error : String)
    (h : ∀ n ∈ count, (n : ℤ) < Json.floatLimit) :
    optional (fun v => required error (isFiniteNumber v)) (count.map fun n : ℕ => Json.int n) =
      .ok (count.map (↑)) := by
  cases count with
  | none => rfl
  | some n =>
    simp only [Option.map_some, optional, isFiniteNumber_int (h n rfl), required_some]
    rfl

/-- Items that are read back each are read back together. -/
theorem parseItems_of_forall {A B : Type} {parse : Option Json → String → Except String B}
    {encode : A → Json} (read : A → B) {items : List A} (label : String)
    (h : ∀ x ∈ items, ∀ label, parse (some (encode x)) label = .ok (read x)) :
    parseItems label parse (items.map encode) = .ok (items.map read) := by
  unfold parseItems
  have hstep : ∀ k, ((items.map encode).zipIdx k).mapM
      (fun entry => parse (some entry.1) (label ++ "[" ++ toString entry.2 ++ "]")) =
        .ok (items.map read) := by
    induction items with
    | nil => intro k; rfl
    | cons x items ih =>
      intro k
      have hrest := ih (fun y hy => h y (List.mem_cons_of_mem _ hy)) (k + 1)
      rw [List.map_cons, List.zipIdx_cons, List.mapM_cons]
      dsimp only
      rw [h x List.mem_cons_self, ok_bind, hrest, ok_bind]
      rfl
  exact hstep 0

/-! ## Records -/

/-- The enumerated members are those of the enumerations. -/
def ValidIntelligence (i : WireIntelligence) : Prop := i.status ∈ intelStatuses

/-- What the guard asks of a signal. -/
structure ValidSignal (s : WireSignal) : Prop where
  direction : s.direction ∈ directions
  priority : s.priority ∈ priorities
  intelligence : ∀ i ∈ s.intelligence, ValidIntelligence i

/-- What the guard asks of the state of a symbol. -/
structure ValidSymbolState (s : WireSymbolState) : Prop where
  level : s.schedulerLevel ∈ schedulerLevels
  feed : s.feedStatus ∈ feedStatuses
  signals : ∀ a ∈ s.activeSignals, ValidSignal a

/-- What the guard asks of a state. -/
structure ValidMarketState (s : WireMarketState) : Prop where
  feed : s.feedStatus ∈ feedStatuses
  symbols : ∀ row ∈ s.symbols, ValidSymbolState row

/-- What the guard asks of an alert candidate. -/
structure ValidCandidate (c : WireAlertCandidate) : Prop where
  direction : c.direction ∈ directions
  priority : c.priority ∈ priorities

/-- An annotation is read back. -/
theorem parseIntelligence_toWire {i : WireIntelligence} (h : ValidIntelligence i) (label : String) :
    parseIntelligence (some i.toWire) label = .ok i := by
  set record : Message := [("status", .str i.status)] ++ member "summary" .str i.summary ++
    member "reason" .str i.reason ++ member "confidence" number i.confidence ++
    member "fallback_reason" .str i.fallbackReason ++ member "worth_highlight" .bool i.worthHighlight
    with hdef
  have hrecord : isRecord (some i.toWire) = some record := rfl
  have hstatus : includes intelStatuses (prop record "status") = some i.status := includes_of_mem h
  have hprop : prop record "summary" = i.summary.map .str ∧ prop record "reason" = i.reason.map .str ∧
      prop record "confidence" = i.confidence.map number ∧
      prop record "fallback_reason" = i.fallbackReason.map .str ∧
      prop record "worth_highlight" = i.worthHighlight.map .bool := by
    simp [prop, hdef, List.lookup_append, List.lookup_cons, lookup_member]
  obtain ⟨hsummary, hreason, hconfidence, hfallback, hworth⟩ := hprop
  have htext : ∀ {v : Option String} {key : String} (error : String), prop record key = v.map .str →
      optional (fun x => required error (isString x)) (prop record key) = .ok v :=
    fun error hv => optional_of_prop _ hv fun _ _ => rfl
  have hnumber := optional_of_prop
    (fun v => required (label ++ ".confidence must be a number") (isFiniteNumber v)) hconfidence
    fun _ _ => rfl
  have hbool := optional_of_prop
    (fun v => required (label ++ ".worth_highlight must be a boolean") (isBoolean v)) hworth
    fun _ _ => rfl
  simp only [parseIntelligence, hrecord, hstatus, required_some, htext _ hsummary, htext _ hreason,
    htext _ hfallback, hnumber, hbool, ok_bind]
  rfl

/-- The members that a signal and a candidate share. -/
theorem parseSignal_of_members (record : Message) {value : Json} {s : WireSignal}
    (hrecord : isRecord (some value) = some record)
    (hid : prop record "id" = some (.str s.id)) (hfamily : prop record "family" = some (.str s.family))
    (htitle : prop record "title" = some (.str s.title))
    (hsummary : prop record "summary" = some (.str s.summary))
    (hdirection : prop record "direction" = some (.str s.direction))
    (hpriority : prop record "priority" = some (.str s.priority))
    (hintelligence : prop record "intelligence" = s.intelligence.map WireIntelligence.toWire)
    (h : ValidSignal s) (label : String) : parseSignal (some value) label = .ok s := by
  have hread := optional_of_prop (fun v => parseIntelligence v (label ++ ".intelligence"))
    hintelligence fun i hi => parseIntelligence_toWire (h.intelligence i hi) _
  simp only [parseSignal, hrecord, hid, hfamily, htitle, hsummary, hdirection, hpriority, hread,
    includes_of_mem h.direction, includes_of_mem h.priority, isString, required_some, ok_bind]
  rfl

/-- A signal is read back. -/
theorem parseSignal_toWire {s : WireSignal} (h : ValidSignal s) (label : String) :
    parseSignal (some s.toWire) label = .ok s := by
  refine parseSignal_of_members ([("id", .str s.id), ("family", .str s.family),
    ("direction", .str s.direction), ("priority", .str s.priority), ("title", .str s.title),
    ("summary", .str s.summary)] ++ member "intelligence" WireIntelligence.toWire s.intelligence)
    rfl rfl rfl rfl rfl rfl rfl ?_ h label
  simp [prop, List.lookup_cons, lookup_member]

/-- The state of a symbol is read back. -/
theorem parseSymbolState_toWire {s : WireSymbolState} (h : ValidSymbolState s) :
    parseSymbolState (some s.toWire) = .ok s := by
  set record : Message := [("symbol", .str s.symbol), ("price", numberField s.price),
    ("scheduler_level", .str s.schedulerLevel), ("feed_status", .str s.feedStatus),
    ("change_1m", numberField s.change1m), ("change_5m", numberField s.change5m),
    ("change_15m", numberField s.change15m), ("volume_ratio_1m", numberField s.volumeRatio1m),
    ("volume_ratio_5m", numberField s.volumeRatio5m), ("ema5", numberField s.ema5),
    ("ema20", numberField s.ema20), ("rsi14", numberField s.rsi14), ("vwap", numberField s.vwap),
    ("active_signals", .list (s.activeSignals.map WireSignal.toWire))] ++
    member "change_day" number s.changeDay ++ member "above_vwap" .bool s.aboveVwap ++
    member "session_high_obs" number s.sessionHighObs ++
    member "session_low_obs" number s.sessionLowObs ++
    member "session_high_ref" number s.sessionHighRef ++
    member "session_low_ref" number s.sessionLowRef ++
    member "market_timestamp" number s.marketTimestamp with hdef
  have hrecord : isRecord (some s.toWire) = some record := rfl
  have hsymbol : isString (prop record "symbol") = some s.symbol := rfl
  have hlevel : includes schedulerLevels (prop record "scheduler_level") = some s.schedulerLevel :=
    includes_of_mem h.level
  have hfeed : includes feedStatuses (prop record "feed_status") = some s.feedStatus :=
    includes_of_mem h.feed
  have hsignals : isArray (prop record "active_signals") =
      some (s.activeSignals.map WireSignal.toWire) := rfl
  have hactive := parseItems_of_forall id "active_signals"
    fun a ha label => parseSignal_toWire (h.signals a ha) label
  rw [List.map_id] at hactive
  -- The members that are always there are found by evaluation, those that may be absent by their lookups.
  have hnumbers : readNumberOrNull record "price" = .ok s.price ∧
      readNumberOrNull record "change_1m" = .ok s.change1m ∧
      readNumberOrNull record "change_5m" = .ok s.change5m ∧
      readNumberOrNull record "change_15m" = .ok s.change15m ∧
      readNumberOrNull record "volume_ratio_1m" = .ok s.volumeRatio1m ∧
      readNumberOrNull record "volume_ratio_5m" = .ok s.volumeRatio5m ∧
      readNumberOrNull record "ema5" = .ok s.ema5 ∧ readNumberOrNull record "ema20" = .ok s.ema20 ∧
      readNumberOrNull record "rsi14" = .ok s.rsi14 ∧ readNumberOrNull record "vwap" = .ok s.vwap := by
    refine ⟨?_, ?_, ?_, ?_, ?_, ?_, ?_, ?_, ?_, ?_⟩ <;> exact readNumberOrNull_of_prop rfl
  have hprop : prop record "change_day" = s.changeDay.map number ∧
      prop record "session_high_obs" = s.sessionHighObs.map number ∧
      prop record "session_low_obs" = s.sessionLowObs.map number ∧
      prop record "session_high_ref" = s.sessionHighRef.map number ∧
      prop record "session_low_ref" = s.sessionLowRef.map number ∧
      prop record "market_timestamp" = s.marketTimestamp.map number ∧
      prop record "above_vwap" = s.aboveVwap.map .bool := by
    simp [prop, hdef, List.lookup_append, List.lookup_cons, lookup_member]
  obtain ⟨hprice, h1m, h5m, h15m, hr1m, hr5m, hema5, hema20, hrsi, hvwap⟩ := hnumbers
  obtain ⟨hday, hhigh, hlow, hhighRef, hlowRef, htime, habove⟩ := hprop
  simp only [parseSymbolState, hrecord, hsymbol, hlevel, hfeed, hprice, h1m, h5m, h15m, hr1m, hr5m,
    hema5, hema20, hrsi, hvwap, readOptionalNumberOrNull_of_prop hday,
    readOptionalNumberOrNull_of_prop hhigh, readOptionalNumberOrNull_of_prop hlow,
    readOptionalNumberOrNull_of_prop hhighRef, readOptionalNumberOrNull_of_prop hlowRef,
    readOptionalNumberOrNull_of_prop htime, readOptionalBoolOrNull_of_prop habove, hsignals, required_some,
    hactive, ok_bind]
  rfl

/-- What the host holds of a state. -/
def received (s : WireMarketState) : MarketStateView where
  watchlistCount := s.watchlistCount
  feedStatus := s.feedStatus
  symbols := s.symbols
  intelligenceEnabled := s.intelligenceEnabled
  replayComplete := s.replayComplete
  lastMarketTimestamp := s.lastMarketTimestamp

/-- A state is read back. -/
theorem parseMarketState_toWire {s : WireMarketState} (h : ValidMarketState s)
    (hcount : (s.watchlistCount : ℤ) < Json.floatLimit) :
    parseMarketState (some s.toWire) = .ok (received s) := by
  set record : Message := [("watchlist_count", .int s.watchlistCount),
    ("feed_status", .str s.feedStatus), ("symbols", .list (s.symbols.map WireSymbolState.toWire))] ++
    flag "intelligence_enabled" s.intelligenceEnabled ++ flag "replay_complete" s.replayComplete ++
    member "last_market_timestamp" number s.lastMarketTimestamp with hdef
  have hrecord : isRecord (some s.toWire) = some record := rfl
  have hnumber : isFiniteNumber (prop record "watchlist_count") = some (s.watchlistCount : ℚ) :=
    isFiniteNumber_int hcount
  have hfeed : includes feedStatuses (prop record "feed_status") = some s.feedStatus :=
    includes_of_mem h.feed
  have harray : isArray (prop record "symbols") = some (s.symbols.map WireSymbolState.toWire) := rfl
  have hrows : (s.symbols.map WireSymbolState.toWire).mapM (fun item => parseSymbolState (some item)) =
      .ok s.symbols := by
    rw [List.mapM_map]
    have hmap := mapM_eq_map (l := s.symbols) (g := id) (f := fun row => parseSymbolState (some row.toWire))
      fun row hrow => parseSymbolState_toWire (h.symbols row hrow)
    rw [List.map_id] at hmap
    exact hmap
  have hprop : prop record "intelligence_enabled" =
        (if s.intelligenceEnabled then some (.bool true) else none) ∧
      prop record "replay_complete" = (if s.replayComplete then some (.bool true) else none) ∧
      prop record "last_market_timestamp" = s.lastMarketTimestamp.map number := by
    simp [prop, hdef, List.lookup_append, List.lookup_cons, lookup_member, lookup_flag]
  obtain ⟨henabled, hreplay, hlast⟩ := hprop
  simp only [parseMarketState, hrecord, hnumber, hfeed, harray, hrows, readOptionalBool_of_prop henabled,
    readOptionalBool_of_prop hreplay, readOptionalNumberOrNull_of_prop hlast, required_some, ok_bind]
  rfl

/-- What the host holds of a candidate. -/
def receivedCandidate (c : WireAlertCandidate) : AlertCandidateView where
  signal :=
    { id := c.id
      family := c.family
      direction := c.direction
      priority := c.priority
      title := c.title
      summary := c.summary }
  symbol := c.symbol

/-- A candidate is read back. -/
theorem parseCandidate_toWire {c : WireAlertCandidate} (h : ValidCandidate c) (label : String) :
    parseCandidate (some c.toWire) label = .ok (receivedCandidate c) := by
  have hsignal : parseSignal (some c.toWire) label = .ok (receivedCandidate c).signal :=
    parseSignal_of_members ([("id", .str c.id), ("symbol", .str c.symbol),
      ("family", .str c.family), ("direction", .str c.direction), ("priority", .str c.priority),
      ("title", .str c.title), ("summary", .str c.summary)])
      rfl rfl rfl rfl rfl rfl rfl rfl ⟨h.direction, h.priority, fun _ hi => by cases hi⟩ label
  simp only [parseCandidate, hsignal, ok_bind]
  rfl

/-! ## What the engine reports -/

/-- The signals of the engine are valid. -/
theorem validSignal_mapSignal (a : Signal) (r : Option IntelligenceResult) :
    ValidSignal (mapSignal a r) where
  direction := by
    show a.direction.value ∈ directions
    cases a.direction <;> decide
  priority := by
    show a.priority.value ∈ priorities
    cases a.priority <;> decide
  intelligence := by
    intro i hi
    have hi : mapIntelligence r a.id = some i := hi
    unfold mapIntelligence at hi
    dsimp only at hi
    split at hi
    · cases hi
    · cases hi
      show (intelligenceView r a.id).status.value ∈ intelStatuses
      cases (intelligenceView r a.id).status <;> decide

/-- So are the states of its symbols. -/
theorem validSymbolState_mapSymbolState (symbol : String) (state : Option MarketState)
    (intelligenceOf : String → Option IntelligenceResult) :
    ValidSymbolState (mapSymbolState symbol state intelligenceOf) where
  level := by
    show ((state.map MarketState.level).getD .cold).value ∈ schedulerLevels
    cases (state.map MarketState.level).getD .cold <;> decide
  feed := by
    show ((state.map MarketState.feedStatus).getD .disconnected).value ∈ feedStatuses
    cases (state.map MarketState.feedStatus).getD .disconnected <;> decide
  signals := by
    intro a ha
    obtain ⟨item, -, rfl⟩ := List.mem_map.1 ha
    exact validSignal_mapSignal item _

theorem validMarketState_mapEngineState (e : MarketEngine) (now : ℚ) (exhausted : Bool) :
    ValidMarketState (mapEngineState e now exhausted).1 where
  feed := by
    show (e.health.aggregateStatus now e.watchlist.enabledSymbols).1.value ∈ feedStatuses
    cases (e.health.aggregateStatus now e.watchlist.enabledSymbols).1 <;> decide
  symbols := by
    intro row hrow
    obtain ⟨item, -, rfl⟩ := List.mem_map.1 hrow
    exact validSymbolState_mapSymbolState _ _ _

theorem validCandidate_mapTickAlerts (tick : EngineTickResult) :
    ∀ c ∈ (mapTickAlerts tick).1, ValidCandidate c := by
  intro c hc
  obtain ⟨a, -, rfl⟩ := List.mem_map.1 hc
  constructor
  · show a.direction.value ∈ directions
    cases a.direction <;> decide
  · show a.priority.value ∈ priorities
    cases a.priority <;> decide

/-! ## Messages -/

/-- What the daemon sends. -/
inductive CoreSend
  | ready (id : String)
  | ack (id : String) (watchlistCount : Option ℕ)
  | error (id : Option String) (code : ErrorCode) (message : String)
  | state (id : Option String) (payload : WireMarketState)
  | alert (candidates : List WireAlertCandidate) (marketTimestamp : Option ℚ)
  | shutdownAck (id : Option String)

namespace CoreSend

def encode : CoreSend → Message
  | ready id => encodeMessage "ready" (some id) [("core_version", .str coreVersion)]
  | ack id count =>
    encodeMessage "ack" (some id) (member "watchlist_count" (fun n : ℕ => .int n) count)
  | error id code message => encodeError code message id
  | state id payload => encodeMessage "state" id [("state", payload.toWire)]
  | alert candidates marketTimestamp => alertMessage candidates marketTimestamp
  | shutdownAck id => encodeMessage "shutdown_ack" id []

/-- What the host makes of it: the same content, but an empty id of an error is no id. -/
def read : CoreSend → CoreMessage
  | ready id => .ready id coreVersion
  | ack id count => .ack id (count.map (↑))
  | error id code message => .error (id.filter (· ≠ "")) code.value message
  | state id payload => .state id (received payload)
  | alert candidates marketTimestamp => .alert none (candidates.map receivedCandidate) marketTimestamp
  | shutdownAck id => .shutdownAck id

/-- Its states and alerts are those of an engine, and only an error carries an empty id. -/
def Genuine : CoreSend → Prop
  | ready id => id ≠ ""
  | ack id _ => id ≠ ""
  | error .. => True
  | state id payload =>
    id ≠ some "" ∧ ∃ e now exhausted, payload = (mapEngineState e now exhausted).1
  | alert candidates marketTimestamp => ∃ tick, (candidates, marketTimestamp) = mapTickAlerts tick
  | shutdownAck id => id ≠ some ""

/-- Its numbers are finite floats; all but the length of a list are so by their type. -/
def FiniteNumbers : CoreSend → Prop
  | ack _ (some count) => (count : ℤ) < Json.floatLimit
  | state _ payload => (payload.watchlistCount : ℤ) < Json.floatLimit
  | _ => True

end CoreSend

variable {t : String} {fields : Message} {type : CoreMessageType}

theorem lookup_encodeMessage (key t : String) (id : Option String) (fields : Message) :
    (encodeMessage t id fields).lookup key =
      if key = "protocol_version" then some (.int protocolVersion)
      else if key = "type" then some (.str t)
      else (member "request_id" .str id ++ fields).lookup key := by
  have hcons : encodeMessage t id fields = ("protocol_version", .int protocolVersion) :: ("type", .str t) ::
      (member "request_id" .str id ++ fields) := by
    cases id <;> rfl
  rw [hcons, List.lookup_cons, List.lookup_cons]
  by_cases h1 : key = "protocol_version"
  · rw [beq_iff_eq.2 h1, if_pos h1]
  · rw [beq_eq_false_iff_ne.2 h1, if_neg h1]
    by_cases h2 : key = "type"
    · rw [beq_iff_eq.2 h2, if_pos h2]
    · rw [beq_eq_false_iff_ne.2 h2, if_neg h2]

theorem peekRequestId_encode (t : String) (id : Option String) (h : fields.lookup "request_id" = none) :
    peekRequestId (some (.obj (encodeMessage t id fields))) = id.filter (· ≠ "") := by
  have hprop : prop (encodeMessage t id fields) "request_id" = id.map .str := by
    unfold prop
    rw [lookup_encodeMessage, if_neg (by decide), if_neg (by decide), List.lookup_append, lookup_member,
      if_pos rfl, h, Option.or_none]
  show (isString (prop (encodeMessage t id fields) "request_id")).filter (· ≠ "") = _
  rw [hprop]
  cases id <;> rfl

/-- The parse of an encoded message is that of its body. -/
theorem parseCoreMessage_encode (type : CoreMessageType) (id : Option String) (fields : Message)
    (h : fields.lookup "request_id" = none) {m : CoreMessage}
    (hbody : parseBody (encodeMessage type.value id fields) (id.filter (· ≠ "")) type = .ok m) :
    parseCoreMessage (.obj (encodeMessage type.value id fields)) = .ok m := by
  have hversion : isFiniteNumber (prop (encodeMessage type.value id fields) "protocol_version") =
      some (protocolVersion : ℚ) := by
    unfold prop
    rw [lookup_encodeMessage, if_pos rfl]
    exact isFiniteNumber_int (n := 1) one_lt_floatLimit
  have htype : coreType (prop (encodeMessage type.value id fields) "type") = some type := by
    unfold prop
    rw [lookup_encodeMessage, if_neg (by decide), if_pos rfl, coreType_value]
  have hrecord : isRecord (some (.obj (encodeMessage type.value id fields))) =
      some (encodeMessage type.value id fields) := rfl
  have hparse : parseMessage (.obj (encodeMessage type.value id fields)) = .ok m := by
    simp only [parseMessage, hrecord, required_some, ok_bind, if_pos hversion, htype,
      peekRequestId_encode _ _ h]
    exact hbody
  unfold parseCoreMessage
  rw [hparse]

theorem filter_nonempty {id : Option String} (h : id ≠ some "") : id.filter (· ≠ "") = id := by
  cases id with
  | none => rfl
  | some s =>
    have hs : s ≠ "" := fun heq => h (congrArg some heq)
    rw [Option.filter_some, decide_eq_true hs]
    rfl

/-- A member of the body of an encoded message. -/
theorem prop_encode (key : String) (h1 : key ≠ "protocol_version") (h2 : key ≠ "type")
    (h3 : key ≠ "request_id") (t : String) (id : Option String) (fields : Message) :
    prop (encodeMessage t id fields) key = fields.lookup key := by
  unfold prop
  rw [lookup_encodeMessage, if_neg h1, if_neg h2, List.lookup_append, lookup_member, if_neg h3,
    Option.none_or]

namespace CoreSend

/-- **A message is read back.** -/
theorem parse_encode {sent : CoreSend} (h : sent.Genuine) (hfinite : sent.FiniteNumbers) :
    parseCoreMessage (.obj sent.encode) = .ok sent.read := by
  cases sent with
  | ready id =>
    refine parseCoreMessage_encode .ready (some id) [("core_version", .str coreVersion)] rfl ?_
    rw [filter_nonempty fun heq => h (Option.some.inj heq)]
    simp only [parseBody, required_some, ok_bind,
      prop_encode "core_version" (by decide) (by decide) (by decide)]
    rfl
  | ack id count =>
    refine parseCoreMessage_encode .ack (some id) (member "watchlist_count" (fun n : ℕ => .int n) count)
      ?_ ?_
    · rw [lookup_member, if_neg (by decide)]
    · rw [filter_nonempty fun heq => h (Option.some.inj heq)]
      simp only [parseBody, required_some, ok_bind,
        prop_encode "watchlist_count" (by decide) (by decide) (by decide), lookup_member, if_true]
      refine bind_eq_ok.2 ⟨_, optional_count _ fun n hn => ?_, rfl⟩
      cases hn
      exact hfinite
  | error id code message =>
    refine parseCoreMessage_encode .error id [("code", .str code.value), ("message", .str message)]
      rfl ?_
    simp only [parseBody, prop_encode "code" (by decide) (by decide) (by decide),
      prop_encode "message" (by decide) (by decide) (by decide)]
    rfl
  -- States and alerts are read back because the core built them, with finite numbers and with statuses of the lists.
  | state id payload =>
    obtain ⟨hid, e, now, exhausted, rfl⟩ := h
    have hstate := parseMarketState_toWire (validMarketState_mapEngineState e now exhausted) hfinite
    refine parseCoreMessage_encode .state id [("state", (mapEngineState e now exhausted).1.toWire)]
      rfl ?_
    rw [filter_nonempty hid]
    simp only [parseBody, prop_encode "state" (by decide) (by decide) (by decide)]
    exact bind_eq_ok.2 ⟨_, hstate, rfl⟩
  | alert candidates marketTimestamp =>
    obtain ⟨tick, htick⟩ := h
    have hvalid := validCandidate_mapTickAlerts tick
    rw [← htick] at hvalid
    have hitems := parseItems_of_forall receivedCandidate "candidates"
      fun c hc label => parseCandidate_toWire (hvalid c hc) label
    refine parseCoreMessage_encode .alert none
      [("candidates", .list (candidates.map WireAlertCandidate.toWire)),
        ("market_timestamp", numberField marketTimestamp)] rfl ?_
    simp only [parseBody, prop_encode "candidates" (by decide) (by decide) (by decide),
      prop_encode "market_timestamp" (by decide) (by decide) (by decide)]
    refine bind_eq_ok.2 ⟨_, rfl, bind_eq_ok.2 ⟨_, hitems, bind_eq_ok.2 ⟨marketTimestamp, ?_, rfl⟩⟩⟩
    show required _ (isNumberOrNull (some (numberField marketTimestamp))) = _
    rw [isNumberOrNull_numberField, required_some]
  | shutdownAck id =>
    refine parseCoreMessage_encode .shutdownAck id [] rfl ?_
    rw [filter_nonempty h]
    rfl

end CoreSend

end MarketSentinel.Extension
