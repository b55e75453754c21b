import MarketSentinel.Domain.Model

/-!
# Event rules

The six rules of `events/rules` and the detector that asks them in order. Each rule
emits at most one event per feature snapshot, so the `uuid4` draws of one evaluation
are given as a function of the event type (`newId`).

* `evaluate_stamp`: every event of an evaluation carries the snapshot's symbol and
  timestamps and the id drawn for its type.
* `evaluate_types`: the events of an evaluation have distinct types.
-/

namespace MarketSentinel

/-! ## Thresholds -/

def rapid1mSev2 : ℚ := 6 / 1000
def rapid1mSev3 : ℚ := 10 / 1000
def rapid5mSev3 : ℚ := 12 / 1000
def rapid1mSev4 : ℚ := 15 / 1000
def rapid5mSev4 : ℚ := 20 / 1000
def rapid5mSev5 : ℚ := 35 / 1000

def vol5mSev2 : ℚ := 18 / 10
def vol5mSev3 : ℚ := 25 / 10
def vol1mSev3 : ℚ := 3
def vol5mSev4 : ℚ := 4
def vol5mSev5 : ℚ := 6

def breakoutSev4 : ℚ := 3 / 1000
def breakoutSev5 : ℚ := 8 / 1000

def vwapCrossSev3At5m : ℚ := 8 / 1000

def ttlShortS : ℚ := 60
def ttlLongS : ℚ := 120

/-! ## Severities and directions -/

/-- Python's `severity or None`. -/
def orNone (severity : ℤ) : Option ℤ := if severity = 0 then none else some severity

/-- The severity of a rapid move. -/
def rapidMoveSeverity (change1m change5m : Option ℚ) : Option ℤ :=
  let severity : ℤ := 0
  let severity := match change1m with
    | none => severity
    | some c =>
      if rapid1mSev4 ≤ |c| then max severity 4
      else if rapid1mSev3 ≤ |c| then max severity 3
      else if rapid1mSev2 ≤ |c| then max severity 2
      else severity
  let severity := match change5m with
    | none => severity
    | some c =>
      if rapid5mSev5 ≤ |c| then max severity 5
      else if rapid5mSev4 ≤ |c| then max severity 4
      else if rapid5mSev3 ≤ |c| then max severity 3
      else severity
  orNone severity

/-- The severity of a volume spike. -/
def volumeSpikeSeverity (ratio1m ratio5m : Option ℚ) : Option ℤ :=
  let severity : ℤ := 0
  let severity := match ratio5m with
    | none => severity
    | some r =>
      if vol5mSev5 ≤ r then max severity 5
      else if vol5mSev4 ≤ r then max severity 4
      else if vol5mSev3 ≤ r then max severity 3
      else if vol5mSev2 ≤ r then max severity 2
      else severity
  let severity := match ratio1m with
    | none => severity
    | some r => if vol1mSev3 ≤ r then max severity 3 else severity
  orNone severity

/-- The severity of a change over one minute. -/
def oneMinuteSeverity (magnitude : ℚ) : ℤ :=
  if rapid1mSev4 ≤ magnitude then 4
  else if rapid1mSev3 ≤ magnitude then 3
  else if rapid1mSev2 ≤ magnitude then 2
  else 0

/-- The severity of a change over five minutes. -/
def fiveMinuteSeverity (magnitude : ℚ) : ℤ :=
  if rapid5mSev5 ≤ magnitude then 5
  else if rapid5mSev4 ≤ magnitude then 4
  else if rapid5mSev3 ≤ magnitude then 3
  else 0

/-- The direction of the change that makes the severity. -/
def moveDirection (change1m change5m : Option ℚ) (severity : ℤ) : EventDirection :=
  let chosen : Option ℚ := none
  let chosen := match change5m with
    | some c => if fiveMinuteSeverity |c| = severity then some c else chosen
    | none => chosen
  -- The one-minute change is looked at last, so it is preferred.
  let chosen := match change1m with
    | some c => if oneMinuteSeverity |c| = severity then some c else chosen
    | none => chosen
  -- No horizon has the severity: any change that is there.
  let chosen := match chosen with
    | some c => some c
    | none => if change1m.isSome then change1m else change5m
  match chosen with
  | none => .none
  | some c => if c = 0 then .none else if 0 < c then .up else .down

/-- The severity of a breakout, by its excess. -/
def breakoutSeverity (excess : ℚ) : ℤ :=
  if breakoutSev5 ≤ excess then 5
  else if breakoutSev4 ≤ excess then 4
  else 3

/-- The deduplication key `f"{symbol}|{event_type.value}|{direction.value}"`. -/
def dedupeKeyOf (symbol : String) (eventType : EventType) (direction : EventDirection) : String :=
  symbol ++ ("|" ++ eventType.value ++ "|" ++ direction.value)

/-- `build_event`. -/
def buildEvent (newId : EventType → String) (current : MarketFeatures) (eventType : EventType)
    (direction : EventDirection) (severity : ℤ) (detectedAt : ℚ) (metrics : List (String × Metric))
    (ttlS : ℚ) (ruleName : String) : MarketEvent where
  id := newId eventType
  symbol := current.symbol
  type := eventType
  direction := direction
  severity := severity
  marketTimestamp := current.marketTimestamp
  receivedTimestamp := current.receivedTimestamp
  detectedTimestamp := detectedAt
  metrics := metrics
  dedupeKey := dedupeKeyOf current.symbol eventType direction
  ttlS := ttlS
  ruleName := ruleName

/-! ## The rules -/

/-- A rule: the ids its evaluation draws, the two feature snapshots, the detection time. -/
abbrev EventRule :=
  (EventType → String) → Option MarketFeatures → MarketFeatures → ℚ → List MarketEvent

def rapidMoveRule : EventRule := fun newId _ current detectedAt =>
  match rapidMoveSeverity current.change1m current.change5m with
  | none => []
  | some severity =>
    let direction := moveDirection current.change1m current.change5m severity
    [buildEvent newId current .rapidMove direction severity detectedAt
      [("change_1m", .ofOption current.change1m), ("change_5m", .ofOption current.change5m)]
      ttlShortS EventType.rapidMove.value]

def volumeSpikeRule : EventRule := fun newId _ current detectedAt =>
  match volumeSpikeSeverity current.volumeRatio1m current.volumeRatio5m with
  | none => []
  | some severity =>
    [buildEvent newId current .volumeSpike .none severity detectedAt
      [("volume_ratio_1m", .ofOption current.volumeRatio1m),
        ("volume_ratio_5m", .ofOption current.volumeRatio5m)]
      ttlLongS EventType.volumeSpike.value]

def priceVolumeExpansionRule : EventRule := fun newId _ current detectedAt =>
  let move := rapidMoveSeverity current.change1m current.change5m
  let volume := volumeSpikeSeverity current.volumeRatio1m current.volumeRatio5m
  match move, volume with
  | some move, some volume =>
    if move < 2 ∨ volume < 2 then []
    else
      let severity := min 5 (max move volume + 1)
      let direction := moveDirection current.change1m current.change5m move
      [buildEvent newId current .priceVolumeExpansion direction severity detectedAt
        [("change_1m", .ofOption current.change1m), ("change_5m", .ofOption current.change5m),
          ("volume_ratio_1m", .ofOption current.volumeRatio1m),
          ("volume_ratio_5m", .ofOption current.volumeRatio5m),
          ("move_severity", .float move), ("volume_severity", .float volume)]
        ttlLongS EventType.priceVolumeExpansion.value]
  | _, _ => []

def dayHighBreakoutRule : EventRule := fun newId _ current detectedAt =>
  match current.sessionHighRef with
  | none => []
  | some ref =>
    let obs := current.sessionHighObs
    if ref ≤ 0 then []
    else if obs ≤ ref then []
    else
      let excess := (obs - ref) / ref
      [buildEvent newId current .dayHighBreakout .up (breakoutSeverity excess) detectedAt
        [("session_high_ref", .float ref), ("session_high_obs", .float obs),
          ("excess", .float excess)]
        ttlShortS EventType.dayHighBreakout.value]

def dayLowBreakdownRule : EventRule := fun newId _ current detectedAt =>
  match current.sessionLowRef with
  | none => []
  | some ref =>
    let obs := current.sessionLowObs
    if ref ≤ 0 then []
    else if ref ≤ obs then []
    else
      let excess := (ref - obs) / ref
      [buildEvent newId current .dayLowBreakdown .down (breakoutSeverity excess) detectedAt
        [("session_low_ref", .float ref), ("session_low_obs", .float obs),
          ("excess", .float excess)]
        ttlShortS EventType.dayLowBreakdown.value]

def vwapCrossRule : EventRule := fun newId previous current detectedAt =>
  match previous with
  | none => []
  | some previous =>
    -- The VWAP has to be there, though only the sides are compared.
    match previous.aboveVwap, current.aboveVwap, current.vwap with
    | some before, some above, some vwap =>
      if before = above then []
      else
        let direction := if above then EventDirection.up else EventDirection.down
        let severity : ℤ := match current.change5m with
          | some c => if vwapCrossSev3At5m ≤ |c| then 3 else 2
          | none => 2
        [buildEvent newId current .vwapCross direction severity detectedAt
          [("vwap", .float vwap), ("above_vwap", .bool above),
            ("change_5m", .ofOption current.change5m)]
          ttlShortS EventType.vwapCross.value]
    | _, _, _ => []

def defaultRules : List EventRule :=
  [rapidMoveRule, volumeSpikeRule, priceVolumeExpansionRule, dayHighBreakoutRule,
    dayLowBreakdownRule, vwapCrossRule]

/-- `EventDetector.evaluate` with the default rules. -/
def evaluate (newId : EventType → String) (detectedAt : ℚ) (previous : Option MarketFeatures)
    (current : MarketFeatures) : List MarketEvent :=
  defaultRules.flatMap fun rule => rule newId previous current detectedAt

/-! ## What an evaluation emits -/

/-- The events of one evaluation: built from the snapshot, with the id drawn for the type. -/
structure Stamped (newId : EventType → String) (detectedAt : ℚ) (current : MarketFeatures)
    (e : MarketEvent) : Prop where
  id : e.id = newId e.type
  symbol : e.symbol = current.symbol
  market : e.marketTimestamp = current.marketTimestamp
  received : e.receivedTimestamp = current.receivedTimestamp
  detected : e.detectedTimestamp = detectedAt
  dedupe : e.dedupeKey = dedupeKeyOf current.symbol e.type e.direction
  rule : e.ruleName = e.type.value

/-- A rule emits nothing, or one stamped event of its own type. -/
def Emits (t : EventType) (rule : EventRule) : Prop :=
  ∀ newId previous current detectedAt, rule newId previous current detectedAt = [] ∨
    ∃ e, rule newId previous current detectedAt = [e] ∧ e.type = t ∧
      Stamped newId detectedAt current e

/-- An event carries the symbol and the market time of the features. -/
theorem buildEvent_stamped (newId : EventType → String) (current : MarketFeatures) (t : EventType)
    (d : EventDirection) (sev : ℤ) (at_ : ℚ) (ms : List (String × Metric)) (ttl : ℚ) :
    Stamped newId at_ current (buildEvent newId current t d sev at_ ms ttl t.value) :=
  ⟨rfl, rfl, rfl, rfl, rfl, rfl, rfl⟩

/-- Each rule emits events of one type. -/
theorem rapidMoveRule_emits : Emits .rapidMove rapidMoveRule := by
  intro newId previous current at_
  unfold rapidMoveRule
  split
  · exact .inl rfl
  · exact .inr ⟨_, rfl, rfl, buildEvent_stamped ..⟩

theorem volumeSpikeRule_emits : Emits .volumeSpike volumeSpikeRule := by
  intro newId previous current at_
  unfold volumeSpikeRule
  split
  · exact .inl rfl
  · exact .inr ⟨_, rfl, rfl, buildEvent_stamped ..⟩

theorem priceVolumeExpansionRule_emits : Emits .priceVolumeExpansion priceVolumeExpansionRule := by
  intro newId previous current at_
  unfold priceVolumeExpansionRule
  dsimp only
  split
  · split
    · exact .inl rfl
    · exact .inr ⟨_, rfl, rfl, buildEvent_stamped ..⟩
  · exact .inl rfl

theorem dayHighBreakoutRule_emits : Emits .dayHighBreakout dayHighBreakoutRule := by
  intro newId previous current at_
  unfold dayHighBreakoutRule
  dsimp only
  split
  · exact .inl rfl
  · split_ifs
    · exact .inl rfl
    · exact .inl rfl
    · exact .inr ⟨_, rfl, rfl, buildEvent_stamped ..⟩

theorem dayLowBreakdownRule_emits : Emits .dayLowBreakdown dayLowBreakdownRule := by
  intro newId previous current at_
  unfold dayLowBreakdownRule
  dsimp only
  split
  · exact .inl rfl
  · split_ifs
    · exact .inl rfl
    · exact .inl rfl
    · exact .inr ⟨_, rfl, rfl, buildEvent_stamped ..⟩

theorem vwapCrossRule_emits : Emits .vwapCross vwapCrossRule := by
  intro newId previous current at_
  unfold vwapCrossRule
  dsimp only
  split
  · exact .inl rfl
  · split
    · split
      · exact .inl rfl
      · exact .inr ⟨_, rfl, rfl, buildEvent_stamped ..⟩
    · exact .inl rfl

/-- The default rules with the type each emits. -/
theorem defaultRules_emit :
    List.Forall₂ Emits [.rapidMove, .volumeSpike, .priceVolumeExpansion, .dayHighBreakout,
      .dayLowBreakdown, .vwapCross] defaultRules :=
  .cons rapidMoveRule_emits <| .cons volumeSpikeRule_emits <|
    .cons priceVolumeExpansionRule_emits <| .cons dayHighBreakoutRule_emits <|
    .cons dayLowBreakdownRule_emits <| .cons vwapCrossRule_emits .nil

variable {newId : EventType → String} {detectedAt : ℚ} {previous : Option MarketFeatures}
  {current : MarketFeatures}

/-- So the type of an event tells its rule. -/
theorem Emits.type {t : EventType} {rule : EventRule} (h : Emits t rule) {event : MarketEvent}
    (hmem : event ∈ rule newId previous current detectedAt) : event.type = t := by
  rcases h newId previous current detectedAt with heq | ⟨event', heq, htype, -⟩
  · rw [heq] at hmem
    cases hmem
  · rw [heq, List.mem_singleton] at hmem
    exact hmem ▸ htype

/-- Rules of distinct types emit a sublist of those types, all stamped. -/
theorem flatMap_emits : ∀ {ts : List EventType} {rules : List EventRule},
    List.Forall₂ Emits ts rules →
      ((rules.flatMap fun r => r newId previous current detectedAt).map (·.type)).Sublist ts ∧
        ∀ e ∈ rules.flatMap fun r => r newId previous current detectedAt,
          Stamped newId detectedAt current e := by
  intro ts rules h
  induction h with
  | nil => exact ⟨.slnil, by simp⟩
  | @cons t rule ts rules hr _ ih =>
    rw [List.flatMap_cons]
    rcases hr newId previous current detectedAt with h | ⟨e, h, ht, he⟩
    · rw [h, List.nil_append]
      exact ⟨ih.1.cons _, ih.2⟩
    · rw [h, List.singleton_append, List.map_cons, ht]
      refine ⟨ih.1.cons_cons _, ?_⟩
      intro x hx
      rcases List.mem_cons.1 hx with hx | hx
      · exact hx ▸ he
      · exact ih.2 x hx

/-- **Every event of an evaluation is stamped from the snapshot.** -/
theorem evaluate_stamp : ∀ e ∈ evaluate newId detectedAt previous current,
    Stamped newId detectedAt current e := (flatMap_emits defaultRules_emit).2

/-- **The events of an evaluation have distinct types.** -/
theorem evaluate_types : ((evaluate newId detectedAt previous current).map (·.type)).Nodup :=
  List.Nodup.sublist (flatMap_emits defaultRules_emit).1 (by decide)

end MarketSentinel
