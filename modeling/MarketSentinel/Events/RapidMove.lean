import Mathlib.Tactic.Linarith
import Mathlib.Tactic.NormNum
import MarketSentinel.Events.Rules

/-!
# Severity and direction of a rapid move

`rapid_move_severity` climbs the two ladders inline, `move_direction` climbs them again in helper functions. A change
that is absent has severity 0.

* `rapidMoveSeverity_eq`: the severity is that of the steeper horizon.
* `moveDirection_spec`: the direction is the sign of a horizon that has the severity.
* `rapid_move_agrees`: both, the order of severities, and the events that carry them.
-/

namespace MarketSentinel

/-- The severity of one horizon, by its ladder. -/
def ownSeverity (ladder : ℚ → ℤ) (change : Option ℚ) : ℤ := change.elim 0 fun c => ladder |c|

/-- The sign of a change. -/
def signOf (change : ℚ) : EventDirection := if change = 0 then .none else if 0 < change then .up else .down

/-- The direction is the sign of a horizon whose own severity is this one. -/
def PointsTo (change1m change5m : Option ℚ) (severity : ℤ) (direction : EventDirection) : Prop :=
  ∃ c, (change1m = some c ∧ oneMinuteSeverity |c| = severity ∨ change5m = some c ∧ fiveMinuteSeverity |c| = severity) ∧
    c ≠ 0 ∧ direction = signOf c

/-- The change is at most as large as the other; an absent one is the smallest. -/
def Weaker (change change' : Option ℚ) : Prop := ∀ c ∈ change, ∃ c' ∈ change', |c| ≤ |c'|

/-! ## The ladders -/

/-- A greater change over a minute is no less severe. -/
theorem oneMinuteSeverity_mono {x y : ℚ} (h : x ≤ y) : oneMinuteSeverity x ≤ oneMinuteSeverity y := by
  unfold oneMinuteSeverity
  split_ifs <;> first | decide | (exfalso; linarith)

/-- Nor is one over five minutes. -/
theorem fiveMinuteSeverity_mono {x y : ℚ} (h : x ≤ y) : fiveMinuteSeverity x ≤ fiveMinuteSeverity y := by
  unfold fiveMinuteSeverity
  split_ifs <;> first | decide | (exfalso; linarith)

theorem oneMinuteSeverity_zero : oneMinuteSeverity 0 = 0 := by
  unfold oneMinuteSeverity rapid1mSev4 rapid1mSev3 rapid1mSev2
  norm_num

theorem fiveMinuteSeverity_zero : fiveMinuteSeverity 0 = 0 := by
  unfold fiveMinuteSeverity rapid5mSev5 rapid5mSev4 rapid5mSev3
  norm_num

/-- No severity is negative. -/
theorem ownSeverity_nonneg {ladder : ℚ → ℤ} (hmono : ∀ {x y}, x ≤ y → ladder x ≤ ladder y) (hzero : ladder 0 = 0)
    (change : Option ℚ) : 0 ≤ ownSeverity ladder change := by
  cases change with
  | none => exact le_rfl
  | some c => exact hzero ▸ hmono (abs_nonneg c)

/-- A stronger change is no less severe. -/
theorem ownSeverity_mono {ladder : ℚ → ℤ} (hmono : ∀ {x y}, x ≤ y → ladder x ≤ ladder y) (hzero : ladder 0 = 0)
    {change change' : Option ℚ} (h : Weaker change change') :
    ownSeverity ladder change ≤ ownSeverity ladder change' := by
  cases change with
  | none => exact ownSeverity_nonneg hmono hzero change'
  | some c =>
    obtain ⟨c', rfl, hle⟩ := h c rfl
    exact hmono hle

/-! ## The severity -/

section

variable {change1m change5m : Option ℚ} {severity : ℤ}

/-- **The severity is the larger one of the two horizons.** -/
theorem rapidMoveSeverity_eq (change1m change5m : Option ℚ) : rapidMoveSeverity change1m change5m =
    orNone (max (ownSeverity oneMinuteSeverity change1m) (ownSeverity fiveMinuteSeverity change5m)) := by
  unfold rapidMoveSeverity ownSeverity oneMinuteSeverity fiveMinuteSeverity
  cases change1m with
  | none =>
    cases change5m with
    | none => rfl
    | some c5 =>
      dsimp only [Option.elim]
      split_ifs <;> rfl
  | some c1 =>
    cases change5m with
    | none =>
      dsimp only [Option.elim]
      split_ifs <;> rfl
    | some c5 =>
      dsimp only [Option.elim]
      split_ifs <;> rfl

/-- A severity is there when it is not zero. -/
theorem orNone_eq_some {n : ℤ} : orNone severity = some n ↔ severity = n ∧ n ≠ 0 := by
  unfold orNone
  split
  · next h => exact iff_of_false nofun fun hn => hn.2 (hn.1 ▸ h)
  · next h =>
    rw [Option.some_inj]
    exact ⟨fun hn => ⟨hn, hn ▸ h⟩, And.left⟩

theorem orNone_eq_none : orNone severity = none ↔ severity = 0 := by
  unfold orNone
  split
  · next h => exact iff_of_true rfl h
  · next h => exact iff_of_false nofun h

theorem orNone_getD (severity : ℤ) : (orNone severity).getD 0 = severity := by
  unfold orNone
  split
  · next h => exact h.symm
  · rfl

/-! ## The direction -/

/-- The direction of a change that has the severity itself. -/
theorem pointsTo_some {c : ℚ} (hown : change1m = some c ∧ oneMinuteSeverity |c| = severity ∨
    change5m = some c ∧ fiveMinuteSeverity |c| = severity) (hne : severity ≠ 0) :
    PointsTo change1m change5m severity (signOf c) := by
  refine ⟨c, hown, ?_, rfl⟩
  rintro rfl
  rw [abs_zero, oneMinuteSeverity_zero, fiveMinuteSeverity_zero] at hown
  rcases hown with ⟨-, h⟩ | ⟨-, h⟩
  · exact hne h.symm
  · exact hne h.symm

/-- A severity that is not zero comes from a change. -/
theorem ownSeverity_eq {ladder : ℚ → ℤ} {change : Option ℚ} (hne : severity ≠ 0)
    (h : ownSeverity ladder change = severity) : ∃ c, change = some c ∧ ladder |c| = severity := by
  cases change with
  | none => exact absurd h.symm hne
  | some c => exact ⟨c, rfl, h⟩

/-- The one-minute change is looked at last. -/
theorem moveDirection_oneMinute {c : ℚ} (h : oneMinuteSeverity |c| = severity) :
    moveDirection (some c) change5m severity = signOf c := by
  unfold moveDirection
  dsimp only
  rw [if_pos h]
  rfl

/-- Without a one-minute change of that severity the five-minute one decides. -/
theorem moveDirection_fiveMinute {c : ℚ} (h : fiveMinuteSeverity |c| = severity)
    (hnot : ∀ c1, change1m = some c1 → oneMinuteSeverity |c1| ≠ severity) :
    moveDirection change1m (some c) severity = signOf c := by
  unfold moveDirection
  dsimp only
  rw [if_pos h]
  cases change1m with
  | none => rfl
  | some c1 =>
    dsimp only
    rw [if_neg (hnot c1 rfl)]
    rfl

/-- **The direction of a severity that a horizon has** is the sign of one that has it. -/
theorem moveDirection_spec (hne : severity ≠ 0) (hown : ownSeverity oneMinuteSeverity change1m = severity ∨
    ownSeverity fiveMinuteSeverity change5m = severity) :
    PointsTo change1m change5m severity (moveDirection change1m change5m severity) := by
  by_cases hone : ∃ c, change1m = some c ∧ oneMinuteSeverity |c| = severity
  · obtain ⟨c, rfl, hc⟩ := hone
    rw [moveDirection_oneMinute hc]
    exact pointsTo_some (.inl ⟨rfl, hc⟩) hne
  · obtain ⟨c, rfl, hc⟩ := ownSeverity_eq hne (hown.resolve_left fun h => hone (ownSeverity_eq hne h))
    rw [moveDirection_fiveMinute hc fun c1 hc1 h => hone ⟨c1, hc1, h⟩]
    exact pointsTo_some (.inr ⟨rfl, hc⟩) hne

/-- A move that points somewhere is no NONE event. -/
theorem PointsTo.ne_none {direction : EventDirection} (h : PointsTo change1m change5m severity direction) :
    direction ≠ .none := by
  obtain ⟨c, -, hne, rfl⟩ := h
  unfold signOf
  rw [if_neg hne]
  split <;> decide

/-- **The direction is that of a change with the severity.** -/
theorem rapidMove_pointsTo (h : rapidMoveSeverity change1m change5m = some severity) :
    PointsTo change1m change5m severity (moveDirection change1m change5m severity) := by
  rw [rapidMoveSeverity_eq, orNone_eq_some] at h
  obtain ⟨hmax, hne⟩ := h
  refine moveDirection_spec hne ?_
  rcases max_choice (ownSeverity oneMinuteSeverity change1m) (ownSeverity fiveMinuteSeverity change5m) with h | h
  · exact .inl (h.symm.trans hmax)
  · exact .inr (h.symm.trans hmax)

/-- The severity of a move grows with its changes. -/
theorem rapidMoveSeverity_mono {change1m' change5m' : Option ℚ} (h1 : Weaker change1m change1m')
    (h5 : Weaker change5m change5m') :
    (rapidMoveSeverity change1m change5m).getD 0 ≤ (rapidMoveSeverity change1m' change5m').getD 0 := by
  rw [rapidMoveSeverity_eq, rapidMoveSeverity_eq, orNone_getD, orNone_getD]
  exact max_le_max (ownSeverity_mono oneMinuteSeverity_mono oneMinuteSeverity_zero h1)
    (ownSeverity_mono fiveMinuteSeverity_mono fiveMinuteSeverity_zero h5)

end

/-! ## The events -/

section

variable {newId : EventType → String} {previous : Option MarketFeatures} {current : MarketFeatures} {detectedAt : ℚ}
  {event : MarketEvent}

/-- The direction of the event is that of a horizon with the severity of the move. -/
def Justified (current : MarketFeatures) (event : MarketEvent) : Prop :=
  ∃ severity, rapidMoveSeverity current.change1m current.change5m = some severity ∧
    PointsTo current.change1m current.change5m severity event.direction

/-- The events of the rule carry that severity and direction. -/
theorem rapidMoveRule_justified (h : event ∈ rapidMoveRule newId previous current detectedAt) :
    Justified current event := by
  unfold rapidMoveRule at h
  split at h
  · cases h
  · next severity hsome =>
    rw [List.mem_singleton] at h
    exact ⟨severity, hsome, h ▸ rapidMove_pointsTo hsome⟩

/-- So do those of the price and volume rule. -/
theorem priceVolumeExpansionRule_justified
    (h : event ∈ priceVolumeExpansionRule newId previous current detectedAt) : Justified current event := by
  unfold priceVolumeExpansionRule at h
  dsimp only at h
  split at h
  · next move volume hsome _ =>
    split at h
    · cases h
    · rw [List.mem_singleton] at h
      exact ⟨move, hsome, h ▸ rapidMove_pointsTo hsome⟩
  · cases h

theorem evaluate_justified (h : event ∈ evaluate newId detectedAt previous current)
    (htype : event.type = .rapidMove ∨ event.type = .priceVolumeExpansion) : Justified current event := by
  obtain ⟨rule, hrule, hevent⟩ := List.mem_flatMap.1 h
  have hother : ∀ {t : EventType}, Emits t rule → t ≠ .rapidMove → t ≠ .priceVolumeExpansion →
      Justified current event := by
    intro t hemits h1 h2
    rw [hemits.type hevent] at htype
    exact (htype.elim h1 h2).elim
  unfold defaultRules at hrule
  simp only [List.mem_cons, List.not_mem_nil, or_false] at hrule
  rcases hrule with rfl | rfl | rfl | rfl | rfl | rfl
  · exact rapidMoveRule_justified hevent
  · exact hother volumeSpikeRule_emits (by decide) (by decide)
  · exact priceVolumeExpansionRule_justified hevent
  · exact hother dayHighBreakoutRule_emits (by decide) (by decide)
  · exact hother dayLowBreakdownRule_emits (by decide) (by decide)
  · exact hother vwapCrossRule_emits (by decide) (by decide)

end

/-- **Severity and direction of a rapid move agree.** -/
theorem rapid_move_agrees :
    (∀ change1m change5m : Option ℚ,
      (rapidMoveSeverity change1m change5m).getD 0 =
        max (ownSeverity oneMinuteSeverity change1m) (ownSeverity fiveMinuteSeverity change5m) ∧
      (rapidMoveSeverity change1m change5m = none ↔
        ownSeverity oneMinuteSeverity change1m = 0 ∧ ownSeverity fiveMinuteSeverity change5m = 0)) ∧
    (∀ (change1m change5m : Option ℚ) (severity : ℤ), rapidMoveSeverity change1m change5m = some severity →
      moveDirection change1m change5m severity ≠ .none ∧
        PointsTo change1m change5m severity (moveDirection change1m change5m severity)) ∧
    (∀ change1m change1m' change5m change5m' : Option ℚ, Weaker change1m change1m' → Weaker change5m change5m' →
      (rapidMoveSeverity change1m change5m).getD 0 ≤ (rapidMoveSeverity change1m' change5m').getD 0) ∧
    ∀ (newId : EventType → String) (detectedAt : ℚ) (previous : Option MarketFeatures) (current : MarketFeatures),
      ∀ event ∈ evaluate newId detectedAt previous current,
        event.type = .rapidMove ∨ event.type = .priceVolumeExpansion → Justified current event := by
  refine ⟨fun change1m change5m => ⟨?_, ?_⟩, fun change1m change5m severity h => ?_,
    fun _ _ _ _ => rapidMoveSeverity_mono, fun _ _ _ _ _ hevent => evaluate_justified hevent⟩
  · rw [rapidMoveSeverity_eq, orNone_getD]
  · have h1 := ownSeverity_nonneg oneMinuteSeverity_mono oneMinuteSeverity_zero change1m
    have h5 := ownSeverity_nonneg fiveMinuteSeverity_mono fiveMinuteSeverity_zero change5m
    rw [rapidMoveSeverity_eq, orNone_eq_none]
    omega
  · exact ⟨(rapidMove_pointsTo h).ne_none, rapidMove_pointsTo h⟩

/-- A rise in the last minute within a steeper fall. -/
theorem rapid_move_agrees_mixed :
    rapidMoveSeverity (some (12 / 1000)) (some (-36 / 1000)) = some 5 ∧
      moveDirection (some (12 / 1000)) (some (-36 / 1000)) 5 = .down ∧
      moveDirection (some (12 / 1000)) (some (-36 / 1000)) 5 ≠ .none := by
  have hsome : rapidMoveSeverity (some (12 / 1000)) (some (-36 / 1000)) = some 5 := by decide +kernel
  exact ⟨hsome, by decide +kernel, (rapid_move_agrees.2.1 _ _ 5 hsome).1⟩

end MarketSentinel
