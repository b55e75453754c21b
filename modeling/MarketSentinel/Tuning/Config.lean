import MarketSentinel.Evaluation.Report
import MarketSentinel.Lib.Convert
import MarketSentinel.Telemetry.Jsonl

/-!
# The tuning configuration

`tuning/config.py`, without the inventory of parameters. A field of type `float` also takes an `int`, and the
constructor checks its `float` but keeps the `int`.

* `postInit_iff`: what the constructor accepts.
* `fromRecord_raw`: reading back what was written rounds the numbers to floats.
-/

namespace MarketSentinel

open Lib

namespace Tuning

/-- What the tuning raises: its two errors, and what the standard library raises. -/
inductive TuningError
  | snapshot (message : String)
  | config (message : String)
  | other (error : PyError)
  deriving DecidableEq, Repr

/-- The value of a field of type `float`. -/
inductive Number
  | int (n : ℤ)
  | float (x : PyFloat)
  deriving DecidableEq, Repr

namespace Number

/-- `isinstance(value, int | float)`, and no `bool`. -/
def ofJson : Json → Option Number
  | .int n => some (int n)
  | .float x => some (float x)
  | _ => none

def json : Number → Json
  | int n => .int n
  | float x => .float x

/-- The number itself, that `==` compares. -/
def value : Number → PyFloat
  | int n => .finite n
  | float x => x

/-- `float(n)`. -/
def toFloat (n : Number) : Except PyError PyFloat := Evaluation.floatOf n.json

/-- A float represents the number. -/
def Exact (n : Number) : Prop := n.toFloat = .ok n.value

instance : DecidablePred Exact := fun n => inferInstanceAs (Decidable (n.toFloat = _))

/-- Its float is positive and finite. -/
def Positive (n : Number) : Prop := ∃ q, n.toFloat = .ok (.finite q) ∧ 0 < q

end Number

/-! ## The source -/

/-- `OFFLINE_TUNING_CONFIG_ALLOWLIST`. -/
def offlineTuningConfigAllowlist : List String :=
  ["cluster_lookback_s", "hot_event_severity", "hot_volume_ratio_5m", "hot_change_5m", "warm_change_1m",
    "warm_change_5m", "warm_volume_ratio"]

/-- `DEFERRED_TUNING_PARAMETER_NAMES`. -/
def deferredTuningParameterNames : List String :=
  ["cooldown_s", "upgrade_dwell_s", "hot_downgrade_dwell_s", "warm_downgrade_dwell_s", "router_min_priority",
    "router_require_alert_edge", "router_min_convergence_types", "episode_max_calls", "allow_escalation_recall",
    "cold_interval_s", "warm_interval_s", "hot_interval_s", "rapid_1m_sev2", "rapid_1m_sev3", "rapid_1m_sev4",
    "rapid_5m_sev3", "rapid_5m_sev4", "rapid_5m_sev5", "vol_5m_sev2", "vol_5m_sev3", "vol_1m_sev3", "vol_5m_sev4",
    "vol_5m_sev5", "breakout_sev4", "breakout_sev5", "vwap_cross_sev3_5m", "ttl_short_s", "ttl_long_s",
    "prompt_compactness", "intelligence_timeout_s", "volume_ratio_lookback"]

/-- `set(payload) - allowed`. -/
def hasExtra (allowed : List String) (fields : Payload) : Bool := fields.any fun f => decide (f.1 ∉ allowed)

/-- `allowed - set(payload)`. -/
def hasMissing (allowed : List String) (fields : Payload) : Bool := allowed.any fun key => (fields.lookup key).isNone

/-- `f"denied keys: {sorted(denied)}"`. -/
def deniedMessage (py : Python) (denied : List String) : String :=
  "denied keys: [" ++ ", ".intercalate ((denied.dedup.insertionSort (· ≤ ·)).map py.strRepr) ++ "]"

/-- `_finite_float(value, field, min_exclusive=0.0)`. -/
def finiteFloat (value : Json) (field : String) : Except TuningError ℚ :=
  match Number.ofJson value with
  | none => .error (.config (field ++ " must be a finite number"))
  | some n =>
    match n.toFloat with
    | .error error => .error (.other error)
    | .ok (.finite q) => if q ≤ 0 then .error (.config (field ++ " must be > 0.0")) else .ok q
    | .ok _ => .error (.config (field ++ " must be finite"))

/-- `_strict_int`. -/
def strictInt (value : Json) (field : String) (minInclusive : ℤ) : Except TuningError ℤ :=
  match value with
  | .int n =>
    if n < minInclusive then .error (.config (field ++ " must be >= " ++ toString minInclusive)) else .ok n
  | _ => .error (.config (field ++ " must be an int"))

/-- The fields of an `OfflineTuningConfig`. -/
structure ConfigFields where
  clusterLookbackS : Number
  hotEventSeverity : ℤ
  hotVolumeRatio5m : Number
  hotChange5m : Number
  warmChange1m : Number
  warmChange5m : Number
  warmVolumeRatio : Number
  deriving DecidableEq, Repr

namespace ConfigFields

/-- `__post_init__`. -/
def postInit (f : ConfigFields) : Except TuningError Unit := do
  let _ ← finiteFloat f.clusterLookbackS.json "cluster_lookback_s"
  if f.hotEventSeverity < 1 ∨ 5 < f.hotEventSeverity then throw (.config "hot_event_severity must be 1..5")
  let _ ← finiteFloat f.hotVolumeRatio5m.json "hot_volume_ratio_5m"
  let _ ← finiteFloat f.hotChange5m.json "hot_change_5m"
  let _ ← finiteFloat f.warmChange1m.json "warm_change_1m"
  let _ ← finiteFloat f.warmChange5m.json "warm_change_5m"
  let _ ← finiteFloat f.warmVolumeRatio.json "warm_volume_ratio"

/-- The record before its keys are checked. -/
def raw (f : ConfigFields) : Payload :=
  [("cluster_lookback_s", f.clusterLookbackS.json), ("hot_event_severity", .int f.hotEventSeverity),
    ("hot_volume_ratio_5m", f.hotVolumeRatio5m.json), ("hot_change_5m", f.hotChange5m.json),
    ("warm_change_1m", f.warmChange1m.json), ("warm_change_5m", f.warmChange5m.json),
    ("warm_volume_ratio", f.warmVolumeRatio.json)]

end ConfigFields

/-- `OfflineTuningConfig`: fields that its constructor accepts. -/
structure OfflineTuningConfig extends ConfigFields where
  valid : toConfigFields.postInit = .ok ()

namespace OfflineTuningConfig

/-- The constructor. -/
def new (fields : ConfigFields) : Except TuningError OfflineTuningConfig :=
  match h : fields.postInit with
  | .ok () => .ok ⟨fields, h⟩
  | .error error => .error error

/-- `to_record`. -/
def toRecord (py : Python) (c : OfflineTuningConfig) : Except TuningError Payload :=
  let denied := (c.raw.map Prod.fst).filter (· ∈ telemetryDenylist)
  if denied ≠ [] then .error (.config (deniedMessage py denied))
  else
    match projectAllowlist c.raw offlineTuningConfigAllowlist with
    | some record => .ok record
    | none => .error (.other .valueError)

/-- `from_record`. -/
def fromRecord (payload : Json) : Except TuningError OfflineTuningConfig :=
  match payload with
  | .obj fields =>
    if fields.any fun f => decide (f.1 ∈ deferredTuningParameterNames) then
      .error (.config "deferred parameters cannot enter OfflineTuningConfig")
    else if hasExtra offlineTuningConfigAllowlist fields then .error (.config "unknown OfflineTuningConfig keys")
    else if hasMissing offlineTuningConfigAllowlist fields then .error (.config "missing OfflineTuningConfig keys")
    else do
      let severity ← strictInt (Json.field fields "hot_event_severity") "hot_event_severity" 1
      if 5 < severity then throw (.config "hot_event_severity must be 1..5")
      let float (key : String) := finiteFloat (Json.field fields key) key
      let clusterLookbackS ← float "cluster_lookback_s"
      let hotVolumeRatio5m ← float "hot_volume_ratio_5m"
      let hotChange5m ← float "hot_change_5m"
      let warmChange1m ← float "warm_change_1m"
      let warmChange5m ← float "warm_change_5m"
      let warmVolumeRatio ← float "warm_volume_ratio"
      new {
        clusterLookbackS := .float (.finite clusterLookbackS)
        hotEventSeverity := severity
        hotVolumeRatio5m := .float (.finite hotVolumeRatio5m)
        hotChange5m := .float (.finite hotChange5m)
        warmChange1m := .float (.finite warmChange1m)
        warmChange5m := .float (.finite warmChange5m)
        warmVolumeRatio := .float (.finite warmVolumeRatio) }
  | _ => .error (.config "OfflineTuningConfig must be a JSON object")

end OfflineTuningConfig

/-! ## Numbers -/

theorem returns_then {A B E : Type} {m : Except E A} {m' : Except E B} :
    Returns (m >>= fun _ => m') ↔ Returns m ∧ Returns m' := by
  rw [returns_bind]
  exact ⟨fun ⟨a, ha, h⟩ => ⟨⟨a, ha⟩, h⟩, fun ⟨⟨a, ha⟩, h⟩ => ⟨a, ha, h⟩⟩

section Numbers

variable {n : Number} {key : String} {q : ℚ}

theorem Number.ofJson_json (n : Number) : Number.ofJson n.json = some n := by cases n <;> rfl

theorem finiteFloat_json : finiteFloat n.json key = .ok q ↔ n.toFloat = .ok (.finite q) ∧ 0 < q := by
  unfold finiteFloat
  rw [Number.ofJson_json]
  dsimp only
  cases hfloat : n.toFloat with
  | error error => simp
  | ok x =>
    cases x with
    | finite r =>
      dsimp only
      by_cases hpos : r ≤ 0
      · rw [if_pos hpos]
        refine iff_of_false nofun ?_
        rintro ⟨heq, hlt⟩
        cases heq
        exact absurd hpos (not_le.2 hlt)
      · rw [if_neg hpos]
        constructor
        · rintro heq
          cases heq
          exact ⟨rfl, not_le.1 hpos⟩
        · rintro ⟨heq, -⟩
          cases heq
          rfl
    | posInf => exact iff_of_false nofun fun h => by cases h.1
    | negInf => exact iff_of_false nofun fun h => by cases h.1
    | nan => exact iff_of_false nofun fun h => by cases h.1

theorem returns_finiteFloat : Returns (finiteFloat n.json key) ↔ n.Positive := by
  unfold Number.Positive
  exact exists_congr fun _ => finiteFloat_json

/-- A float is its own float. -/
theorem Number.positive_float (h : 0 < q) : (Number.float (.finite q)).Positive := ⟨q, rfl, h⟩

/-- The number as a float. -/
def Number.rounded (n : Number) : Number := .float (n.toFloat.toOption.getD .nan)

theorem Number.rounded_value_iff (h : Returns n.toFloat) : n.rounded.value = n.value ↔ n.Exact := by
  obtain ⟨x, hx⟩ := h
  unfold rounded Exact
  rw [hx]
  exact ⟨congrArg Except.ok, fun heq => Except.ok.inj heq⟩

end Numbers

/-- A payload with allowed keys only is projected to itself. -/
theorem projectAllowlist_own {payload : Payload} {allowed : List String}
    (hkeys : ∀ key ∈ payload.map Prod.fst, key ∈ allowed) (hdenied : ∀ key ∈ allowed, key ∉ telemetryDenylist) :
    projectAllowlist payload allowed = some payload := by
  have hnone : (payload.any fun f => decide (f.1 ∈ telemetryDenylist)) = false := by
    rw [List.any_eq_false]
    exact fun f hf hin => hdenied f.1 (hkeys f.1 (List.mem_map_of_mem hf)) (of_decide_eq_true hin)
  unfold projectAllowlist
  rw [hnone, if_neg (by simp), List.filter_eq_self.2 fun f hf => decide_eq_true (hkeys f.1 (List.mem_map_of_mem hf))]

/-! ## The constructor -/

namespace ConfigFields

/-- The fields that are numbers. -/
def numbers (f : ConfigFields) : List Number :=
  [f.clusterLookbackS, f.hotVolumeRatio5m, f.hotChange5m, f.warmChange1m, f.warmChange5m, f.warmVolumeRatio]

/-- Every number as a float. -/
def rounded (f : ConfigFields) : ConfigFields :=
  { f with
    clusterLookbackS := f.clusterLookbackS.rounded
    hotVolumeRatio5m := f.hotVolumeRatio5m.rounded
    hotChange5m := f.hotChange5m.rounded
    warmChange1m := f.warmChange1m.rounded
    warmChange5m := f.warmChange5m.rounded
    warmVolumeRatio := f.warmVolumeRatio.rounded }

/-- `==`. -/
def Same (f g : ConfigFields) : Prop :=
  f.hotEventSeverity = g.hotEventSeverity ∧ f.numbers.map Number.value = g.numbers.map Number.value

/-- **What the constructor accepts.** -/
theorem postInit_iff {f : ConfigFields} : f.postInit = .ok () ↔
    (∀ n ∈ f.numbers, n.Positive) ∧ 1 ≤ f.hotEventSeverity ∧ f.hotEventSeverity ≤ 5 := by
  have hunit : f.postInit = .ok () ↔ Returns f.postInit := ⟨fun h => ⟨(), h⟩, fun ⟨_, h⟩ => h⟩
  rw [hunit]
  unfold postInit numbers
  simp only [List.forall_mem_cons, List.not_mem_nil, false_imp_iff, implies_true, and_true]
  rw [returns_then, returns_finiteFloat]
  by_cases hseverity : f.hotEventSeverity < 1 ∨ 5 < f.hotEventSeverity
  · rw [if_pos hseverity]
    exact iff_of_false (fun h => not_returns_error _ h.2) fun h => by omega
  · rw [if_neg hseverity]
    have hrange : 1 ≤ f.hotEventSeverity ∧ f.hotEventSeverity ≤ 5 := by omega
    simp only [returns_then, returns_finiteFloat, returns_pure, and_true, and_iff_left hrange]

/-- The numbers that are read back are accepted too. -/
theorem postInit_rounded {f : ConfigFields} (h : f.postInit = .ok ()) : f.rounded.postInit = .ok () := by
  obtain ⟨hnumbers, hseverity⟩ := postInit_iff.1 h
  refine postInit_iff.2 ⟨fun n hn => ?_, hseverity⟩
  obtain ⟨n, hmem, rfl⟩ : ∃ m ∈ f.numbers, m.rounded = n := by
    have hnumbers : f.rounded.numbers = f.numbers.map Number.rounded := rfl
    rw [hnumbers] at hn
    exact List.mem_map.1 hn
  obtain ⟨q, hq, hpos⟩ := hnumbers n hmem
  unfold Number.rounded
  rw [hq]
  exact Number.positive_float hpos

/-- **Reading back changes nothing** exactly when each number is exact. -/
theorem rounded_same_iff {f : ConfigFields} (h : f.postInit = .ok ()) :
    f.rounded.Same f ↔ ∀ n ∈ f.numbers, n.Exact := by
  obtain ⟨hnumbers, -⟩ := postInit_iff.1 h
  have hmap : f.rounded.numbers = f.numbers.map Number.rounded := rfl
  unfold Same
  rw [and_iff_right (show f.rounded.hotEventSeverity = f.hotEventSeverity from rfl), hmap, List.map_map,
    List.map_inj_left]
  refine forall₂_congr fun n hn => Number.rounded_value_iff ?_
  obtain ⟨q, hq, -⟩ := hnumbers n hn
  exact ⟨_, hq⟩

end ConfigFields

namespace OfflineTuningConfig

theorem new_valid {f : ConfigFields} (h : f.postInit = .ok ()) : new f = .ok ⟨f, h⟩ := by
  unfold new
  split
  · rfl
  · next error herror =>
    rw [h] at herror
    cases herror

/-- A configuration writes its fields. -/
theorem toRecord_eq (py : Python) (c : OfflineTuningConfig) : c.toRecord py = .ok c.raw := by
  have hkeys : c.raw.map Prod.fst = offlineTuningConfigAllowlist := rfl
  have hdenied : ∀ key ∈ offlineTuningConfigAllowlist, key ∉ telemetryDenylist := by decide
  have hnone : (c.raw.map Prod.fst).filter (· ∈ telemetryDenylist) = [] := by
    rw [hkeys, List.filter_eq_nil_iff]
    exact fun key hkey hin => hdenied key hkey (of_decide_eq_true hin)
  unfold toRecord
  dsimp only
  rw [hnone, if_neg (by simp), projectAllowlist_own (by rw [hkeys]; exact fun _ => id) hdenied]

theorem finiteFloat_positive {n : Number} (h : n.Positive) (key : String) : ∃ q, finiteFloat n.json key = .ok q ∧
    n.rounded = .float (.finite q) := by
  obtain ⟨q, hq, hpos⟩ := h
  refine ⟨q, finiteFloat_json.2 ⟨hq, hpos⟩, ?_⟩
  unfold Number.rounded
  rw [hq]
  rfl

/-- **Reading back what was written** rounds the numbers. -/
theorem fromRecord_raw (c : OfflineTuningConfig) : ∃ c', fromRecord (.obj c.raw) = .ok c' ∧
    c'.toConfigFields = c.rounded := by
  obtain ⟨hnumbers, hseverity⟩ := ConfigFields.postInit_iff.1 c.valid
  have hkeys : ∀ p : String → Bool, (c.raw.any fun f => p f.1) = offlineTuningConfigAllowlist.any p := fun _ => rfl
  have hmissing : hasMissing offlineTuningConfigAllowlist c.raw = false := rfl
  have hextra : hasExtra offlineTuningConfigAllowlist c.raw = false := by
    unfold hasExtra
    rw [hkeys fun key => decide (key ∉ offlineTuningConfigAllowlist)]
    decide
  have hdeferred : (c.raw.any fun f => decide (f.1 ∈ deferredTuningParameterNames)) = false := by
    rw [hkeys fun key => decide (key ∈ deferredTuningParameterNames)]
    decide
  have hstrict : strictInt (Json.field c.raw "hot_event_severity") "hot_event_severity" 1 =
      .ok c.hotEventSeverity := if_neg (not_lt.2 hseverity.1)
  simp only [ConfigFields.numbers, List.forall_mem_cons] at hnumbers
  obtain ⟨hlookback, hratio, hhot, hwarm1, hwarm5, hvolume, -⟩ := hnumbers
  -- Every field is read as the float it rounds to, and passes the check that it passed before.
  have hread : ∀ (key : String) (n : Number), Json.field c.raw key = n.json → n.Positive →
      ∃ q, finiteFloat (Json.field c.raw key) key = .ok q ∧ n.rounded = .float (.finite q) := by
    intro key n hfield hpos
    rw [hfield]
    exact finiteFloat_positive hpos key
  obtain ⟨q₁, h₁, hround₁⟩ := hread "cluster_lookback_s" c.clusterLookbackS rfl hlookback
  obtain ⟨q₂, h₂, hround₂⟩ := hread "hot_volume_ratio_5m" c.hotVolumeRatio5m rfl hratio
  obtain ⟨q₃, h₃, hround₃⟩ := hread "hot_change_5m" c.hotChange5m rfl hhot
  obtain ⟨q₄, h₄, hround₄⟩ := hread "warm_change_1m" c.warmChange1m rfl hwarm1
  obtain ⟨q₅, h₅, hround₅⟩ := hread "warm_change_5m" c.warmChange5m rfl hwarm5
  obtain ⟨q₆, h₆, hround₆⟩ := hread "warm_volume_ratio" c.warmVolumeRatio rfl hvolume
  refine ⟨⟨c.rounded, ConfigFields.postInit_rounded c.valid⟩, ?_, rfl⟩
  unfold fromRecord
  dsimp only
  rw [hdeferred, hextra, hmissing, if_neg (by simp), if_neg (by simp), if_neg (by simp), hstrict, ok_bind,
    if_neg (not_lt.2 hseverity.2)]
  rw [h₁, ok_bind, h₂, ok_bind, h₃, ok_bind, h₄, ok_bind, h₅, ok_bind, h₆, ok_bind, ← hround₁, ← hround₂, ← hround₃,
    ← hround₄, ← hround₅, ← hround₆]
  exact new_valid (ConfigFields.postInit_rounded c.valid)

end OfflineTuningConfig

end Tuning

end MarketSentinel
