import MarketSentinel.Evaluation.Sanitize
import MarketSentinel.MarketData.Normalizer
import MarketSentinel.Tuning.Config

/-!
# Tuning artifacts

`tuning/store.py`, without the files: a snapshot and a configuration as a record, and a record as an artifact.
`==` on artifacts compares numbers by value.

* `toRecord_eq`: an artifact of the current schema has exactly the allowed keys.
* `roundTrips_iff`: writing and reading gives the same artifact when its numbers are floats.
* `failsClosed_iff`: reading raises the declared error, unless the timestamp is an integer that `float` refuses.
-/

namespace MarketSentinel

open Lib

namespace Tuning

/-! ## The source -/

inductive TuningSource
  | manual | offlineEval
  deriving DecidableEq, Repr

def TuningSource.value : TuningSource → String
  | manual => "manual"
  | offlineEval => "offline_eval"

/-- `TuningSource(text)`. -/
def TuningSource.parse : String → Option TuningSource
  | "manual" => some manual
  | "offline_eval" => some offlineEval
  | _ => none

/-- `TUNING_ALLOWLIST`. -/
def tuningAllowlist : List String := ["snapshot_id", "created_timestamp", "source", "config_version"]

/-- The fields of a `TuningSnapshot`. -/
structure SnapshotFields where
  snapshotId : String
  createdTimestamp : Number
  source : TuningSource
  configVersion : String
  deriving DecidableEq, Repr

namespace SnapshotFields

/-- `__post_init__`. -/
def postInit (f : SnapshotFields) : Except PyError Unit := do
  if isBlank f.snapshotId then throw .valueError
  if isBlank f.configVersion then throw .valueError
  -- `math.isfinite` converts an integer to a float.
  let created ← f.createdTimestamp.toFloat
  if created.isFinite then return () else throw .valueError

def raw (f : SnapshotFields) : Payload :=
  [("snapshot_id", .str f.snapshotId), ("created_timestamp", f.createdTimestamp.json),
    ("source", .str f.source.value), ("config_version", .str f.configVersion)]

end SnapshotFields

/-- `TuningSnapshot`: fields that its constructor accepts. -/
structure TuningSnapshot extends SnapshotFields where
  valid : toSnapshotFields.postInit = .ok ()

namespace TuningSnapshot

/-- The constructor. -/
def new (fields : SnapshotFields) : Except PyError TuningSnapshot :=
  match h : fields.postInit with
  | .ok () => .ok ⟨fields, h⟩
  | .error error => .error error

/-- `to_record`. -/
def toRecord (s : TuningSnapshot) : Except TuningError Payload :=
  match projectAllowlist s.raw tuningAllowlist with
  | some record => .ok record
  | none => .error (.other .valueError)

end TuningSnapshot

def tuningArtifactSchemaVersion : ℤ := 2

/-- `TUNING_ARTIFACT_TOP_KEYS`. -/
def tuningArtifactTopKeys : List String := ["schema_version", "snapshot", "config"]

structure TuningArtifact where
  snapshot : TuningSnapshot
  config : OfflineTuningConfig
  schemaVersion : ℤ := tuningArtifactSchemaVersion

/-- `TuningArtifact.to_record`. -/
def TuningArtifact.toRecord (py : Python) (a : TuningArtifact) : Except TuningError Payload :=
  if a.schemaVersion ≠ tuningArtifactSchemaVersion then
    .error (.snapshot "unsupported tuning artifact schema_version")
  else do
    let snapshot ← a.snapshot.toRecord
    let config ← a.config.toRecord py
    let raw : Payload :=
      [("schema_version", .int a.schemaVersion), ("snapshot", .obj snapshot), ("config", .obj config)]
    let denied := (Evaluation.fieldKeys raw).filter (· ∈ telemetryDenylist)
    if denied ≠ [] then throw (.snapshot (deniedMessage py denied))
    return raw

/-- A lower case hexadecimal digit. -/
def isHexDigit (c : Char) : Bool := c.isDigit || (decide ('a' ≤ c) && decide (c ≤ 'f'))

/-- `uuid.UUID(hex=text).hex == text`: `hex` writes 32 digits in lower case, and `UUID` reads these. -/
def isUuidHex (text : String) : Bool := decide (text.length = 32) && text.toList.all isHexDigit

/-- `validate_snapshot_id`. -/
def validateSnapshotId (snapshotId : String) : Except TuningError Unit :=
  if isBlank snapshotId then .error (.snapshot "snapshot_id must be non-empty")
  else if '/' ∈ snapshotId.toList ∨ '\\' ∈ snapshotId.toList ∨ ['.', '.'] <:+: snapshotId.toList then
    .error (.snapshot "snapshot_id is not a filesystem path")
  else if isUuidHex snapshotId then .ok ()
  else .error (.snapshot "snapshot_id must be an opaque UUID hex")

/-- `make_artifact`, where the clock reads `wall` and `uuid4().hex` is `fresh`. -/
def makeArtifact (config : OfflineTuningConfig) (configVersion : String) (source : TuningSource) (wall : Number)
    (snapshotId : Option String) (fresh : String) : Except TuningError TuningArtifact := do
  if isBlank configVersion then throw (.snapshot "config_version must be non-empty")
  let ident := snapshotId.getD fresh
  validateSnapshotId ident
  match TuningSnapshot.new { snapshotId := ident, createdTimestamp := wall, source, configVersion } with
  | .ok snapshot => return { snapshot, config }
  | .error error => throw (.other error)

/-- `int(version)`, of a version that equals the current one. -/
def versionInt : Json → ℤ
  | .int n => n
  | .float (.finite q) => q.num.tdiv q.den
  | .bool b => if b then 1 else 0
  | _ => 0

/-- `TuningSource(str(value))`, or the error. -/
def sourceOf (py : Python) (value : Json) : Except TuningError TuningSource :=
  match value.pyStr py with
  | .error .valueError => .error (.snapshot "invalid snapshot source")
  | .error error => .error (.other error)
  | .ok text =>
    match TuningSource.parse text with
    | some source => .ok source
    | none => .error (.snapshot "invalid snapshot source")

/-- `isinstance(value, str)`, or the error. -/
def identityText (value : Json) : Except TuningError String :=
  match textOf value with
  | some text => .ok text
  | none => .error (.snapshot "invalid snapshot identity")

/-- `except (TypeError, ValueError)` around the snapshot. -/
def identityError : PyError → TuningError
  | .typeError | .valueError => .snapshot "invalid snapshot identity"
  | error => .other error

/-- The snapshot of `artifact_from_record`. -/
def snapshotFromRecord (py : Python) (snapshotRaw : Payload) : Except TuningError TuningSnapshot :=
  if hasExtra tuningAllowlist snapshotRaw then .error (.snapshot "unknown snapshot keys")
  else if hasMissing tuningAllowlist snapshotRaw then .error (.snapshot "missing snapshot keys")
  else do
    let source ← sourceOf py (Json.field snapshotRaw "source")
    let ident ← identityText (Json.field snapshotRaw "snapshot_id")
    match Number.ofJson (Json.field snapshotRaw "created_timestamp") with
    | none => throw (.snapshot "invalid snapshot identity")
    | some created =>
      let versionText ← identityText (Json.field snapshotRaw "config_version")
      let built : Except PyError TuningSnapshot := do
        let created ← created.toFloat
        TuningSnapshot.new
          { snapshotId := ident, createdTimestamp := .float created, source, configVersion := versionText }
      match built with
      | .error error => throw (identityError error)
      | .ok snapshot =>
        validateSnapshotId snapshot.snapshotId
        return snapshot

/-- `extra_cfg`, which an object alone can have. -/
def extraConfigKeys : Json → Bool
  | .obj configRaw => hasExtra offlineTuningConfigAllowlist configRaw
  | _ => false

/-- `artifact_from_record`. -/
def artifactFromRecord (py : Python) (payload : Json) : Except TuningError TuningArtifact :=
  match payload with
  | .obj fields =>
    if hasExtra tuningArtifactTopKeys fields then .error (.snapshot "unknown tuning artifact keys")
    else if hasMissing tuningArtifactTopKeys fields then .error (.snapshot "missing tuning artifact keys")
    else if (Json.field fields "schema_version").eqInt tuningArtifactSchemaVersion = false then
      .error (.snapshot "unsupported tuning artifact schema_version")
    else
      match Json.field fields "snapshot" with
      | .obj snapshotRaw => do
        let snapshot ← snapshotFromRecord py snapshotRaw
        match OfflineTuningConfig.fromRecord (Json.field fields "config") with
        | .error _ => throw (.snapshot "invalid OfflineTuningConfig")
        | .ok config =>
          if extraConfigKeys (Json.field fields "config") then throw (.snapshot "unknown config keys")
          return { snapshot, config, schemaVersion := versionInt (Json.field fields "schema_version") }
      | _ => .error (.snapshot "snapshot must be an object")
  | _ => .error (.snapshot "tuning snapshot must be a JSON object")

/-! ## What is written -/

section Written

variable {py : Python}

/-- The record of an artifact. -/
def TuningArtifact.raw (a : TuningArtifact) : Payload :=
  [("schema_version", .int a.schemaVersion), ("snapshot", .obj a.snapshot.raw), ("config", .obj a.config.raw)]

/-- A record with exactly the allowed keys at every level. -/
structure ExactKeys (record : Payload) : Prop where
  top : (record.map Prod.fst).Perm tuningArtifactTopKeys
  snapshot : ∃ snapshot, record.lookup "snapshot" = some (.obj snapshot) ∧
    (snapshot.map Prod.fst).Perm tuningAllowlist
  config : ∃ config, record.lookup "config" = some (.obj config) ∧
    (config.map Prod.fst).Perm offlineTuningConfigAllowlist

theorem TuningSnapshot.toRecord_eq (s : TuningSnapshot) : s.toRecord = .ok s.raw := by
  have hkeys : s.raw.map Prod.fst = tuningAllowlist := rfl
  unfold toRecord
  rw [projectAllowlist_own (by rw [hkeys]; exact fun _ => id) (by decide)]

theorem Number.json_keys (n : Number) : Evaluation.allKeys n.json = [] := by cases n <;> rfl

theorem TuningArtifact.raw_keys (a : TuningArtifact) : Evaluation.fieldKeys a.raw =
    "schema_version" :: "snapshot" :: tuningAllowlist ++ "config" :: offlineTuningConfigAllowlist := by
  simp [raw, SnapshotFields.raw, ConfigFields.raw, Evaluation.fieldKeys, Evaluation.allKeys, Number.json_keys,
    tuningAllowlist, offlineTuningConfigAllowlist]

/-- **An artifact of the current schema** is written, with exactly the allowed keys. -/
theorem TuningArtifact.toRecord_eq {a : TuningArtifact} (h : a.schemaVersion = tuningArtifactSchemaVersion) :
    a.toRecord py = .ok a.raw ∧ ExactKeys a.raw := by
  have hdenied : (Evaluation.fieldKeys a.raw).filter (· ∈ telemetryDenylist) = [] := by
    rw [a.raw_keys]
    decide
  refine ⟨?_, .refl _, ⟨_, rfl, .refl _⟩, ⟨_, rfl, .refl _⟩⟩
  unfold toRecord
  rw [if_neg (not_not.2 h), a.snapshot.toRecord_eq, ok_bind, a.config.toRecord_eq, ok_bind]
  dsimp only
  rw [show Evaluation.fieldKeys [("schema_version", .int a.schemaVersion), ("snapshot", .obj a.snapshot.raw),
    ("config", .obj a.config.raw)] = Evaluation.fieldKeys a.raw from rfl, hdenied, if_neg (by simp)]
  rfl

end Written

/-! ## What is made -/

section Made

variable {config : OfflineTuningConfig} {configVersion fresh : String} {source : TuningSource} {wall : Number}
  {snapshotId : Option String} {a : TuningArtifact} {s : TuningSnapshot}

theorem TuningSnapshot.new_valid {f : SnapshotFields} (h : f.postInit = .ok ()) : new f = .ok ⟨f, h⟩ := by
  unfold new
  split
  · rfl
  · next error herror =>
    rw [h] at herror
    cases herror

theorem TuningSnapshot.new_fields {f : SnapshotFields} (h : new f = .ok s) : s.toSnapshotFields = f := by
  unfold new at h
  split at h
  · cases h
    rfl
  · cases h

theorem SnapshotFields.postInit_iff {f : SnapshotFields} : f.postInit = .ok () ↔
    isBlank f.snapshotId = false ∧ isBlank f.configVersion = false ∧
      ∃ x, f.createdTimestamp.toFloat = .ok x ∧ x.isFinite = true := by
  unfold postInit
  cases hid : isBlank f.snapshotId with
  | true => exact iff_of_false nofun fun h => by cases h.1
  | false =>
    cases hversion : isBlank f.configVersion with
    | true => exact iff_of_false nofun fun h => by cases h.2.1
    | false =>
      rw [if_neg (by simp), if_neg (by simp), and_iff_right rfl, and_iff_right rfl]
      change (f.createdTimestamp.toFloat >>= fun created =>
        if created.isFinite then pure () else throw .valueError) = .ok () ↔ _
      rw [bind_eq_ok]
      refine exists_congr fun x => and_congr_right fun _ => ?_
      cases x.isFinite with
      | true => exact iff_of_true rfl rfl
      | false => exact iff_of_false nofun nofun

/-- **An artifact that is made** is of the current schema, with a valid id. -/
theorem makeArtifact_spec (h : makeArtifact config configVersion source wall snapshotId fresh = .ok a) :
    a.schemaVersion = tuningArtifactSchemaVersion ∧ a.config = config ∧ a.snapshot.createdTimestamp = wall ∧
      validateSnapshotId a.snapshot.snapshotId = .ok () := by
  unfold makeArtifact at h
  split at h
  · cases h
  · obtain ⟨⟨⟩, hid, hrest⟩ := bind_eq_ok.1 h
    split at hrest
    · next snapshot hsnapshot =>
      cases hrest
      have hfields := TuningSnapshot.new_fields hsnapshot
      refine ⟨rfl, rfl, ?_, ?_⟩
      · rw [hfields]
      · rw [hfields]
        exact hid
    · cases hrest

end Made

/-! ## Round trips -/

section RoundTrips

variable {py : Python}

/-- `==` on artifacts. -/
structure TuningArtifact.Same (a b : TuningArtifact) : Prop where
  schema : a.schemaVersion = b.schemaVersion
  ident : a.snapshot.snapshotId = b.snapshot.snapshotId
  created : a.snapshot.createdTimestamp.value = b.snapshot.createdTimestamp.value
  source : a.snapshot.source = b.snapshot.source
  version : a.snapshot.configVersion = b.snapshot.configVersion
  config : a.config.toConfigFields.Same b.config.toConfigFields

/-- The artifact is written and read back as the same one. -/
def RoundTrips (py : Python) (a : TuningArtifact) : Prop :=
  ∃ record a', a.toRecord py = .ok record ∧ artifactFromRecord py (.obj record) = .ok a' ∧ a'.Same a

theorem sourceOf_value (source : TuningSource) : sourceOf py (.str source.value) = .ok source := by
  cases source <;> rfl

/-- A snapshot is read back with its timestamp as a float. -/
theorem snapshotFromRecord_raw (s : TuningSnapshot) (hid : validateSnapshotId s.snapshotId = .ok ()) :
    ∃ s', snapshotFromRecord py s.raw = .ok s' ∧
      s'.toSnapshotFields = { s.toSnapshotFields with createdTimestamp := s.createdTimestamp.rounded } := by
  obtain ⟨hident, hversion, x, hx, hfinite⟩ := SnapshotFields.postInit_iff.1 s.valid
  have hrounded : s.createdTimestamp.rounded = .float x := by
    unfold Number.rounded
    rw [hx]
    rfl
  have hvalid : SnapshotFields.postInit { s.toSnapshotFields with createdTimestamp := .float x } = .ok () :=
    SnapshotFields.postInit_iff.2 ⟨hident, hversion, x, rfl, hfinite⟩
  have hkeys : hasExtra tuningAllowlist s.raw = false := rfl
  have hmissing : hasMissing tuningAllowlist s.raw = false := rfl
  have hsource : sourceOf py (Json.field s.raw "source") = .ok s.source := sourceOf_value _
  have htext : identityText (Json.field s.raw "snapshot_id") = .ok s.snapshotId := rfl
  have htext' : identityText (Json.field s.raw "config_version") = .ok s.configVersion := rfl
  have hcreated : Number.ofJson (Json.field s.raw "created_timestamp") = some s.createdTimestamp :=
    Number.ofJson_json _
  rw [hrounded]
  refine ⟨⟨_, hvalid⟩, ?_, rfl⟩
  unfold snapshotFromRecord
  rw [hkeys, hmissing, if_neg (by simp), if_neg (by simp), hsource, ok_bind, htext, ok_bind, hcreated]
  dsimp only
  rw [htext', ok_bind, hx, ok_bind, TuningSnapshot.new_valid hvalid]
  dsimp only
  rw [hid]
  rfl

/-- An artifact is read back with its numbers as floats. -/
theorem artifactFromRecord_raw {a : TuningArtifact} (h : a.schemaVersion = tuningArtifactSchemaVersion)
    (hid : validateSnapshotId a.snapshot.snapshotId = .ok ()) : ∃ a', artifactFromRecord py (.obj a.raw) = .ok a' ∧
      a'.schemaVersion = a.schemaVersion ∧ a'.config.toConfigFields = a.config.rounded ∧
      a'.snapshot.toSnapshotFields =
        { a.snapshot.toSnapshotFields with createdTimestamp := a.snapshot.createdTimestamp.rounded } := by
  obtain ⟨snapshot, hsnapshot, hfields⟩ := @snapshotFromRecord_raw py a.snapshot hid
  obtain ⟨config, hconfig, hrounded⟩ := a.config.fromRecord_raw
  have hkeys : hasExtra tuningArtifactTopKeys a.raw = false := rfl
  have hmissing : hasMissing tuningArtifactTopKeys a.raw = false := rfl
  have hversion : (Json.field a.raw "schema_version").eqInt tuningArtifactSchemaVersion = true := decide_eq_true h
  have hobj : Json.field a.raw "snapshot" = .obj a.snapshot.raw := rfl
  have hobj' : Json.field a.raw "config" = .obj a.config.raw := rfl
  have hextra : hasExtra offlineTuningConfigAllowlist a.config.raw = false := rfl
  refine ⟨{ snapshot, config, schemaVersion := versionInt (Json.field a.raw "schema_version") }, ?_, rfl, hrounded,
    hfields⟩
  unfold artifactFromRecord
  dsimp only
  rw [hkeys, hmissing, if_neg (by simp), if_neg (by simp), hversion, if_neg (by simp), hobj]
  dsimp only
  rw [hsnapshot, ok_bind, hobj', hconfig]
  refine if_neg ?_
  show ¬ hasExtra offlineTuningConfigAllowlist a.config.raw = true
  rw [hextra]
  simp

/-- **An artifact that is made** is read back as the same one exactly when its numbers are floats. -/
theorem roundTrips_iff {config : OfflineTuningConfig} {configVersion fresh : String} {source : TuningSource}
    {wall : Number} {snapshotId : Option String} {a : TuningArtifact}
    (h : makeArtifact config configVersion source wall snapshotId fresh = .ok a) :
    RoundTrips py a ↔ wall.Exact ∧ ∀ n ∈ config.numbers, n.Exact := by
  obtain ⟨hschema, rfl, rfl, hid⟩ := makeArtifact_spec h
  obtain ⟨a', ha', hschema', hconfig, hsnapshot⟩ := @artifactFromRecord_raw py a hschema hid
  obtain ⟨-, -, x, hx, -⟩ := SnapshotFields.postInit_iff.1 a.snapshot.valid
  -- What is read back has the same fields, with every number rounded to a float.
  have hsame : a'.Same a ↔ a.snapshot.createdTimestamp.Exact ∧ ∀ n ∈ a.config.numbers, n.Exact := by
    rw [← ConfigFields.rounded_same_iff a.config.valid, ← hconfig, ← Number.rounded_value_iff ⟨x, hx⟩]
    constructor
    · intro hs
      have hcreated := hs.created
      rw [hsnapshot] at hcreated
      exact ⟨hcreated, hs.config⟩
    · rintro ⟨hcreated, hnumbers⟩
      refine ⟨hschema', ?_, ?_, ?_, ?_, hnumbers⟩
      · rw [hsnapshot]
      · rw [hsnapshot]
        exact hcreated
      · rw [hsnapshot]
      · rw [hsnapshot]
  rw [← hsame]
  constructor
  · rintro ⟨record, b, hrecord, hb, hs⟩
    rw [(TuningArtifact.toRecord_eq hschema).1] at hrecord
    cases hrecord
    rw [ha'] at hb
    cases hb
    exact hs
  · exact fun hs => ⟨_, a', (TuningArtifact.toRecord_eq hschema).1, ha', hs⟩

end RoundTrips

/-! ## What is read -/

section Read

variable {py : Python}

/-- A `TuningSnapshotError`. -/
def IsSnapshotError (error : TuningError) : Prop := ∃ message, error = .snapshot message

theorem raisesOnly_snapshot {A : Type} (message : String) :
    RaisesOnly IsSnapshotError (.error (.snapshot message) : Except TuningError A) := raisesOnly_error ⟨message, rfl⟩

theorem raisesOnly_sourceOf (value : Json) : RaisesOnly IsSnapshotError (sourceOf py value) := by
  unfold sourceOf
  split
  · exact raisesOnly_snapshot _
  · next error hother herror =>
    exact absurd (Json.raisesOnly_pyStr value error herror) hother
  · split
    · exact raisesOnly_ok _
    · exact raisesOnly_snapshot _

theorem raisesOnly_identityText (value : Json) : RaisesOnly IsSnapshotError (identityText value) := by
  unfold identityText
  split
  · exact raisesOnly_ok _
  · exact raisesOnly_snapshot _

theorem raisesOnly_validateSnapshotId (text : String) : RaisesOnly IsSnapshotError (validateSnapshotId text) := by
  unfold validateSnapshotId
  split
  · exact raisesOnly_snapshot _
  · split
    · exact raisesOnly_snapshot _
    · split
      · exact raisesOnly_ok _
      · exact raisesOnly_snapshot _

/-- A snapshot with a float for its timestamp raises a `ValueError` at most. -/
theorem raisesOnly_new {f : SnapshotFields} {x : PyFloat} (h : f.createdTimestamp = .float x) :
    RaisesOnly (· = .valueError) (TuningSnapshot.new f) := by
  have hinit : RaisesOnly (· = .valueError) f.postInit := by
    unfold SnapshotFields.postInit
    rw [h]
    cases isBlank f.snapshotId with
    | true => exact raisesOnly_error rfl
    | false =>
      cases isBlank f.configVersion with
      | true => exact raisesOnly_error rfl
      | false =>
        change RaisesOnly _ (if x.isFinite then pure () else throw .valueError : Except PyError Unit)
        split
        · exact raisesOnly_ok _
        · exact raisesOnly_error rfl
  intro error herror
  unfold TuningSnapshot.new at herror
  split at herror
  · cases herror
  · next error' h' =>
    cases herror
    exact hinit _ h'

/-- A snapshot whose checks come as far as a timestamp that `float` refuses. -/
structure OversizedSnapshot (py : Python) (snapshotRaw : Payload) : Prop where
  extra : hasExtra tuningAllowlist snapshotRaw = false
  missing : hasMissing tuningAllowlist snapshotRaw = false
  source : ∃ text, (Json.field snapshotRaw "source").pyStr py = .ok text ∧ (TuningSource.parse text).isSome
  ident : ∃ text, Json.field snapshotRaw "snapshot_id" = .str text
  version : ∃ text, Json.field snapshotRaw "config_version" = .str text
  created : Oversized (Json.field snapshotRaw "created_timestamp")

theorem toFloat_oversized {value : Json} (h : Oversized value) : ∃ n, Number.ofJson value = some n ∧
    n.toFloat = .error .overflowError := by
  cases value with
  | int n =>
    refine ⟨.int n, rfl, ?_⟩
    have hnone : Json.intToFloat n = none := Json.intToFloat_eq_none.2 h
    show (if (Json.intToFloat n).isNone then _ else _) = _
    rw [hnone]
    rfl
  | null => cases h
  | bool b => cases h
  | float x => cases h
  | str s => cases h
  | list xs => cases h
  | obj fields => cases h

theorem sourceOf_ok {value : Json} {source : TuningSource} (h : sourceOf py value = .ok source) :
    ∃ text, value.pyStr py = .ok text ∧ (TuningSource.parse text).isSome := by
  unfold sourceOf at h
  split at h
  · cases h
  · cases h
  · next text htext =>
    split at h
    · next hsource => exact ⟨text, htext, by rw [hsource]; rfl⟩
    · cases h

theorem identityText_ok {value : Json} {text : String} (h : identityText value = .ok text) :
    ∃ text, value = .str text := by
  cases value with
  | str text => exact ⟨text, rfl⟩
  | null => cases h
  | bool b => cases h
  | int n => cases h
  | float x => cases h
  | list xs => cases h
  | obj fields => cases h

theorem oversized_of_error {value : Json} {n : Number} {error : PyError} (hn : Number.ofJson value = some n)
    (h : n.toFloat = .error error) : Oversized value := by
  cases value with
  | int k =>
    cases hn
    change (if (Json.intToFloat k).isNone then .error .overflowError else .ok _ : Except PyError PyFloat) = _ at h
    split at h
    · next hnone => exact Json.intToFloat_eq_none.1 (Option.isNone_iff_eq_none.1 hnone)
    · cases h
  | float x =>
    cases hn
    cases h
  | null => cases hn
  | bool b => cases hn
  | str s => cases hn
  | list xs => cases hn
  | obj fields => cases hn

/-- **A snapshot is read** or refused, unless `float` refuses its timestamp. -/
theorem snapshotFromRecord_iff {snapshotRaw : Payload} :
    RaisesOnly IsSnapshotError (snapshotFromRecord py snapshotRaw) ↔ ¬ OversizedSnapshot py snapshotRaw := by
  constructor
  · rintro hraises ⟨hextra, hmissing, ⟨text, htext, hsource⟩, ⟨ident, hident⟩, ⟨version, hversion⟩, hcreated⟩
    obtain ⟨source, hsource⟩ := Option.isSome_iff_exists.1 hsource
    obtain ⟨n, hn, hfloat⟩ := toFloat_oversized hcreated
    have hread : sourceOf py (Json.field snapshotRaw "source") = .ok source := by
      unfold sourceOf
      rw [htext]
      dsimp only
      rw [hsource]
    -- Every check before the timestamp passes, and `float` raises.
    have herror : snapshotFromRecord py snapshotRaw = .error (.other .overflowError) := by
      unfold snapshotFromRecord
      rw [hextra, hmissing, if_neg (by simp), if_neg (by simp), hread, ok_bind, hident, hversion, hn]
      show (match (n.toFloat >>= fun created => TuningSnapshot.new _ : Except PyError TuningSnapshot) with
        | .error error => _
        | .ok snapshot => _) = _
      rw [hfloat]
      rfl
    obtain ⟨message, hmessage⟩ := hraises _ herror
    cases hmessage
  · intro hfits
    unfold snapshotFromRecord
    split
    · exact raisesOnly_snapshot _
    · next hextra =>
      split
      · exact raisesOnly_snapshot _
      · next hmissing =>
        refine (raisesOnly_sourceOf _).bind fun source hsource => ?_
        refine (raisesOnly_identityText _).bind fun ident hident => ?_
        split
        · exact raisesOnly_snapshot _
        · next n hn =>
          refine (raisesOnly_identityText _).bind fun version hversion => ?_
          have hbuilt : RaisesOnly (fun error => IsSnapshotError (identityError error))
              (n.toFloat >>= fun created => TuningSnapshot.new
                { snapshotId := ident, createdTimestamp := .float created, source, configVersion := version }) := by
            refine RaisesOnly.bind (fun error herror => ?_) fun created _ error herror => ?_
            · -- Only an integer that is too large has no float, and none has come this far.
              refine absurd ⟨?_, ?_, ?_, ?_, ?_, ?_⟩ hfits
              · simpa using hextra
              · simpa using hmissing
              · exact sourceOf_ok hsource
              · exact identityText_ok hident
              · exact identityText_ok hversion
              · exact oversized_of_error hn herror
            · rw [raisesOnly_new rfl error herror]
              exact ⟨_, rfl⟩
          dsimp only
          split
          · next error herror => exact raisesOnly_error (hbuilt error herror)
          · exact (raisesOnly_validateSnapshotId _).bind fun _ _ => raisesOnly_ok _

/-- A record whose checks come as far as a timestamp that `float` refuses. -/
structure OversizedCreated (py : Python) (fields : Payload) : Prop where
  extra : hasExtra tuningArtifactTopKeys fields = false
  missing : hasMissing tuningArtifactTopKeys fields = false
  version : (Json.field fields "schema_version").eqInt tuningArtifactSchemaVersion = true
  snapshot : ∃ snapshotRaw, Json.field fields "snapshot" = .obj snapshotRaw ∧ OversizedSnapshot py snapshotRaw

/-- An artifact that is written with exactly the allowed keys, or a `TuningSnapshotError`. -/
structure FailsClosed (py : Python) (r : Except TuningError TuningArtifact) : Prop where
  artifact : ∀ a, r = .ok a → ∃ record, a.toRecord py = .ok record ∧ ExactKeys record
  error : RaisesOnly IsSnapshotError r

/-- A version that equals the current one is the current one. -/
theorem versionInt_eq {version : Json} (h : version.eqInt tuningArtifactSchemaVersion = true) :
    versionInt version = tuningArtifactSchemaVersion := by
  unfold Json.eqInt at h
  split at h
  · exact of_decide_eq_true h
  · next b => cases b <;> exact absurd (of_decide_eq_true h) (by decide)
  · rw [of_decide_eq_true h]
    rfl
  · cases h

/-- What is read is of the current schema. -/
theorem artifactFromRecord_schema {payload : Json} {a : TuningArtifact} (h : artifactFromRecord py payload = .ok a) :
    a.schemaVersion = tuningArtifactSchemaVersion := by
  cases payload with
  | obj fields =>
    unfold artifactFromRecord at h
    dsimp only at h
    split at h
    · cases h
    · split at h
      · cases h
      · split at h
        · cases h
        · next hversion =>
          split at h
          · obtain ⟨snapshot, -, hrest⟩ := bind_eq_ok.1 h
            split at hrest
            · cases hrest
            · split at hrest
              · cases hrest
              · cases hrest
                exact versionInt_eq (by simpa using hversion)
          · cases h
  | null => cases h
  | bool b => cases h
  | int n => cases h
  | float x => cases h
  | str s => cases h
  | list xs => cases h

/-- **An artifact is read** or refused, unless `float` refuses its timestamp. -/
theorem failsClosed_iff (payload : Json) : FailsClosed py (artifactFromRecord py payload) ↔
    ¬ ∃ fields, payload = .obj fields ∧ OversizedCreated py fields := by
  constructor
  · -- The earlier checks pass, so the reader of the snapshot is reached and its error is what is raised.
    rintro hcloses ⟨fields, rfl, hextra, hmissing, hversion, snapshotRaw, hsnapshot, hover⟩
    refine snapshotFromRecord_iff.1 (fun error herror => hcloses.error error ?_) hover
    unfold artifactFromRecord
    dsimp only
    rw [hextra, hmissing, hversion, if_neg (by simp), if_neg (by simp), if_neg (by simp), hsnapshot]
    dsimp only
    rw [herror]
    rfl
  · intro hfits
    refine ⟨fun a ha => ⟨_, TuningArtifact.toRecord_eq (artifactFromRecord_schema ha)⟩, ?_⟩
    cases payload with
    | obj fields =>
      unfold artifactFromRecord
      dsimp only
      split
      · exact raisesOnly_snapshot _
      · next hextra =>
        split
        · exact raisesOnly_snapshot _
        · next hmissing =>
          split
          · exact raisesOnly_snapshot _
          · next hversion =>
            split
            · next snapshotRaw hsnapshot =>
              -- The checks before this one are those that `OversizedCreated` names.
              refine (snapshotFromRecord_iff.2 fun hover => hfits ⟨fields, rfl, ?_⟩).bind fun snapshot _ => ?_
              · exact ⟨by simpa using hextra, by simpa using hmissing, by simpa using hversion, snapshotRaw, hsnapshot,
                  hover⟩
              · split
                · exact raisesOnly_snapshot _
                · split
                  · exact raisesOnly_snapshot _
                  · exact raisesOnly_ok _
            · exact raisesOnly_snapshot _
    | null => exact raisesOnly_snapshot _
    | bool b => exact raisesOnly_snapshot _
    | int n => exact raisesOnly_snapshot _
    | float x => exact raisesOnly_snapshot _
    | str s => exact raisesOnly_snapshot _
    | list xs => exact raisesOnly_snapshot _

end Read

/-- **Tuning artifacts** round trip when their numbers are floats, and are read fail-closed unless `float` refuses
their timestamp. -/
theorem tuning_artifacts_iff (py : Python) :
    (∀ config configVersion source wall snapshotId fresh a,
      makeArtifact config configVersion source wall snapshotId fresh = .ok a →
        (RoundTrips py a ↔ wall.Exact ∧ ∀ n ∈ config.numbers, n.Exact)) ∧
    ∀ payload, FailsClosed py (artifactFromRecord py payload) ↔
      ¬ ∃ fields, payload = .obj fields ∧ OversizedCreated py fields :=
  ⟨fun _ _ _ _ _ _ _ => roundTrips_iff, failsClosed_iff⟩

/-- The fields of a configuration with a window of `lookback` seconds. -/
def lookbackFields (lookback : Number) : ConfigFields where
  clusterLookbackS := lookback
  hotEventSeverity := 3
  hotVolumeRatio5m := .float (.finite 2)
  hotChange5m := .float (.finite (12 / 1000))
  warmChange1m := .float (.finite (4 / 1000))
  warmChange5m := .float (.finite (8 / 1000))
  warmVolumeRatio := .float (.finite (3 / 2))

/-- Two minutes. -/
def shortLookback : OfflineTuningConfig := ⟨lookbackFields (.float (.finite 120)), by decide +kernel⟩

/-- An integer between two floats. -/
def longLookback : OfflineTuningConfig := ⟨lookbackFields (.int (2 ^ 53 + 1)), by decide +kernel⟩

def exampleId : String := "0123456789abcdef0123456789abcdef"

/-- With this id and a timestamp an artifact is made. -/
theorem returns_made (config : OfflineTuningConfig) (wall : Number)
    (h : SnapshotFields.postInit ⟨exampleId, wall, .manual, "v1"⟩ = .ok ()) :
    Returns (makeArtifact config "v1" .manual wall (some exampleId) "") := by
  have hversion : isBlank "v1" = false := by decide
  have hid : validateSnapshotId exampleId = .ok () := by decide +kernel
  refine ⟨{ snapshot := ⟨_, h⟩, config }, ?_⟩
  unfold makeArtifact
  rw [hversion, if_neg (by simp)]
  change (validateSnapshotId exampleId >>= fun _ =>
    (match TuningSnapshot.new ⟨exampleId, wall, .manual, "v1"⟩ with
      | .ok snapshot => pure { snapshot := snapshot, config := config }
      | .error error => throw (.other error) : Except TuningError TuningArtifact)) = _
  rw [hid, ok_bind, TuningSnapshot.new_valid h]
  rfl

/-- An artifact of two minutes comes back. -/
theorem tuning_artifacts_short : ∃ a,
    makeArtifact shortLookback "v1" .manual (.float (.finite 1700000000)) (some exampleId) "" = .ok a ∧
      RoundTrips noTexts a := by
  obtain ⟨a, ha⟩ := returns_made shortLookback (.float (.finite 1700000000)) (by decide +kernel)
  exact ⟨a, ha, ((tuning_artifacts_iff noTexts).1 _ _ _ _ _ _ _ ha).2 ⟨by decide +kernel, by decide +kernel⟩⟩

/-- A record with a timestamp of 400 digits. -/
def lateRecord : Payload :=
  [("schema_version", .int 2),
    ("snapshot", .obj [("snapshot_id", .str exampleId), ("created_timestamp", .int (10 ^ 399)),
      ("source", .str "manual"), ("config_version", .str "v1")]),
    ("config", .obj shortLookback.raw)]

/-- The error of a computation. -/
def errorOf {A : Type} : Except TuningError A → Option TuningError
  | .ok _ => none
  | .error error => some error

/-- **A timestamp of 400 digits escapes** as an `OverflowError`, and an integer that is no float does not come
back. -/
theorem late_record_escapes :
    (∃ payload, errorOf (artifactFromRecord noTexts payload) = some (.other .overflowError) ∧
      ¬ FailsClosed noTexts (artifactFromRecord noTexts payload)) ∧
    ∃ a, makeArtifact longLookback "v1" .manual (.float (.finite 1700000000)) (some exampleId) "" = .ok a ∧
      ¬ RoundTrips noTexts a := by
  constructor
  · have herror : errorOf (artifactFromRecord noTexts (.obj lateRecord)) = some (.other .overflowError) := by
      decide +kernel
    refine ⟨_, herror, fun hcloses => ?_⟩
    cases hread : artifactFromRecord noTexts (.obj lateRecord) with
    | ok a =>
      rw [hread] at herror
      cases herror
    | error error =>
      rw [hread] at herror
      obtain rfl := Option.some.inj herror
      obtain ⟨message, hmessage⟩ := hcloses.error _ hread
      cases hmessage
  · obtain ⟨a, ha⟩ := returns_made longLookback (.float (.finite 1700000000)) (by decide +kernel)
    refine ⟨a, ha, fun htrips => ?_⟩
    have hexact := ((roundTrips_iff ha).1 htrips).2 (.int (2 ^ 53 + 1)) List.mem_cons_self
    exact absurd hexact (by decide +kernel)

end Tuning

end MarketSentinel
