import Mathlib.Data.Finset.Card
import Mathlib.Data.String.Basic
import MarketSentinel.Evaluation.OrderFree
import MarketSentinel.Lib.Convert
import MarketSentinel.MarketData.Normalizer

/-!
# The feedback of the tuning

`tuning/feedback.py`: the valid feedback rows are joined with the signals that have evidence in the telemetry. Of the
rows about one signal the latest counts, the others are superseded.

* `buildTuningFeedbackDataset_eq`: the dataset without its exceptions, from the groups of the rows by their target.
* `feedback_conservation`: each valid row is counted once, each target by its latest row, in any order of the rows.
-/

namespace MarketSentinel

open Lib

/-- The value of a label. -/
def FeedbackLabel.value : FeedbackLabel → String
  | .useful => "useful"
  | .notUseful => "not_useful"
  | .tooNoisy => "too_noisy"
  | .tooLate => "too_late"

namespace Tuning

/-! ## The source -/

/-- `JOINABLE_SIGNAL_EVIDENCE`. -/
def joinableSignalEvidence : List String :=
  [TelemetryName.signalEpisodeCreated, .signalEscalated, .alertCandidate, .alertSuppressed].map TelemetryName.value

/-- `_LABELS`. -/
def feedbackLabels : List String :=
  [FeedbackLabel.useful, .notUseful, .tooNoisy, .tooLate].map FeedbackLabel.value

/-- `row.get("name") in JOINABLE_SIGNAL_EVIDENCE`, which needs the hash of the name. -/
def joinableName (row : Record) : Except PyError Bool :=
  match Json.field row "name" with
  | .str name => .ok (decide (name ∈ joinableSignalEvidence))
  | .list _ | .obj _ => .error .typeError
  | _ => .ok false

/-- `_joinable_keys`. -/
def joinableKeys (telemetry : List Record) : Except PyError (Finset (String × String)) :=
  telemetry.foldlM (fun keys row => do
    if ← joinableName row then return (Evaluation.signalKey row).elim keys (insert · keys)
    else return keys) ∅

/-- `row[key]`. -/
def item (row : Record) (key : String) : Except PyError Json :=
  match row.lookup key with
  | some value => .ok value
  | none => .error .keyError

/-- `str(row[key])`. -/
def itemText (py : Python) (row : Record) (key : String) : Except PyError String := do
  (← item row key).pyStr py

/-- `_sort_key`. -/
def sortKey (py : Python) (row : Record) : Except PyError (PyFloat × String) := do
  let created ← Evaluation.floatOf (← item row "created_timestamp")
  let feedbackId ← itemText py row "feedback_id"
  return (created, feedbackId)

/-- The order of pairs. -/
def KeyLe (a b : PyFloat × String) : Prop := if a.1 = b.1 then a.2 ≤ b.2 else Evaluation.FloatLe a.1 b.1

instance : DecidableRel KeyLe := fun a b => inferInstanceAs (Decidable (if a.1 = b.1 then _ else _))

/-- `sorted(rows, key=_sort_key)`. -/
def sortedRows (py : Python) (rows : List Record) : Except PyError (List Record) := do
  let keyed ← rows.mapM fun row => do return (← sortKey py row, row)
  return (keyed.insertionSort fun a b => KeyLe a.1 b.1).map Prod.snd

/-- `TuningFeedbackDataset`. -/
structure TuningFeedbackDataset where
  rawFeedbackCount : ℕ
  semanticValidFeedbackCount : ℕ
  eligibleTargetCount : ℕ
  orphanFeedbackCount : ℕ
  supersededFeedbackCount : ℕ
  useful : ℕ
  notUseful : ℕ
  tooNoisy : ℕ
  tooLate : ℕ
  deriving DecidableEq, Repr

/-- One row in the loop that groups the valid rows: `(orphan, by_target)`. -/
def joinRow (py : Python) (joinable : Finset (String × String))
    (s : ℕ × Dict (String × String) (List Record)) (row : Record) :
    Except PyError (ℕ × Dict (String × String) (List Record)) := do
  let runId ← itemText py row "run_id"
  let signalId ← itemText py row "signal_id"
  if (runId, signalId) ∈ joinable then return (s.1, s.2.push (runId, signalId) row)
  else return (s.1 + 1, s.2)

/-- The rows of one target in the loop that counts the labels: `(superseded, labels)`. -/
def settleTarget (py : Python) (s : ℕ × Dict String ℕ) (rows : List Record) :
    Except PyError (ℕ × Dict String ℕ) := do
  let ordered ← sortedRows py rows
  match ordered.getLast? with
  | none => throw .indexError
  | some winner =>
    let label ← itemText py winner "label"
    match s.2.get? label with
    | none => throw .keyError
    | some n => return (s.1 + (ordered.length - 1), s.2.set label (n + 1))

/-- `build_tuning_feedback_dataset`. -/
def buildTuningFeedbackDataset (py : Python) (feedbackRows telemetryRows : List Record) :
    Except PyError TuningFeedbackDataset := do
  let valid ← feedbackRows.filterM Evaluation.validFeedbackRow
  let joinable ← joinableKeys telemetryRows
  let joined ← valid.foldlM (joinRow py joinable) (0, Dict.empty)
  let settled ← joined.2.values.foldlM (settleTarget py) (0, Dict.empty.setAll feedbackLabels 0)
  return {
    rawFeedbackCount := feedbackRows.length
    semanticValidFeedbackCount := valid.length
    eligibleTargetCount := joined.2.keys.length
    orphanFeedbackCount := joined.1
    supersededFeedbackCount := settled.1
    useful := settled.2.getD FeedbackLabel.useful.value 0
    notUseful := settled.2.getD FeedbackLabel.notUseful.value 0
    tooNoisy := settled.2.getD FeedbackLabel.tooNoisy.value 0
    tooLate := settled.2.getD FeedbackLabel.tooLate.value 0 }

namespace TuningFeedbackDataset

/-- The counter of a label. -/
def count (d : TuningFeedbackDataset) : FeedbackLabel → ℕ
  | .useful => d.useful
  | .notUseful => d.notUseful
  | .tooNoisy => d.tooNoisy
  | .tooLate => d.tooLate

/-- `to_record`. -/
def toRecord (d : TuningFeedbackDataset) : Payload :=
  [("raw_feedback_count", .int d.rawFeedbackCount),
    ("semantic_valid_feedback_count", .int d.semanticValidFeedbackCount),
    ("eligible_target_count", .int d.eligibleTargetCount),
    ("orphan_feedback_count", .int d.orphanFeedbackCount),
    ("superseded_feedback_count", .int d.supersededFeedbackCount),
    ("useful", .int d.useful),
    ("not_useful", .int d.notUseful),
    ("too_noisy", .int d.tooNoisy),
    ("too_late", .int d.tooLate)]

end TuningFeedbackDataset

/-! ## Without the exceptions -/

/-- The float of a timestamp and the id of a row. -/
def rowKey (row : Record) : PyFloat × String :=
  (match Json.field row "created_timestamp" with
    | .int n => .finite (nearestFloat n)
    | .float x => x
    | _ => .nan,
    (row.text "feedback_id").getD "")

/-- One row is not later than another. -/
abbrev RowLe (a b : Record) : Prop := KeyLe (rowKey a) (rowKey b)

/-- The signals with evidence. -/
def evidence (telemetry : List Record) : Finset (String × String) :=
  ((telemetry.filter fun row => (row.text "name").any (· ∈ joinableSignalEvidence)).filterMap
    Evaluation.signalKey).toFinset

/-- The signal of a row, if it has evidence. -/
def targetKey (joinable : Finset (String × String)) (row : Record) : Option (String × String) :=
  (Evaluation.signalKey row).filter (· ∈ joinable)

def validRows (feedback : List Record) : List Record := feedback.filter Evaluation.wellFormedFeedback

/-- The rows by their targets. -/
def targets (feedback telemetry : List Record) : Dict (String × String) (List Record) :=
  groupBy (targetKey (evidence telemetry)) (validRows feedback)

/-- The latest row. -/
def winnerOf (rows : List Record) : Option Record := (rows.insertionSort RowLe).getLast?

def winnerLabel (rows : List Record) : Option String := (winnerOf rows).bind (·.text "label")

/-- What `settleTarget` makes of rows that are valid. -/
def settle (s : ℕ × Dict String ℕ) (rows : List Record) : ℕ × Dict String ℕ :=
  (s.1 + (rows.length - 1), (winnerLabel rows).elim s.2 s.2.bump)

section Rows

variable {py : Python} {row : Record} {key : String}

theorem KeyLe.iff_lex {a b : PyFloat × String} :
    KeyLe a b ↔ a.1 = b.1 ∧ a.2 ≤ b.2 ∨ a.1 ≠ b.1 ∧ Evaluation.FloatLe a.1 b.1 := by
  unfold KeyLe
  split
  · next h => simp [h]
  · next h => simp [h]

instance : Std.Total KeyLe where
  total a b := by
    rw [KeyLe.iff_lex, KeyLe.iff_lex]
    by_cases h : a.1 = b.1
    · exact (le_total a.2 b.2).imp (fun hle => .inl ⟨h, hle⟩) fun hle => .inl ⟨h.symm, hle⟩
    · exact (Std.Total.total a.1 b.1).imp (fun hle => .inr ⟨h, hle⟩) fun hle => .inr ⟨Ne.symm h, hle⟩

instance : Std.Antisymm KeyLe where
  antisymm a b hab hba := by
    rw [KeyLe.iff_lex] at hab hba
    rcases hab with ⟨h, hle⟩ | ⟨h, hle⟩
    · rcases hba with ⟨-, hle'⟩ | ⟨h', -⟩
      · exact Prod.ext h (le_antisymm hle hle')
      · exact absurd h.symm h'
    · rcases hba with ⟨h', -⟩ | ⟨-, hle'⟩
      · exact absurd h'.symm h
      · exact absurd (Std.Antisymm.antisymm _ _ hle hle') h

instance : IsTrans (PyFloat × String) KeyLe where
  trans a b c hab hbc := by
    rw [KeyLe.iff_lex] at hab hbc ⊢
    rcases hab with ⟨h, hle⟩ | ⟨h, hle⟩
    · rcases hbc with ⟨h', hle'⟩ | ⟨h', hle'⟩
      · exact .inl ⟨h.trans h', hle.trans hle'⟩
      · exact .inr ⟨h ▸ h', h ▸ hle'⟩
    · rcases hbc with ⟨h', hle'⟩ | ⟨h', hle'⟩
      · exact .inr ⟨h' ▸ h, h' ▸ hle⟩
      · -- Were the ends equal, so were all three.
        refine .inr ⟨fun heq => h (Std.Antisymm.antisymm _ _ hle ?_), IsTrans.trans _ _ _ hle hle'⟩
        rw [heq]
        exact hle'

instance : Std.Total RowLe where
  total a b := Std.Total.total (r := KeyLe) (rowKey a) (rowKey b)

instance : IsTrans Record RowLe where
  trans a b c := IsTrans.trans (r := KeyLe) (rowKey a) (rowKey b) (rowKey c)

theorem lookup_of_text {s : String} (h : row.text key = some s) : row.lookup key = some (.str s) := by
  unfold Record.text Json.field at h
  cases hlookup : row.lookup key with
  | none => simp [hlookup] at h
  | some value => cases value <;> simp_all

theorem itemText_of_text {s : String} (h : row.text key = some s) : itemText py row key = .ok s := by
  unfold itemText item
  rw [lookup_of_text h]
  rfl

theorem text_of_nonBlank {s : String} (h : nonBlankText (Json.field row key) = some s) : row.text key = some s := by
  unfold nonBlankText at h
  have htext := (Option.filter_eq_some_iff.1 h).1
  exact htext

theorem FeedbackLabel.parse_value {s : String} {label : FeedbackLabel} (h : FeedbackLabel.parse s = some label) :
    s = label.value := by
  unfold FeedbackLabel.parse at h
  split at h <;> cases h <;> rfl

/-- The texts of a valid row. -/
theorem valid_texts (h : Evaluation.wellFormedFeedback row = true) :
    ∃ feedbackId runId signalId, ∃ label : FeedbackLabel, row.text "feedback_id" = some feedbackId ∧
    row.text "run_id" = some runId ∧ row.text "signal_id" = some signalId ∧
    Evaluation.signalKey row = some (runId, signalId) ∧ row.text "label" = some label.value := by
  unfold Evaluation.wellFormedFeedback Evaluation.feedbackIdentified at h
  simp only [Bool.and_eq_true, List.all_cons, List.all_nil, Bool.and_true] at h
  obtain ⟨⟨⟨⟨-, hid, hrun, hsignal⟩, hlabel⟩, -⟩, -⟩ := h
  obtain ⟨feedbackId, hid⟩ := Option.isSome_iff_exists.1 hid
  obtain ⟨runId, hrun⟩ := Option.isSome_iff_exists.1 hrun
  obtain ⟨signalId, hsignal⟩ := Option.isSome_iff_exists.1 hsignal
  obtain ⟨label, hlabel⟩ := Option.isSome_iff_exists.1 hlabel
  obtain ⟨s, hs, hparse⟩ := Option.bind_eq_some_iff.1 hlabel
  refine ⟨feedbackId, runId, signalId, label, text_of_nonBlank hid, text_of_nonBlank hrun, text_of_nonBlank hsignal,
    ?_, ?_⟩
  · unfold Evaluation.signalKey
    rw [hrun, hsignal]
  · rw [hs, FeedbackLabel.parse_value hparse]

theorem sortKey_valid (h : Evaluation.wellFormedFeedback row = true)
    (hsize : ¬ Oversized (Json.field row "created_timestamp")) : sortKey py row = .ok (rowKey row) := by
  obtain ⟨feedbackId, -, -, -, hid, -⟩ := valid_texts h
  unfold Evaluation.wellFormedFeedback at h
  simp only [Bool.and_eq_true] at h
  have hfinite := h.1.2
  have hitem : item row "created_timestamp" = .ok (Json.field row "created_timestamp") := by
    unfold item Json.field at *
    cases hlookup : row.lookup "created_timestamp" with
    | none => simp [hlookup, Evaluation.finiteNumber] at hfinite
    | some value => rfl
  unfold sortKey rowKey
  rw [hitem, ok_bind, itemText_of_text hid, hid]
  cases hcreated : Json.field row "created_timestamp" with
  | int n =>
    have hnone : (Json.intToFloat n).isNone = false := by
      rw [hcreated] at hsize
      exact Bool.eq_false_iff.2 fun hn => hsize (Json.intToFloat_eq_none.1 (Option.isNone_iff_eq_none.1 hn))
    rw [Evaluation.floatOf, hnone]
    rfl
  | float x => rfl
  | null => simp [hcreated, Evaluation.finiteNumber] at hfinite
  | bool b => simp [hcreated, Evaluation.finiteNumber] at hfinite
  | str s => simp [hcreated, Evaluation.finiteNumber] at hfinite
  | list xs => simp [hcreated, Evaluation.finiteNumber] at hfinite
  | obj fields => simp [hcreated, Evaluation.finiteNumber] at hfinite

end Rows

/-! ## The loops -/

section Loops

variable {py : Python} {feedback telemetry : List Record}

/-- Each telemetry row has a name that is a string. -/
def StringNames (telemetry : List Record) : Prop :=
  ∀ row ∈ telemetry, ∃ name, Json.field row "name" = .str name

/-- Each feedback row has a timestamp that `float` takes. -/
def Representable (feedback : List Record) : Prop :=
  ∀ row ∈ feedback, ¬ Oversized (Json.field row "created_timestamp")

theorem foldl_insert_elim (p : Record → Bool) (key : Record → Option (String × String)) (l : List Record)
    (keys : Finset (String × String)) :
    l.foldl (fun keys row => if p row then (key row).elim keys (insert · keys) else keys) keys =
      keys ∪ ((l.filter p).filterMap key).toFinset := by
  induction l generalizing keys with
  | nil => simp
  | cons row l ih =>
    rw [List.foldl_cons, ih]
    cases hp : p row with
    | false => simp [hp]
    | true =>
      rw [List.filter_cons_of_pos hp, if_pos rfl]
      cases hkey : key row with
      | none => simp [hkey]
      | some k => rw [List.filterMap_cons_some hkey, List.toFinset_cons, Option.elim_some, Finset.insert_union,
          Finset.union_insert]

theorem joinableKeys_eq (hnames : StringNames telemetry) : joinableKeys telemetry = .ok (evidence telemetry) := by
  unfold joinableKeys
  have hloop := foldl_insert_elim (fun row => (row.text "name").any (· ∈ joinableSignalEvidence)) Evaluation.signalKey
    telemetry ∅
  rw [Finset.empty_union] at hloop
  unfold evidence
  rw [← hloop]
  refine foldlM_eq_foldl fun keys row hrow => ?_
  obtain ⟨name, hname⟩ := hnames row hrow
  have htext : row.text "name" = some name := by
    unfold Record.text
    rw [hname]
  unfold joinableName
  rw [hname, htext, ok_bind]
  by_cases hin : name ∈ joinableSignalEvidence
  · simp [hin]
    rfl
  · simp [hin]
    rfl

theorem foldl_join (key : Record → Option (String × String)) (l : List Record) (n : ℕ)
    (d : Dict (String × String) (List Record)) :
    l.foldl (fun s row => (if (key row).isNone then s.1 + 1 else s.1, s.2.pushBy row (key row))) (n, d) =
      (n + l.countP (fun row => (key row).isNone), l.foldl (fun d row => d.pushBy row (key row)) d) := by
  induction l generalizing n d with
  | nil => rfl
  | cons row l ih =>
    rw [List.foldl_cons, ih, List.foldl_cons, List.countP_cons]
    cases (key row).isNone <;> simp [Nat.add_assoc, Nat.add_comm]

theorem join_eq (hvalid : ∀ row ∈ validRows feedback, Evaluation.wellFormedFeedback row = true) :
    (validRows feedback).foldlM (joinRow py (evidence telemetry)) (0, Dict.empty) =
      .ok ((validRows feedback).countP (fun row => (targetKey (evidence telemetry) row).isNone),
        targets feedback telemetry) := by
  have hloop := foldl_join (targetKey (evidence telemetry)) (validRows feedback) 0 Dict.empty
  rw [Nat.zero_add] at hloop
  unfold targets groupBy
  rw [← hloop]
  refine foldlM_eq_foldl fun s row hrow => ?_
  obtain ⟨-, runId, signalId, -, -, hrun, hsignal, hkey, -⟩ := valid_texts (hvalid row hrow)
  unfold joinRow targetKey
  rw [itemText_of_text hrun, ok_bind, itemText_of_text hsignal, ok_bind, hkey]
  by_cases hin : (runId, signalId) ∈ evidence telemetry
  · have hsome : (some (runId, signalId)).filter (· ∈ evidence telemetry) = some (runId, signalId) := by
      simp [Option.filter, hin]
    rw [if_pos hin, hsome]
    rfl
  · have hnone : (some (runId, signalId)).filter (· ∈ evidence telemetry) = none := by simp [Option.filter, hin]
    rw [if_neg hin, hnone]
    rfl

theorem sortedRows_eq {rows : List Record} (hvalid : ∀ row ∈ rows, Evaluation.wellFormedFeedback row = true)
    (hsize : Representable rows) : sortedRows py rows = .ok (rows.insertionSort RowLe) := by
  have hkeys : rows.mapM (fun row => do return (← sortKey py row, row)) =
      (.ok (rows.map fun row => (rowKey row, row)) : Except PyError _) :=
    mapM_eq_map fun row hrow => by rw [sortKey_valid (hvalid row hrow) (hsize row hrow)]; rfl
  unfold sortedRows
  rw [hkeys, ok_bind]
  have hmap := List.map_insertionSort RowLe (fun a b => KeyLe a.1 b.1) (fun row => (rowKey row, row)) rows
    fun _ _ _ _ => Iff.rfl
  rw [← hmap, List.map_map]
  exact congrArg Except.ok (List.map_id _)

/-- A group of valid rows has a latest one. -/
theorem winnerOf_isSome {rows : List Record} (hne : rows ≠ []) : ∃ winner, winnerOf rows = some winner := by
  unfold winnerOf
  refine Option.isSome_iff_exists.1 (List.getLast?_isSome.2 fun hnil => hne ?_)
  exact List.length_eq_zero_iff.1 ((List.length_insertionSort RowLe rows).symm.trans (List.length_eq_zero_iff.2 hnil))

theorem winnerLabel_valid {rows : List Record} (hne : rows ≠ [])
    (hvalid : ∀ row ∈ rows, Evaluation.wellFormedFeedback row = true) :
    ∃ label : FeedbackLabel, winnerLabel rows = some label.value := by
  obtain ⟨winner, hwinner⟩ := winnerOf_isSome hne
  obtain ⟨-, -, -, label, -, -, -, -, hlabel⟩ := valid_texts (hvalid winner (getLast?_insertionSort hwinner).1)
  refine ⟨label, ?_⟩
  unfold winnerLabel
  rw [hwinner]
  exact hlabel

/-- Every label has its counter. -/
def Counted (s : ℕ × Dict String ℕ) : Prop := ∀ label : FeedbackLabel, (s.2.get? label.value).isSome

theorem settleTarget_eq {rows : List Record} {s : ℕ × Dict String ℕ} (hne : rows ≠ [])
    (hvalid : ∀ row ∈ rows, Evaluation.wellFormedFeedback row = true) (hsize : Representable rows) (hs : Counted s) :
    settleTarget py s rows = .ok (settle s rows) ∧ Counted (settle s rows) := by
  obtain ⟨winner, hwinner⟩ := winnerOf_isSome hne
  obtain ⟨label, hlabel⟩ := winnerLabel_valid hne hvalid
  obtain ⟨n, hn⟩ := Option.isSome_iff_exists.1 (hs label)
  have htext : winner.text "label" = some label.value := by
    unfold winnerLabel at hlabel
    rwa [hwinner] at hlabel
  constructor
  · unfold settleTarget settle
    rw [sortedRows_eq hvalid hsize, ok_bind, show (rows.insertionSort RowLe).getLast? = some winner from hwinner]
    dsimp only
    rw [itemText_of_text htext, ok_bind, hn, hlabel, List.length_insertionSort]
    unfold Dict.bump
    rw [Option.elim_some, hn]
    rfl
  · intro other
    unfold settle
    rw [hlabel, Option.elim_some, Dict.get?_bump, Option.isSome_map]
    exact hs other

theorem foldl_settle (groups : List (List Record)) (s : ℕ × Dict String ℕ) :
    groups.foldl settle s = (s.1 + (groups.map fun rows => rows.length - 1).sum,
      groups.foldl (fun d rows => (winnerLabel rows).elim d d.bump) s.2) := by
  induction groups generalizing s with
  | nil => rfl
  | cons rows groups ih =>
    rw [List.foldl_cons, ih, List.foldl_cons, List.map_cons, List.sum_cons, ← Nat.add_assoc]
    rfl

end Loops

/-! ## The counts -/

/-- What the rows of each target come to. -/
def datasetOf (feedback telemetry : List Record) : TuningFeedbackDataset :=
  let groups := (targets feedback telemetry).values
  let count (label : FeedbackLabel) := groups.countP fun rows => winnerLabel rows = some label.value
  { rawFeedbackCount := feedback.length
    semanticValidFeedbackCount := (validRows feedback).length
    eligibleTargetCount := (targets feedback telemetry).keys.length
    orphanFeedbackCount := (validRows feedback).countP fun row => (targetKey (evidence telemetry) row).isNone
    supersededFeedbackCount := (groups.map fun rows => rows.length - 1).sum
    useful := count .useful
    notUseful := count .notUseful
    tooNoisy := count .tooNoisy
    tooLate := count .tooLate }

theorem datasetOf_count (feedback telemetry : List Record) (label : FeedbackLabel) :
    (datasetOf feedback telemetry).count label =
      (targets feedback telemetry).values.countP fun rows => winnerLabel rows = some label.value := by
  cases label <;> rfl

theorem validRows_valid {feedback : List Record} {row : Record} (h : row ∈ validRows feedback) :
    Evaluation.wellFormedFeedback row = true := (List.mem_filter.1 h).2

section Counts

variable {py : Python} {feedback telemetry : List Record} {target : String × String}

theorem getD_targets : (targets feedback telemetry).getD target [] =
    (validRows feedback).filter fun row => targetKey (evidence telemetry) row = some target := getD_groupBy _ _ _

theorem mem_targets : target ∈ (targets feedback telemetry).keys ↔
    ∃ row ∈ validRows feedback, targetKey (evidence telemetry) row = some target := mem_keys_groupBy

theorem targets_values : (targets feedback telemetry).values = (targets feedback telemetry).keys.map fun target =>
    (targets feedback telemetry).getD target [] := Dict.values_eq_getD _ _

/-- A target has rows, all of them valid. -/
theorem target_rows {rows : List Record} (h : rows ∈ (targets feedback telemetry).values) :
    rows ≠ [] ∧ ∀ row ∈ rows, row ∈ validRows feedback := by
  rw [targets_values, List.mem_map] at h
  obtain ⟨target, hmem, rfl⟩ := h
  obtain ⟨row, hrow, hkey⟩ := mem_targets.1 hmem
  rw [getD_targets]
  refine ⟨List.ne_nil_of_mem (List.mem_filter.2 ⟨hrow, decide_eq_true hkey⟩), fun row hrow => ?_⟩
  exact (List.mem_filter.1 hrow).1

/-- **The dataset without its exceptions.** -/
theorem buildTuningFeedbackDataset_eq (htimes : Representable feedback) (hnames : StringNames telemetry) :
    buildTuningFeedbackDataset py feedback telemetry = .ok (datasetOf feedback telemetry) := by
  have hfilter : feedback.filterM Evaluation.validFeedbackRow = .ok (validRows feedback) := by
    refine filterM_ok fun row hrow => ?_
    obtain ⟨b, hb⟩ := (Evaluation.validFeedbackRow_spec row).1.2 fun hover => htimes row hrow hover.2
    rw [hb, (Evaluation.validFeedbackRow_spec row).2 b hb]
  have hsettled : (targets feedback telemetry).values.foldlM (settleTarget py)
      (0, Dict.empty.setAll feedbackLabels 0) =
        .ok ((targets feedback telemetry).values.foldl settle (0, Dict.empty.setAll feedbackLabels 0)) := by
    refine foldlM_eq_foldl_of (P := Counted) (fun s hs rows hrows => ?_) fun label => ?_
    · obtain ⟨hne, hmem⟩ := target_rows hrows
      refine settleTarget_eq hne (fun row hrow => validRows_valid (hmem row hrow)) (fun row hrow => ?_) hs
      exact htimes row (List.mem_filter.1 (hmem row hrow)).1
    · cases label <;> decide
  have hcount : ∀ label : FeedbackLabel, ((targets feedback telemetry).values.foldl
      (fun d rows => (winnerLabel rows).elim d d.bump) (Dict.empty.setAll feedbackLabels 0)).getD label.value 0 =
        (targets feedback telemetry).values.countP fun rows => winnerLabel rows = some label.value := by
    intro label
    have hstart : (Dict.empty.setAll feedbackLabels 0).get? label.value = some 0 := by cases label <;> decide
    unfold Dict.getD
    rw [Dict.get?_foldl_bump, hstart, Option.map_some, Option.getD_some, Nat.zero_add]
  unfold buildTuningFeedbackDataset datasetOf
  rw [hfilter, ok_bind, joinableKeys_eq hnames, ok_bind, join_eq fun row hrow => validRows_valid hrow, ok_bind,
    hsettled, ok_bind, foldl_settle]
  dsimp only
  rw [hcount, hcount, hcount, hcount, Nat.zero_add]
  rfl

/-! ## Conservation -/

/-- A row of a target that no other row of the target is later than. -/
structure Winner (feedback : List Record) (target : String × String) (row : Record) : Prop where
  valid : row ∈ validRows feedback
  signal : Evaluation.signalKey row = some target
  latest : ∀ other ∈ validRows feedback, Evaluation.signalKey other = some target → KeyLe (rowKey other) (rowKey row)

/-- The signals of the valid rows that have evidence. -/
def eligibleTargets (feedback telemetry : List Record) : Finset (String × String) :=
  ((validRows feedback).filterMap Evaluation.signalKey).toFinset ∩ evidence telemetry

/-- Each valid row is counted once, and each target by the label of its latest row. -/
structure Conserves (feedback telemetry : List Record) (d : TuningFeedbackDataset) : Prop where
  raw : d.rawFeedbackCount = feedback.length
  valid : d.semanticValidFeedbackCount = feedback.countP Evaluation.wellFormedFeedback
  eligible : d.eligibleTargetCount = (eligibleTargets feedback telemetry).card
  orphan : d.orphanFeedbackCount = (validRows feedback).countP fun row =>
    (Evaluation.signalKey row).all (· ∉ evidence telemetry)
  split : d.semanticValidFeedbackCount =
    d.orphanFeedbackCount + d.supersededFeedbackCount + d.eligibleTargetCount
  labels : d.useful + d.notUseful + d.tooNoisy + d.tooLate = d.eligibleTargetCount
  winners : ∃ winner : String × String → Record,
    (∀ target ∈ eligibleTargets feedback telemetry, Winner feedback target (winner target)) ∧
      ∀ label, d.count label = ((eligibleTargets feedback telemetry).filter fun target =>
        (winner target).text "label" = some label.value).card

theorem targetKey_eq_some {row : Record} : targetKey (evidence telemetry) row = some target ↔
    Evaluation.signalKey row = some target ∧ target ∈ evidence telemetry := by
  unfold targetKey
  rw [Option.filter_eq_some_iff, decide_eq_true_eq]

theorem targets_eligible : (targets feedback telemetry).keys.toFinset = eligibleTargets feedback telemetry := by
  ext target
  unfold eligibleTargets
  rw [List.mem_toFinset, mem_targets, Finset.mem_inter, List.mem_toFinset, List.mem_filterMap]
  simp only [targetKey_eq_some]
  constructor
  · rintro ⟨row, hrow, hkey, hin⟩
    exact ⟨⟨row, hrow, hkey⟩, hin⟩
  · rintro ⟨⟨row, hrow, hkey⟩, hin⟩
    exact ⟨row, hrow, hkey, hin⟩

/-- Each row of a target counts, or is superseded. -/
theorem superseded_add (groups : List (List Record)) (hne : ∀ rows ∈ groups, rows ≠ []) :
    (groups.map fun rows => rows.length - 1).sum + groups.length = (groups.map List.length).sum := by
  induction groups with
  | nil => rfl
  | cons rows groups ih =>
    have hpos := List.length_pos_iff.2 (hne rows List.mem_cons_self)
    have hrest := ih fun rows hrows => hne rows (List.mem_cons_of_mem _ hrows)
    rw [List.map_cons, List.map_cons, List.sum_cons, List.sum_cons, List.length_cons]
    omega

/-- Each group has one of the labels. -/
theorem labels_add (groups : List (List Record))
    (hlabel : ∀ rows ∈ groups, ∃ label : FeedbackLabel, winnerLabel rows = some label.value) :
    groups.countP (fun rows => winnerLabel rows = some FeedbackLabel.useful.value) +
      groups.countP (fun rows => winnerLabel rows = some FeedbackLabel.notUseful.value) +
      groups.countP (fun rows => winnerLabel rows = some FeedbackLabel.tooNoisy.value) +
      groups.countP (fun rows => winnerLabel rows = some FeedbackLabel.tooLate.value) = groups.length := by
  induction groups with
  | nil => rfl
  | cons rows groups ih =>
    have hrest := ih fun rows hrows => hlabel rows (List.mem_cons_of_mem _ hrows)
    obtain ⟨label, hrows⟩ := hlabel rows List.mem_cons_self
    simp only [List.countP_cons, hrows, List.length_cons]
    rw [← hrest]
    cases label <;> simp [FeedbackLabel.value] <;> omega

theorem targets_length : (validRows feedback).length =
    (validRows feedback).countP (fun row => (targetKey (evidence telemetry) row).isNone) +
      ((targets feedback telemetry).values.map List.length).sum := by
  have hgroups := countP_groups (targets feedback telemetry).nodup
    (fun row => (targetKey (evidence telemetry) row).isSome) (targetKey (evidence telemetry))
    (l := validRows feedback) fun row hrow hsome => by
      obtain ⟨target, htarget⟩ := Option.isSome_iff_exists.1 hsome
      exact ⟨target, mem_targets.2 ⟨row, hrow, htarget⟩, htarget⟩
  have hall : ∀ target, ((validRows feedback).filter fun row =>
      targetKey (evidence telemetry) row = some target).countP
        (fun row => (targetKey (evidence telemetry) row).isSome) =
          ((targets feedback telemetry).getD target []).length := by
    intro target
    rw [getD_targets]
    refine List.countP_eq_length.2 fun row hrow => ?_
    rw [of_decide_eq_true (List.mem_filter.1 hrow).2]
    rfl
  simp only [hall] at hgroups
  rw [targets_values, List.map_map]
  have hsplit := List.length_eq_countP_add_countP (fun row => (targetKey (evidence telemetry) row).isSome)
    (l := validRows feedback)
  have hnot : (validRows feedback).countP (fun row => decide ¬ (targetKey (evidence telemetry) row).isSome = true) =
      (validRows feedback).countP fun row => (targetKey (evidence telemetry) row).isNone := by
    refine List.countP_congr fun row _ => ?_
    cases targetKey (evidence telemetry) row <;> simp
  rw [hsplit, hnot, hgroups, Nat.add_comm]
  rfl

/-- The latest row of a target. -/
def latestRow (feedback telemetry : List Record) (target : String × String) : Record :=
  (winnerOf ((targets feedback telemetry).getD target [])).getD []

theorem latestRow_spec (h : target ∈ eligibleTargets feedback telemetry) :
    winnerOf ((targets feedback telemetry).getD target []) = some (latestRow feedback telemetry target) ∧
      Winner feedback target (latestRow feedback telemetry target) := by
  rw [← targets_eligible, List.mem_toFinset] at h
  obtain ⟨row, hrow, hkey⟩ := mem_targets.1 h
  have hne : (targets feedback telemetry).getD target [] ≠ [] := by
    rw [getD_targets]
    exact List.ne_nil_of_mem (List.mem_filter.2 ⟨hrow, decide_eq_true hkey⟩)
  obtain ⟨winner, hwinner⟩ := winnerOf_isSome hne
  obtain ⟨hmem, hlatest⟩ := getLast?_insertionSort hwinner
  have hin := (targetKey_eq_some.1 hkey).2
  have hgroup : ∀ other, other ∈ (targets feedback telemetry).getD target [] ↔
      other ∈ validRows feedback ∧ Evaluation.signalKey other = some target := by
    intro other
    rw [getD_targets, List.mem_filter, decide_eq_true_eq, targetKey_eq_some, and_iff_left hin]
  obtain ⟨hvalid, hsignal⟩ := (hgroup winner).1 hmem
  unfold latestRow
  rw [hwinner]
  exact ⟨rfl, hvalid, hsignal, fun other hother hsame => hlatest other ((hgroup other).2 ⟨hother, hsame⟩)⟩

theorem datasetOf_conserves : Conserves feedback telemetry (datasetOf feedback telemetry) := by
  have hnodup : (targets feedback telemetry).keys.Nodup := (targets feedback telemetry).nodup
  have hkeys : (targets feedback telemetry).values.length = (targets feedback telemetry).keys.length := by
    rw [targets_values, List.length_map]
  have hcard : (targets feedback telemetry).keys.length = (eligibleTargets feedback telemetry).card := by
    rw [← targets_eligible, List.toFinset_card_of_nodup hnodup]
  refine ⟨rfl, List.countP_eq_length_filter.symm, hcard, ?_, ?_, ?_, ?_⟩
  · refine List.countP_congr fun row _ => ?_
    unfold targetKey
    cases Evaluation.signalKey row <;> simp [Option.filter]
  · have hsuperseded := superseded_add _ fun rows (hrows : rows ∈ (targets feedback telemetry).values) =>
      (target_rows hrows).1
    have hlength := @targets_length feedback telemetry
    unfold datasetOf
    dsimp only
    omega
  · have hlabels := labels_add (targets feedback telemetry).values fun rows hrows =>
      winnerLabel_valid (target_rows hrows).1 fun row hrow => validRows_valid ((target_rows hrows).2 row hrow)
    exact hlabels.trans hkeys
  · refine ⟨latestRow feedback telemetry, fun target h => (latestRow_spec h).2, fun label => ?_⟩
    have hfilter : (eligibleTargets feedback telemetry).filter (fun target =>
        (latestRow feedback telemetry target).text "label" = some label.value) =
          ((targets feedback telemetry).keys.filter fun target =>
            (latestRow feedback telemetry target).text "label" = some label.value).toFinset := by
      ext target
      simp [← targets_eligible]
    rw [datasetOf_count, targets_values, List.countP_map, List.countP_eq_length_filter, hfilter,
      List.toFinset_card_of_nodup (hnodup.filter _)]
    refine congrArg List.length (List.filter_congr fun target hmem => ?_)
    rw [← List.mem_toFinset, targets_eligible] at hmem
    simp [winnerLabel, (latestRow_spec hmem).1]

/-- No two valid rows have one id. -/
def DistinctIds (feedback : List Record) : Prop := ((validRows feedback).map (·.text "feedback_id")).Nodup

/-- Two latest rows of a target have the same key, so the same id. -/
theorem Winner.unique {row row' : Record} (hdistinct : DistinctIds feedback) (h : Winner feedback target row)
    (h' : Winner feedback target row') : row = row' := by
  have hkey : rowKey row = rowKey row' :=
    Std.Antisymm.antisymm _ _ (h'.latest row h.valid h.signal) (h.latest row' h'.valid h'.signal)
  obtain ⟨feedbackId, -, -, -, hid, -⟩ := valid_texts (validRows_valid h.valid)
  obtain ⟨feedbackId', -, -, -, hid', -⟩ := valid_texts (validRows_valid h'.valid)
  have hsame : row.text "feedback_id" = row'.text "feedback_id" := by
    have hsnd := congrArg Prod.snd hkey
    unfold rowKey at hsnd
    dsimp only at hsnd
    rw [hid, hid', Option.getD_some, Option.getD_some] at hsnd
    rw [hid, hid', hsnd]
  exact List.inj_on_of_nodup_map hdistinct h.valid h'.valid hsame

/-- **The conservation laws determine the dataset**, when the ids are distinct. -/
theorem Conserves.unique {feedback' telemetry' : List Record} {d d' : TuningFeedbackDataset}
    (hdistinct : DistinctIds feedback) (hperm : feedback'.Perm feedback) (hperm' : telemetry'.Perm telemetry)
    (h : Conserves feedback telemetry d) (h' : Conserves feedback' telemetry' d') : d' = d := by
  have hvalid : (validRows feedback').Perm (validRows feedback) := hperm.filter _
  have hevidence : evidence telemetry' = evidence telemetry :=
    List.toFinset_eq_of_perm _ _ ((hperm'.filter _).filterMap _)
  have heligible : eligibleTargets feedback' telemetry' = eligibleTargets feedback telemetry := by
    unfold eligibleTargets
    rw [hevidence, List.toFinset_eq_of_perm _ _ (hvalid.filterMap _)]
  have hwinner : ∀ {target row}, Winner feedback' target row → Winner feedback target row := fun hw =>
    ⟨hvalid.mem_iff.1 hw.valid, hw.signal, fun other hother => hw.latest other (hvalid.mem_iff.2 hother)⟩
  have hraw := h'.raw.trans (hperm.length_eq.trans h.raw.symm)
  have hsemantic := h'.valid.trans ((hperm.countP_eq _).trans h.valid.symm)
  have htargets : d'.eligibleTargetCount = d.eligibleTargetCount := by rw [h'.eligible, h.eligible, heligible]
  have horphan : d'.orphanFeedbackCount = d.orphanFeedbackCount := by
    rw [h'.orphan, h.orphan, hevidence, hvalid.countP_eq]
  have hsuperseded : d'.supersededFeedbackCount = d.supersededFeedbackCount := by
    have hsplit := h.split
    have hsplit' := h'.split
    omega
  -- A target has one winner when the ids are distinct, so both datasets count the same labels.
  have hcount : ∀ label, d'.count label = d.count label := by
    obtain ⟨winner, hwins, hlabels⟩ := h.winners
    obtain ⟨winner', hwins', hlabels'⟩ := h'.winners
    intro label
    rw [hlabels, hlabels', heligible]
    refine congrArg Finset.card (Finset.filter_congr fun target hmem => ?_)
    rw [(hwins target hmem).unique hdistinct (hwinner (hwins' target (heligible ▸ hmem)))]
  have huseful := hcount .useful
  have hnotUseful := hcount .notUseful
  have htooNoisy := hcount .tooNoisy
  have htooLate := hcount .tooLate
  cases d
  cases d'
  simp_all [TuningFeedbackDataset.count]

end Counts

/-- **Tuning feedback conservation.** -/
theorem feedback_conservation (py : Python) (feedback telemetry : List Record) (htimes : Representable feedback)
    (hnames : StringNames telemetry) : ∃ d, buildTuningFeedbackDataset py feedback telemetry = .ok d ∧
      Conserves feedback telemetry d ∧
      (DistinctIds feedback → ∀ feedback' telemetry', feedback'.Perm feedback → telemetry'.Perm telemetry →
        buildTuningFeedbackDataset py feedback' telemetry' = .ok d) := by
  refine ⟨_, buildTuningFeedbackDataset_eq htimes hnames, datasetOf_conserves, ?_⟩
  intro hdistinct feedback' telemetry' hperm hperm'
  rw [buildTuningFeedbackDataset_eq (fun row hrow => htimes row (hperm.mem_iff.1 hrow))
    fun row hrow => hnames row (hperm'.mem_iff.1 hrow)]
  exact congrArg Except.ok (datasetOf_conserves.unique hdistinct hperm hperm' datasetOf_conserves)

/-- A feedback row about the signal `s` of the run `r`. -/
def feedbackRow (feedbackId : String) (created : ℤ) (label : FeedbackLabel) : Record :=
  [("feedback_id", .str feedbackId), ("created_timestamp", .int created), ("run_id", .str "r"),
    ("signal_id", .str "s"), ("label", .str label.value)]

/-- Of two labels of a signal the later one counts, in any order. -/
theorem feedback_conservation_superseded :
    buildTuningFeedbackDataset noTexts [feedbackRow "b" 2 .tooLate, feedbackRow "a" 1 .useful]
      [[("name", .str "alert_candidate"), ("run_id", .str "r"), ("signal_id", .str "s")]] =
        buildTuningFeedbackDataset noTexts [feedbackRow "a" 1 .useful, feedbackRow "b" 2 .tooLate]
      [[("name", .str "alert_candidate"), ("run_id", .str "r"), ("signal_id", .str "s")]] := by
  have htimes : Representable [feedbackRow "a" 1 .useful, feedbackRow "b" 2 .tooLate] := by
    unfold Representable
    rw [List.forall_mem_cons, List.forall_mem_singleton]
    have hsmall : ∀ n : ℤ, n.natAbs < 3 → ¬ Oversized (.int n) := by
      intro n hn hover
      have hlimit : (3 : ℤ) ≤ Json.floatLimit := by decide +kernel
      unfold Oversized at hover
      omega
    exact ⟨hsmall 1 (by decide), hsmall 2 (by decide)⟩
  have hdistinct : DistinctIds [feedbackRow "a" 1 .useful, feedbackRow "b" 2 .tooLate] := by
    unfold DistinctIds
    decide +kernel
  obtain ⟨d, hd, -, hany⟩ := feedback_conservation noTexts _
    [[("name", .str "alert_candidate"), ("run_id", .str "r"), ("signal_id", .str "s")]] htimes
    (List.forall_mem_singleton.2 ⟨_, rfl⟩)
  exact (hany hdistinct _ _ (List.Perm.swap _ _ []) (.refl _)).trans hd.symm

end Tuning

end MarketSentinel
