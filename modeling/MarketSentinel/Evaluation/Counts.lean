import MarketSentinel.Evaluation.Exposure

/-!
# What an evaluation counts

The rows of a report whose reason is not a known one, and the feedback rows that are not valid. Counting
them is also where a number of a row is converted.

* `intelligenceTally_unknown`, `suppression_spec`: the unrecognized reasons.
* `splitFeedback_invalid`: the invalid feedback.
* `returns_intelligenceTally`, `returns_splitFeedback`: the numbers that `float` refuses.
-/

namespace MarketSentinel

open Lib

namespace Evaluation

/-! ## Tallies -/

/-- A row of that name whose reason is not one of the known ones. -/
def unrecognized (name : TelemetryName) (key : String) (known : List String) (row : Record) : Bool :=
  named name row && (row.text key).all (· ∉ known)

theorem named_ne {name : TelemetryName} {row : Record} (h : named name row = true) (name' : TelemetryName)
    (hne : name.value ≠ name'.value) : named name' row = false := by
  unfold named at *
  rw [of_decide_eq_true h]
  simpa using hne

namespace Tally

/-- Every counter is of a known reason. -/
def Within (known : List String) (t : Tally) : Prop := ∀ e ∈ t.counts.entries, e.1 ∈ known

theorem within_start (known : List String) : (start known).Within known := by
  rintro ⟨key, n⟩ he
  have hget := Dict.mem_entries.1 he
  unfold start at hget
  dsimp only at hget
  rw [Dict.get?_setAll] at hget
  by_contra hkey
  rw [if_neg hkey] at hget
  cases hget

theorem Within.count {known : List String} {t : Tally} (h : t.Within known) (reason : Option String) :
    (t.count known reason).Within known := by
  unfold Tally.count
  split
  · rintro ⟨key, n⟩ he
    have hget := Dict.mem_entries.1 he
    dsimp only at hget
    rw [Dict.get?_bump] at hget
    obtain ⟨m, hm, -⟩ := Option.map_eq_some_iff.1 hget
    exact h (key, m) (Dict.mem_entries.2 hm)
  · exact h

theorem count_unknown (known : List String) (t : Tally) (reason : Option String) :
    (t.count known reason).unknown = t.unknown + if reason.all (· ∉ known) then 1 else 0 := by
  unfold count
  cases reason with
  | none => simp
  | some r =>
    by_cases hr : r ∈ known
    · simp [Option.filter, hr]
    · simp [Option.filter, hr]

theorem Within.clean {known : List String} {t : Tally} (h : t.Within known)
    (hknown : ∀ key ∈ known, key ∉ telemetryDenylist) : Clean t.field := by
  unfold field
  rw [clean_obj]
  intro f hf
  obtain ⟨e, he, rfl⟩ := List.mem_map.1 hf
  exact ⟨hknown _ (h e he), clean_int _⟩

end Tally

theorem suppression_spec (records : List Record) :
    (suppression records).Within knownSuppressionReasons ∧
      (suppression records).unknown =
        records.countP (unrecognized .alertSuppressed "suppression_reason" knownSuppressionReasons) := by
  -- From any tally on, the loop adds one for each row it does not recognise.
  have hrun : ∀ (l : List Record) (t : Tally), t.Within knownSuppressionReasons →
      let t' := l.foldl (fun t row =>
        if named .alertSuppressed row then t.count knownSuppressionReasons (row.text "suppression_reason")
        else t) t
      t'.Within knownSuppressionReasons ∧ t'.unknown = t.unknown +
        l.countP (unrecognized .alertSuppressed "suppression_reason" knownSuppressionReasons) := by
    intro l
    induction l with
    | nil =>
      intro t ht
      exact ⟨ht, rfl⟩
    | cons row l ih =>
      intro t ht
      rw [List.foldl_cons, List.countP_cons]
      cases hname : named .alertSuppressed row with
      | true =>
        rw [if_pos rfl]
        obtain ⟨hwithin, hunknown⟩ := ih _ (ht.count (row.text "suppression_reason"))
        refine ⟨hwithin, hunknown.trans ?_⟩
        rw [Tally.count_unknown]
        simp only [unrecognized, hname, Bool.true_and]
        omega
      | false =>
        rw [if_neg Bool.false_ne_true]
        obtain ⟨hwithin, hunknown⟩ := ih t ht
        refine ⟨hwithin, hunknown.trans ?_⟩
        simp [unrecognized, hname]
  obtain ⟨hwithin, hunknown⟩ := hrun records (.start knownSuppressionReasons) (Tally.within_start _)
  exact ⟨hwithin, hunknown.trans (Nat.zero_add _)⟩

/-- A latency whose stage is known, and that `float` refuses. -/
def LatencyOverflow (row : Record) : Prop :=
  named .intelligenceLatency row = true ∧ ((row.text "latency_stage").bind stageOf).isSome ∧
    Oversized (Json.field row "latency_s")

theorem returns_latencySample (row : Record) :
    Returns (latencySample row) ↔
      ¬ (((row.text "latency_stage").bind stageOf).isSome ∧ Oversized (Json.field row "latency_s")) := by
  unfold latencySample
  split
  · rename_i stage hstage
    rw [hstage]
    split
    · rename_i hnum
      rw [returns_bind_of fun _ _ => returns_pure _, returns_floatOf hnum]
      simp
    · rename_i hnum
      refine iff_of_true (returns_ok _) fun h => hnum ?_
      have hover := h.2
      cases hvalue : Json.field row "latency_s" <;> simp_all [isNumber, Oversized]
  · rename_i hstage
    rw [hstage]
    simp

theorem returns_tallyRow (t : IntelligenceTally) (row : Record) :
    Returns (tallyRow t row) ↔ ¬ LatencyOverflow row := by
  unfold tallyRow LatencyOverflow
  split
  · rename_i hskip
    simp [named_ne hskip .intelligenceLatency (by decide)]
  · split
    · rename_i hfallback
      simp [named_ne hfallback .intelligenceLatency (by decide)]
    · split
      · rename_i hlatency
        rw [returns_bind_of fun sample _ => by split <;> exact returns_pure _, returns_latencySample]
        simp [hlatency]
      · rename_i hno
        simp [hno]

theorem returns_intelligenceTally (records : List Record) :
    Returns (intelligenceTally records) ↔ ∀ row ∈ records, ¬ LatencyOverflow row :=
  returns_foldlM returns_tallyRow records _

/-- What one row adds to the two tallies. -/
theorem tallyRow_unknown {t t' : IntelligenceTally} {row : Record} (h : tallyRow t row = .ok t') :
    t'.skip.unknown = t.skip.unknown +
        (if unrecognized .intelligenceSkipped "decision_reason" knownSkipReasons row then 1 else 0) ∧
      t'.fallback.unknown = t.fallback.unknown +
        if unrecognized .intelligenceFallback "fallback_reason" knownFallbackReasons row then 1 else 0 := by
  unfold tallyRow at h
  split at h
  · rename_i hskip
    cases h
    have hno := named_ne hskip .intelligenceFallback (by decide)
    refine ⟨?_, by simp [unrecognized, hno]⟩
    rw [Tally.count_unknown]
    simp [unrecognized, hskip]
  · rename_i hskip
    split at h
    · rename_i hfallback
      cases h
      refine ⟨by simp [unrecognized, hskip], ?_⟩
      rw [Tally.count_unknown]
      simp [unrecognized, hfallback]
    · rename_i hfallback
      have hsame : t'.skip = t.skip ∧ t'.fallback = t.fallback := by
        split at h
        · obtain ⟨sample, -, hrest⟩ := bind_eq_ok.1 h
          cases sample <;> cases hrest <;> exact ⟨rfl, rfl⟩
        · cases h
          exact ⟨rfl, rfl⟩
      rw [hsame.1, hsame.2]
      simp [unrecognized, hskip, hfallback]

/-- One row keeps the counters of both tallies. -/
theorem tallyRow_within {t t' : IntelligenceTally} {row : Record} (h : tallyRow t row = .ok t')
    (ht : t.skip.Within knownSkipReasons ∧ t.fallback.Within knownFallbackReasons) :
    t'.skip.Within knownSkipReasons ∧ t'.fallback.Within knownFallbackReasons := by
  unfold tallyRow at h
  split at h
  · cases h
    exact ⟨ht.1.count _, ht.2⟩
  · split at h
    · cases h
      exact ⟨ht.1, ht.2.count _⟩
    · split at h
      · obtain ⟨sample, -, hrest⟩ := bind_eq_ok.1 h
        cases sample <;> cases hrest <;> exact ht
      · cases h
        exact ht

/-- **The unrecognized reasons are counted.** -/
theorem intelligenceTally_unknown {records : List Record} {t : IntelligenceTally}
    (h : intelligenceTally records = .ok t) :
    t.skip.unknown =
        records.countP (unrecognized .intelligenceSkipped "decision_reason" knownSkipReasons) ∧
      t.fallback.unknown =
        records.countP (unrecognized .intelligenceFallback "fallback_reason" knownFallbackReasons) := by
  unfold intelligenceTally at h
  have hskip := foldlM_countP (f := tallyRow) (fun t => t.skip.unknown)
    (fun _ _ _ hrow => (tallyRow_unknown hrow).1) h
  have hfallback := foldlM_countP (f := tallyRow) (fun t => t.fallback.unknown)
    (fun _ _ _ hrow => (tallyRow_unknown hrow).2) h
  exact ⟨hskip.trans (Nat.zero_add _), hfallback.trans (Nat.zero_add _)⟩

theorem intelligenceTally_within {records : List Record} {t : IntelligenceTally}
    (h : intelligenceTally records = .ok t) :
    t.skip.Within knownSkipReasons ∧ t.fallback.Within knownFallbackReasons :=
  foldlM_invariant (P := fun t => t.skip.Within knownSkipReasons ∧ t.fallback.Within knownFallbackReasons)
    (fun _ _ _ _ hrow ht => tallyRow_within hrow ht)
    ⟨Tally.within_start _, Tally.within_start _⟩ h

/-! ## Feedback -/

/-- A finite number that is no `bool`. -/
def finiteNumber : Json → Bool
  | .int _ => true
  | .float x => x.isFinite
  | _ => false

/-- A feedback row that the report counts as valid. -/
def wellFormedFeedback (row : Record) : Bool :=
  feedbackIdentified row && finiteNumber (Json.field row "created_timestamp") && optionalFeedbackText row

/-- A feedback row whose checks come as far as a timestamp that `float` refuses. -/
def CreatedOverflow (row : Record) : Prop :=
  feedbackIdentified row = true ∧ Oversized (Json.field row "created_timestamp")

theorem parseTimestamp_isSome {created : Json} {q : Option ℚ} (h : parseTimestamp created = .ok q) :
    q.isSome = finiteNumber created := by
  cases created with
  | int n =>
    unfold parseTimestamp at h
    dsimp only at h
    cases hn : Json.intToFloat n with
    | none =>
      rw [hn] at h
      cases h
    | some x =>
      have hfinite := Json.intToFloat_finite hn
      rw [hn] at h
      cases x with
      | finite r =>
        cases h
        rfl
      | posInf => cases hfinite
      | negInf => cases hfinite
      | nan => cases hfinite
  | float x => cases x <;> cases h <;> rfl
  | null => cases h; rfl
  | bool b => cases h; rfl
  | str s => cases h; rfl
  | list xs => cases h; rfl
  | obj fields => cases h; rfl

/-- **A feedback row is checked or raises.** -/
theorem validFeedbackRow_spec (row : Record) :
    (Returns (validFeedbackRow row) ↔ ¬ CreatedOverflow row) ∧
      ∀ b, validFeedbackRow row = .ok b → b = wellFormedFeedback row := by
  unfold validFeedbackRow CreatedOverflow wellFormedFeedback
  cases hid : feedbackIdentified row with
  | false =>
    rw [if_pos rfl]
    refine ⟨by simp, ?_⟩
    intro b hb
    cases hb
    simp
  | true =>
    rw [if_neg (by simp)]
    -- The timestamp is read only of a row that is identified.
    rcases parseTimestamp_error (Json.field row "created_timestamp") with ⟨hraise, hover⟩ | ⟨⟨q, hq⟩, hfine⟩
    · rw [hraise]
      refine ⟨iff_of_false (not_returns_error _) (fun h => h ⟨rfl, hover⟩), ?_⟩
      intro b hb
      cases hb
    · have hsome := parseTimestamp_isSome hq
      rw [hq, ok_bind]
      cases q with
      | none =>
        refine ⟨iff_of_true (returns_pure _) fun h => hfine h.2, ?_⟩
        intro b hb
        cases hb
        simp [← hsome]
      | some r =>
        refine ⟨iff_of_true (returns_pure _) fun h => hfine h.2, ?_⟩
        intro b hb
        cases hb
        simp [← hsome]

theorem returns_splitFeedback (rows : List Record) :
    Returns (splitFeedback rows) ↔ ∀ row ∈ rows, ¬ CreatedOverflow row := by
  unfold splitFeedback
  rw [returns_bind_of fun _ _ => returns_pure _, returns_mapM]
  refine forall₂_congr fun row _ => ?_
  rw [returns_bind_of fun _ _ => returns_pure _]
  exact (validFeedbackRow_spec row).1

/-- **The invalid feedback rows are counted.** -/
theorem splitFeedback_invalid {rows valid : List Record} {invalid : ℕ}
    (h : splitFeedback rows = .ok (valid, invalid)) :
    invalid = rows.countP fun row => !wellFormedFeedback row := by
  obtain ⟨verdicts, hverdicts, hsplit⟩ := bind_eq_ok.1 h
  cases hsplit
  have hvalue : ∀ row ∈ rows, (do return (row, ← validFeedbackRow row)) =
      (.ok (row, wellFormedFeedback row) : Except PyError (Record × Bool)) := by
    intro row hrow
    obtain ⟨v, hv⟩ := returns_mapM.1 ⟨verdicts, hverdicts⟩ row hrow
    obtain ⟨b, hb, hpure⟩ := bind_eq_ok.1 hv
    rw [hb, ok_bind, (validFeedbackRow_spec row).2 b hb]
    rfl
  rw [mapM_eq_map hvalue, Except.ok.injEq] at hverdicts
  rw [← hverdicts, List.countP_map]
  rfl

end Evaluation

end MarketSentinel
