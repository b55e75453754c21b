import MarketSentinel.Events.Rules
import MarketSentinel.Features.SessionOnly
import MarketSentinel.Lib.Best
import MarketSentinel.Lib.Machine

/-!
# Breakouts and the quotes they are measured by

The references of `compute` are the extremes of the quotes in the buffer that are of the session of the
latest one and before it. The two breakout rules compare the latest extremes with them.

* `sessionRefs_best`: what the references are.
* `highBreakout_iff`, `lowBreakdown_iff`: when the detector emits a breakout or a breakdown.
-/

namespace MarketSentinel

open Lib Machine

/-- A quote of the session before `q`. -/
def before (q item : MarketSnapshot) : Bool :=
  decide (item.marketTimestamp < q.marketTimestamp) && inSession item q

/-- The quotes that the references of `q` are taken from. -/
def referenced (q : MarketSnapshot) (items : List MarketSnapshot) : List MarketSnapshot :=
  (items.filter fun item => decide (0 ≤ item.marketTimestamp)).filter (before q)

variable {b : RingBuffer} {q : MarketSnapshot} {refs : Option ℚ × Option ℚ}

/-- The loop passes over the other quotes. -/
theorem refStep_skip {item : MarketSnapshot} (hout : before q item = false) :
    (∀ refs, refStep q refs item = .ok refs) ∨ ∀ refs, ∃ err, refStep q refs item = .error err := by
  unfold refStep
  by_cases hlate : q.marketTimestamp ≤ item.marketTimestamp
  · refine .inl fun refs => ?_
    rw [if_pos hlate]
    rfl
  · unfold before inSession at hout
    rw [decide_eq_true (not_le.1 hlate), Bool.true_and] at hout
    cases hsame : isSameSession item.marketTimestamp q.marketTimestamp with
    | error err =>
      refine .inr fun refs => ⟨err, ?_⟩
      rw [if_neg hlate]
      rfl
    | ok same =>
      rw [hsame] at hout
      subst hout
      refine .inl fun refs => ?_
      rw [if_neg hlate]
      rfl

theorem refStep_before {item : MarketSnapshot} (hin : before q item = true) (refs : Option ℚ × Option ℚ) :
    refStep q refs item =
      .ok (keepBest max refs.1 (sessionExtremeHigh item), keepBest min refs.2 (sessionExtremeLow item)) := by
  unfold before at hin
  rw [Bool.and_eq_true, decide_eq_true_eq] at hin
  obtain ⟨hearly, hsession⟩ := hin
  unfold inSession at hsession
  unfold refStep
  rw [if_neg (not_le.2 hearly)]
  cases hsame : isSameSession item.marketTimestamp q.marketTimestamp with
  | error err =>
    rw [hsame] at hsession
    cases hsession
  | ok same =>
    rw [hsame] at hsession
    subst hsession
    rfl

/-- **The references are the extremes of the session before the quote**, as far as it is in the buffer. -/
theorem sessionRefs_best (h : sessionRefs b q = .ok refs) :
    IsBest (· ≤ ·) ((referenced q b.items).map sessionExtremeHigh) refs.1 ∧
      IsBest (fun x m => m ≤ x) ((referenced q b.items).map sessionExtremeLow) refs.2 := by
  have hfilter : (referenced q b.items).foldlM (refStep q) (none, none) = .ok refs := by
    have hrefines : Refines False ((b.since 0).foldlM (refStep q) (none, none))
        (((b.since 0).filter (before q)).foldlM (refStep q) (none, none)) :=
      .foldlM_filter fun item _ hout => (refStep_skip hout).imp_right fun hraise => ⟨id, hraise⟩
    exact hrefines.returns h
  have hstep : ∀ refs, ∀ item ∈ referenced q b.items, refStep q refs item =
      .ok (keepBest max refs.1 (sessionExtremeHigh item), keepBest min refs.2 (sessionExtremeLow item)) :=
    fun refs item hitem => refStep_before (List.mem_filter.1 hitem).2 refs
  rw [foldlM_eq_foldl hstep] at hfilter
  obtain rfl := Except.ok.inj hfilter
  refine foldl_history (I := fun pre (refs : Option ℚ × Option ℚ) =>
    IsBest (· ≤ ·) (pre.map sessionExtremeHigh) refs.1 ∧
      IsBest (fun x m => m ≤ x) (pre.map sessionExtremeLow) refs.2) ⟨isBest_nil _, isBest_nil _⟩ ?_
  rintro pre item post refs - ⟨hhigh, hlow⟩
  rw [List.map_append, List.map_append]
  exact ⟨hhigh.snoc le_refl (fun _ _ _ => le_trans) le_max_left le_max_right max_choice _,
    hlow.snoc le_refl (fun _ _ _ hab hbc => hbc.trans hab) min_le_left min_le_right min_choice _⟩

/-- The references and the extremes of the latest quote, in its features. -/
theorem computeLatest_refs {e : FeatureEngine} {features : MarketFeatures}
    (h : e.computeLatest b q = .ok features) :
    sessionRefs b q = .ok (features.sessionHighRef, features.sessionLowRef) ∧
      features.sessionHighObs = sessionExtremeHigh q ∧ features.sessionLowObs = sessionExtremeLow q := by
  unfold FeatureEngine.computeLatest at h
  obtain ⟨refs, hrefs, h⟩ := bind_eq_ok.1 h
  obtain ⟨snapshots, -, h⟩ := bind_eq_ok.1 h
  obtain ⟨bars, -, h⟩ := bind_eq_ok.1 h
  obtain ⟨change1m, -, h⟩ := bind_eq_ok.1 h
  obtain ⟨change5m, -, h⟩ := bind_eq_ok.1 h
  obtain ⟨change15m, -, h⟩ := bind_eq_ok.1 h
  obtain ⟨volume1m, -, h⟩ := bind_eq_ok.1 h
  obtain ⟨volume5m, -, h⟩ := bind_eq_ok.1 h
  obtain ⟨volumeRatio1m, -, h⟩ := bind_eq_ok.1 h
  obtain ⟨volumeRatio5m, -, h⟩ := bind_eq_ok.1 h
  cases h
  exact ⟨hrefs, rfl, rfl⟩

/-! ## The events -/

section Events

variable {newId : EventType → String} {previous : Option MarketFeatures} {features : MarketFeatures}
  {detectedAt : ℚ}

/-- An event of a type is emitted by the rule of the type. -/
theorem flatMap_type {ts : List EventType} {rules : List EventRule} (hemits : List.Forall₂ Emits ts rules)
    (hdistinct : ts.Nodup) {t : EventType} {rule : EventRule} (hrule : (t, rule) ∈ ts.zip rules) :
    (∃ event ∈ rules.flatMap fun rule => rule newId previous features detectedAt, event.type = t) ↔
      rule newId previous features detectedAt ≠ [] := by
  induction hemits with
  | nil => cases hrule
  | @cons t' rule' ts rules hemit hrest ih =>
    obtain ⟨hfresh, hdistinct⟩ := List.nodup_cons.1 hdistinct
    simp only [List.flatMap_cons, List.mem_append, or_and_right, exists_or]
    rw [List.zip_cons_cons, List.mem_cons] at hrule
    rcases hrule with heq | hrule
    · obtain ⟨rfl, rfl⟩ := Prod.mk.inj heq
      have hother : ¬∃ event ∈ rules.flatMap fun rule => rule newId previous features detectedAt,
          event.type = t := by
        rintro ⟨event, hmem, htype⟩
        have htypes := (flatMap_emits hrest).1.subset (List.mem_map_of_mem hmem)
        exact hfresh (htype ▸ htypes)
      rw [or_iff_left hother]
      constructor
      · rintro ⟨event, hmem, -⟩ hnil
        rw [hnil] at hmem
        cases hmem
      · intro hne
        obtain ⟨event, hmem⟩ := List.exists_mem_of_ne_nil _ hne
        exact ⟨event, hmem, hemit.type hmem⟩
    · have hother : ¬∃ event ∈ rule' newId previous features detectedAt, event.type = t := by
        rintro ⟨event, hmem, htype⟩
        rw [hemit.type hmem] at htype
        exact hfresh (htype ▸ (List.of_mem_zip hrule).1)
      rw [or_iff_right hother]
      exact ih hdistinct hrule

/-- The types of the default rules. -/
def emitted : List EventType :=
  [.rapidMove, .volumeSpike, .priceVolumeExpansion, .dayHighBreakout, .dayLowBreakdown, .vwapCross]

/-! ## The references of an event -/

/-- **A breakout** is above all that the references are taken from. -/
theorem highBreakout_iff {e : FeatureEngine} (h : e.computeLatest b q = .ok features) :
    (∃ event ∈ evaluate newId detectedAt previous features, event.type = .dayHighBreakout) ↔
      (∃ x ∈ referenced q b.items, 0 < sessionExtremeHigh x) ∧
        ∀ x ∈ referenced q b.items, sessionExtremeHigh x < sessionExtremeHigh q := by
  obtain ⟨hrefs, hobs, -⟩ := computeLatest_refs h
  have hbest := (sessionRefs_best hrefs).1
  unfold evaluate
  have hrule : (EventType.dayHighBreakout, dayHighBreakoutRule) ∈ emitted.zip defaultRules :=
    List.mem_of_getElem? (i := 3) rfl
  rw [flatMap_type defaultRules_emit (by decide) hrule]
  unfold dayHighBreakoutRule
  cases href : features.sessionHighRef with
  | none =>
    have hnil := List.map_eq_nil_iff.1 (hbest.none_iff.1 href)
    simp [hnil]
  | some ref =>
    rw [href] at hbest
    have hpos : (∃ x ∈ referenced q b.items, 0 < sessionExtremeHigh x) ↔ 0 < ref := by
      have hall := hbest.forall_iff (S := fun y x => y ≤ x) (fun _ _ _ => le_trans) 0
      rw [List.forall_mem_map] at hall
      rw [← not_le, ← hall]
      simp
    have habove := hbest.forall_iff (S := fun y x => y < x) (fun _ _ _ => lt_of_le_of_lt)
      (sessionExtremeHigh q)
    rw [List.forall_mem_map] at habove
    rw [hpos, habove, hobs]
    dsimp only
    split
    · rename_i hneg
      simp [hneg]
    rename_i hneg
    rw [not_le] at hneg
    split
    · rename_i hle
      simp [hle]
    · rename_i hlt
      simpa [hneg] using hlt

/-- **A breakdown** is below all that the references are taken from. -/
theorem lowBreakdown_iff {e : FeatureEngine} (h : e.computeLatest b q = .ok features) :
    (∃ event ∈ evaluate newId detectedAt previous features, event.type = .dayLowBreakdown) ↔
      referenced q b.items ≠ [] ∧ (∀ x ∈ referenced q b.items, 0 < sessionExtremeLow x) ∧
        ∀ x ∈ referenced q b.items, sessionExtremeLow q < sessionExtremeLow x := by
  obtain ⟨hrefs, -, hobs⟩ := computeLatest_refs h
  have hbest := (sessionRefs_best hrefs).2
  unfold evaluate
  have hrule : (EventType.dayLowBreakdown, dayLowBreakdownRule) ∈ emitted.zip defaultRules :=
    List.mem_of_getElem? (i := 4) rfl
  rw [flatMap_type defaultRules_emit (by decide) hrule]
  unfold dayLowBreakdownRule
  cases href : features.sessionLowRef with
  | none =>
    have hnil := List.map_eq_nil_iff.1 (hbest.none_iff.1 href)
    simp [hnil]
  | some ref =>
    have hsome : referenced q b.items ≠ [] := by
      rintro hnil
      have hnone := hbest.none_iff.2 (by rw [hnil]; rfl)
      rw [href] at hnone
      cases hnone
    rw [href] at hbest
    -- The reference is the lowest of them, so it is positive, or above the quote, when all of them are.
    have hpos := hbest.forall_iff (S := fun y x => x < y) (fun _ _ _ hba hcb => hcb.trans_le hba) 0
    have hbelow := hbest.forall_iff (S := fun y x => x < y) (fun _ _ _ hba hcb => hcb.trans_le hba)
      (sessionExtremeLow q)
    rw [List.forall_mem_map] at hpos hbelow
    rw [hpos, hbelow, hobs]
    dsimp only
    split
    · rename_i hneg
      simp [not_lt.2 hneg]
    rename_i hneg
    rw [not_le] at hneg
    split
    · rename_i hle
      simp [not_lt.2 hle]
    · rename_i hlt
      simpa [hneg, hsome] using hlt

end Events

end MarketSentinel
