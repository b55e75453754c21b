import MarketSentinel.Features.Divisions

/-!
# What the features can be

The ranges of the features of any buffer, whatever the provider sends: a high below the price, a low above it or a
volume that goes backwards.

* `computeLatest_inRange`: the ranges.
* `feature_ranges`: on accepted quotes no division is by zero, and the features are in their ranges.
-/

namespace MarketSentinel

open Lib

/-- The bars that the indicators are computed from. -/
def FeatureEngine.completedBars (e : FeatureEngine) (b : RingBuffer) (latest : MarketSnapshot) :
    Except PyError (List MarketBar) := do
  let sessionSnaps ← (b.since 0).filterM fun snapshot =>
    isSameSession snapshot.marketTimestamp latest.marketTimestamp
  completedMinuteBars sessionSnaps latest.marketTimestamp e.policy.barSeconds

/-- `x` lies between the least and the greatest of the list. -/
def Between (xs : List ℚ) (x : ℚ) : Prop := ∃ lo hi, xs.min? = some lo ∧ xs.max? = some hi ∧ lo ≤ x ∧ x ≤ hi

/-- The ranges of the features over the closes of the completed bars. -/
structure MarketFeatures.InRange (features : MarketFeatures) (closes : List ℚ) : Prop where
  dayRange : ∀ x ∈ features.dayRangePosition, 0 ≤ x ∧ x ≤ 1
  rsi14 : ∀ x ∈ features.rsi14, 0 ≤ x ∧ x ≤ 100
  ema5 : ∀ x ∈ features.ema5, Between closes x
  ema20 : ∀ x ∈ features.ema20, Between closes x
  volume1m : ∀ x ∈ features.volume1m, 0 ≤ x
  volume5m : ∀ x ∈ features.volume5m, 0 ≤ x
  volumeRatio1m : ∀ x ∈ features.volumeRatio1m, 0 ≤ x
  volumeRatio5m : ∀ x ∈ features.volumeRatio5m, 0 ≤ x

section Latest

variable {b : RingBuffer} {q : MarketSnapshot} {windowS x : ℚ} {policy : FeaturePolicy}

theorem volumeDelta_nonneg (h : volumeDelta b q windowS policy = .ok (some x)) : 0 ≤ x := by
  obtain ⟨anchor, -, hanchor⟩ := bind_eq_ok.1 h
  cases anchor with
  | none => cases hanchor
  | some anchor =>
    cases hanchor
    exact le_max_left _ _

theorem volumeRatio_nonneg (h : volumeRatio b q windowS policy = .ok (some x)) : 0 ≤ x := by
  obtain ⟨current, hcurrent, h⟩ := bind_eq_ok.1 h
  cases current with
  | none => cases h
  | some current =>
    obtain ⟨samples, -, h⟩ := bind_eq_ok.1 h
    cases samples with
    | none => cases h
    | some samples =>
      obtain ⟨baseline, -, h⟩ := bind_eq_ok.1 h
      split at h
      · cases h
      · next hbaseline =>
        cases h
        exact div_nonneg (volumeDelta_nonneg hcurrent) (not_le.1 hbaseline).le

/-- A value below the upper of two bounds and above the lower one, as a share of what is between. -/
theorem share_bounds {lo hi : ℚ} (hlo : lo ≤ x) (hhi : x ≤ hi) (hlt : lo < hi) :
    0 ≤ (x - lo) / (hi - lo) ∧ (x - lo) / (hi - lo) ≤ 1 := by
  have hpos : 0 < hi - lo := sub_pos.2 hlt
  constructor
  · exact div_nonneg (by linarith) hpos.le
  · rw [div_le_one hpos]
    linarith

/-- The price is among the extremes that the day range is measured by. -/
theorem dayRange_bounds {ref : Option ℚ × Option ℚ} {range : ℚ}
    (h : range ∈ (if (ref.2.map (min · (sessionExtremeLow q))).getD (sessionExtremeLow q) <
          (ref.1.map (max · (sessionExtremeHigh q))).getD (sessionExtremeHigh q) then
        some ((q.price - (ref.2.map (min · (sessionExtremeLow q))).getD (sessionExtremeLow q)) /
          ((ref.1.map (max · (sessionExtremeHigh q))).getD (sessionExtremeHigh q) -
            (ref.2.map (min · (sessionExtremeLow q))).getD (sessionExtremeLow q)))
      else none)) : 0 ≤ range ∧ range ≤ 1 := by
  have hhigh : q.price ≤ (ref.1.map (max · (sessionExtremeHigh q))).getD (sessionExtremeHigh q) := by
    have hown : q.price ≤ sessionExtremeHigh q := le_max_left _ _
    cases ref.1 with
    | none => exact hown
    | some high => exact hown.trans (le_max_right _ _)
  have hlow : (ref.2.map (min · (sessionExtremeLow q))).getD (sessionExtremeLow q) ≤ q.price := by
    have hown : sessionExtremeLow q ≤ q.price := min_le_left _ _
    cases ref.2 with
    | none => exact hown
    | some low => exact (min_le_right _ _).trans hown
  split at h
  · next hlt =>
    obtain rfl := Option.some.inj h
    exact share_bounds hlow hhigh hlt
  · cases h

/-- **The ranges of the features**, of any buffer. -/
theorem computeLatest_inRange {e : FeatureEngine} {features : MarketFeatures} (h : e.computeLatest b q = .ok features) :
    ∃ bars, e.completedBars b q = .ok bars ∧ features.InRange (bars.map (·.close)) := by
  unfold FeatureEngine.computeLatest at h
  -- The features are computed one after the other; each has its own bound.
  obtain ⟨refs, -, h⟩ := bind_eq_ok.1 h
  obtain ⟨snapshots, hsnapshots, h⟩ := bind_eq_ok.1 h
  obtain ⟨bars, hbars, h⟩ := bind_eq_ok.1 h
  obtain ⟨change1m, -, h⟩ := bind_eq_ok.1 h
  obtain ⟨change5m, -, h⟩ := bind_eq_ok.1 h
  obtain ⟨change15m, -, h⟩ := bind_eq_ok.1 h
  obtain ⟨volume1m, hvolume1m, h⟩ := bind_eq_ok.1 h
  obtain ⟨volume5m, hvolume5m, h⟩ := bind_eq_ok.1 h
  obtain ⟨volumeRatio1m, hratio1m, h⟩ := bind_eq_ok.1 h
  obtain ⟨volumeRatio5m, hratio5m, h⟩ := bind_eq_ok.1 h
  cases h
  refine ⟨bars, ?_, ?_⟩
  · unfold FeatureEngine.completedBars
    rw [hsnapshots, ok_bind]
    exact hbars
  · exact {
      dayRange := fun x hx => dayRange_bounds hx
      rsi14 := fun x hx => rsiWilder_bounds hx
      ema5 := fun x hx => ema_between hx
      ema20 := fun x hx => ema_between hx
      volume1m := fun x hx => volumeDelta_nonneg (hvolume1m.trans (congrArg Except.ok hx))
      volume5m := fun x hx => volumeDelta_nonneg (hvolume5m.trans (congrArg Except.ok hx))
      volumeRatio1m := fun x hx => volumeRatio_nonneg (hratio1m.trans (congrArg Except.ok hx))
      volumeRatio5m := fun x hx => volumeRatio_nonneg (hratio5m.trans (congrArg Except.ok hx)) }

theorem compute_eq (e : FeatureEngine) (hlatest : b.latest = some q) : e.compute b = some <$> e.computeLatest b q := by
  unfold FeatureEngine.compute
  rw [hlatest]

theorem safe_computeLatest {e : FeatureEngine} (hlook : 0 < e.policy.volumeRatioLookback) :
    Safe (e.computeLatest b q) := by
  have hsame : Safe ((b.since 0).filterM fun snapshot =>
      isSameSession snapshot.marketTimestamp q.marketTimestamp) := safe_filterM (fun _ => safe_isSameSession _ _) _
  unfold FeatureEngine.computeLatest
  refine safe_sessionRefs.bind fun refs _ => hsame.bind fun snapshots _ => ?_
  refine (safe_completedMinuteBars _ _ _).bind fun bars _ => ?_
  refine safe_priceChange.bind fun _ _ => safe_priceChange.bind fun _ _ => safe_priceChange.bind fun _ _ => ?_
  refine safe_volumeDelta.bind fun _ _ => safe_volumeDelta.bind fun _ _ => ?_
  exact (safe_volumeRatio hlook).bind fun _ _ => (safe_volumeRatio hlook).bind fun _ _ => safe_ok _

end Latest

/-- What the normalizer checks of a quote, and a timestamp that is a date. -/
structure MarketSnapshot.Accepted (q : MarketSnapshot) : Prop where
  price : 0 < q.price
  volume : 0 ≤ q.volume
  session : HasSession q.marketTimestamp

/-- **Ranges and totality of the features** under the default policy. -/
theorem feature_ranges (b : RingBuffer) (haccepted : ∀ q ∈ b.items, q.Accepted) :
    Safe (Checked.compute {} b) ∧
    ((∀ q ∈ b.items, 0 ≤ q.marketTimestamp) → Returns (Checked.compute {} b)) ∧
    ∀ latest features, b.latest = some latest → Checked.compute {} b = .ok (some features) →
      ∃ bars, ({} : FeatureEngine).completedBars b latest = .ok bars ∧ features.InRange (bars.map (·.close)) := by
  have hlook : 0 < ({} : FeatureEngine).policy.volumeRatioLookback := by decide
  rw [Checked.checked_compute]
  cases hlatest : b.latest with
  | none =>
    rw [FeatureEngine.compute_empty.2 hlatest]
    exact ⟨safe_ok none, fun _ => returns_ok none, fun latest features h _ => by cases h⟩
  | some latest =>
    rw [compute_eq _ hlatest]
    refine ⟨?_, fun hepoch => ?_, fun latest' features hlatest' hfeatures => ?_⟩
    · rw [map_eq_pure_bind]
      exact (safe_computeLatest hlook).bind fun _ _ => safe_ok _
    · have hmem := RingBuffer.latest_mem hlatest
      have hupTo : UpTo b latest := ⟨(haccepted latest hmem).session, hmem, fun item hitem =>
        ⟨hepoch item hitem, RingBuffer.le_latest b.sorted hlatest item hitem⟩⟩
      obtain ⟨features, hfeatures⟩ := (returns_computeLatest hupTo).2 fun _ _ => .inl hlook
      rw [hfeatures]
      exact returns_ok _
    · obtain rfl := Option.some.inj hlatest'
      rw [map_eq_pure_bind] at hfeatures
      obtain ⟨computed, hcomputed, hsome⟩ := bind_eq_ok.1 hfeatures
      cases hsome
      exact computeLatest_inRange hcomputed

/-- Two quotes a minute apart. -/
theorem feature_ranges_minute :
    Returns (Checked.compute {} ((emptyBuffer.append (timedQuote 36000)).append (timedQuote 36060))) := by
  have hitems : ((emptyBuffer.append (timedQuote 36000)).append (timedQuote 36060)).items =
      [timedQuote 36000, timedQuote 36060] := by decide +kernel
  have haccepted : ∀ q ∈ [timedQuote 36000, timedQuote 36060], q.Accepted := by
    rw [List.forall_mem_cons, List.forall_mem_singleton]
    exact ⟨⟨by decide, by decide, 0, by decide +kernel⟩, ⟨by decide, by decide, 0, by decide +kernel⟩⟩
  refine (feature_ranges _ ?_).2.1 ?_
  · rw [hitems]
    exact haccepted
  · rw [hitems]
    decide

end MarketSentinel
