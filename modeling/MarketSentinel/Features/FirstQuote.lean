import MarketSentinel.Features.Engine
import MarketSentinel.Lib.Returns

/-!
# The first quote of a session

The features of a quote in a buffer whose other quotes are of other sessions.

* `computeLatest_first`: they are the features of the quote alone.
-/

namespace MarketSentinel

open Lib

/-- A quote before `q` and of another session. -/
def Foreign (q item : MarketSnapshot) : Prop :=
  item.marketTimestamp < q.marketTimestamp ∧
    isSameSession item.marketTimestamp q.marketTimestamp = .ok false

/-- The quotes of a buffer that ends with the first quote of a session. -/
def FirstIn (q : MarketSnapshot) (buffer : RingBuffer) : Prop :=
  ∀ item ∈ buffer.items, item = q ∨ Foreign q item

/-- What is known from the first quote of a session. -/
def firstFeatures (q : MarketSnapshot) : MarketFeatures where
  symbol := q.symbol
  marketTimestamp := q.marketTimestamp
  receivedTimestamp := q.receivedTimestamp
  change1m := none
  change5m := none
  change15m := none
  changeDay := if q.prevClose = 0 then none else some ((q.price - q.prevClose) / q.prevClose)
  dayRangePosition :=
    if sessionExtremeLow q < sessionExtremeHigh q then
      some ((q.price - sessionExtremeLow q) / (sessionExtremeHigh q - sessionExtremeLow q))
    else none
  volume1m := none
  volume5m := none
  volumeRatio1m := none
  volumeRatio5m := none
  vwap := (sessionVwap q).1
  aboveVwap := (sessionVwap q).2
  ema5 := none
  ema20 := none
  rsi14 := none
  sessionHighRef := none
  sessionLowRef := none
  sessionHighObs := sessionExtremeHigh q
  sessionLowObs := sessionExtremeLow q

variable {q : MarketSnapshot} {buffer : RingBuffer}

/-! ## The pieces -/

theorem isSameSession_self {ts : ℚ} {day : ℤ} (h : sessionId ts = .ok day) :
    isSameSession ts ts = .ok true := by
  unfold isSameSession
  rw [h]
  simp [bind, Except.bind, pure, Except.pure]

/-- No quote of the session is before a time before the first one. -/
theorem snapshotAsOf_first (h : FirstIn q buffer) {ts : ℚ} (hts : ts < q.marketTimestamp) (lag : ℚ) :
    snapshotAsOf buffer ts q lag = .ok none := by
  unfold snapshotAsOf
  cases hfound : buffer.atOrBefore ts with
  | none => rfl
  | some found =>
    have hmem := List.mem_of_getLast? hfound
    have hle : found.marketTimestamp ≤ ts := by simpa using List.mem_takeWhile_imp hmem
    rcases h found ((List.takeWhile_sublist _).subset hmem) with rfl | ⟨-, hother⟩
    · exact absurd hts (not_lt.2 hle)
    · simp [hother, bind, Except.bind, pure, Except.pure]

theorem resolveAnchor_first (h : FirstIn q buffer) {windowS : ℚ} (hw : 0 < windowS) (lag : ℚ) :
    resolveAnchor buffer q windowS lag =
      (isSameSession (q.marketTimestamp - windowS) q.marketTimestamp).map fun _ => none := by
  have hasOf := snapshotAsOf_first h (sub_lt_self q.marketTimestamp hw) lag
  unfold resolveAnchor
  dsimp only
  rw [hasOf]
  cases isSameSession (q.marketTimestamp - windowS) q.marketTimestamp with
  | error err => rfl
  | ok same => cases same <;> rfl

theorem priceChange_first (h : FirstIn q buffer) {windowS : ℚ} (hw : 0 < windowS) (policy : FeaturePolicy) :
    priceChange buffer q windowS policy =
      (isSameSession (q.marketTimestamp - windowS) q.marketTimestamp).map fun _ => none := by
  unfold priceChange
  rw [resolveAnchor_first h hw]
  cases isSameSession (q.marketTimestamp - windowS) q.marketTimestamp <;> rfl

theorem volumeDelta_first (h : FirstIn q buffer) {windowS : ℚ} (hw : 0 < windowS) (policy : FeaturePolicy) :
    volumeDelta buffer q windowS policy =
      (isSameSession (q.marketTimestamp - windowS) q.marketTimestamp).map fun _ => none := by
  unfold volumeDelta
  rw [resolveAnchor_first h hw]
  cases isSameSession (q.marketTimestamp - windowS) q.marketTimestamp <;> rfl

theorem volumeRatio_first (h : FirstIn q buffer) {windowS : ℚ} (hw : 0 < windowS) (policy : FeaturePolicy) :
    volumeRatio buffer q windowS policy =
      (isSameSession (q.marketTimestamp - windowS) q.marketTimestamp).map fun _ => none := by
  unfold volumeRatio
  rw [volumeDelta_first h hw]
  cases isSameSession (q.marketTimestamp - windowS) q.marketTimestamp <;> rfl

theorem sessionRefs_first (h : FirstIn q buffer) : sessionRefs buffer q = .ok (none, none) := by
  refine foldlM_skip fun item hitem => ?_
  unfold refStep
  rcases h item (List.mem_filter.1 hitem).1 with rfl | ⟨hlt, hother⟩
  · rw [if_pos le_rfl]
    rfl
  · rw [if_neg (not_le.2 hlt), hother]
    rfl

/-- The bar of the first quote is still forming. -/
theorem completedMinuteBars_first {day : ℤ} (hday : sessionId q.marketTimestamp = .ok day)
    {snapshots : List MarketSnapshot} (h : ∀ item ∈ snapshots, item = q) (barSeconds : ℚ) :
    completedMinuteBars snapshots q.marketTimestamp barSeconds = .ok [] := by
  unfold completedMinuteBars
  split
  · rfl
  have hbuckets : snapshots.foldlM (bucketStep q.marketTimestamp barSeconds) Dict.empty =
      .ok Dict.empty := by
    refine foldlM_skip fun item hitem => ?_
    obtain rfl := h item hitem
    unfold bucketStep
    rw [isSameSession_self hday]
    simp [bind, Except.bind, pure, Except.pure]
  rw [hbuckets]
  rfl

/-- The quotes of the session. -/
theorem sessionSnaps_first (h : FirstIn q buffer) {day : ℤ} (hday : sessionId q.marketTimestamp = .ok day) :
    ∃ snapshots, (buffer.since 0).filterM (fun snapshot =>
        isSameSession snapshot.marketTimestamp q.marketTimestamp) = .ok snapshots ∧
      ∀ item ∈ snapshots, item = q := by
  have hsame : ∀ item ∈ buffer.since 0,
      isSameSession item.marketTimestamp q.marketTimestamp = .ok (decide (item = q)) := by
    intro item hitem
    rcases h item (List.mem_filter.1 hitem).1 with rfl | ⟨hlt, hother⟩
    · rw [isSameSession_self hday]
      simp
    · have hne : item ≠ q := by
        rintro rfl
        exact lt_irrefl _ hlt
      rw [hother]
      simp [hne]
  refine ⟨_, filterM_ok hsame, fun item hitem => ?_⟩
  simpa using (List.mem_filter.1 hitem).2

/-! ## The features -/

/-- The windows of the changes start at a date that `datetime` has. -/
def reach (q : MarketSnapshot) : Except PyError Unit := do
  let _ ← isSameSession (q.marketTimestamp - 60) q.marketTimestamp
  let _ ← isSameSession (q.marketTimestamp - 300) q.marketTimestamp
  let _ ← isSameSession (q.marketTimestamp - 900) q.marketTimestamp
  return ()

/-- **The features of the first quote of a session are those of the quote alone.** -/
theorem computeLatest_first (e : FeatureEngine) (h : FirstIn q buffer) {day : ℤ}
    (hday : sessionId q.marketTimestamp = .ok day) :
    e.computeLatest buffer q = (reach q).map fun _ => firstFeatures q := by
  obtain ⟨snapshots, hsnaps, hall⟩ := sessionSnaps_first h hday
  have hbars := completedMinuteBars_first hday hall e.policy.barSeconds
  unfold FeatureEngine.computeLatest reach
  rw [sessionRefs_first h]
  rw [priceChange_first h (by norm_num), priceChange_first h (by norm_num),
    priceChange_first h (by norm_num), volumeDelta_first h (by norm_num),
    volumeDelta_first h (by norm_num), volumeRatio_first h (by norm_num),
    volumeRatio_first h (by norm_num)]
  simp only [hsnaps, hbars, bind, Except.bind]
  cases isSameSession (q.marketTimestamp - 60) q.marketTimestamp with
  | error err => rfl
  | ok same1 =>
    cases isSameSession (q.marketTimestamp - 300) q.marketTimestamp with
    | error err => rfl
    | ok same5 =>
      cases isSameSession (q.marketTimestamp - 900) q.marketTimestamp with
      | error err => rfl
      | ok same15 =>
        simp [Except.map, pure, Except.pure, firstFeatures, ema, rsiWilder]

end MarketSentinel
