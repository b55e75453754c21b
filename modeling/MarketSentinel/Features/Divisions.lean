import MarketSentinel.Features.Indicators
import MarketSentinel.Features.Processable

/-!
# The divisions of the features

`features/engine.py` once more, with every `/` of the source as Python's, which raises at zero. The guards of the
source make all of them but one safe, whatever the quotes are.

* `checked_computeLatest`: where every division is checked, the result is the same.
* `safe_volumeRatio`: with samples to look back to, the one that is left does not raise.
-/

namespace MarketSentinel

open Lib

namespace Checked

/-! ## The functions of the source -/

/-- `math.floor(ts / bar_seconds) * bar_seconds`. -/
def barStart (barSeconds ts : ℚ) : Except PyError ℚ := do
  let bars ← pyDiv ts barSeconds
  return ⌊bars⌋ * barSeconds

/-- A quote is put into its bar. -/
def bucketStep (latestTs barSeconds formingStart : ℚ) (buckets : Dict ℚ (List MarketSnapshot))
    (snapshot : MarketSnapshot) : Except PyError (Dict ℚ (List MarketSnapshot)) := do
  if !(← isSameSession snapshot.marketTimestamp latestTs) then return buckets
  let start ← barStart barSeconds snapshot.marketTimestamp
  if formingStart ≤ start then return buckets
  return buckets.set start (buckets.getD start [] ++ [snapshot])

/-- `completed_minute_bars`. -/
def completedMinuteBars (snapshots : List MarketSnapshot) (latestTs barSeconds : ℚ) :
    Except PyError (List MarketBar) :=
  if snapshots = [] ∨ barSeconds ≤ 0 then .ok []
  else do
    let formingStart ← barStart barSeconds latestTs
    let buckets ← snapshots.foldlM (bucketStep latestTs barSeconds formingStart) Dict.empty
    return ((buckets.entries.insertionSort fun a b => a.1 ≤ b.1).foldl (barStep barSeconds) {}).bars

/-- `ema`. -/
def ema (closes : List ℚ) (period : ℤ) : Except PyError (Option ℚ) :=
  if period ≤ 0 ∨ closes.length < period then .ok none
  else do
    let seed ← pyDiv (closes.take period.toNat).sum period
    let k ← pyDiv 2 (period + 1)
    return some ((closes.drop period.toNat).foldl (fun value close => close * k + value * (1 - k)) seed)

/-- A gain and a loss into the two averages. -/
def wilderStep (period : ℤ) (averages change : ℚ × ℚ) : Except PyError (ℚ × ℚ) := do
  let avgGain ← pyDiv (averages.1 * (period - 1) + change.1) period
  let avgLoss ← pyDiv (averages.2 * (period - 1) + change.2) period
  return (avgGain, avgLoss)

/-- `rsi_wilder` after its loop. -/
def rsiOf (avgGain avgLoss : ℚ) : Except PyError (Option ℚ) := do
  if avgGain = 0 ∧ avgLoss = 0 then return some 50
  if avgLoss = 0 then return some 100
  if avgGain = 0 then return some 0
  let relativeStrength ← pyDiv avgGain avgLoss
  let rest ← pyDiv 100 (1 + relativeStrength)
  return some (100 - rest)

/-- `rsi_wilder`. -/
def rsiWilder (closes : List ℚ) (period : ℤ) : Except PyError (Option ℚ) :=
  if period ≤ 0 ∨ closes.length < period + 1 then .ok none
  else do
    let gains := gains (changes closes)
    let losses := losses (changes closes)
    let avgGain ← pyDiv (gains.take period.toNat).sum period
    let avgLoss ← pyDiv (losses.take period.toNat).sum period
    let averages ← ((gains.drop period.toNat).zip (losses.drop period.toNat)).foldlM (wilderStep period)
      (avgGain, avgLoss)
    rsiOf averages.1 averages.2

/-- `session_vwap`. -/
def sessionVwap (snapshot : MarketSnapshot) : Except PyError (Option ℚ × Option Bool) :=
  match snapshot.turnover with
  | none => .ok (none, none)
  | some turnover =>
    if snapshot.volume ≤ 0 then .ok (none, none)
    else do
      let vwap ← pyDiv turnover snapshot.volume
      return (some vwap, some (decide (vwap < snapshot.price)))

/-- `price_change`. -/
def priceChange (buffer : RingBuffer) (latest : MarketSnapshot) (windowS : ℚ) (policy : FeaturePolicy) :
    Except PyError (Option ℚ) := do
  match ← resolveAnchor buffer latest windowS policy.maxAnchorLagS with
  | none => return none
  | some anchor =>
    if anchor.price = 0 then return none
    some <$> pyDiv (latest.price - anchor.price) anchor.price

/-- `volume_ratio`. -/
def volumeRatio (buffer : RingBuffer) (latest : MarketSnapshot) (windowS : ℚ) (policy : FeaturePolicy) :
    Except PyError (Option ℚ) := do
  match ← volumeDelta buffer latest windowS policy with
  | none => return none
  | some current =>
    match ← historicalVolumeDeltas buffer latest windowS policy policy.volumeRatioLookback.toNat 1 with
    | none => return none
    | some samples =>
      let baseline ← pyDiv samples.sum samples.length
      if baseline ≤ 0 then return none
      some <$> pyDiv current baseline

/-- A quotient that is left out where its divisor is refused. -/
def guarded (refused : Prop) [Decidable refused] (a b : ℚ) : Except PyError (Option ℚ) :=
  if refused then .ok none else some <$> pyDiv a b

/-- `compute` with a latest quote. -/
def computeLatest (e : FeatureEngine) (buffer : RingBuffer) (latest : MarketSnapshot) :
    Except PyError MarketFeatures := do
  let refs ← sessionRefs buffer latest
  let highNow := (refs.1.map (max · (sessionExtremeHigh latest))).getD (sessionExtremeHigh latest)
  let lowNow := (refs.2.map (min · (sessionExtremeLow latest))).getD (sessionExtremeLow latest)
  let dayRange ← guarded (¬lowNow < highNow) (latest.price - lowNow) (highNow - lowNow)
  let dayChange ← guarded (latest.prevClose = 0) (latest.price - latest.prevClose) latest.prevClose
  let sessionSnaps ← (buffer.since 0).filterM fun snapshot =>
    isSameSession snapshot.marketTimestamp latest.marketTimestamp
  let bars ← completedMinuteBars sessionSnaps latest.marketTimestamp e.policy.barSeconds
  let closes := bars.map (·.close)
  let vwap ← sessionVwap latest
  let change1m ← priceChange buffer latest 60 e.policy
  let change5m ← priceChange buffer latest 300 e.policy
  let change15m ← priceChange buffer latest 900 e.policy
  let volume1m ← volumeDelta buffer latest 60 e.policy
  let volume5m ← volumeDelta buffer latest 300 e.policy
  let volumeRatio1m ← volumeRatio buffer latest 60 e.policy
  let volumeRatio5m ← volumeRatio buffer latest 300 e.policy
  let ema5 ← ema closes 5
  let ema20 ← ema closes 20
  let rsi14 ← rsiWilder closes 14
  return {
    symbol := latest.symbol
    marketTimestamp := latest.marketTimestamp
    receivedTimestamp := latest.receivedTimestamp
    change1m := change1m
    change5m := change5m
    change15m := change15m
    changeDay := dayChange
    dayRangePosition := dayRange
    volume1m := volume1m
    volume5m := volume5m
    volumeRatio1m := volumeRatio1m
    volumeRatio5m := volumeRatio5m
    vwap := vwap.1
    aboveVwap := vwap.2
    ema5 := ema5
    ema20 := ema20
    rsi14 := rsi14
    sessionHighRef := refs.1
    sessionLowRef := refs.2
    sessionHighObs := sessionExtremeHigh latest
    sessionLowObs := sessionExtremeLow latest }

/-- `FeatureEngine.compute`. -/
def compute (e : FeatureEngine) (buffer : RingBuffer) : Except PyError (Option MarketFeatures) :=
  match buffer.latest with
  | none => .ok none
  | some latest => some <$> computeLatest e buffer latest

/-! ## The guards -/

/-- Python's division, where it does not raise. -/
theorem pyDiv_eq {a b : ℚ} (h : b ≠ 0) : pyDiv a b = .ok (a / b) := if_neg h

/-- A guard that refuses a zero makes the division behind it safe. -/
theorem checked_guarded {refused : Prop} [Decidable refused] {a b : ℚ} (h : ¬refused → b ≠ 0) :
    guarded refused a b = .ok (if refused then none else some (a / b)) := by
  unfold guarded
  split
  · rfl
  · next hnot =>
    rw [pyDiv_eq (h hnot)]
    rfl

/-- The bars of a positive length. -/
theorem checked_barStart {barSeconds : ℚ} (h : barSeconds ≠ 0) (ts : ℚ) :
    barStart barSeconds ts = .ok (MarketSentinel.barStart barSeconds ts) := by
  unfold barStart
  rw [pyDiv_eq h]
  rfl

/-- A length that is not positive has no bars, so no bar is divided by zero. -/
theorem checked_completedMinuteBars (snapshots : List MarketSnapshot) (latestTs barSeconds : ℚ) :
    completedMinuteBars snapshots latestTs barSeconds =
      MarketSentinel.completedMinuteBars snapshots latestTs barSeconds := by
  unfold completedMinuteBars MarketSentinel.completedMinuteBars
  split
  · rfl
  · next hne =>
    rw [not_or, not_le] at hne
    have hstart := checked_barStart hne.2.ne'
    have hstep : bucketStep latestTs barSeconds (MarketSentinel.barStart barSeconds latestTs) =
        MarketSentinel.bucketStep latestTs barSeconds := by
      funext buckets snapshot
      unfold bucketStep MarketSentinel.bucketStep
      simp only [hstart, ok_bind]
    rw [hstart, ok_bind, hstep]

/-- The period of an average is positive where it divides. -/
theorem checked_ema (closes : List ℚ) (period : ℤ) : ema closes period = .ok (MarketSentinel.ema closes period) := by
  unfold ema MarketSentinel.ema
  split
  · rfl
  · have hpos : (0 : ℚ) < period := by
      have hperiod : 0 < period := by omega
      exact_mod_cast hperiod
    rw [pyDiv_eq hpos.ne', ok_bind, pyDiv_eq (by linarith : (period : ℚ) + 1 ≠ 0), ok_bind]
    rfl

/-- The loop over the gains and the losses is two loops. -/
theorem checked_wilderSteps {period : ℤ} (h : (period : ℚ) ≠ 0) : ∀ (gains losses : List ℚ),
    gains.length = losses.length → ∀ avgGain avgLoss : ℚ,
      (gains.zip losses).foldlM (wilderStep period) (avgGain, avgLoss) =
        .ok (gains.foldl (MarketSentinel.wilderStep period) avgGain,
          losses.foldl (MarketSentinel.wilderStep period) avgLoss) := by
  intro gains
  induction gains with
  | nil =>
    intro losses hlength avgGain avgLoss
    obtain rfl := List.length_eq_zero_iff.1 hlength.symm
    rfl
  | cons gain gains ih =>
    intro losses hlength avgGain avgLoss
    cases losses with
    | nil => cases hlength
    | cons loss losses =>
      have hrest : gains.length = losses.length := Nat.succ.inj hlength
      rw [List.zip_cons_cons, List.foldlM_cons]
      unfold wilderStep
      rw [pyDiv_eq h, ok_bind, pyDiv_eq h, ok_bind]
      exact ih losses hrest _ _

/-- A relative strength is divided by a loss that is not zero. -/
theorem checked_rsiOf {avgGain avgLoss : ℚ} (hgain : 0 ≤ avgGain) (hloss : 0 ≤ avgLoss) :
    rsiOf avgGain avgLoss = .ok (some (MarketSentinel.rsiOf avgGain avgLoss)) := by
  unfold rsiOf MarketSentinel.rsiOf
  split_ifs with hboth hnoLoss hnoGain
  · rfl
  · rfl
  · rfl
  · -- Both averages are positive here, so the last divisor is above 1.
    have hstrength : 0 ≤ avgGain / avgLoss := div_nonneg hgain hloss
    rw [pyDiv_eq hnoLoss, ok_bind, pyDiv_eq (by linarith : 1 + avgGain / avgLoss ≠ 0)]
    rfl

/-- So is the index of any prices. -/
theorem checked_rsiWilder (closes : List ℚ) (period : ℤ) :
    rsiWilder closes period = .ok (MarketSentinel.rsiWilder closes period) := by
  by_cases hshort : period ≤ 0 ∨ closes.length < period + 1
  · unfold rsiWilder MarketSentinel.rsiWilder
    rw [if_pos hshort, if_pos hshort]
  · have hperiod : 0 < period := by omega
    have hlength : period + 1 ≤ closes.length := by omega
    have hne : (period : ℚ) ≠ 0 := by exact_mod_cast hperiod.ne'
    have hsame : ((gains (changes closes)).drop period.toNat).length =
        ((losses (changes closes)).drop period.toNat).length := by
      rw [List.length_drop, List.length_drop, gains, losses, List.length_map, List.length_map]
    rw [rsiWilder_eq hperiod hlength, ← checked_rsiOf (avgGain_nonneg hperiod hlength) (avgLoss_nonneg hperiod hlength)]
    unfold rsiWilder
    rw [if_neg hshort]
    dsimp only
    rw [pyDiv_eq hne, ok_bind, pyDiv_eq hne, ok_bind, checked_wilderSteps hne _ _ hsame]
    rfl

/-- The volume of a session is positive where it divides. -/
theorem checked_sessionVwap (snapshot : MarketSnapshot) :
    sessionVwap snapshot = .ok (MarketSentinel.sessionVwap snapshot) := by
  unfold sessionVwap MarketSentinel.sessionVwap
  cases snapshot.turnover with
  | none => rfl
  | some turnover =>
    dsimp only
    split
    · rfl
    · next hvolume =>
      rw [pyDiv_eq (not_le.1 hvolume).ne']
      rfl

/-- The price of an anchor is positive where it divides. -/
theorem checked_priceChange (b : RingBuffer) (q : MarketSnapshot) (windowS : ℚ) (policy : FeaturePolicy) :
    priceChange b q windowS policy = MarketSentinel.priceChange b q windowS policy := by
  unfold priceChange MarketSentinel.priceChange
  refine bind_congr fun anchor => ?_
  cases anchor with
  | none => rfl
  | some anchor =>
    dsimp only
    split
    · rfl
    · next hprice =>
      rw [pyDiv_eq hprice]
      rfl

/-- A baseline is positive where it divides. -/
theorem checked_volumeRatio (b : RingBuffer) (q : MarketSnapshot) (windowS : ℚ) (policy : FeaturePolicy) :
    volumeRatio b q windowS policy = MarketSentinel.volumeRatio b q windowS policy := by
  unfold volumeRatio MarketSentinel.volumeRatio
  refine bind_congr fun current => ?_
  cases current with
  | none => rfl
  | some current =>
    refine bind_congr fun samples => ?_
    cases samples with
    | none => rfl
    | some samples =>
      refine bind_congr fun baseline => ?_
      split
      · rfl
      · next hbaseline =>
        rw [pyDiv_eq (not_le.1 hbaseline).ne']
        rfl

/-- **With every division checked the features are the same.** -/
theorem checked_computeLatest (e : FeatureEngine) (b : RingBuffer) (q : MarketSnapshot) :
    computeLatest e b q = e.computeLatest b q := by
  unfold computeLatest FeatureEngine.computeLatest
  refine bind_congr fun refs => ?_
  dsimp only
  rw [checked_guarded fun h => (sub_pos.2 (not_not.1 h)).ne', ok_bind, checked_guarded id, ok_bind]
  simp only [checked_completedMinuteBars, checked_sessionVwap, checked_priceChange, checked_volumeRatio, checked_ema,
    checked_rsiWilder, ok_bind, ite_not]

theorem checked_compute (e : FeatureEngine) (b : RingBuffer) : compute e b = e.compute b := by
  unfold compute FeatureEngine.compute
  cases b.latest with
  | none => rfl
  | some latest => exact congrArg (some <$> ·) (checked_computeLatest e b latest)

end Checked

/-! ## No division by zero -/

/-- The error is not a division by zero. -/
def Safe {A : Type} (m : Except PyError A) : Prop := m ≠ .error .zeroDivisionError

section Safe

variable {A B : Type} {m : Except PyError A} {b : RingBuffer} {q : MarketSnapshot} {windowS : ℚ}
  {policy : FeaturePolicy}

/-- A value is no error. -/
theorem safe_ok (a : A) : Safe (.ok a : Except PyError A) := fun h => by cases h

/-- Two steps that are safe are so together. -/
theorem Safe.bind {f : A → Except PyError B} (hm : Safe m) (hf : ∀ a, m = .ok a → Safe (f a)) : Safe (m >>= f) := by
  cases m with
  | error err => exact fun h => hm (congrArg Except.error (Except.error.inj h))
  | ok a => exact hf a rfl

/-- A date out of range raises another error. -/
theorem safe_sessionId (ts : ℚ) : Safe (sessionId ts) := by
  unfold sessionId
  dsimp only
  split
  · exact fun h => by cases h
  split
  · exact fun h => by cases h
  · exact safe_ok _

theorem safe_isSameSession (left right : ℚ) : Safe (isSameSession left right) :=
  (safe_sessionId left).bind fun _ _ => (safe_sessionId right).bind fun _ _ => safe_ok _

/-- A loop of safe steps is safe. -/
theorem safe_foldlM {S : Type} {f : S → A → Except PyError S} (h : ∀ s x, Safe (f s x)) :
    ∀ (l : List A) (s : S), Safe (l.foldlM f s) := by
  intro l
  induction l with
  | nil => exact fun s => safe_ok s
  | cons x l ih =>
    intro s
    rw [List.foldlM_cons]
    exact (h s x).bind fun s' _ => ih s'

/-- So is a filter. -/
theorem safe_filterM {p : A → Except PyError Bool} (h : ∀ x, Safe (p x)) (l : List A) : Safe (l.filterM p) := by
  have haux : ∀ (l acc : List A), Safe (l.filterAuxM p acc) := by
    intro l
    induction l with
    | nil => exact fun acc => safe_ok acc
    | cons x l ih => exact fun acc => (h x).bind fun b _ => ih _
  exact (haux l []).bind fun _ _ => safe_ok _

theorem safe_snapshotAsOf (ts lag : ℚ) : Safe (snapshotAsOf b ts q lag) := by
  unfold snapshotAsOf
  split
  · exact safe_ok none
  · refine (safe_isSameSession _ _).bind fun same _ => ?_
    split
    · exact safe_ok none
    · split <;> exact safe_ok _

theorem safe_resolveAnchor (lag : ℚ) : Safe (resolveAnchor b q windowS lag) := by
  refine (safe_isSameSession _ _).bind fun same _ => ?_
  split
  · exact safe_ok none
  · exact safe_snapshotAsOf _ _

theorem safe_priceChange : Safe (priceChange b q windowS policy) := by
  refine (safe_resolveAnchor _).bind fun anchor _ => ?_
  cases anchor with
  | none => exact safe_ok none
  | some anchor =>
    dsimp only
    split <;> exact safe_ok _

/-- A difference divides by nothing. -/
theorem safe_volumeDelta : Safe (volumeDelta b q windowS policy) := by
  refine (safe_resolveAnchor _).bind fun anchor _ => ?_
  cases anchor <;> exact safe_ok _

/-- Nor do the samples of the past. -/
theorem safe_historicalVolumeDeltas : ∀ n step, Safe (historicalVolumeDeltas b q windowS policy n step) := by
  intro n
  induction n with
  | zero => exact fun _ => safe_ok _
  | succ n ih =>
    intro step
    refine (safe_snapshotAsOf _ _).bind fun found _ => ?_
    cases found with
    | none => exact safe_ok none
    | some asOf =>
      refine safe_volumeDelta.bind fun delta _ => ?_
      cases delta with
      | none => exact safe_ok none
      | some delta =>
        refine (ih (step + 1)).bind fun samples _ => ?_
        cases samples <;> exact safe_ok _

/-- There are samples to divide by. -/
theorem safe_volumeRatio (hlook : 0 < policy.volumeRatioLookback) : Safe (volumeRatio b q windowS policy) := by
  refine safe_volumeDelta.bind fun current _ => ?_
  cases current with
  | none => exact safe_ok none
  | some current =>
    refine (safe_historicalVolumeDeltas _ _).bind fun samples hsamples => ?_
    cases samples with
    | none => exact safe_ok none
    | some samples =>
      have hlength := historicalVolumeDeltas_length hsamples
      have hne : (samples.length : ℚ) ≠ 0 := by
        have hpos : samples.length ≠ 0 := by omega
        exact_mod_cast hpos
      dsimp only
      rw [Checked.pyDiv_eq hne, ok_bind]
      split <;> exact safe_ok _

/-- Nor do the bars, but for their length. -/
theorem safe_completedMinuteBars (snapshots : List MarketSnapshot) (latestTs barSeconds : ℚ) :
    Safe (completedMinuteBars snapshots latestTs barSeconds) := by
  unfold completedMinuteBars
  split
  · exact safe_ok []
  · refine (safe_foldlM (fun buckets snapshot => ?_) _ _).bind fun buckets _ => safe_ok _
    refine (safe_isSameSession _ _).bind fun same _ => ?_
    split
    · exact safe_ok _
    · dsimp only
      split <;> exact safe_ok _

/-- Nor do the references of the session. -/
theorem safe_sessionRefs : Safe (sessionRefs b q) := by
  refine safe_foldlM (fun refs snapshot => ?_) _ _
  unfold refStep
  split
  · exact safe_ok refs
  · refine (safe_isSameSession _ _).bind fun same _ => ?_
    split <;> exact safe_ok _

end Safe

end MarketSentinel
