import MarketSentinel.Features.Engine
import MarketSentinel.Lib.Smoothing

/-!
# What the indicators can be

`features/indicators.py` in exact arithmetic: an EMA is a mean of its closes, and the RSI compares two Wilder
averages, of the gains and of the losses.

* `ema_between`: an EMA lies between the least and the greatest close.
* `rsi_mirror_law`: the RSI of mirrored closes is 100 less the RSI, and it does not depend on the unit or the
  origin of the prices.
-/

namespace MarketSentinel

open Lib

variable {closes xs : List ℚ} {period : ℤ} {value : ℚ}

/-! ## The average -/

/-- `period` is positive, so it is a number of closes. -/
theorem period_cast (h : 0 < period) : ((period.toNat : ℕ) : ℚ) = period := by
  have hcast : ((period.toNat : ℕ) : ℤ) = period := Int.toNat_of_nonneg h.le
  exact_mod_cast hcast

/-- The average of enough prices is a warm one. -/
theorem ema_eq (hperiod : 0 < period) (hlength : period ≤ closes.length) :
    ema closes period = some (warm (2 / ((period : ℚ) + 1)) period.toNat closes) := by
  unfold ema warm smooth smoothStep
  rw [if_neg (by omega), period_cast hperiod]

/-- It is there for enough prices only. -/
theorem ema_some (h : ema closes period = some value) : 0 < period ∧ period ≤ closes.length := by
  unfold ema at h
  split at h
  · cases h
  · omega

/-- **An EMA lies between the least and the greatest close.** -/
theorem ema_between (h : ema closes period = some value) : ∃ lo hi, closes.min? = some lo ∧ closes.max? = some hi ∧
    lo ≤ value ∧ value ≤ hi := by
  obtain ⟨hperiod, hlength⟩ := ema_some h
  rw [ema_eq hperiod hlength] at h
  obtain rfl := Option.some.inj h
  have hcast : (1 : ℚ) ≤ period := by exact_mod_cast hperiod
  have hshare : (0 : ℚ) ≤ 2 / (period + 1) ∧ (2 : ℚ) / (period + 1) ≤ 1 := by
    constructor
    · positivity
    · rw [div_le_one (by linarith)]
      linarith
  have hne : closes ≠ [] := List.ne_nil_of_length_pos (by omega)
  obtain ⟨lo, hlo⟩ := Option.isSome_iff_exists.1 (List.isSome_min?_of_ne_nil hne)
  obtain ⟨hi, hhi⟩ := Option.isSome_iff_exists.1 (List.isSome_max?_of_ne_nil hne)
  refine ⟨lo, hi, hlo, hhi, warm_bounds hshare (by omega) (by omega) fun close hclose => ?_⟩
  exact ⟨(List.min?_eq_some_iff.1 hlo).2 close hclose, (List.max?_eq_some_iff.1 hhi).2 close hclose⟩

/-! ## The relative strength -/

/-- So is Wilder's, with a smoothing of its own. -/
theorem wilderAverage_eq (hperiod : 0 < period) :
    wilderAverage period xs = warm (1 / (period : ℚ)) period.toNat xs := by
  have hne : (period : ℚ) ≠ 0 := by exact_mod_cast hperiod.ne'
  have hstep : wilderStep period = smoothStep (1 / (period : ℚ)) := by
    funext avg x
    unfold wilderStep smoothStep
    field_simp
    ring
  unfold wilderAverage warm smooth
  rw [hstep, period_cast hperiod]

/-- An average of gains is not negative. -/
theorem wilderAverage_nonneg (hperiod : 0 < period) (hlength : period ≤ xs.length) (h : ∀ x ∈ xs, 0 ≤ x) :
    0 ≤ wilderAverage period xs := by
  have hcast : (1 : ℚ) ≤ period := by exact_mod_cast hperiod
  have hshare : (0 : ℚ) ≤ 1 / period ∧ (1 : ℚ) / period ≤ 1 := by
    constructor
    · positivity
    · rw [div_le_one (by linarith)]
      exact hcast
  have hne : xs ≠ [] := List.ne_nil_of_length_pos (by omega)
  obtain ⟨hi, hhi⟩ := Option.isSome_iff_exists.1 (List.isSome_max?_of_ne_nil hne)
  rw [wilderAverage_eq hperiod]
  have hbounds : ∀ x ∈ xs, 0 ≤ x ∧ x ≤ hi := fun x hx => ⟨h x hx, (List.max?_eq_some_iff.1 hhi).2 x hx⟩
  exact (warm_bounds hshare (by omega) (by omega) hbounds).1

/-- The RSI of an average gain and an average loss. -/
def rsiOf (avgGain avgLoss : ℚ) : ℚ :=
  if avgGain = 0 ∧ avgLoss = 0 then 50
  else if avgLoss = 0 then 100
  else if avgGain = 0 then 0
  else 100 - 100 / (1 + avgGain / avgLoss)

/-- The changes from each close to the next. -/
def changes (closes : List ℚ) : List ℚ := List.zipWith (fun a b => b - a) closes closes.tail

/-- The rises. -/
def gains (changes : List ℚ) : List ℚ := changes.map (max · 0)

/-- The falls. -/
def losses (changes : List ℚ) : List ℚ := changes.map fun change => max (-change) 0

/-- The index is that of the two averages. -/
theorem rsiWilder_eq (hperiod : 0 < period) (hlength : period + 1 ≤ closes.length) : rsiWilder closes period =
    some (rsiOf (wilderAverage period (gains (changes closes))) (wilderAverage period (losses (changes closes)))) := by
  unfold rsiWilder rsiOf gains losses changes
  rw [if_neg (by omega)]
  dsimp only
  split_ifs <;> rfl

/-- It is there for enough prices only. -/
theorem rsiWilder_some (h : rsiWilder closes period = some value) : 0 < period ∧ period + 1 ≤ closes.length := by
  unfold rsiWilder at h
  split at h
  · cases h
  · omega

theorem length_changes : (changes closes).length = closes.length - 1 := by
  unfold changes
  rw [List.length_zipWith, List.length_tail]
  omega

theorem avgGain_nonneg (hperiod : 0 < period) (hlength : period + 1 ≤ closes.length) :
    0 ≤ wilderAverage period (gains (changes closes)) := by
  refine wilderAverage_nonneg hperiod ?_ fun x hx => ?_
  · rw [gains, List.length_map, length_changes]
    omega
  · obtain ⟨change, -, rfl⟩ := List.mem_map.1 hx
    exact le_max_right _ _

theorem avgLoss_nonneg (hperiod : 0 < period) (hlength : period + 1 ≤ closes.length) :
    0 ≤ wilderAverage period (losses (changes closes)) := by
  refine wilderAverage_nonneg hperiod ?_ fun x hx => ?_
  · rw [losses, List.length_map, length_changes]
    omega
  · obtain ⟨change, -, rfl⟩ := List.mem_map.1 hx
    exact le_max_right _ _

/-- **The index lies between 0 and 100.** -/
theorem rsiOf_bounds {avgGain avgLoss : ℚ} (hgain : 0 ≤ avgGain) (hloss : 0 ≤ avgLoss) :
    0 ≤ rsiOf avgGain avgLoss ∧ rsiOf avgGain avgLoss ≤ 100 := by
  unfold rsiOf
  split_ifs with hboth hnoLoss hnoGain
  · norm_num
  · norm_num
  · norm_num
  · have hstrength : 0 ≤ avgGain / avgLoss := div_nonneg hgain hloss
    have hrest : 100 / (1 + avgGain / avgLoss) ≤ 100 := by
      rw [div_le_iff₀ (by linarith)]
      linarith
    have hpos : 0 ≤ 100 / (1 + avgGain / avgLoss) := by positivity
    constructor <;> linarith

/-- **The RSI lies between 0 and 100.** -/
theorem rsiWilder_bounds (h : rsiWilder closes period = some value) : 0 ≤ value ∧ value ≤ 100 := by
  obtain ⟨hperiod, hlength⟩ := rsiWilder_some h
  rw [rsiWilder_eq hperiod hlength] at h
  obtain rfl := Option.some.inj h
  exact rsiOf_bounds (avgGain_nonneg hperiod hlength) (avgLoss_nonneg hperiod hlength)

/-! ## Mirror, shift and scale -/

/-- With the averages swapped, the two sum to 100. -/
theorem rsiOf_swap {avgGain avgLoss : ℚ} (hgain : 0 ≤ avgGain) (hloss : 0 ≤ avgLoss) :
    rsiOf avgGain avgLoss + rsiOf avgLoss avgGain = 100 := by
  unfold rsiOf
  by_cases hg : avgGain = 0
  · by_cases hl : avgLoss = 0
    · norm_num [hg, hl]
    · simp [hg, hl]
  · by_cases hl : avgLoss = 0
    · simp [hg, hl]
    · -- Both are positive: the two quotients are shares of their sum.
      have hgain' : 0 < avgGain := lt_of_le_of_ne hgain (Ne.symm hg)
      have hloss' : 0 < avgLoss := lt_of_le_of_ne hloss (Ne.symm hl)
      have hsum : avgGain + avgLoss ≠ 0 := by positivity
      have hleft : 1 + avgGain / avgLoss = (avgGain + avgLoss) / avgLoss := by
        field_simp
        ring
      have hright : 1 + avgLoss / avgGain = (avgGain + avgLoss) / avgGain := by
        field_simp
      simp only [hg, hl, false_and, if_false, hleft, hright]
      field_simp
      ring

/-- Only the ratio of the averages counts. -/
theorem rsiOf_mul {a : ℚ} (ha : 0 < a) (avgGain avgLoss : ℚ) :
    rsiOf (a * avgGain) (a * avgLoss) = rsiOf avgGain avgLoss := by
  unfold rsiOf
  simp only [mul_eq_zero, ha.ne', false_or]
  rw [mul_div_mul_left _ _ ha.ne']

theorem changes_cons (a b : ℚ) (rest : List ℚ) : changes (a :: b :: rest) = (b - a) :: changes (b :: rest) := rfl

/-- A map that changes differences in one way changes all of them so. -/
theorem changes_map {f g : ℚ → ℚ} (h : ∀ a b, f b - f a = g (b - a)) (closes : List ℚ) :
    changes (closes.map f) = (changes closes).map g := by
  induction closes with
  | nil => rfl
  | cons a rest ih =>
    cases rest with
    | nil => rfl
    | cons b rest =>
      rw [List.map_cons] at ih
      rw [List.map_cons, List.map_cons, changes_cons, changes_cons, List.map_cons, ih, h]

/-- The mirror turns losses into gains. -/
theorem gains_neg (changes : List ℚ) : gains (changes.map (- ·)) = losses changes := by
  unfold gains losses
  rw [List.map_map]
  rfl

/-- And gains into losses. -/
theorem losses_neg (changes : List ℚ) : losses (changes.map (- ·)) = gains changes := by
  unfold gains losses
  rw [List.map_map]
  exact List.map_congr_left fun change _ => by simp

/-- The gains are scaled. -/
theorem gains_mul {a : ℚ} (ha : 0 ≤ a) (changes : List ℚ) :
    gains (changes.map (a * ·)) = (gains changes).map (a * ·) := by
  unfold gains
  rw [List.map_map, List.map_map]
  refine List.map_congr_left fun change _ => ?_
  show max (a * change) 0 = a * max change 0
  rw [mul_max_of_nonneg _ _ ha, mul_zero]

/-- And the losses. -/
theorem losses_mul {a : ℚ} (ha : 0 ≤ a) (changes : List ℚ) :
    losses (changes.map (a * ·)) = (losses changes).map (a * ·) := by
  unfold losses
  rw [List.map_map, List.map_map]
  refine List.map_congr_left fun change _ => ?_
  show max (-(a * change)) 0 = a * max (-change) 0
  rw [mul_max_of_nonneg _ _ ha, mul_zero, mul_neg]

/-- And the averages. -/
theorem wilderAverage_mul (hperiod : 0 < period) (a : ℚ) (xs : List ℚ) :
    wilderAverage period (xs.map (a * ·)) = a * wilderAverage period xs := by
  rw [wilderAverage_eq hperiod, wilderAverage_eq hperiod, warm_mul]

/-- **The mirror law of the RSI**, for any period and any long enough list of closes. -/
theorem rsi_mirror_law (closes : List ℚ) (period : ℤ) (hperiod : 0 < period) (hlength : period + 1 ≤ closes.length) :
    (∀ K, ∃ rsi mirrored, rsiWilder closes period = some rsi ∧ rsiWilder (closes.map (K - ·)) period = some mirrored ∧
      rsi + mirrored = 100) ∧
    (∀ a, rsiWilder (closes.map (· + a)) period = rsiWilder closes period) ∧
    ∀ a, 0 < a → rsiWilder (closes.map (a * ·)) period = rsiWilder closes period := by
  have hmapped : ∀ f : ℚ → ℚ, period + 1 ≤ (closes.map f).length := fun f => by
    rw [List.length_map]
    exact hlength
  refine ⟨fun K => ?_, fun a => ?_, fun a ha => ?_⟩
  · have hmirror : changes (closes.map (K - ·)) = (changes closes).map (- ·) := changes_map (fun a b => by ring) closes
    refine ⟨_, _, rsiWilder_eq hperiod hlength, rsiWilder_eq hperiod (hmapped _), ?_⟩
    rw [hmirror, gains_neg, losses_neg]
    exact rsiOf_swap (avgGain_nonneg hperiod hlength) (avgLoss_nonneg hperiod hlength)
  · have hshift : changes (closes.map (· + a)) = changes closes := by
      rw [changes_map (g := id) (fun x y => by simp) closes, List.map_id]
    rw [rsiWilder_eq hperiod (hmapped _), rsiWilder_eq hperiod hlength, hshift]
  · have hscale : changes (closes.map (a * ·)) = (changes closes).map (a * ·) := changes_map (fun x y => by ring) closes
    rw [rsiWilder_eq hperiod (hmapped _), rsiWilder_eq hperiod hlength, hscale, gains_mul ha.le, losses_mul ha.le,
      wilderAverage_mul hperiod, wilderAverage_mul hperiod, rsiOf_mul ha]

/-- Closes that only rise, mirrored at 10. -/
theorem rsi_mirror_law_rising : ∃ rsi mirrored, rsiWilder [1, 2, 4] 2 = some rsi ∧
    rsiWilder ([1, 2, 4].map (10 - ·)) 2 = some mirrored ∧ rsi + mirrored = 100 :=
  (rsi_mirror_law [1, 2, 4] 2 (by decide) (by decide)).1 10

end MarketSentinel
