import Mathlib
import MarketSentinel.Lib.Overlap
import MarketSentinel.MarketData.CashSession

/-!
# The cash-session overlap adds up

`cash_session_overlap_s` of two instants is the overlap of the interval between them with every session window of
the days that it touches. A window of any other day shares nothing with it, so both parts of an interval that is
cut may go over the days of the whole, and the overlap is additive window by window.

* `overlap_closed`: the loop over the days, as a sum over any range of days that has them all.
* `session_overlap_laws`: additivity, symmetry, the two bounds, the shift by a week, and the end of the loop.
-/

namespace MarketSentinel

open Lib

/-! ## One day -/

/-- The microseconds between two local times that are in the session of a day. -/
def dayOverlap (a b day : ℤ) : ℤ :=
  if weekday day < 5 then
    (cashWindows.map fun window => overlap a b (combine day window.1) (combine day window.2)).sum
  else 0

theorem windowOverlap_eq (start stop day : ℤ) (window : ℤ × ℤ) :
    windowOverlap start stop day window =
      (overlap start stop (combine day window.1) (combine day window.2) : ℤ) / 1000000 := by
  unfold windowOverlap overlap
  dsimp only
  split
  · next h => rw [max_eq_right (sub_nonneg.2 h.le)]
  · next h => rw [max_eq_left (sub_nonpos.2 (not_lt.1 h)), Int.cast_zero, zero_div]

theorem overlapDay_eq (start stop : ℤ) (total : ℚ) {day : ℤ} (hday : day ≠ maxDay) :
    overlapDay start stop total day = .ok (total + (dayOverlap start stop day : ℤ) / 1000000) := by
  unfold overlapDay dayOverlap
  dsimp only
  rw [if_neg hday]
  split
  · simp only [cashWindows, List.map_cons, List.map_nil, List.sum_cons, List.sum_nil, windowOverlap_eq]
    congr 2
    push_cast
    ring
  · rw [Int.cast_zero, zero_div, add_zero]

theorem dayOverlap_eq (a b day : ℤ) : dayOverlap a b day =
    if weekday day < 5 then
      overlap a b (day * 86400000000 + 34200000000) (day * 86400000000 + 41400000000) +
        overlap a b (day * 86400000000 + 46800000000) (day * 86400000000 + 54000000000)
    else 0 := by
  unfold dayOverlap
  simp [cashWindows, combine, dayMicroseconds]

theorem dayOverlap_nonneg (a b day : ℤ) : 0 ≤ dayOverlap a b day := by
  rw [dayOverlap_eq]
  split
  · exact add_nonneg (overlap_nonneg ..) (overlap_nonneg ..)
  · exact le_rfl

theorem dayOverlap_add {a b c : ℤ} (hab : a ≤ b) (hbc : b ≤ c) (day : ℤ) :
    dayOverlap a b day + dayOverlap b c day = dayOverlap a c day := by
  simp only [dayOverlap_eq]
  split
  · rw [← overlap_add hab hbc (l := day * 86400000000 + 34200000000) (by omega),
      ← overlap_add hab hbc (l := day * 86400000000 + 46800000000) (by omega)]
    ring
  · rfl

/-- A day that the interval does not touch. -/
theorem dayOverlap_outside {a b day : ℤ} (h : day < a / dayMicroseconds ∨ b / dayMicroseconds < day) :
    dayOverlap a b day = 0 := by
  unfold dayMicroseconds at h
  rw [dayOverlap_eq]
  split
  · rcases h with h | h
    · rw [overlap_of_ge (by omega), overlap_of_ge (by omega)]
      rfl
    · rw [overlap_of_le (by omega), overlap_of_le (by omega)]
      rfl
  · rfl

/-- A session is a part of its day. -/
theorem dayOverlap_le_day {a b : ℤ} (hab : a ≤ b) (day : ℤ) :
    dayOverlap a b day ≤ overlap a b (day * dayMicroseconds) ((day + 1) * dayMicroseconds) := by
  unfold dayMicroseconds
  have hhalves : overlap a b (day * (86400 * 1000000)) (day * 86400000000 + 41400000000) +
      overlap a b (day * 86400000000 + 41400000000) ((day + 1) * (86400 * 1000000)) =
        overlap a b (day * (86400 * 1000000)) ((day + 1) * (86400 * 1000000)) :=
    overlap_add_right hab (by omega) (by omega)
  -- The first window is before 11:30, the second after it.
  rw [dayOverlap_eq, ← hhalves]
  split
  · exact add_le_add (overlap_mono (by omega) le_rfl) (overlap_mono (by omega) (by omega))
  · exact add_nonneg (overlap_nonneg ..) (overlap_nonneg ..)

/-- A session lasts four hours, on a weekday. -/
theorem dayOverlap_le_hours (a b day : ℤ) :
    dayOverlap a b day ≤ if weekday day < 5 then 4 * 3600 * 1000000 else 0 := by
  rw [dayOverlap_eq]
  split
  · refine (add_le_add (overlap_le_right (by omega)) (overlap_le_right (by omega))).trans ?_
    omega
  · exact le_rfl

/-- A week later. -/
theorem dayOverlap_week (a b day k : ℤ) :
    dayOverlap (a + 7 * k * dayMicroseconds) (b + 7 * k * dayMicroseconds) (day + 7 * k) = dayOverlap a b day := by
  have hweekday : weekday (day + 7 * k) = weekday day := by
    unfold weekday
    omega
  have hshift : ∀ t, (day + 7 * k) * 86400000000 + t = day * 86400000000 + t + 7 * k * 86400000000 :=
    fun t => by ring
  unfold dayMicroseconds
  simp only [dayOverlap_eq, hweekday]
  split
  · rw [hshift, hshift, hshift, hshift]
    norm_num only [overlap_shift]
  · rfl

/-! ## The days of an interval -/

theorem sum_daysUpTo (f : ℤ → ℤ) (lo hi : ℤ) : ((daysUpTo lo hi).map f).sum = ∑ day ∈ Finset.Icc lo hi, f day := by
  have hdays : (daysUpTo lo hi).toFinset = Finset.Icc lo hi := by
    ext day
    rw [List.mem_toFinset, mem_daysUpTo, Finset.mem_Icc]
  have hnodup : (daysUpTo lo hi).Nodup := by
    unfold daysUpTo
    refine List.Nodup.map (fun i j hij => ?_) List.nodup_range
    omega
  rw [← hdays, List.sum_toFinset f hnodup]

/-- The microseconds of the session between two local times. -/
noncomputable def sessionOverlap (a b : ℤ) : ℤ :=
  ∑ day ∈ Finset.Icc (a / dayMicroseconds) (b / dayMicroseconds), dayOverlap a b day

/-- **More days** add nothing. -/
theorem sessionOverlap_eq {a b lo hi : ℤ} (hlo : lo ≤ a / dayMicroseconds) (hhi : b / dayMicroseconds ≤ hi) :
    sessionOverlap a b = ∑ day ∈ Finset.Icc lo hi, dayOverlap a b day := by
  refine Finset.sum_subset (Finset.Icc_subset_Icc hlo hhi) fun day _ hout => dayOverlap_outside ?_
  rw [Finset.mem_Icc] at hout
  omega

/-- **The overlap is additive** at any cut. -/
theorem sessionOverlap_add {a b c : ℤ} (hab : a ≤ b) (hbc : b ≤ c) :
    sessionOverlap a b + sessionOverlap b c = sessionOverlap a c := by
  have hday : a / dayMicroseconds ≤ b / dayMicroseconds := Int.ediv_le_ediv (by decide) hab
  have hday' : b / dayMicroseconds ≤ c / dayMicroseconds := Int.ediv_le_ediv (by decide) hbc
  rw [sessionOverlap_eq le_rfl hday', sessionOverlap_eq hday le_rfl, ← Finset.sum_add_distrib]
  exact Finset.sum_congr rfl fun day _ => dayOverlap_add hab hbc day

theorem sessionOverlap_nonneg (a b : ℤ) : 0 ≤ sessionOverlap a b :=
  Finset.sum_nonneg fun day _ => dayOverlap_nonneg a b day

/-- The days from one on, counted. -/
theorem sum_days (f : ℤ → ℤ) (lo hi : ℤ) :
    ∑ day ∈ Finset.Icc lo hi, f day = ∑ i ∈ Finset.range (hi + 1 - lo).toNat, f (lo + i) := by
  rw [← sum_daysUpTo]
  unfold daysUpTo
  rw [List.map_map]
  rfl

/-- **The session passes no faster than the clock.** -/
theorem sessionOverlap_le {a b : ℤ} (hab : a ≤ b) : sessionOverlap a b ≤ b - a := by
  have hmono : Monotone fun i : ℕ => (a / dayMicroseconds + i) * dayMicroseconds := by
    intro i j hij
    have hle : (i : ℤ) ≤ j := by exact_mod_cast hij
    unfold dayMicroseconds
    dsimp only
    omega
  -- Each session is a part of its day, and the days lie one after the other.
  calc sessionOverlap a b
      ≤ ∑ day ∈ Finset.Icc (a / dayMicroseconds) (b / dayMicroseconds),
          overlap a b (day * dayMicroseconds) ((day + 1) * dayMicroseconds) :=
        Finset.sum_le_sum fun day _ => dayOverlap_le_day hab day
    _ = overlap a b ((a / dayMicroseconds + (0 : ℕ)) * dayMicroseconds) _ := by
        rw [sum_days, ← sum_overlap hab hmono]
        refine Finset.sum_congr rfl fun i _ => ?_
        rw [Nat.cast_succ, add_assoc]
    _ ≤ b - a := overlap_le_left hab

/-- **Four hours at most** on each weekday. -/
theorem sessionOverlap_le_hours (a b : ℤ) :
    sessionOverlap a b ≤ 4 * 3600 * 1000000 *
      ((Finset.Icc (a / dayMicroseconds) (b / dayMicroseconds)).filter fun day => weekday day < 5).card := by
  calc sessionOverlap a b
      ≤ ∑ day ∈ Finset.Icc (a / dayMicroseconds) (b / dayMicroseconds),
          if weekday day < 5 then 4 * 3600 * 1000000 else 0 :=
        Finset.sum_le_sum fun day _ => dayOverlap_le_hours a b day
    _ = _ := by rw [← Finset.sum_filter, Finset.sum_const, nsmul_eq_mul, mul_comm]

theorem sessionOverlap_week (a b k : ℤ) :
    sessionOverlap (a + 7 * k * dayMicroseconds) (b + 7 * k * dayMicroseconds) = sessionOverlap a b := by
  unfold sessionOverlap
  rw [Int.add_mul_ediv_right _ _ (by decide), Int.add_mul_ediv_right _ _ (by decide), ← Finset.map_add_right_Icc,
    Finset.sum_map]
  exact Finset.sum_congr rfl fun day _ => dayOverlap_week a b day k

/-! ## Instants -/

/-- The time at UTC+8. -/
def localMicros (n : ℤ) : ℤ := n + 8 * 3600 * 1000000

/-- The timestamp of a whole number of microseconds. -/
def timestampOf (n : ℤ) : PyFloat := .finite (n / 1000000 : ℚ)

/-- A `datetime` has this time, and its date is not the last one. -/
def HasDate (n : ℤ) : Prop := minDay ≤ n / dayMicroseconds ∧ localMicros n / dayMicroseconds < maxDay

theorem roundHalfEven_intCast (n : ℤ) : roundHalfEven n = n := by
  unfold roundHalfEven
  dsimp only
  rw [Rat.floor_intCast, sub_self, if_pos (by norm_num)]

theorem fromTimestamp_eq {n : ℤ} (h : HasDate n) : fromTimestamp (n / 1000000 : ℚ) = .ok (localMicros n) := by
  have hmicros : microseconds (n / 1000000 : ℚ) = n := by
    unfold microseconds
    rw [div_mul_cancel₀ _ (by norm_num), roundHalfEven_intCast]
  have hsession : sessionId (n / 1000000 : ℚ) = .ok (localMicros n / dayMicroseconds) := by
    rw [sessionId_eq_ok_iff, hmicros]
    have hlast : (n + 8 * 3600 * 1000000) / dayMicroseconds < maxDay := h.2
    exact ⟨rfl, h.1, hlast.le⟩
  unfold fromTimestamp
  rw [hsession, hmicros]
  rfl

/-! ## The loop -/

theorem foldl_seconds (f : ℤ → ℤ) (days : List ℤ) (micros : ℤ) :
    days.foldl (fun (total : ℚ) day => total + (f day : ℤ) / 1000000) (micros / 1000000) =
      ((micros + (days.map f).sum : ℤ) : ℚ) / 1000000 := by
  induction days generalizing micros with
  | nil => simp
  | cons day days ih =>
    rw [List.foldl_cons, ← add_div, ← Int.cast_add, ih, List.map_cons, List.sum_cons, add_assoc]

/-- **The loop over the days** adds up their sessions. -/
theorem foldlM_overlapDay (a b : ℤ) {first last : ℤ} (hlast : last < maxDay) :
    (daysUpTo first last).foldlM (overlapDay a b) 0 =
      .ok (((∑ day ∈ Finset.Icc first last, dayOverlap a b day : ℤ) : ℚ) / 1000000) := by
  have hadd : ∀ total : ℚ, ∀ day ∈ daysUpTo first last,
      overlapDay a b total day = .ok (total + (dayOverlap a b day : ℤ) / 1000000) := by
    intro total day hday
    have hle := (mem_daysUpTo.1 hday).2
    exact overlapDay_eq a b total (by omega)
  have hsum := foldl_seconds (dayOverlap a b) (daysUpTo first last) 0
  rw [Int.cast_zero, zero_div, zero_add, sum_daysUpTo] at hsum
  rw [foldlM_eq_foldl hadd, hsum]

/-- `while day <= last`, as long as there is fuel. -/
def overlapLoop (start stop last : ℤ) : ℕ → ℚ → ℤ → Option (Except PyError ℚ)
  | 0, _, _ => none
  | fuel + 1, total, day =>
    if day ≤ last then
      match overlapDay start stop total day with
      | .error err => some (.error err)
      | .ok total => overlapLoop start stop last fuel total (day + 1)
    else some (.ok total)

theorem daysUpTo_cons {day last : ℤ} (h : day ≤ last) : daysUpTo day last = day :: daysUpTo (day + 1) last := by
  unfold daysUpTo
  have hcount : (last + 1 - day).toNat = (last + 1 - (day + 1)).toNat + 1 := by omega
  rw [hcount, List.range_succ_eq_map, List.map_cons, List.map_map]
  congr 1
  · simp
  · refine List.map_congr_left fun i _ => ?_
    simp only [Function.comp_apply]
    push_cast
    ring

/-- **The loop ends**, with what the days add up to. -/
theorem overlapLoop_eq (start stop : ℤ) {last day : ℤ} {fuel : ℕ} (hfuel : (last + 1 - day).toNat < fuel)
    (total : ℚ) :
    overlapLoop start stop last fuel total day = some ((daysUpTo day last).foldlM (overlapDay start stop) total) := by
  induction fuel generalizing day total with
  | zero => exact absurd hfuel (Nat.not_lt_zero _)
  | succ fuel ih =>
    unfold overlapLoop
    by_cases h : day ≤ last
    · rw [if_pos h, daysUpTo_cons h, List.foldlM_cons]
      cases overlapDay start stop total day with
      | error err => rfl
      | ok total =>
        rw [ok_bind]
        exact ih (by omega) total
    · have hnone : daysUpTo day last = [] := by
        unfold daysUpTo
        rw [Int.toNat_eq_zero.2 (by omega)]
        rfl
      rw [if_neg h, hnone]
      rfl

/-! ## The whole function -/

theorem cashSessionOverlapS_comm (x y : PyFloat) : cashSessionOverlapS x y = cashSessionOverlapS y x := by
  cases x <;> cases y <;> try rfl
  next p q =>
    unfold cashSessionOverlapS
    rcases lt_trichotomy p q with hlt | rfl | hlt
    · simp only [if_neg hlt.not_gt, if_pos hlt]
    · rfl
    · simp only [if_neg hlt.not_gt, if_pos hlt]

/-- **The overlap of two times in order.** -/
theorem overlap_closed {a b : ℤ} (hab : a ≤ b) (ha : HasDate a) (hb : HasDate b) :
    cashSessionOverlapS (timestampOf a) (timestampOf b) =
      .ok ((sessionOverlap (localMicros a) (localMicros b) : ℤ) / 1000000) := by
  have horder : (a / 1000000 : ℚ) ≤ b / 1000000 := by
    gcongr
  unfold cashSessionOverlapS timestampOf overlapBetween
  dsimp only
  rw [if_neg (not_lt.2 horder)]
  split
  · next heq =>
    have hsame : a = b := by
      field_simp at heq
      exact_mod_cast heq
    have hzero := sessionOverlap_le (le_refl (localMicros b))
    have hnonneg := sessionOverlap_nonneg (localMicros b) (localMicros b)
    rw [hsame, show sessionOverlap (localMicros b) (localMicros b) = 0 by omega, Int.cast_zero, zero_div]
    rfl
  · rw [fromTimestamp_eq ha, fromTimestamp_eq hb, ok_bind, ok_bind, foldlM_overlapDay _ _ hb.2]
    rfl

/-- A whole number of microseconds since the epoch, with a date of the years 2 to 9998 at UTC+8. -/
structure Instant where
  micros : ℤ
  notBefore : -718797 ≤ localMicros micros / dayMicroseconds
  notAfter : localMicros micros / dayMicroseconds ≤ 2932531

example : isoformat (-718797) = "0002-01-01" ∧ isoformat 2932531 = "9998-12-31" := by decide

namespace Instant

variable (a b c : Instant)

def ts : PyFloat := timestampOf a.micros

def date : ℤ := localMicros a.micros / dayMicroseconds

/-- An instant moved by less than a month has a date. -/
theorem dated_add {d : ℤ} (h : -30 * dayMicroseconds < d) (h' : d < 30 * dayMicroseconds) : HasDate (a.micros + d) := by
  have hbefore := a.notBefore
  have hafter := a.notAfter
  unfold HasDate localMicros minDay maxDay dayMicroseconds at *
  omega

theorem dated : HasDate a.micros := by
  have h := a.dated_add (d := 0) (by decide) (by decide)
  rwa [add_zero] at h

/-- **The laws of the overlap**: it is additive and symmetric, it is at most the time that passes and four hours
for each weekday, it does not change when both instants move by a week, and the loop over the days ends. -/
theorem session_overlap_laws (hab : a.micros ≤ b.micros) (hbc : b.micros ≤ c.micros) :
    ∃ ab bc ac : ℚ,
      cashSessionOverlapS a.ts b.ts = .ok ab ∧ cashSessionOverlapS b.ts c.ts = .ok bc ∧
      cashSessionOverlapS a.ts c.ts = .ok ac ∧ ab + bc = ac ∧ cashSessionOverlapS c.ts a.ts = .ok ac ∧
      ac ≤ ((c.micros - a.micros : ℤ) : ℚ) / 1000000 ∧
      ac ≤ 4 * 3600 * ((Finset.Icc a.date c.date).filter fun day => weekday day < 5).card ∧
      (∀ k : ℤ, k = 1 ∨ k = -1 →
        cashSessionOverlapS (timestampOf (a.micros + 7 * k * dayMicroseconds))
          (timestampOf (c.micros + 7 * k * dayMicroseconds)) = .ok ac) ∧
      ∀ fuel, (c.date + 1 - a.date).toNat < fuel →
        overlapLoop (localMicros a.micros) (localMicros c.micros) c.date fuel 0 a.date = some (.ok ac) := by
  have hac := hab.trans hbc
  have hlocal : ∀ {m n : ℤ}, m ≤ n → localMicros m ≤ localMicros n := fun h => Int.add_le_add_right h _
  have hclosed := overlap_closed hac a.dated c.dated
  refine ⟨_, _, _, overlap_closed hab a.dated b.dated, overlap_closed hbc b.dated c.dated, hclosed, ?_, ?_, ?_, ?_,
    ?_, ?_⟩
  · rw [← add_div, ← Int.cast_add, sessionOverlap_add (hlocal hab) (hlocal hbc)]
  · exact (cashSessionOverlapS_comm _ _).trans hclosed
  · have hle := sessionOverlap_le (hlocal hac)
    have hdiff : localMicros c.micros - localMicros a.micros = c.micros - a.micros := add_sub_add_right_eq_sub _ _ _
    rw [hdiff] at hle
    gcongr
  · have hle := Int.cast_le (R := ℚ).2 (sessionOverlap_le_hours (localMicros a.micros) (localMicros c.micros))
    rw [div_le_iff₀ (by norm_num)]
    refine hle.trans_eq ?_
    unfold date
    push_cast
    ring
  · rintro k hk
    -- The dates are so far from the ends of the calendar that a week stays inside.
    have hweek : -30 * dayMicroseconds < 7 * k * dayMicroseconds ∧
        7 * k * dayMicroseconds < 30 * dayMicroseconds := by
      rcases hk with rfl | rfl <;> decide
    have hshift : ∀ n, localMicros (n + 7 * k * dayMicroseconds) = localMicros n + 7 * k * dayMicroseconds :=
      fun n => add_right_comm _ _ _
    rw [overlap_closed (Int.add_le_add_right hac _) (a.dated_add hweek.1 hweek.2) (c.dated_add hweek.1 hweek.2),
      hshift, hshift, sessionOverlap_week]
  · intro fuel hfuel
    rw [overlapLoop_eq _ _ hfuel]
    exact congrArg some (foldlM_overlapDay _ _ c.dated.2)

/-- Before the session of a Thursday. -/
def thursdayOpen : Instant := ⟨3600000000, by decide, by decide⟩

/-- An hour into it. -/
def thursdayMorning : Instant := ⟨9000000000, by decide, by decide⟩

/-- An hour into the afternoon of the next day. -/
def fridayAfternoon : Instant := ⟨108000000000, by decide, by decide⟩

/-- An hour and six hours, over a lunch and a night. -/
theorem session_overlap_laws_overnight :
    cashSessionOverlapS thursdayOpen.ts thursdayMorning.ts = .ok 3600 ∧
      cashSessionOverlapS thursdayMorning.ts fridayAfternoon.ts = .ok 21600 ∧
      cashSessionOverlapS fridayAfternoon.ts thursdayOpen.ts = .ok 25200 := by
  have hmorning : cashSessionOverlapS thursdayOpen.ts thursdayMorning.ts = .ok 3600 := by decide +kernel
  have hrest : cashSessionOverlapS thursdayMorning.ts fridayAfternoon.ts = .ok 21600 := by decide +kernel
  obtain ⟨ab, bc, ac, hab, hbc, -, hadd, hcomm, -⟩ :=
    session_overlap_laws thursdayOpen thursdayMorning fridayAfternoon (by decide) (by decide)
  obtain rfl := Except.ok.inj (hab.symm.trans hmorning)
  obtain rfl := Except.ok.inj (hbc.symm.trans hrest)
  obtain rfl : (25200 : ℚ) = ac := by
    rw [← hadd]
    norm_num
  exact ⟨hmorning, hrest, hcomm⟩

end Instant

end MarketSentinel
