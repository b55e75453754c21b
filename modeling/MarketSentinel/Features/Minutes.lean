import Mathlib.Data.List.Chain
import Mathlib.Data.List.MinMax
import MarketSentinel.Features.Bars
import MarketSentinel.Lib.Best
import MarketSentinel.Lib.OrderFree

/-!
# The bars by their minutes

`completed_minute_bars` sorts the quotes into minutes and carries the last volumes from one bar to the next. Each
bar depends on two minutes only, its own and the one before (`minuteBar`).

* `completedMinuteBars_eq`: the bars are the bars of the completed minutes, in order.
* `bars_do_not_repaint`: later quotes only add bars.
* `bar_volumes_telescope`: the volumes of contiguous bars add up to the change of the cumulative volume.
-/

namespace MarketSentinel

open Lib

/-- `a` is not later than `b`. -/
abbrev NotLater (a b : MarketSnapshot) : Prop := a.marketTimestamp ≤ b.marketTimestamp

/-- The quotes of the minute that starts at `start`, in order of time. -/
def minuteQuotes (snapshots : List MarketSnapshot) (barSeconds start : ℚ) : List MarketSnapshot :=
  (snapshots.filter fun q => barStart barSeconds q.marketTimestamp = start).insertionSort NotLater

/-- The bar of the quotes of a minute, with the last quote of the minute before. -/
def barOf (barSeconds start : ℚ) (previous : Option MarketSnapshot) (first : MarketSnapshot)
    (rest : List MarketSnapshot) : MarketBar :=
  let last := (first :: rest).getLast (List.cons_ne_nil _ _)
  { symbol := last.symbol
    startTimestamp := start
    endTimestamp := start + barSeconds
    openPrice := first.price
    high := rest.foldl (fun m x => max m x.price) first.price
    low := rest.foldl (fun m x => min m x.price) first.price
    close := last.price
    volume := intervalDelta (some last.volume) (previous.map (·.volume)) true
    turnover := intervalDelta last.turnover (previous.bind (·.turnover)) true }

/-- The bar of a minute that has quotes. -/
def minuteBar (snapshots : List MarketSnapshot) (barSeconds start : ℚ) : Option MarketBar :=
  match minuteQuotes snapshots barSeconds start with
  | [] => none
  | first :: rest =>
    some (barOf barSeconds start (minuteQuotes snapshots barSeconds (start - barSeconds)).getLast? first rest)

/-- The minutes with quotes before the one of `latestTs`, in order. -/
def completedStarts (snapshots : List MarketSnapshot) (latestTs barSeconds : ℚ) : List ℚ :=
  ((snapshots.map fun q => barStart barSeconds q.marketTimestamp).filter
    (· < barStart barSeconds latestTs)).dedup.insertionSort (· ≤ ·)

/-- The bars of the completed minutes. -/
def barsOf (snapshots : List MarketSnapshot) (latestTs barSeconds : ℚ) : List MarketBar :=
  (completedStarts snapshots latestTs barSeconds).filterMap (minuteBar snapshots barSeconds)

section Bars

variable {snapshots : List MarketSnapshot} {latestTs barSeconds start : ℚ} {bar : MarketBar}

/-! ## Minutes -/

theorem minuteBar_eq {first : MarketSnapshot} {rest : List MarketSnapshot}
    (h : minuteQuotes snapshots barSeconds start = first :: rest) :
    minuteBar snapshots barSeconds start =
      some (barOf barSeconds start (minuteQuotes snapshots barSeconds (start - barSeconds)).getLast? first rest) := by
  unfold minuteBar
  rw [h]

theorem mem_minuteQuotes {q : MarketSnapshot} : q ∈ minuteQuotes snapshots barSeconds start ↔
    q ∈ snapshots ∧ barStart barSeconds q.marketTimestamp = start := by
  unfold minuteQuotes
  rw [List.mem_insertionSort, List.mem_filter, decide_eq_true_eq]

theorem mem_completedStarts : start ∈ completedStarts snapshots latestTs barSeconds ↔
    minuteQuotes snapshots barSeconds start ≠ [] ∧ start < barStart barSeconds latestTs := by
  unfold completedStarts
  rw [List.mem_insertionSort, List.mem_dedup, List.mem_filter, List.mem_map, decide_eq_true_eq]
  refine and_congr_left fun _ => ⟨fun ⟨q, hq, hstart⟩ => ?_, fun hne => ?_⟩
  · exact List.ne_nil_of_mem (mem_minuteQuotes.2 ⟨hq, hstart⟩)
  · obtain ⟨q, hq⟩ := List.exists_mem_of_ne_nil _ hne
    exact ⟨q, mem_minuteQuotes.1 hq⟩

theorem completedStarts_sorted : (completedStarts snapshots latestTs barSeconds).Pairwise (· < ·) := by
  have hsorted : (completedStarts snapshots latestTs barSeconds).Pairwise (· ≤ ·) := List.pairwise_insertionSort _ _
  have hnodup : (completedStarts snapshots latestTs barSeconds).Nodup :=
    (List.perm_insertionSort _ _).nodup_iff.2 (List.nodup_dedup _)
  exact (hsorted.and hnodup).imp fun h => lt_of_le_of_ne h.1 h.2

/-- A minute that is later than another starts no earlier than the other ends. -/
theorem barStart_next (hbar : 0 < barSeconds) {ts ts' : ℚ} (h : barStart barSeconds ts < barStart barSeconds ts') :
    barStart barSeconds ts + barSeconds ≤ barStart barSeconds ts' := by
  unfold barStart at h ⊢
  have hfloor : ⌊ts / barSeconds⌋ < ⌊ts' / barSeconds⌋ := by
    have hcast := lt_of_mul_lt_mul_right h hbar.le
    exact_mod_cast hcast
  have hsucc : ((⌊ts / barSeconds⌋ : ℚ) + 1) ≤ ⌊ts' / barSeconds⌋ := by exact_mod_cast hfloor
  calc (⌊ts / barSeconds⌋ : ℚ) * barSeconds + barSeconds = (⌊ts / barSeconds⌋ + 1) * barSeconds := by ring
    _ ≤ ⌊ts' / barSeconds⌋ * barSeconds := mul_le_mul_of_nonneg_right hsucc hbar.le

theorem barStart_le (hbar : 0 < barSeconds) (ts : ℚ) : barStart barSeconds ts ≤ ts := by
  unfold barStart
  rw [← le_div_iff₀ hbar]
  exact Int.floor_le _

theorem barStart_mono (hbar : 0 < barSeconds) {ts ts' : ℚ} (h : ts ≤ ts') :
    barStart barSeconds ts ≤ barStart barSeconds ts' := by
  unfold barStart
  have hfloor : ⌊ts / barSeconds⌋ ≤ ⌊ts' / barSeconds⌋ := Int.floor_le_floor (div_le_div_of_nonneg_right h hbar.le)
  exact mul_le_mul_of_nonneg_right (by exact_mod_cast hfloor) hbar.le

/-! ## Buckets -/

/-- The minute of a quote, when it is completed. -/
def bucketKey (latestTs barSeconds : ℚ) (q : MarketSnapshot) : Option ℚ :=
  if barStart barSeconds latestTs ≤ barStart barSeconds q.marketTimestamp then none
  else some (barStart barSeconds q.marketTimestamp)

/-- All quotes are of the session of the time. -/
def SameSession (snapshots : List MarketSnapshot) (latestTs : ℚ) : Prop :=
  ∀ q ∈ snapshots, isSameSession q.marketTimestamp latestTs = .ok true

instance (snapshots : List MarketSnapshot) (latestTs : ℚ) : Decidable (SameSession snapshots latestTs) :=
  inferInstanceAs (Decidable (∀ q ∈ snapshots, _))

theorem buckets_eq (hsession : SameSession snapshots latestTs) :
    snapshots.foldlM (bucketStep latestTs barSeconds) Dict.empty =
      .ok (groupBy (bucketKey latestTs barSeconds) snapshots) := by
  unfold groupBy
  refine foldlM_eq_foldl fun buckets q hq => ?_
  unfold bucketStep bucketKey
  rw [hsession q hq, ok_bind, if_neg (by decide)]
  dsimp only
  split <;> rfl

theorem bucketKey_eq_some {q : MarketSnapshot} : bucketKey latestTs barSeconds q = some start ↔
    barStart barSeconds q.marketTimestamp = start ∧ start < barStart barSeconds latestTs := by
  unfold bucketKey
  split
  · next hle =>
    refine iff_of_false nofun ?_
    rintro ⟨rfl, hlt⟩
    exact absurd hle (not_le.2 hlt)
  · next hlt =>
    rw [Option.some.injEq]
    constructor
    · rintro rfl
      exact ⟨rfl, not_le.1 hlt⟩
    · exact And.left

/-- The group of a completed minute is its quotes. -/
theorem bucket_sorted (h : start ∈ completedStarts snapshots latestTs barSeconds) :
    ((groupBy (bucketKey latestTs barSeconds) snapshots).getD start []).insertionSort NotLater =
      minuteQuotes snapshots barSeconds start := by
  rw [getD_groupBy]
  unfold minuteQuotes
  congr 1
  refine List.filter_congr fun q _ => ?_
  rw [decide_eq_decide, bucketKey_eq_some, and_iff_left (mem_completedStarts.1 h).2]

/-- The buckets in order of their minutes. -/
theorem buckets_sorted :
    (groupBy (bucketKey latestTs barSeconds) snapshots).entries.insertionSort (fun a b => a.1 ≤ b.1) =
    (completedStarts snapshots latestTs barSeconds).map fun start =>
      (start, (groupBy (bucketKey latestTs barSeconds) snapshots).getD start []) := by
  set d := groupBy (bucketKey latestTs barSeconds) snapshots
  have hkeys : d.keys.insertionSort (· ≤ ·) = completedStarts snapshots latestTs barSeconds := by
    unfold completedStarts
    refine insertionSort_eq ((List.perm_ext_iff_of_nodup d.nodup (List.nodup_dedup _)).2 fun k => ?_)
    show k ∈ d.keys ↔ _
    rw [mem_keys_groupBy, List.mem_dedup, List.mem_filter, List.mem_map, decide_eq_true_eq]
    simp only [bucketKey_eq_some]
    exact ⟨fun ⟨q, hq, hk, hlt⟩ => ⟨⟨q, hq, hk⟩, hlt⟩, fun ⟨⟨q, hq, hk⟩, hlt⟩ => ⟨q, hq, hk, hlt⟩⟩
  rw [Dict.entries_eq_getD d [], ← hkeys]
  exact (List.map_insertionSort (· ≤ ·) _ (fun k => (k, d.getD k [])) d.keys fun _ _ _ _ => Iff.rfl).symm

/-! ## The loop over the minutes -/

theorem intervalDelta_apart (current previous : Option ℚ) : intervalDelta current previous false = none := rfl

theorem intervalDelta_first (current : Option ℚ) (contiguous : Bool) :
    intervalDelta current none contiguous = none := by
  cases contiguous <;> cases current <;> rfl

/-- What the loop carries after these minutes. -/
def stateAfter (snapshots : List MarketSnapshot) (barSeconds : ℚ) (starts : List ℚ) : BarState where
  bars := starts.filterMap (minuteBar snapshots barSeconds)
  prevEnd := starts.getLast?.map (· + barSeconds)
  lastVolume := starts.getLast?.bind fun start => (minuteQuotes snapshots barSeconds start).getLast?.map (·.volume)
  lastTurnover := starts.getLast?.bind fun start => (minuteQuotes snapshots barSeconds start).getLast?.bind (·.turnover)

/-- The minute before a completed one is the one that the loop comes from, or it has no quotes. -/
theorem previous_minute (hbar : 0 < barSeconds) {pre post : List ℚ}
    (h : completedStarts snapshots latestTs barSeconds = pre ++ start :: post) :
    (pre.getLast? = some (start - barSeconds) ∧ minuteQuotes snapshots barSeconds (start - barSeconds) ≠ []) ∨
      (pre.getLast? ≠ some (start - barSeconds) ∧ minuteQuotes snapshots barSeconds (start - barSeconds) = []) := by
  have hsorted := @completedStarts_sorted snapshots latestTs barSeconds
  have hown : start ∈ completedStarts snapshots latestTs barSeconds := h ▸ by simp
  have hmem : ∀ k ∈ pre, k ∈ completedStarts snapshots latestTs barSeconds :=
    fun k hk => h ▸ List.mem_append_left _ hk
  rw [h, List.pairwise_append] at hsorted
  by_cases hquotes : minuteQuotes snapshots barSeconds (start - barSeconds) = []
  · refine .inr ⟨fun hlast => ?_, hquotes⟩
    exact (mem_completedStarts.1 (hmem _ (List.mem_of_getLast? hlast))).1 hquotes
  · refine .inl ⟨?_, hquotes⟩
    have hbefore : start - barSeconds ∈ completedStarts snapshots latestTs barSeconds :=
      mem_completedStarts.2 ⟨hquotes, by linarith [(mem_completedStarts.1 hown).2]⟩
    -- It is not the minute itself and not after it, so it is among those before.
    have hpre : start - barSeconds ∈ pre := by
      rw [h, List.mem_append, List.mem_cons] at hbefore
      rcases hbefore with hpre | hself | hpost
      · exact hpre
      · linarith
      · have hlt := (List.pairwise_cons.1 hsorted.2.1).1 _ hpost
        linarith
    cases hlast : pre.getLast? with
    | none =>
      rw [List.getLast?_eq_none_iff.1 hlast] at hpre
      cases hpre
    | some last =>
      obtain ⟨init, rfl⟩ := List.getLast?_eq_some_iff.1 hlast
      have hlt : last < start := hsorted.2.2 last (by simp) start List.mem_cons_self
      rcases List.mem_append.1 hpre with hinit | hsame
      · -- A minute between the two would have to start in between.
        have hbetween : start - barSeconds < last :=
          (List.pairwise_append.1 hsorted.1).2.2 _ hinit last List.mem_cons_self
        obtain ⟨q, hq⟩ := List.exists_mem_of_ne_nil _ (mem_completedStarts.1 (hmem last (by simp))).1
        obtain ⟨q', hq'⟩ := List.exists_mem_of_ne_nil _ (mem_completedStarts.1 hown).1
        have hstart := (mem_minuteQuotes.1 hq).2
        have hstart' := (mem_minuteQuotes.1 hq').2
        rw [← hstart, ← hstart'] at hlt
        have hnext := barStart_next hbar hlt
        rw [hstart, hstart'] at hnext
        linarith
      · rw [List.mem_singleton.1 hsame]

theorem barStep_stateAfter (hbar : 0 < barSeconds) {pre post : List ℚ}
    (h : completedStarts snapshots latestTs barSeconds = pre ++ start :: post) :
    barStep barSeconds (stateAfter snapshots barSeconds pre)
        (start, (groupBy (bucketKey latestTs barSeconds) snapshots).getD start []) =
      stateAfter snapshots barSeconds (pre ++ [start]) := by
  have hown : start ∈ completedStarts snapshots latestTs barSeconds := h ▸ by simp
  have hprevious := previous_minute hbar h
  have hgroup := bucket_sorted hown
  have hne := (mem_completedStarts.1 hown).1
  have hend : (pre.getLast?.map (· + barSeconds) = some start) ↔ pre.getLast? = some (start - barSeconds) := by
    cases pre.getLast? with
    | none => exact iff_of_false nofun nofun
    | some last =>
      rw [Option.map_some, Option.some.injEq, Option.some.injEq]
      exact ⟨fun he => by linarith, fun he => by linarith⟩
  cases hquotes : minuteQuotes snapshots barSeconds start with
  | nil => exact absurd hquotes hne
  | cons first rest =>
    rw [hquotes] at hgroup
    -- What the loop remembers is of the minute before, or it is not used.
    have hdelta : ∀ (f : Option MarketSnapshot → Option ℚ) (current : Option ℚ), f none = none →
        intervalDelta current
            (pre.getLast?.bind fun start => f (minuteQuotes snapshots barSeconds start).getLast?)
            (decide (pre.getLast?.map (· + barSeconds) = some start)) =
          intervalDelta current (f (minuteQuotes snapshots barSeconds (start - barSeconds)).getLast?) true := by
      intro f current hf
      rcases hprevious with ⟨hpre, -⟩ | ⟨hpre, hnone⟩
      · rw [decide_eq_true (hend.2 hpre), hpre]
        rfl
      · rw [decide_eq_false (hend.not.2 hpre), hnone, intervalDelta_apart, List.getLast?_nil, hf, intervalDelta_first]
    have hvolume := fun current => hdelta (Option.map (·.volume)) current rfl
    have hturnover := fun current => hdelta (Option.bind · (·.turnover)) current rfl
    unfold barStep stateAfter
    dsimp only
    rw [hgroup]
    dsimp only
    rw [List.filterMap_append, List.filterMap_cons_some (minuteBar_eq hquotes), List.filterMap_nil,
      List.getLast?_concat, Option.map_some, Option.bind_some, Option.bind_some, hquotes,
      List.getLast?_eq_some_getLast (List.cons_ne_nil _ _), hvolume, hturnover]
    rfl

/-- The loop over the first minutes. -/
theorem loop_stateAfter (hbar : 0 < barSeconds) : ∀ {pre post : List ℚ},
    completedStarts snapshots latestTs barSeconds = pre ++ post →
      (pre.map fun start => (start, (groupBy (bucketKey latestTs barSeconds) snapshots).getD start [])).foldl
        (barStep barSeconds) {} = stateAfter snapshots barSeconds pre := by
  intro pre
  induction pre using List.reverseRecOn with
  | nil => exact fun _ => rfl
  | append_singleton pre start ih =>
    intro post h
    rw [List.append_assoc] at h
    rw [List.map_append, List.foldl_append, ih h]
    exact barStep_stateAfter hbar h

/-- **The bars are the bars of the completed minutes**, in order. -/
theorem completedMinuteBars_eq (hbar : 0 < barSeconds) (hsession : SameSession snapshots latestTs) :
    completedMinuteBars snapshots latestTs barSeconds = .ok (barsOf snapshots latestTs barSeconds) := by
  unfold completedMinuteBars
  split
  · next hnone =>
    obtain rfl := hnone.resolve_right (not_le.2 hbar)
    rfl
  · rw [buckets_eq hsession, ok_bind, buckets_sorted, loop_stateAfter hbar (List.append_nil _).symm]
    rfl

/-! ## Single bars -/

theorem mem_bars : bar ∈ barsOf snapshots latestTs barSeconds ↔
    ∃ start ∈ completedStarts snapshots latestTs barSeconds, ∃ first rest,
      minuteQuotes snapshots barSeconds start = first :: rest ∧
      bar = barOf barSeconds start (minuteQuotes snapshots barSeconds (start - barSeconds)).getLast? first rest := by
  unfold barsOf
  rw [List.mem_filterMap]
  refine exists_congr fun start => and_congr_right fun hstart => ?_
  cases hquotes : minuteQuotes snapshots barSeconds start with
  | nil => exact absurd hquotes (mem_completedStarts.1 hstart).1
  | cons first rest =>
    rw [minuteBar_eq hquotes, Option.some.injEq]
    constructor
    · rintro rfl
      exact ⟨first, rest, rfl, rfl⟩
    · rintro ⟨first', rest', hcons, rfl⟩
      cases hcons
      rfl

theorem barOf_prices (previous : Option MarketSnapshot) (first : MarketSnapshot) (rest : List MarketSnapshot) :
    (barOf barSeconds start previous first rest).low ≤ (barOf barSeconds start previous first rest).openPrice ∧
    (barOf barSeconds start previous first rest).low ≤ (barOf barSeconds start previous first rest).close ∧
    (barOf barSeconds start previous first rest).openPrice ≤ (barOf barSeconds start previous first rest).high ∧
    (barOf barSeconds start previous first rest).close ≤ (barOf barSeconds start previous first rest).high := by
  obtain ⟨hopen, hrest⟩ := @foldl_best _ _ (· ≤ ·) max le_refl (fun _ _ _ => le_trans) le_max_left le_max_right
    MarketSnapshot.price rest first.price
  obtain ⟨hopen', hrest'⟩ := @foldl_best _ _ (· ≥ ·) min le_refl (fun _ _ _ => ge_trans) min_le_left min_le_right
    MarketSnapshot.price rest first.price
  rcases List.mem_cons.1 (List.getLast_mem (List.cons_ne_nil first rest)) with hlast | hlast
  · have hclose : (barOf barSeconds start previous first rest).close = first.price :=
      congrArg MarketSnapshot.price hlast
    rw [hclose]
    exact ⟨hopen', hopen', hopen, hopen⟩
  · exact ⟨hopen', hrest' _ hlast, hopen, hrest _ hlast⟩

/-- Bars in order, each inside its range and none after the latest quote. -/
structure WellFormed (bars : List MarketBar) (latestTs : ℚ) : Prop where
  starts : bars.Pairwise fun bar bar' => bar.startTimestamp < bar'.startTimestamp
  ends : ∀ bar ∈ bars, bar.endTimestamp ≤ latestTs
  low : ∀ bar ∈ bars, bar.low ≤ bar.openPrice ∧ bar.low ≤ bar.close
  high : ∀ bar ∈ bars, bar.openPrice ≤ bar.high ∧ bar.close ≤ bar.high

theorem wellFormed_bars (hbar : 0 < barSeconds) :
    WellFormed (barsOf snapshots latestTs barSeconds) latestTs := by
  refine ⟨?_, fun bar hmem => ?_, fun bar hmem => ?_, fun bar hmem => ?_⟩
  · unfold barsOf
    refine List.pairwise_filterMap.2 (completedStarts_sorted.imp fun hlt bar hbar bar' hbar' => ?_)
    have hstart : ∀ {start bar}, minuteBar snapshots barSeconds start = some bar → bar.startTimestamp = start := by
      intro start bar h
      unfold minuteBar at h
      split at h
      · cases h
      · cases h
        rfl
    rw [hstart hbar, hstart hbar']
    exact hlt
  · obtain ⟨start, hstart, first, rest, hquotes, rfl⟩ := mem_bars.1 hmem
    have hfirst : barStart barSeconds first.marketTimestamp = start :=
      (mem_minuteQuotes.1 (hquotes ▸ List.mem_cons_self)).2
    have hforming := (mem_completedStarts.1 hstart).2
    rw [← hfirst] at hforming
    -- The bar that is forming starts no later than the latest quote.
    have hnext := barStart_next hbar hforming
    have hle := barStart_le hbar latestTs
    rw [hfirst] at hnext
    exact hnext.trans hle
  · obtain ⟨start, -, first, rest, -, rfl⟩ := mem_bars.1 hmem
    obtain ⟨hopen, hclose, -, -⟩ := @barOf_prices barSeconds start
      (minuteQuotes snapshots barSeconds (start - barSeconds)).getLast? first rest
    exact ⟨hopen, hclose⟩
  · obtain ⟨start, -, first, rest, -, rfl⟩ := mem_bars.1 hmem
    obtain ⟨-, -, hopen, hclose⟩ := @barOf_prices barSeconds start
      (minuteQuotes snapshots barSeconds (start - barSeconds)).getLast? first rest
    exact ⟨hopen, hclose⟩

/-! ## Order and extension -/

/-- No two quotes have one time. -/
def DistinctTimes (snapshots : List MarketSnapshot) : Prop := (snapshots.map (·.marketTimestamp)).Nodup

instance (snapshots : List MarketSnapshot) : Decidable (DistinctTimes snapshots) :=
  inferInstanceAs (Decidable (List.Nodup _))

variable {snapshots' later : List MarketSnapshot} {latestTs' : ℚ}

theorem minuteQuotes_perm (hdistinct : DistinctTimes snapshots) (h : snapshots'.Perm snapshots) (start : ℚ) :
    minuteQuotes snapshots' barSeconds start = minuteQuotes snapshots barSeconds start := by
  unfold minuteQuotes
  have hperm := h.filter fun q => decide (barStart barSeconds q.marketTimestamp = start)
  refine List.Perm.eq_of_pairwise (fun a b ha hb hab hba => ?_) (List.pairwise_insertionSort _ _)
    (List.pairwise_insertionSort _ _)
    ((List.perm_insertionSort _ _).trans (hperm.trans (List.perm_insertionSort _ _).symm))
  rw [List.mem_insertionSort, List.mem_filter] at ha hb
  exact List.inj_on_of_nodup_map hdistinct (h.mem_iff.1 ha.1) hb.1 (le_antisymm hab hba)

/-- **Any order of the quotes gives the same bars.** -/
theorem completedMinuteBars_perm (hbar : 0 < barSeconds) (hdistinct : DistinctTimes snapshots)
    (hsession : SameSession snapshots latestTs) (h : snapshots'.Perm snapshots) :
    completedMinuteBars snapshots' latestTs barSeconds = completedMinuteBars snapshots latestTs barSeconds := by
  have hstarts : completedStarts snapshots' latestTs barSeconds = completedStarts snapshots latestTs barSeconds :=
    insertionSort_eq ((h.map _).filter _).dedup
  have hquotes : minuteQuotes snapshots' barSeconds = minuteQuotes snapshots barSeconds :=
    funext fun start => minuteQuotes_perm hdistinct h start
  have hbars : minuteBar snapshots' barSeconds = minuteBar snapshots barSeconds := by
    funext start
    unfold minuteBar
    rw [hquotes]
  rw [completedMinuteBars_eq hbar hsession, completedMinuteBars_eq hbar fun q hq => hsession q (h.mem_iff.1 hq)]
  unfold barsOf
  rw [hstarts, hbars]

/-- A completed minute gets no later quote. -/
theorem minuteQuotes_later (hbar : 0 < barSeconds) (hlater : ∀ q ∈ later, latestTs < q.marketTimestamp)
    (hstart : start < barStart barSeconds latestTs) :
    minuteQuotes (snapshots ++ later) barSeconds start = minuteQuotes snapshots barSeconds start := by
  have hnone : later.filter (fun q => decide (barStart barSeconds q.marketTimestamp = start)) = [] := by
    refine List.filter_eq_nil_iff.2 fun q hq => ?_
    have hmono := barStart_mono hbar (hlater q hq).le
    rw [decide_eq_true_eq]
    intro heq
    linarith
  unfold minuteQuotes
  rw [List.filter_append, hnone, List.append_nil]

theorem completedStarts_later (hbar : 0 < barSeconds) (hlater : ∀ q ∈ later, latestTs < q.marketTimestamp)
    (hle : latestTs ≤ latestTs') : completedStarts snapshots latestTs barSeconds <+:
      completedStarts (snapshots ++ later) latestTs' barSeconds := by
  set starts := completedStarts (snapshots ++ later) latestTs' barSeconds
  have hsplit : completedStarts snapshots latestTs barSeconds ++ starts.filter (barStart barSeconds latestTs ≤ ·) =
      starts := by
    refine List.Pairwise.eq_of_mem_iff ?_ completedStarts_sorted fun start => ?_
    · refine List.pairwise_append.2 ⟨completedStarts_sorted, completedStarts_sorted.filter _, fun k hk k' hk' => ?_⟩
      have hfrom := of_decide_eq_true (List.mem_filter.1 hk').2
      exact (mem_completedStarts.1 hk).2.trans_le hfrom
    · rw [List.mem_append, List.mem_filter, decide_eq_true_eq, mem_completedStarts]
      have hforming := barStart_mono hbar hle
      constructor
      · rintro (⟨hquotes, hlt⟩ | ⟨hmem, -⟩)
        · refine mem_completedStarts.2 ⟨?_, hlt.trans_le hforming⟩
          rwa [minuteQuotes_later hbar hlater hlt]
        · exact hmem
      · intro hmem
        by_cases hlt : start < barStart barSeconds latestTs
        · refine .inl ⟨?_, hlt⟩
          rw [← minuteQuotes_later hbar hlater hlt]
          exact (mem_completedStarts.1 hmem).1
        · exact .inr ⟨hmem, not_lt.1 hlt⟩
  exact ⟨_, hsplit⟩

theorem bars_later (hbar : 0 < barSeconds) (hlater : ∀ q ∈ later, latestTs < q.marketTimestamp)
    (hle : latestTs ≤ latestTs') :
    barsOf snapshots latestTs barSeconds <+: barsOf (snapshots ++ later) latestTs' barSeconds := by
  have hsame : barsOf snapshots latestTs barSeconds =
      (completedStarts snapshots latestTs barSeconds).filterMap (minuteBar (snapshots ++ later) barSeconds) := by
    refine List.filterMap_congr fun start hstart => ?_
    have hlt := (mem_completedStarts.1 hstart).2
    have hbefore : start - barSeconds < barStart barSeconds latestTs := by linarith
    unfold minuteBar
    rw [minuteQuotes_later hbar hlater hlt, minuteQuotes_later hbar hlater hbefore]
  rw [hsame]
  unfold barsOf
  exact (completedStarts_later hbar hlater hle).filterMap _

/-- **Completed bars do not repaint.** -/
theorem bars_do_not_repaint (snapshots later snapshots' : List MarketSnapshot) (latestTs latestTs' barSeconds : ℚ)
    (hbar : 0 < barSeconds) (hextends : snapshots'.Perm (snapshots ++ later)) (hdistinct : DistinctTimes snapshots')
    (hlater : ∀ q ∈ later, latestTs < q.marketTimestamp) (hle : latestTs ≤ latestTs')
    (hsession : SameSession snapshots latestTs) (hsession' : SameSession snapshots' latestTs') :
    ∃ bars bars', completedMinuteBars snapshots latestTs barSeconds = .ok bars ∧
      completedMinuteBars snapshots' latestTs' barSeconds = .ok bars' ∧ bars <+: bars' ∧
      WellFormed bars latestTs ∧ WellFormed bars' latestTs' ∧
      ∀ shuffled, shuffled.Perm snapshots' → completedMinuteBars shuffled latestTs' barSeconds = .ok bars' := by
  have hdistinct' : DistinctTimes (snapshots ++ later) := ((hextends.map _).nodup_iff).1 hdistinct
  have hextended : SameSession (snapshots ++ later) latestTs' := fun q hq => hsession' q (hextends.mem_iff.2 hq)
  have hafter := completedMinuteBars_perm hbar hdistinct' hextended hextends
  rw [completedMinuteBars_eq hbar hextended] at hafter
  refine ⟨_, _, completedMinuteBars_eq hbar hsession, hafter, bars_later hbar hlater hle, wellFormed_bars hbar,
    wellFormed_bars hbar, fun shuffled hshuffled => ?_⟩
  rw [completedMinuteBars_perm hbar hdistinct hsession' hshuffled, hafter]

/-- A quote at a time of the day, with the volume so far. -/
def tradedQuote (ts price volume : ℚ) : MarketSnapshot :=
  { symbol := "600519.SH", price := price, openPrice := price, high := price, low := price, prevClose := price,
    volume := volume, turnover := none, marketTimestamp := ts, receivedTimestamp := ts }

/-- The quotes of two minutes. -/
def twoMinutes : List MarketSnapshot := [tradedQuote 36000 10 100, tradedQuote 36030 12 110, tradedQuote 36060 11 130]

/-- The first minute is complete, and a quote opens the third one on its boundary. -/
theorem bars_do_not_repaint_boundary : ∃ bars bars',
    completedMinuteBars twoMinutes 36060 60 = .ok bars ∧ bars.map (·.startTimestamp) = [36000] ∧
      completedMinuteBars (tradedQuote 36120 9 150 :: twoMinutes) 36120 60 = .ok bars' ∧ bars <+: bars' := by
  obtain ⟨bars, bars', hbars, hbars', hprefix, -⟩ := bars_do_not_repaint twoMinutes [tradedQuote 36120 9 150]
    (tradedQuote 36120 9 150 :: twoMinutes) 36060 36120 60 (by decide) (List.perm_append_singleton _ _).symm
    (by decide +kernel) (by decide +kernel) (by decide) (by decide +kernel) (by decide +kernel)
  have hstarts : (completedMinuteBars twoMinutes 36060 60).toOption.map (List.map (·.startTimestamp)) =
      some [36000] := by decide +kernel
  rw [hbars] at hstarts
  exact ⟨bars, bars', hbars, Option.some.inj hstarts, hbars', hprefix⟩

/-! ## Volumes -/

/-- The latest quote of the minute that starts at `start`. -/
def lastQuote (snapshots : List MarketSnapshot) (barSeconds start : ℚ) : Option MarketSnapshot :=
  (snapshots.filter fun q => barStart barSeconds q.marketTimestamp = start).argmax (·.marketTimestamp)

/-- The cumulative volume of the day at the end of a bar. -/
def lastCumulative (snapshots : List MarketSnapshot) (barSeconds : ℚ) (bar : MarketBar) : ℚ :=
  ((lastQuote snapshots barSeconds bar.startTimestamp).map (·.volume)).getD 0

/-- The quotes of a minute are sorted, so the latest one is the last. -/
theorem lastQuote_eq (hdistinct : DistinctTimes snapshots) (start : ℚ) :
    lastQuote snapshots barSeconds start = (minuteQuotes snapshots barSeconds start).getLast? := by
  unfold lastQuote
  cases hlast : (minuteQuotes snapshots barSeconds start).getLast? with
  | none =>
    rw [List.argmax_eq_none, List.eq_nil_iff_forall_not_mem]
    intro q hq
    have hmem : q ∈ minuteQuotes snapshots barSeconds start := (List.mem_insertionSort _).2 hq
    rw [List.getLast?_eq_none_iff.1 hlast] at hmem
    cases hmem
  | some last =>
    obtain ⟨hlastMem, hgreatest⟩ := getLast?_insertionSort hlast
    cases hmax : (snapshots.filter fun q => barStart barSeconds q.marketTimestamp = start).argmax
        (·.marketTimestamp) with
    | none =>
      rw [List.argmax_eq_none] at hmax
      rw [hmax] at hlastMem
      cases hlastMem
    | some latest =>
      have hlatestMem := List.argmax_mem hmax
      have hle : last.marketTimestamp ≤ latest.marketTimestamp := List.le_of_mem_argmax hlastMem hmax
      have hge : latest.marketTimestamp ≤ last.marketTimestamp := hgreatest latest hlatestMem
      rw [List.inj_on_of_nodup_map hdistinct (List.mem_of_mem_filter hlatestMem) (List.mem_of_mem_filter hlastMem)
        (le_antisymm hge hle)]

/-- What the volumes of the bars say. -/
structure VolumeLaws (snapshots : List MarketSnapshot) (barSeconds : ℚ) (bars : List MarketBar) : Prop where
  quoted : ∀ bar ∈ bars, (lastQuote snapshots barSeconds bar.startTimestamp).isSome
  absent : ∀ bar ∈ bars, bar.volume = none ↔
    ∀ previous ∈ bars, previous.startTimestamp ≠ bar.startTimestamp - barSeconds
  change : ∀ previous ∈ bars, ∀ bar ∈ bars, bar.startTimestamp = previous.endTimestamp →
    bar.volume = some (max 0 (lastCumulative snapshots barSeconds bar - lastCumulative snapshots barSeconds previous))
  nonneg : ∀ bar ∈ bars, ∀ volume ∈ bar.volume, 0 ≤ volume
  backwards : ∀ previous ∈ bars, ∀ bar ∈ bars, bar.startTimestamp = previous.endTimestamp →
    lastCumulative snapshots barSeconds bar ≤ lastCumulative snapshots barSeconds previous → bar.volume = some 0
  telescopes : ∀ first run, first :: run <:+: bars →
    (first :: run).IsChain (fun previous bar => bar.startTimestamp = previous.endTimestamp ∧
      lastCumulative snapshots barSeconds previous ≤ lastCumulative snapshots barSeconds bar) →
    ∃ volumes : List ℚ, run.map (·.volume) = volumes.map some ∧ volumes.sum =
      lastCumulative snapshots barSeconds ((first :: run).getLast (List.cons_ne_nil _ _)) -
        lastCumulative snapshots barSeconds first

/-- The volume of a bar by the last quotes of its minute and of the one before. -/
theorem bar_volume (hdistinct : DistinctTimes snapshots)
    (h : bar ∈ barsOf snapshots latestTs barSeconds) :
    (lastQuote snapshots barSeconds bar.startTimestamp).isSome ∧
      bar.startTimestamp ∈ completedStarts snapshots latestTs barSeconds ∧
      bar.endTimestamp = bar.startTimestamp + barSeconds ∧
      bar.volume = (lastQuote snapshots barSeconds (bar.startTimestamp - barSeconds)).map fun previous =>
        max 0 (lastCumulative snapshots barSeconds bar - previous.volume) := by
  obtain ⟨start, hstart, first, rest, hquotes, rfl⟩ := mem_bars.1 h
  have hlast : lastQuote snapshots barSeconds start = some ((first :: rest).getLast (List.cons_ne_nil _ _)) := by
    rw [lastQuote_eq hdistinct, hquotes]
    exact List.getLast?_eq_some_getLast _
  have hown : (barOf barSeconds start (minuteQuotes snapshots barSeconds (start - barSeconds)).getLast? first
      rest).startTimestamp = start := rfl
  unfold lastCumulative
  rw [hown, hlast, lastQuote_eq hdistinct]
  refine ⟨rfl, hstart, rfl, ?_⟩
  unfold barOf
  dsimp only
  cases (minuteQuotes snapshots barSeconds (start - barSeconds)).getLast? <;> rfl

theorem bar_change (hdistinct : DistinctTimes snapshots) {previous : MarketBar}
    (hprevious : previous ∈ barsOf snapshots latestTs barSeconds)
    (h : bar ∈ barsOf snapshots latestTs barSeconds)
    (hnext : bar.startTimestamp = previous.endTimestamp) : bar.volume =
      some (max 0 (lastCumulative snapshots barSeconds bar - lastCumulative snapshots barSeconds previous)) := by
  obtain ⟨hquoted, -, hend, -⟩ := bar_volume hdistinct hprevious
  obtain ⟨-, -, -, hvolume⟩ := bar_volume hdistinct h
  have hstart : bar.startTimestamp - barSeconds = previous.startTimestamp := by linarith
  obtain ⟨last, hlast⟩ := Option.isSome_iff_exists.1 hquoted
  have hcumulative : lastCumulative snapshots barSeconds previous = last.volume := by
    unfold lastCumulative
    rw [hlast]
    rfl
  rw [hvolume, hstart, hlast, hcumulative]
  rfl

/-- Changes add up. -/
theorem sum_changes {cumulative : MarketBar → ℚ} : ∀ {first : MarketBar} {run : List MarketBar},
    (first :: run).IsChain (fun previous bar => bar.volume = some (cumulative bar - cumulative previous)) →
      ∃ volumes : List ℚ, run.map (·.volume) = volumes.map some ∧
        volumes.sum = cumulative ((first :: run).getLast (List.cons_ne_nil _ _)) - cumulative first := by
  intro first run
  induction run generalizing first with
  | nil => exact fun _ => ⟨[], rfl, (sub_self _).symm⟩
  | cons bar run ih =>
    intro hchain
    rw [List.isChain_cons_cons] at hchain
    obtain ⟨volumes, hvolumes, hsum⟩ := ih hchain.2
    refine ⟨(cumulative bar - cumulative first) :: volumes, ?_, ?_⟩
    · rw [List.map_cons, List.map_cons, hvolumes, hchain.1]
    · rw [List.sum_cons, hsum, List.getLast_cons_cons]
      ring

/-- The bars of the completed minutes obey the volume laws. -/
theorem volumeLaws_bars (hbar : 0 < barSeconds) (hdistinct : DistinctTimes snapshots) :
    VolumeLaws snapshots barSeconds (barsOf snapshots latestTs barSeconds) := by
  have hchange := fun previous hprevious bar hmem => @bar_change snapshots latestTs barSeconds bar hdistinct previous
    hprevious hmem
  refine ⟨fun bar hmem => (bar_volume hdistinct hmem).1, fun bar hmem => ?_, hchange,
    fun bar hmem volume hvolume => ?_, fun previous hprevious bar hmem hnext hback => ?_,
    fun first run hinside hchain => ?_⟩
  · obtain ⟨-, hstart, -, hvolume⟩ := bar_volume hdistinct hmem
    rw [hvolume, Option.map_eq_none_iff, lastQuote_eq hdistinct, List.getLast?_eq_none_iff]
    constructor
    · intro hnone previous hprevious heq
      have hquotes := (mem_completedStarts.1 (bar_volume hdistinct hprevious).2.1).1
      rw [heq] at hquotes
      exact hquotes hnone
    · intro hnone
      by_contra hquotes
      -- The minute before has quotes and is completed, so it has a bar.
      have hcompleted : bar.startTimestamp - barSeconds ∈ completedStarts snapshots latestTs barSeconds :=
        mem_completedStarts.2 ⟨hquotes, by linarith [(mem_completedStarts.1 hstart).2]⟩
      obtain ⟨first, rest, hcons⟩ := List.exists_cons_of_ne_nil hquotes
      exact hnone _ (mem_bars.2 ⟨_, hcompleted, first, rest, hcons, rfl⟩) rfl
  · obtain ⟨-, -, -, heq⟩ := bar_volume hdistinct hmem
    rw [heq] at hvolume
    obtain ⟨previous, -, rfl⟩ := Option.map_eq_some_iff.1 hvolume
    exact le_max_left _ _
  · rw [hchange previous hprevious bar hmem hnext, max_eq_left (sub_nonpos.2 hback)]
  · refine sum_changes (List.IsChain.imp_of_mem_imp (fun previous bar hprevious hmem hnext => ?_) hchain)
    rw [hchange previous (hinside.subset hprevious) bar (hinside.subset hmem) hnext.1,
      max_eq_right (sub_nonneg.2 hnext.2)]

/-- **Bar volumes telescope.** -/
theorem bar_volumes_telescope (snapshots : List MarketSnapshot) (latestTs barSeconds : ℚ)
    (hdistinct : DistinctTimes snapshots) (hsession : SameSession snapshots latestTs) :
    ∃ bars, completedMinuteBars snapshots latestTs barSeconds = .ok bars ∧ VolumeLaws snapshots barSeconds bars := by
  rcases lt_or_ge 0 barSeconds with hbar | hbar
  · exact ⟨_, completedMinuteBars_eq hbar hsession, volumeLaws_bars hbar hdistinct⟩
  · -- Without a length there are no bars.
    refine ⟨[], ?_, ⟨by simp, by simp, by simp, by simp, by simp, fun first run hinside => ?_⟩⟩
    · unfold completedMinuteBars
      rw [if_pos (.inr hbar)]
    · exact absurd (List.eq_nil_of_infix_nil hinside) (List.cons_ne_nil _ _)

/-- Two minutes and the forming one. -/
theorem bar_volumes_telescope_minutes : ∃ bars, completedMinuteBars
    [tradedQuote 36000 10 100, tradedQuote 36060 11 130, tradedQuote 36120 12 150] 36120 60 = .ok bars ∧
      VolumeLaws [tradedQuote 36000 10 100, tradedQuote 36060 11 130, tradedQuote 36120 12 150] 60 bars :=
  bar_volumes_telescope _ 36120 60 (by decide +kernel) (by decide +kernel)

end Bars

end MarketSentinel
