import MarketSentinel.Features.SessionOnly
import MarketSentinel.MarketData.Normalizer

/-!
# Accepted quotes and their features

When the features of a buffer of accepted quotes can be computed. The normalizer accepts every timestamp that
is finite and not negative, the session of a quote has to be a date of `datetime`.

* `hasSession_iff`: the timestamps that have a session.
* `returns_computeLatest`: when `compute` returns, on quotes that are not before the epoch.
* `accepted_processable_iff`: when it does after an accepted quote was appended.
-/

namespace MarketSentinel

open Lib

/-! ## Timestamps with a session -/

def HasSession (ts : ℚ) : Prop := ∃ day, sessionId ts = .ok day

/-- The microseconds at which the year 10000 begins at UTC+8. -/
def year10000 : ℤ := 253402272000 * 1000000

/-- **From the epoch on, the timestamps before the year 10000 have a session.** -/
theorem hasSession_iff {ts : ℚ} (hts : 0 ≤ ts) : HasSession ts ↔ microseconds ts < year10000 := by
  have hzero : (0 : ℤ) ≤ microseconds ts := by
    have hmono := microseconds_mono hts
    have hepoch : microseconds 0 = 0 := by decide +kernel
    rwa [hepoch] at hmono
  unfold HasSession year10000
  constructor
  · rintro ⟨day, h⟩
    obtain ⟨rfl, -, hlast⟩ := sessionId_eq_ok_iff.1 h
    unfold dayMicroseconds maxDay at hlast
    omega
  · intro h
    refine ⟨_, sessionId_eq_ok_iff.2 ⟨rfl, ?_⟩⟩
    unfold dayMicroseconds minDay maxDay
    omega

/-- So have the quarter of an hour before the epoch, and everything before a timestamp that has one. -/
theorem HasSession.window {ts latest : ℚ} (h : HasSession latest) (hfrom : -900 ≤ ts) (hto : ts ≤ latest) :
    HasSession ts := by
  have hepoch : sessionId (-900) = .ok 0 := by decide +kernel
  obtain ⟨today, htoday⟩ := h
  exact sessionId_between hfrom hto hepoch htoday

/-! ## Rolling windows -/

section Windows

variable {b : RingBuffer} {q ref : MarketSnapshot} {policy : FeaturePolicy}

/-- The quotes of a buffer are from the epoch on, up to one that has a session. -/
structure UpTo (b : RingBuffer) (q : MarketSnapshot) : Prop where
  session : HasSession q.marketTimestamp
  mem : q ∈ b.items
  bounds : ∀ item ∈ b.items, 0 ≤ item.marketTimestamp ∧ item.marketTimestamp ≤ q.marketTimestamp

/-- The windows of its quotes start at dates as well. -/
theorem UpTo.window (h : UpTo b q) (hmem : ref ∈ b.items) {windowS : ℚ} (hpos : 0 ≤ windowS)
    (hle : windowS ≤ 900) : HasSession (ref.marketTimestamp - windowS) := by
  obtain ⟨hfrom, hto⟩ := h.bounds ref hmem
  exact h.session.window (by linarith) (by linarith)

theorem UpTo.hasSession (h : UpTo b q) (hmem : ref ∈ b.items) : HasSession ref.marketTimestamp := by
  have hwindow := h.window hmem le_rfl (by norm_num)
  rwa [sub_zero] at hwindow

theorem returns_isSameSession {left right : ℚ} (hleft : HasSession left) (hright : HasSession right) :
    Returns (isSameSession left right) := by
  obtain ⟨day, hday⟩ := hleft
  obtain ⟨day', hday'⟩ := hright
  exact ⟨_, isSameSession_eq hday hday'⟩

theorem returns_snapshotAsOf (h : UpTo b q) (href : ref ∈ b.items) (ts lag : ℚ) :
    Returns (snapshotAsOf b ts ref lag) := by
  unfold snapshotAsOf
  cases hfound : b.atOrBefore ts with
  | none => exact returns_ok none
  | some found =>
    have hmem : found ∈ b.items := (List.takeWhile_sublist _).subset (List.mem_of_getLast? hfound)
    rw [returns_bind_of]
    · exact returns_isSameSession (h.hasSession hmem) (h.hasSession href)
    · intro same _
      split
      · exact returns_pure none
      · split
        · exact returns_pure none
        · exact returns_pure _

/-- A quote that was found is one of the buffer. -/
theorem snapshotAsOf_mem {ts lag : ℚ} {found : MarketSnapshot}
    (h : snapshotAsOf b ts ref lag = .ok (some found)) : found ∈ b.items := by
  unfold snapshotAsOf at h
  split at h
  · cases h
  · rename_i item hitem
    obtain ⟨same, -, h⟩ := bind_eq_ok.1 h
    have hmem : item ∈ b.items := (List.takeWhile_sublist _).subset (List.mem_of_getLast? hitem)
    split at h
    · cases h
    · split at h
      · cases h
      · cases h
        exact hmem

variable {windowS : ℚ}

theorem returns_resolveAnchor (h : UpTo b q) (href : ref ∈ b.items) (hpos : 0 ≤ windowS) (hle : windowS ≤ 900)
    (lag : ℚ) : Returns (resolveAnchor b ref windowS lag) := by
  unfold resolveAnchor
  rw [returns_bind_of]
  · exact returns_isSameSession (h.window href hpos hle) (h.hasSession href)
  · intro same _
    split
    · exact returns_pure none
    · exact returns_snapshotAsOf h href _ lag

theorem returns_priceChange (h : UpTo b q) (hpos : 0 ≤ windowS) (hle : windowS ≤ 900) :
    Returns (priceChange b q windowS policy) := by
  unfold priceChange
  rw [returns_bind_of]
  · exact returns_resolveAnchor h h.mem hpos hle _
  · intro anchor _
    cases anchor with
    | none => exact returns_pure none
    | some anchor =>
      dsimp only
      split
      · exact returns_pure none
      · exact returns_pure _

theorem returns_volumeDelta (h : UpTo b q) (href : ref ∈ b.items) (hpos : 0 ≤ windowS) (hle : windowS ≤ 900) :
    Returns (volumeDelta b ref windowS policy) := by
  unfold volumeDelta
  rw [returns_bind_of]
  · exact returns_resolveAnchor h href hpos hle _
  · intro anchor _
    cases anchor <;> exact returns_pure _

theorem volumeDelta_none : volumeDelta b ref windowS policy = .ok none ↔
    resolveAnchor b ref windowS policy.maxAnchorLagS = .ok none := by
  unfold volumeDelta
  rw [bind_eq_ok]
  constructor
  · rintro ⟨anchor, hanchor, hnone⟩
    cases anchor with
    | none => exact hanchor
    | some anchor => cases hnone
  · exact fun hanchor => ⟨none, hanchor, rfl⟩

theorem returns_historicalVolumeDeltas (h : UpTo b q) (hpos : 0 ≤ windowS) (hle : windowS ≤ 900) (n : ℕ) :
    ∀ step, Returns (historicalVolumeDeltas b q windowS policy n step) := by
  induction n with
  | zero => exact fun _ => returns_ok _
  | succ n ih =>
    intro step
    unfold historicalVolumeDeltas
    rw [returns_bind_of]
    · exact returns_snapshotAsOf h h.mem _ _
    intro found hfound
    cases found with
    | none => exact returns_pure none
    | some asOf =>
      dsimp only
      rw [returns_bind_of]
      · exact returns_volumeDelta h (snapshotAsOf_mem hfound) hpos hle
      intro delta _
      cases delta with
      | none => exact returns_pure none
      | some delta =>
        dsimp only
        rw [returns_bind_of]
        · exact ih (step + 1)
        intro samples _
        cases samples <;> exact returns_pure _

/-- A sample for each step. -/
theorem historicalVolumeDeltas_length {n : ℕ} : ∀ {step : ℕ} {samples : List ℚ},
    historicalVolumeDeltas b q windowS policy n step = .ok (some samples) → samples.length = n := by
  induction n with
  | zero =>
    intro step samples hsamples
    cases hsamples
    rfl
  | succ n ih =>
    intro step samples hsamples
    unfold historicalVolumeDeltas at hsamples
    obtain ⟨found, -, hsamples⟩ := bind_eq_ok.1 hsamples
    cases found with
    | none => cases hsamples
    | some asOf =>
      obtain ⟨delta, -, hsamples⟩ := bind_eq_ok.1 hsamples
      cases delta with
      | none => cases hsamples
      | some delta =>
        obtain ⟨rest, hrest, hsamples⟩ := bind_eq_ok.1 hsamples
        cases rest with
        | none => cases hsamples
        | some rest =>
          cases hsamples
          rw [List.length_cons, ih hrest]

/-- **The one division that may raise**: with no steps to look back the samples are none. -/
theorem returns_volumeRatio (h : UpTo b q) (hpos : 0 ≤ windowS) (hle : windowS ≤ 900) :
    Returns (volumeRatio b q windowS policy) ↔
      0 < policy.volumeRatioLookback ∨ resolveAnchor b q windowS policy.maxAnchorLagS = .ok none := by
  unfold volumeRatio
  rw [← @volumeDelta_none b q policy windowS]
  obtain ⟨current, hcurrent⟩ := @returns_volumeDelta b q q policy windowS h h.mem hpos hle
  rw [hcurrent, ok_bind]
  cases current with
  | none => exact iff_of_true (returns_pure none) (.inr rfl)
  | some current =>
    dsimp only
    rw [or_iff_left (by simp)]
    obtain ⟨samples, hsamples⟩ :=
      @returns_historicalVolumeDeltas b q policy windowS h hpos hle policy.volumeRatioLookback.toNat 1
    rw [hsamples, ok_bind]
    by_cases hlook : 0 < policy.volumeRatioLookback
    · refine iff_of_true ?_ hlook
      cases samples with
      | none => exact returns_pure none
      | some samples =>
        -- There are as many samples as steps, so the mean divides by a positive number.
        have hlength := historicalVolumeDeltas_length hsamples
        have hne : (samples.length : ℚ) ≠ 0 := by
          rw [hlength]
          exact_mod_cast (by omega : policy.volumeRatioLookback.toNat ≠ 0)
        unfold pyDiv
        dsimp only
        rw [if_neg hne, ok_bind]
        split
        · exact returns_pure none
        · exact returns_pure _
    · refine iff_of_false ?_ hlook
      -- No steps: the samples are an empty list, whose mean divides by zero.
      have hzero : policy.volumeRatioLookback.toNat = 0 := by omega
      rw [hzero] at hsamples
      cases hsamples
      rintro ⟨ratio, hratio⟩
      cases hratio

/-! ## The features -/

theorem returns_sessionRefs (h : UpTo b q) : Returns (sessionRefs b q) := by
  unfold sessionRefs
  refine returns_foldlM_of fun refs item hitem => ?_
  have hmem : item ∈ b.items := (List.mem_filter.1 hitem).1
  unfold refStep
  split
  · exact returns_pure refs
  · rw [returns_bind_of]
    · exact returns_isSameSession (h.hasSession hmem) h.session
    · intro same _
      split
      · exact returns_pure refs
      · exact returns_pure _

theorem returns_sessionSnaps (h : UpTo b q) : ∃ snapshots,
    ((b.since 0).filterM fun snapshot =>
      isSameSession snapshot.marketTimestamp q.marketTimestamp) = .ok snapshots ∧
    ∀ item ∈ snapshots, item ∈ b.items := by
  have hsame : ∀ item ∈ b.since 0,
      isSameSession item.marketTimestamp q.marketTimestamp = .ok (inSession item q) := by
    intro item hitem
    obtain ⟨same, hsame⟩ := returns_isSameSession (h.hasSession (List.mem_filter.1 hitem).1) h.session
    unfold inSession
    rw [hsame]
  exact ⟨_, filterM_ok hsame, fun item hitem => (List.mem_filter.1 (List.mem_filter.1 hitem).1).1⟩

theorem returns_completedMinuteBars (h : UpTo b q) {snapshots : List MarketSnapshot}
    (hmem : ∀ item ∈ snapshots, item ∈ b.items) (barSeconds : ℚ) :
    Returns (completedMinuteBars snapshots q.marketTimestamp barSeconds) := by
  unfold completedMinuteBars
  split
  · exact returns_ok []
  · rw [returns_bind_of fun _ _ => returns_pure _]
    refine returns_foldlM_of fun buckets item hitem => ?_
    unfold bucketStep
    rw [returns_bind_of]
    · exact returns_isSameSession (h.hasSession (hmem item hitem)) h.session
    · intro same _
      split
      · exact returns_pure buckets
      · dsimp only
        split
        · exact returns_pure buckets
        · exact returns_pure _

/-- No division by the number of the samples: there are samples, or there is no anchor to compare with. -/
def Sampled (e : FeatureEngine) (b : RingBuffer) (q : MarketSnapshot) : Prop :=
  ∀ windowS ∈ [(60 : ℚ), 300], 0 < e.policy.volumeRatioLookback ∨
    resolveAnchor b q windowS e.policy.maxAnchorLagS = .ok none

/-- **When the features can be computed.** -/
theorem returns_computeLatest {e : FeatureEngine} (h : UpTo b q) :
    Returns (e.computeLatest b q) ↔ Sampled e b q := by
  have hratio1m := @returns_volumeRatio b q e.policy 60 h (by norm_num) (by norm_num)
  have hratio5m := @returns_volumeRatio b q e.policy 300 h (by norm_num) (by norm_num)
  unfold Sampled
  simp only [List.forall_mem_cons, List.not_mem_nil, false_imp_iff, implies_true, and_true]
  rw [← hratio1m, ← hratio5m]
  obtain ⟨refs, hrefs⟩ := returns_sessionRefs h
  obtain ⟨snapshots, hsnapshots, hmem⟩ := returns_sessionSnaps h
  obtain ⟨bars, hbars⟩ := returns_completedMinuteBars h hmem e.policy.barSeconds
  obtain ⟨change1m, hchange1m⟩ := @returns_priceChange b q e.policy 60 h (by norm_num) (by norm_num)
  obtain ⟨change5m, hchange5m⟩ := @returns_priceChange b q e.policy 300 h (by norm_num) (by norm_num)
  obtain ⟨change15m, hchange15m⟩ := @returns_priceChange b q e.policy 900 h (by norm_num) le_rfl
  obtain ⟨volume1m, hvolume1m⟩ := @returns_volumeDelta b q q e.policy 60 h h.mem (by norm_num) (by norm_num)
  obtain ⟨volume5m, hvolume5m⟩ := @returns_volumeDelta b q q e.policy 300 h h.mem (by norm_num) (by norm_num)
  unfold FeatureEngine.computeLatest
  rw [hrefs, ok_bind]
  dsimp only
  rw [hsnapshots, ok_bind, hbars, ok_bind, hchange1m, ok_bind, hchange5m, ok_bind, hchange15m, ok_bind,
    hvolume1m, ok_bind, hvolume5m, ok_bind, returns_bind]
  simp only [returns_bind_of fun _ _ => returns_pure _]
  exact ⟨fun ⟨ratio, h1m, h5m⟩ => ⟨⟨ratio, h1m⟩, h5m⟩, fun ⟨⟨ratio, h1m⟩, h5m⟩ => ⟨ratio, h1m, h5m⟩⟩

end Windows

/-! ## Accepted quotes -/

section Accepted

variable {b : RingBuffer} {q : MarketSnapshot}

/-- The latest quote after an append is the newest of the quotes before it and the new one. -/
theorem append_newest (b : RingBuffer) (q : MarketSnapshot) : ∃ newest, (b.append q).latest = some newest ∧
    newest ∈ q :: b.items ∧ ∀ item ∈ q :: b.items, item.marketTimestamp ≤ newest.marketTimestamp := by
  have hq : q ∈ RingBuffer.place q b.items := (mem_place_iff b.sorted).2 (.inl rfl)
  cases hlast : (RingBuffer.place q b.items).getLast? with
  | none =>
    rw [List.getLast?_eq_none_iff.1 hlast] at hq
    cases hq
  | some newest =>
    have hlatest : (b.append q).latest = some newest :=
      RingBuffer.evict_getLast? b.retention_pos b.size_pos hlast
    have hle := RingBuffer.le_latest (RingBuffer.place_sorted b.sorted q) hlast
    refine ⟨newest, hlatest, List.mem_cons.2 (RingBuffer.mem_place (List.mem_of_getLast? hlast)), ?_⟩
    intro item hitem
    rcases List.mem_cons.1 hitem with rfl | hitem
    · exact hle item hq
    · by_cases hsame : item.marketTimestamp = q.marketTimestamp
      · rw [hsame]
        exact hle q hq
      · exact hle item ((mem_place_iff b.sorted).2 (.inr ⟨hitem, hsame⟩))

/-- **When accepted quotes are processable.** Appending an accepted quote to a buffer of accepted quotes and
computing the features raises nothing just when all of them are before the year 10000 at UTC+8, and the volume
ratio has samples to divide by. The policies meant are those whose bars keep `barStart` in the range of a float. -/
theorem accepted_processable_iff {V : Type} {py : RawValues V} {raw : RawQuote V} {wallTime : ℚ}
    (e : FeatureEngine) (haccepted : py.normalizeSnapshot raw wallTime = .ok q)
    (hbuffer : ∀ item ∈ b.items, item.symbol = q.symbol ∧
      ∃ raw' wallTime', py.normalizeSnapshot raw' wallTime' = .ok item) :
    Returns (e.compute (b.append q)) ↔
      (∀ item ∈ q :: b.items, microseconds item.marketTimestamp < year10000) ∧
        ∀ newest ∈ (b.append q).latest, Sampled e (b.append q) newest := by
  have hfrom : ∀ item ∈ q :: b.items, 0 ≤ item.marketTimestamp := by
    intro item hitem
    rcases List.mem_cons.1 hitem with rfl | hitem
    · exact (RawValues.normalizeSnapshot_bounds haccepted).2.2.2.2
    · obtain ⟨-, raw', wallTime', haccepted'⟩ := hbuffer item hitem
      exact (RawValues.normalizeSnapshot_bounds haccepted').2.2.2.2
  obtain ⟨newest, hlatest, hmem, hle⟩ := append_newest b q
  unfold FeatureEngine.compute
  rw [hlatest]
  simp only [Option.mem_some_iff, forall_eq']
  -- One quote without a session is enough, the newest one has none then.
  have hall : (∀ item ∈ q :: b.items, microseconds item.marketTimestamp < year10000) ↔
      HasSession newest.marketTimestamp := by
    rw [hasSession_iff (hfrom newest hmem)]
    exact ⟨fun h => h newest hmem, fun h item hitem => (microseconds_mono (hle item hitem)).trans_lt h⟩
  rw [hall]
  have hreturns : Returns (some <$> e.computeLatest (b.append q) newest) ↔
      Returns (e.computeLatest (b.append q) newest) := by
    cases e.computeLatest (b.append q) newest <;> simp [Functor.map, Except.map]
  rw [hreturns]
  by_cases hsession : HasSession newest.marketTimestamp
  · have hupto : UpTo (b.append q) newest := by
      refine ⟨hsession, RingBuffer.latest_mem hlatest, fun item hitem => ?_⟩
      have hitem' : item ∈ q :: b.items := List.mem_cons.2 (RingBuffer.mem_append hitem)
      exact ⟨hfrom item hitem', hle item hitem'⟩
    rw [returns_computeLatest hupto, and_iff_right hsession]
  · refine iff_of_false ?_ fun h => hsession h.1
    rintro ⟨features, hfeatures⟩
    exact hsession (computeLatest_dated hfeatures)

/-- A row with a timestamp. -/
def timedRow (ts : ℤ) : RawQuote Json :=
  [("symbol", .str "600519.SH"), ("price", .int 100), ("open", .int 100), ("high", .int 100),
    ("low", .int 100), ("prev_close", .int 100), ("volume", .int 0), ("market_timestamp", .int ts)]

/-- The quote of such a row. -/
def timedQuote (ts : ℚ) : MarketSnapshot :=
  { symbol := "600519.SH", price := 100, openPrice := 100, high := 100, low := 100, prevClose := 100,
    volume := 0, turnover := none, marketTimestamp := ts, receivedTimestamp := 0 }

/-- The buffer with the default bounds, before any quote. -/
def emptyBuffer : RingBuffer := .new 3600 4096 default_retention_pos default_size_pos

/-- **A timestamp in milliseconds** is accepted and has no session. -/
theorem accepted_unprocessable :
    (jsonValues noTexts).normalizeSnapshot (timedRow 1700000010000) 0 = .ok (timedQuote 1700000010000) ∧
      FeatureEngine.compute {} (emptyBuffer.append (timedQuote 1700000010000)) = .error .valueError := by
  decide +kernel

/-- Two quotes a minute apart. -/
theorem accepted_processable_minute :
    Returns (FeatureEngine.compute {} ((emptyBuffer.append (timedQuote 36000)).append (timedQuote 36060))) := by
  have haccepted : (jsonValues noTexts).normalizeSnapshot (timedRow 36060) 0 = .ok (timedQuote 36060) := by
    decide +kernel
  have hitems : (emptyBuffer.append (timedQuote 36000)).items = [timedQuote 36000] := by decide +kernel
  have hbuffer : ∀ item ∈ (emptyBuffer.append (timedQuote 36000)).items,
      item.symbol = (timedQuote 36060).symbol ∧
        ∃ raw' wallTime', (jsonValues noTexts).normalizeSnapshot raw' wallTime' = .ok item := by
    rw [hitems, List.forall_mem_singleton]
    exact ⟨rfl, timedRow 36000, 0, by decide +kernel⟩
  refine (accepted_processable_iff {} haccepted hbuffer).2 ⟨?_, fun newest _ windowS _ => .inl (by decide)⟩
  rw [hitems]
  decide +kernel

end Accepted

end MarketSentinel
