import MarketSentinel.Features.FirstQuote
import MarketSentinel.MarketData.CashSession
import MarketSentinel.MarketData.Denotation

/-!
# The features look at one session

Every look-back of a feature is checked against the session of the latest quote, so the quotes of other
sessions could as well be missing from the buffer.

* `atOrBefore_ofLatestSession`: the quote at or before a time, without the other sessions.
* `snapshotAsOf_refines`, `volumeRatio_refines`, `computeLatest_refines`: each feature.
* `feature_session_isolation`: the features as a whole.
-/

namespace MarketSentinel

open Lib

/-- A quote is of the session of another one. -/
def inSession (item latest : MarketSnapshot) : Bool :=
  match isSameSession item.marketTimestamp latest.marketTimestamp with
  | .ok same => same
  | .error _ => false

/-- The quotes of the latest quote's session. -/
def RingBuffer.ofLatestSession (b : RingBuffer) : RingBuffer :=
  match b.latest with
  | none => b
  | some latest =>
    { b with
      items := b.items.filter (inSession · latest)
      sorted := b.sorted.filter _ }

theorem isSameSession_eq {p q : ℚ} {day day' : ℤ} (hp : sessionId p = .ok day)
    (hq : sessionId q = .ok day') : isSameSession p q = .ok (decide (day = day')) := by
  unfold isSameSession
  rw [hp, hq]
  rfl

theorem isSameSession_error {p q : ℚ} {err : PyError} (hp : sessionId p = .error err) :
    isSameSession p q = .error err := by
  unfold isSameSession
  rw [hp]
  rfl

/-- A time between two times with a session has one. -/
theorem sessionId_between {p x q : ℚ} {day day' : ℤ} (hpx : p ≤ x) (hxq : x ≤ q)
    (hp : sessionId p = .ok day) (hq : sessionId q = .ok day') : ∃ d, sessionId x = .ok d := by
  have hlow := microseconds_mono hpx
  have hhigh := microseconds_mono hxq
  obtain ⟨-, hearly, -⟩ := sessionId_eq_ok_iff.1 hp
  obtain ⟨rfl, -, hlate⟩ := sessionId_eq_ok_iff.1 hq
  have hfirst := Int.ediv_le_ediv (c := dayMicroseconds) (by decide) hlow
  have hlast : (microseconds x + 8 * 3600 * 1000000) / dayMicroseconds ≤
      (microseconds q + 8 * 3600 * 1000000) / dayMicroseconds :=
    Int.ediv_le_ediv (by decide) (by omega)
  exact ⟨_, sessionId_eq_ok_iff.2 ⟨rfl, hearly.trans hfirst, hlast.trans hlate⟩⟩

section Latest

variable {b : RingBuffer} {q : MarketSnapshot} {today : ℤ}

/-- Every quote of the buffer has a session. -/
def Dated (b : RingBuffer) : Prop := ∀ item ∈ b.items, ∃ day, sessionId item.marketTimestamp = .ok day

theorem inSession_iff (hq : sessionId q.marketTimestamp = .ok today) {item : MarketSnapshot} :
    inSession item q = true ↔ sessionId item.marketTimestamp = .ok today := by
  unfold inSession
  cases hitem : sessionId item.marketTimestamp with
  | error err => simp [isSameSession_error hitem]
  | ok day => simp [isSameSession_eq hitem hq]

theorem items_ofLatestSession (hlatest : b.latest = some q) :
    b.ofLatestSession.items = b.items.filter (inSession · q) := by
  unfold RingBuffer.ofLatestSession
  rw [hlatest]

/-- The latest quote stays. -/
theorem latest_ofLatestSession (hlatest : b.latest = some q) (hq : sessionId q.marketTimestamp = .ok today) :
    b.ofLatestSession.latest = some q := by
  unfold RingBuffer.latest
  rw [items_ofLatestSession hlatest]
  obtain ⟨init, hinit⟩ := List.getLast?_eq_some_iff.1 hlatest
  rw [hinit, List.filter_append]
  simp [(inSession_iff hq).2 hq]

theorem since_ofLatestSession (hlatest : b.latest = some q) (ts : ℚ) :
    b.ofLatestSession.since ts = (b.since ts).filter (inSession · q) := by
  unfold RingBuffer.since
  rw [items_ofLatestSession hlatest, List.filter_comm]

/-- Before a quote of another session there is none of the latest one's. -/
theorem atOrBefore_ofLatestSession (hlatest : b.latest = some q) (hq : sessionId q.marketTimestamp = .ok today)
    (ts : ℚ) : b.ofLatestSession.atOrBefore ts = (b.atOrBefore ts).filter (inSession · q) := by
  unfold RingBuffer.atOrBefore
  rw [atOrBefore_eq_scan b.ofLatestSession.sorted, atOrBefore_eq_scan b.sorted, items_ofLatestSession hlatest]
  unfold scanAtOrBefore
  rw [List.filter_comm]
  have hsorted : (b.items.filter fun item => decide (item.marketTimestamp ≤ ts)).Pairwise Older :=
    b.sorted.filter _
  have hmem : ∀ item ∈ b.items.filter (fun item => decide (item.marketTimestamp ≤ ts)), item ∈ b.items :=
    fun item hitem => (List.mem_filter.1 hitem).1
  generalize b.items.filter (fun item => decide (item.marketTimestamp ≤ ts)) = items at hsorted hmem
  cases hlast : items.getLast? with
  | none =>
    rw [List.getLast?_eq_none_iff.1 hlast]
    rfl
  | some found =>
    rw [Option.filter_some]
    split
    · rename_i hin
      obtain ⟨init, rfl⟩ := List.getLast?_eq_some_iff.1 hlast
      rw [List.filter_append]
      simp [hin]
    · rename_i hout
      rw [List.getLast?_eq_none_iff, List.filter_eq_nil_iff]
      intro item hitem hin
      -- The quote that was found lies between this one and the latest, so it would be of their session.
      have hitemDay := (inSession_iff hq).1 hin
      have hle := RingBuffer.le_latest hsorted hlast item hitem
      have hle' := RingBuffer.le_latest b.sorted hlatest found (hmem found (List.mem_of_getLast? hlast))
      obtain ⟨day, hday⟩ := sessionId_between hle hle' hitemDay hq
      obtain rfl : day = today :=
        le_antisymm (sessionId_mono hle' hday hq) (sessionId_mono hle hitemDay hday)
      exact hout ((inSession_iff hq).2 hday)

/-! ## Rolling windows -/

variable {ref : MarketSnapshot}

theorem snapshotAsOf_refines (hlatest : b.latest = some q) (hq : sessionId q.marketTimestamp = .ok today)
    (href : sessionId ref.marketTimestamp = .ok today) (ts lag : ℚ) :
    Refines (Dated b) (snapshotAsOf b ts ref lag) (snapshotAsOf b.ofLatestSession ts ref lag) := by
  unfold snapshotAsOf
  rw [atOrBefore_ofLatestSession hlatest hq]
  cases hfound : b.atOrBefore ts with
  | none => exact .refl _
  | some found =>
    rw [Option.filter_some]
    have hmem : found ∈ b.items := (List.takeWhile_sublist _).subset (List.mem_of_getLast? hfound)
    cases hday : sessionId found.marketTimestamp with
    | error err =>
      refine .of_error (e := err) ?_ fun hdated => ?_
      · dsimp only
        rw [isSameSession_error hday]
        rfl
      · obtain ⟨day, h⟩ := hdated found hmem
        cases hday.symm.trans h
    | ok day =>
      by_cases hsame : day = today
      · rw [if_pos ((inSession_iff hq).2 (hsame ▸ hday))]
        exact .refl _
      · rw [if_neg fun hin => hsame (Except.ok.inj (hday.symm.trans ((inSession_iff hq).1 hin)))]
        refine .of_eq ?_
        dsimp only
        rw [isSameSession_eq hday href, decide_eq_false hsame]
        rfl

/-- A quote that was found is of the session. -/
theorem snapshotAsOf_session {buffer : RingBuffer} (href : sessionId ref.marketTimestamp = .ok today)
    {ts lag : ℚ} {found : MarketSnapshot} (h : snapshotAsOf buffer ts ref lag = .ok (some found)) :
    sessionId found.marketTimestamp = .ok today := by
  unfold snapshotAsOf at h
  split at h
  · cases h
  · rename_i found' _
    obtain ⟨same, hsame, h⟩ := bind_eq_ok.1 h
    cases hday : sessionId found'.marketTimestamp with
    | error err => cases (isSameSession_error hday).symm.trans hsame
    | ok day =>
      rw [isSameSession_eq hday href] at hsame
      obtain rfl := Except.ok.inj hsame
      by_cases heq : day = today
      · split at h
        · cases h
        · split at h
          · cases h
          · cases h
            exact heq ▸ hday
      · rw [decide_eq_false heq] at h
        cases h

theorem resolveAnchor_refines (hlatest : b.latest = some q) (hq : sessionId q.marketTimestamp = .ok today)
    (href : sessionId ref.marketTimestamp = .ok today) (windowS lag : ℚ) :
    Refines (Dated b) (resolveAnchor b ref windowS lag) (resolveAnchor b.ofLatestSession ref windowS lag) := by
  unfold resolveAnchor
  refine .bind (.refl _) fun same _ => ?_
  split
  · exact .refl _
  · exact snapshotAsOf_refines hlatest hq href _ _

theorem priceChange_refines (hlatest : b.latest = some q) (hq : sessionId q.marketTimestamp = .ok today)
    (windowS : ℚ) (policy : FeaturePolicy) :
    Refines (Dated b) (priceChange b q windowS policy) (priceChange b.ofLatestSession q windowS policy) :=
  .bind (resolveAnchor_refines hlatest hq hq _ _) fun _ _ => .refl _

theorem volumeDelta_refines (hlatest : b.latest = some q) (hq : sessionId q.marketTimestamp = .ok today)
    (href : sessionId ref.marketTimestamp = .ok today) (windowS : ℚ) (policy : FeaturePolicy) :
    Refines (Dated b) (volumeDelta b ref windowS policy) (volumeDelta b.ofLatestSession ref windowS policy) :=
  .bind (resolveAnchor_refines hlatest hq href _ _) fun _ _ => .refl _

/-- The historical anchors are of the session as well. -/
theorem historicalVolumeDeltas_refines (hlatest : b.latest = some q)
    (hq : sessionId q.marketTimestamp = .ok today) (windowS : ℚ) (policy : FeaturePolicy) (n : ℕ) :
    ∀ step, Refines (Dated b) (historicalVolumeDeltas b q windowS policy n step)
      (historicalVolumeDeltas b.ofLatestSession q windowS policy n step) := by
  induction n with
  | zero => exact fun _ => .refl _
  | succ n ih =>
    intro step
    unfold historicalVolumeDeltas
    refine .bind (snapshotAsOf_refines hlatest hq hq _ _) fun found hfound => ?_
    cases found with
    | none => exact .refl _
    | some asOf =>
      refine .bind (volumeDelta_refines hlatest hq (snapshotAsOf_session hq hfound) _ _) fun delta _ => ?_
      cases delta with
      | none => exact .refl _
      | some delta => exact .bind (ih (step + 1)) fun _ _ => .refl _

theorem volumeRatio_refines (hlatest : b.latest = some q) (hq : sessionId q.marketTimestamp = .ok today)
    (windowS : ℚ) (policy : FeaturePolicy) :
    Refines (Dated b) (volumeRatio b q windowS policy) (volumeRatio b.ofLatestSession q windowS policy) := by
  unfold volumeRatio
  refine .bind (volumeDelta_refines hlatest hq hq _ _) fun current _ => ?_
  cases current with
  | none => exact .refl _
  | some current => exact .bind (historicalVolumeDeltas_refines hlatest hq _ _ _ _) fun _ _ => .refl _

/-! ## The whole session -/

theorem sessionRefs_refines (hlatest : b.latest = some q) (hq : sessionId q.marketTimestamp = .ok today) :
    Refines (Dated b) (sessionRefs b q) (sessionRefs b.ofLatestSession q) := by
  unfold sessionRefs
  rw [since_ofLatestSession hlatest]
  refine .foldlM_filter fun item hitem hout => ?_
  by_cases hold : q.marketTimestamp ≤ item.marketTimestamp
  · refine .inl fun refs => ?_
    unfold refStep
    rw [if_pos hold]
    rfl
  have hmem : item ∈ b.items := (List.mem_filter.1 hitem).1
  cases hday : sessionId item.marketTimestamp with
  | error err =>
    refine .inr ⟨fun hdated => ?_, fun refs => ⟨err, ?_⟩⟩
    · obtain ⟨day, h⟩ := hdated item hmem
      cases hday.symm.trans h
    · unfold refStep
      rw [if_neg hold, isSameSession_error hday]
      rfl
  | ok day =>
    have hother : day ≠ today := by
      rintro rfl
      rw [(inSession_iff hq).2 hday] at hout
      cases hout
    refine .inl fun refs => ?_
    unfold refStep
    rw [if_neg hold, isSameSession_eq hday hq, decide_eq_false hother]
    rfl

theorem sessionSnaps_refines (hlatest : b.latest = some q) (hq : sessionId q.marketTimestamp = .ok today) :
    Refines (Dated b)
      ((b.since 0).filterM fun snapshot => isSameSession snapshot.marketTimestamp q.marketTimestamp)
      ((b.ofLatestSession.since 0).filterM fun snapshot =>
        isSameSession snapshot.marketTimestamp q.marketTimestamp) := by
  have hinside : (b.ofLatestSession.since 0).filterM (fun snapshot =>
      isSameSession snapshot.marketTimestamp q.marketTimestamp) = .ok ((b.since 0).filter (inSession · q)) := by
    rw [since_ofLatestSession hlatest, @filterM_ok _ _ _ fun _ => true, List.filter_true]
    intro item hitem
    rw [isSameSession_eq ((inSession_iff hq).1 (List.mem_filter.1 hitem).2) hq, decide_eq_true rfl]
  rw [hinside]
  refine .filterM fun item hitem => ?_
  cases hday : sessionId item.marketTimestamp with
  | error err =>
    refine .inr ⟨fun hdated => ?_, err, isSameSession_error hday⟩
    obtain ⟨day, h⟩ := hdated item (List.mem_filter.1 hitem).1
    cases hday.symm.trans h
  | ok day =>
    refine .inl ?_
    unfold inSession
    rw [isSameSession_eq hday hq]

theorem computeLatest_refines (e : FeatureEngine) (hlatest : b.latest = some q)
    (hq : sessionId q.marketTimestamp = .ok today) :
    Refines (Dated b) (e.computeLatest b q) (e.computeLatest b.ofLatestSession q) := by
  unfold FeatureEngine.computeLatest
  refine .bind (sessionRefs_refines hlatest hq) fun refs _ => ?_
  refine .bind (sessionSnaps_refines hlatest hq) fun snapshots _ => ?_
  refine .bind (.refl _) fun bars _ => ?_
  refine .bind (priceChange_refines hlatest hq _ _) fun change1m _ => ?_
  refine .bind (priceChange_refines hlatest hq _ _) fun change5m _ => ?_
  refine .bind (priceChange_refines hlatest hq _ _) fun change15m _ => ?_
  refine .bind (volumeDelta_refines hlatest hq hq _ _) fun volume1m _ => ?_
  refine .bind (volumeDelta_refines hlatest hq hq _ _) fun volume5m _ => ?_
  refine .bind (volumeRatio_refines hlatest hq _ _) fun volumeRatio1m _ => ?_
  exact .bind (volumeRatio_refines hlatest hq _ _) fun volumeRatio5m _ => .refl _

/-- There are features only when the latest quote has a session. -/
theorem computeLatest_dated {e : FeatureEngine} {features : MarketFeatures}
    (h : e.computeLatest b q = .ok features) : ∃ day, sessionId q.marketTimestamp = .ok day := by
  unfold FeatureEngine.computeLatest at h
  obtain ⟨refs, -, h⟩ := bind_eq_ok.1 h
  obtain ⟨snapshots, -, h⟩ := bind_eq_ok.1 h
  obtain ⟨bars, -, h⟩ := bind_eq_ok.1 h
  obtain ⟨change1m, hchange, -⟩ := bind_eq_ok.1 h
  obtain ⟨anchor, hanchor, -⟩ := bind_eq_ok.1 hchange
  obtain ⟨same, hsame, -⟩ := bind_eq_ok.1 hanchor
  obtain ⟨day, -, hsame⟩ := bind_eq_ok.1 hsame
  obtain ⟨day', hday', -⟩ := bind_eq_ok.1 hsame
  exact ⟨day', hday'⟩

end Latest

/-- **Feature session isolation.** For every buffer, the features are those of the quotes of the latest
quote's session alone; and when every quote has a session, so are the exceptions. -/
theorem feature_session_isolation (e : FeatureEngine) (b : RingBuffer) :
    (∀ features, e.compute b = .ok features → e.compute b.ofLatestSession = .ok features) ∧
      ((∀ item ∈ b.items, ∃ day, sessionId item.marketTimestamp = .ok day) →
        e.compute b = e.compute b.ofLatestSession) := by
  cases hlatest : b.latest with
  | none =>
    have hsame : b.ofLatestSession = b := by
      unfold RingBuffer.ofLatestSession
      rw [hlatest]
    rw [hsame]
    exact ⟨fun _ h => h, fun _ => rfl⟩
  | some q =>
    have hcompute : ∀ {today}, sessionId q.marketTimestamp = .ok today →
        Refines (Dated b) (e.compute b) (e.compute b.ofLatestSession) := by
      intro today hq
      have hrefines := computeLatest_refines e hlatest hq
      unfold FeatureEngine.compute
      rw [hlatest, latest_ofLatestSession hlatest hq]
      dsimp only
      rw [← bind_pure_comp, ← bind_pure_comp]
      exact .bind hrefines fun _ _ => .refl _
    constructor
    · intro features h
      -- Features are computed only when the latest quote has a session.
      have hlatestFeatures := h
      unfold FeatureEngine.compute at hlatestFeatures
      rw [hlatest] at hlatestFeatures
      dsimp only at hlatestFeatures
      rw [← bind_pure_comp] at hlatestFeatures
      obtain ⟨f, hf, -⟩ := bind_eq_ok.1 hlatestFeatures
      obtain ⟨today, hq⟩ := computeLatest_dated hf
      exact (hcompute hq).returns h
    · intro hdated
      obtain ⟨today, hq⟩ := hdated q (RingBuffer.latest_mem hlatest)
      exact (hcompute hq).eq hdated

/-- The last quote of a day and two quotes of the next one. -/
def twoSessions : RingBuffer where
  retentionS := 3600
  maxSize := 4096
  items := [(54000, 100), (122400, 102), (122460, 103)].map fun p : ℚ × ℚ =>
    { symbol := "600519.SH", price := p.2, openPrice := 100, high := p.2, low := 100, prevClose := 100, volume := 0,
      turnover := none, marketTimestamp := p.1, receivedTimestamp := p.1 }
  retention_pos := by norm_num
  size_pos := by norm_num
  sorted := by norm_num [Older]

/-- The features after the night are those without the day before. -/
theorem feature_session_isolation_night :
    twoSessions.ofLatestSession.items.map (·.marketTimestamp) = [122400, 122460] ∧
      FeatureEngine.compute {} twoSessions = FeatureEngine.compute {} twoSessions.ofLatestSession := by
  refine ⟨by decide +kernel, (feature_session_isolation {} twoSessions).2 fun item hitem => ?_⟩
  have hdays : twoSessions.items.map (fun item => sessionId item.marketTimestamp) = [.ok 0, .ok 1, .ok 1] := by
    decide +kernel
  have hmem := List.mem_map_of_mem (f := fun item => sessionId item.marketTimestamp) hitem
  rw [hdays] at hmem
  simp only [List.mem_cons, List.not_mem_nil, or_false] at hmem
  rcases hmem with hday | hday | hday
  · exact ⟨0, hday⟩
  · exact ⟨1, hday⟩
  · exact ⟨1, hday⟩

end MarketSentinel
