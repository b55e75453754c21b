import MarketSentinel.Signals.Turn

/-!
# A lineage's turn, read back

`TurnEffect call l c done s` describes the tables after the directions in `done` of a turn that
started from the composer `c`, in terms of `c` alone: the composed episodes list their members,
every other episode is the one of `c`, except a NONE episode that was taken over (`Taken`).

* `TurnEffect.step`: one direction more.
* `lineageTurn_effect`: a whole turn.
-/

namespace MarketSentinel

open Lib SignalComposer

/-- The active signal of a key lists an event id. -/
def SignalComposer.Lists (c : SignalComposer) (k : EpisodeKey) (i : String) : Prop :=
  ∃ sig, c.active.get? k = some sig ∧ i ∈ sig.eventIds

section Turn

variable (call : SymbolCall) (l : Lineage) (c : SignalComposer)

/-- The NONE episode was taken over by one of the directions in `done`: it was active, and the
direction was composed without an episode of its own. -/
def SymbolCall.Taken (done : List EventDirection) : Prop :=
  (∃ sig, c.active.get? (call.keyOf l .none) = some sig) ∧
    ∃ d ∈ done, d ≠ .none ∧ call.Renews l c d ∧ c.active.get? (call.keyOf l d) = none

/-- The tables after the directions in `done`. -/
structure TurnEffect (done : List EventDirection) (s : ComposeState) : Prop where
  live : AllLive call.nowTs s.composer
  lookback : s.composer.lookbackS = c.lookbackS
  accepted : s.composer.accepted = c.accepted
  composed : ∀ d ∈ done, call.Renews l c d → ∃ sig,
    s.composer.active.get? (call.keyOf l d) = some sig ∧
      sig.eventIds = (call.members l c d).map (·.id) ∧
      ∀ e ∈ call.members l c d, e.marketTimestamp ≤ sig.marketTimestamp
  kept : ∀ k sig, (∀ d ∈ done, call.Renews l c d → k ≠ call.keyOf l d) →
    (s.composer.active.get? k = some sig ↔
      c.active.get? k = some sig ∧ ¬ (k = call.keyOf l .none ∧ call.Taken l c done))
  stolen : (call.symbol, l) ∈ s.stolenNone ↔ call.Taken l c done
  home : ∀ d ∈ done, call.Renews l c d → ∀ i ∈ (call.members l c d).map (·.id),
    s.composer.home.get? i = some (call.keyOf l d) ∨
      -- a later direction took over a NONE episode that lists it too
      c.Lists (call.keyOf l .none) i ∧ d ≠ .none ∧ ∃ d', d' ≠ d ∧ d' ≠ .none ∧ call.Renews l c d'
  homeKept : ∀ i, (∀ d ∈ done, call.Renews l c d → i ∉ (call.members l c d).map (·.id)) →
    ¬ (call.Taken l c done ∧ c.Lists (call.keyOf l .none) i) →
      s.composer.home.get? i = c.home.get? i

variable {call l c}

theorem TurnEffect.init {s : ComposeState} (hlive : AllLive call.nowTs s.composer)
    (hst : (call.symbol, l) ∉ s.stolenNone) : TurnEffect call l s.composer [] s where
  live := hlive
  lookback := rfl
  accepted := rfl
  composed := by simp
  kept := by simp [SymbolCall.Taken]
  stolen := by simp [SymbolCall.Taken, hst]
  home := by simp
  homeKept := by simp

theorem taken_cons {done : List EventDirection} {d : EventDirection} :
    call.Taken l c (d :: done) ↔ call.Taken l c done ∨
      (∃ sig, c.active.get? (call.keyOf l .none) = some sig) ∧ d ≠ .none ∧ call.Renews l c d ∧
        c.active.get? (call.keyOf l d) = none := by
  unfold SymbolCall.Taken
  rw [List.exists_mem_cons_iff, and_or_left, or_comm]

theorem keyOf_inj {d d' : EventDirection} : call.keyOf l d = call.keyOf l d' ↔ d = d' := by
  simp [SymbolCall.keyOf]

variable {done : List EventDirection} {d : EventDirection} {s s' : ComposeState}

/-- The episode of a direction that is not treated yet is the one of `c`, unless taken over. -/
theorem TurnEffect.untouched (h : TurnEffect call l c done s) (hd : d ∉ done) {sig : Signal} :
    s.composer.active.get? (call.keyOf l d) = some sig ↔
      c.active.get? (call.keyOf l d) = some sig ∧ ¬ (d = .none ∧ call.Taken l c done) := by
  rw [h.kept (call.keyOf l d) sig fun d' hd' _ heq => hd (keyOf_inj.1 heq ▸ hd'), keyOf_inj]

/-- A direction with no new member. -/
theorem TurnEffect.skip (h : TurnEffect call l c done s) (hr : ¬ call.Renews l c d) :
    TurnEffect call l c (d :: done) s := by
  have htaken : call.Taken l c (d :: done) ↔ call.Taken l c done :=
    taken_cons.trans (or_iff_left fun h => hr h.2.2.1)
  refine ⟨h.live, h.lookback, h.accepted, ?_, ?_, h.stolen.trans htaken.symm, ?_, ?_⟩
  · intro d' hd' hr'
    rcases List.mem_cons.1 hd' with rfl | hd'
    · exact absurd hr' hr
    · exact h.composed d' hd' hr'
  · intro k sig hk
    rw [htaken]
    exact h.kept k sig fun d' hd' => hk d' (List.mem_cons_of_mem _ hd')
  · intro d' hd' hr'
    rcases List.mem_cons.1 hd' with rfl | hd'
    · exact absurd hr' hr
    · exact h.home d' hd' hr'
  · intro i hi ht
    rw [htaken] at ht
    exact h.homeKept i (fun d' hd' => hi d' (List.mem_cons_of_mem _ hd')) ht

section Compose

variable {identity : String × ℚ} {former : Option Signal}

/-- What is taken over is the NONE episode of `c`, by a direction without an episode in `c`. -/
theorem TurnEffect.former_iff (h : TurnEffect call l c done s) (hd : d ∉ done) (hn : .none ∉ done)
    (hr : call.Renews l c d)
    (hc : Composes s s' call.draws (call.keyOf l d) (call.members l c d) call.features call.nowTs
      identity former) : former.isSome ↔ call.Taken l c (d :: done) ∧ ¬ call.Taken l c done := by
  rw [taken_cons]
  cases hc.origin with
  | continued existing hl =>
    have ha := ((h.untouched hd).1 (live?_eq_some.1 hl).1).1
    simp [ha]
  | taken noneSignal hk hdir hs hl =>
    have ha := ((h.untouched hn).1 (live?_eq_some.1 hl).1)
    have hnone : c.active.get? (call.keyOf l d) = none := by
      cases hk' : c.active.get? (call.keyOf l d) with
      | none => rfl
      | some sig =>
        have hkept := (h.untouched hd).2 ⟨hk', fun he => hdir he.1⟩
        rw [h.live.live?, hkept] at hk
        cases hk
    -- The flag says whether an earlier direction of this turn has taken it.
    have hs' : ¬ call.Taken l c done := mt h.stolen.2 hs
    have hdir' : d ≠ .none := hdir
    simp only [Option.isSome_some, true_iff]
    exact ⟨.inr ⟨⟨_, ha.1⟩, hdir', hr, hnone⟩, hs'⟩
  | fresh hk hor =>
    simp only [Option.isSome_none, Bool.false_eq_true, false_iff, not_and, not_not]
    rintro (ht | ⟨⟨sig, hsig⟩, hdir, -, -⟩)
    · exact ht
    · rcases hor with hor | hor | hor
      · exact absurd hor hdir
      · exact h.stolen.1 hor
      · by_contra ht
        have hkept := (h.untouched hn).2 ⟨hsig, fun he => ht he.2⟩
        rw [h.live.live?] at hor
        exact absurd (hor.symm.trans hkept) (by simp)

theorem TurnEffect.taken_iff (h : TurnEffect call l c done s) (hd : d ∉ done) (hn : .none ∉ done)
    (hr : call.Renews l c d)
    (hc : Composes s s' call.draws (call.keyOf l d) (call.members l c d) call.features call.nowTs
      identity former) : call.Taken l c (d :: done) ↔ former.isSome ∨ call.Taken l c done := by
  have hover := h.former_iff hd hn hr hc
  constructor
  · intro ht
    by_cases hdone : call.Taken l c done
    · exact .inr hdone
    · exact .inl (hover.2 ⟨ht, hdone⟩)
  · rintro (ho | hdone)
    · exact (hover.1 ho).1
    · exact taken_cons.2 (.inl hdone)

/-- The events of the episode that is taken over. -/
theorem TurnEffect.former_lists (h : TurnEffect call l c done s) (hn : .none ∉ done)
    (hc : Composes s s' call.draws (call.keyOf l d) (call.members l c d) call.features call.nowTs
      identity former) {i : String} (hi : i ∈ overIds former) :
    former.isSome ∧ d ≠ .none ∧ c.Lists (call.keyOf l .none) i := by
  cases hc.origin with
  | continued => cases hi
  | taken noneSignal _ hdir _ hl => exact ⟨rfl, hdir, _, ((h.untouched hn).1 (live?_eq_some.1 hl).1).1, hi⟩
  | fresh => cases hi

/-- A direction whose episode is composed. -/
theorem TurnEffect.compose (h : TurnEffect call l c done s)
    (hrec : ∀ e ∈ call.recent, c.cutoff call.nowTs ≤ e.marketTimestamp)
    (hids : ∀ e ∈ call.recent, ∀ e' ∈ call.recent, e.id = e'.id → e = e')
    (hd : d ∉ done) (hn : .none ∉ done) (hr : call.Renews l c d)
    (hc : Composes s s' call.draws (call.keyOf l d) (call.members l c d) call.features call.nowTs
      identity former) : TurnEffect call l c (d :: done) s' := by
  have hmem : ∀ e ∈ call.members l c d, e ∈ call.recent := fun e he =>
    (SymbolCall.mem_members.1 he).1.1
  have hne : call.members l c d ≠ [] := by
    obtain ⟨e, he, -⟩ := hr
    exact List.ne_nil_of_mem he
  have htaken := h.taken_iff hd hn hr hc
  refine ⟨?_, hc.lookback.trans h.lookback, hc.accepted.trans h.accepted, ?_, ?_, ?_, ?_, ?_⟩
  · refine hc.allLive h.live hne fun e he => ?_
    rw [cutoff_congr h.lookback]
    exact hrec e (hmem e he)
  · -- The directions composed so far keep their signals: none of them is `d`, and none is NONE.
    intro d' hd' hr'
    rcases List.mem_cons.1 hd' with rfl | hd'
    · refine ⟨_, (hc.active _).trans (if_pos rfl), rfl, ?_⟩
      rw [signalOf_market hne]
      intro e he
      exact (sortMembers_getLast (hne : sortMembers _ ≠ [])).2 e (mem_sortMembers.1 he)
    · obtain ⟨sig, ha, rest⟩ := h.composed d' hd' hr'
      refine ⟨sig, ?_, rest⟩
      have hdd : call.keyOf l d' ≠ call.keyOf l d := fun he => hd (keyOf_inj.1 he ▸ hd')
      have hdn : call.keyOf l d' ≠ call.keyOf l .none := fun he => hn (keyOf_inj.1 he ▸ hd')
      rw [hc.active, if_neg hdd, if_neg fun he => hdn he.2]
      exact ha
  · -- Elsewhere only the NONE episode can have gone, and then it has been taken.
    intro k sig hk
    have hkd : k ≠ call.keyOf l d := hk d List.mem_cons_self hr
    have hk' := h.kept k sig fun d' hd' => hk d' (List.mem_cons_of_mem _ hd')
    have hnk : (call.keyOf l d).noneKey = call.keyOf l .none := rfl
    rw [hc.active, if_neg hkd, htaken, hnk]
    by_cases ho : former.isSome ∧ k = call.keyOf l .none
    · rw [if_pos ho]
      simp [ho.1, ho.2]
    · rw [if_neg ho, hk']
      refine and_congr_right fun _ => not_congr (and_congr_right fun hkn => ?_)
      exact (or_iff_right fun h => ho ⟨h, hkn⟩).symm
  · rw [hc.stolen]
    by_cases ho : former.isSome
    · rw [if_pos ho]
      exact iff_of_true List.mem_cons_self (htaken.2 (.inl ho))
    · rw [if_neg ho, h.stolen, htaken]
      exact (or_iff_right ho).symm
  · intro d' hd' hr' i hi
    rw [hc.home]
    rcases List.mem_cons.1 hd' with rfl | hd'
    · exact .inl (if_pos (.inl hi))
    · by_cases hor : i ∈ (call.members l c d).map (·.id) ∨ i ∈ overIds former
      · rw [if_pos hor]
        rcases hor with hm | ho
        · -- the members of two directions are different events
          obtain ⟨e, he, rfl⟩ := List.mem_map.1 hm
          obtain ⟨e', he', heq⟩ := List.mem_map.1 hi
          have hee := hids e' (SymbolCall.mem_members.1 he').1.1 e (hmem e he) heq
          subst hee
          exact absurd (SymbolCall.members_disjoint he' he ▸ hd') hd
        · obtain ⟨-, hdir, hlists⟩ := h.former_lists hn hc ho
          exact .inr ⟨hlists, fun he => hn (he ▸ hd'), d, fun he => hd (he ▸ hd'), hdir, hr⟩
      · rw [if_neg hor]
        exact h.home d' hd' hr' i hi
  · -- An event that is in neither list keeps its home.
    intro i hi ht
    rw [hc.home, if_neg]
    · refine h.homeKept i (fun d' hd' => hi d' (List.mem_cons_of_mem _ hd')) fun ht' => ht ⟨?_, ht'.2⟩
      exact taken_cons.2 (.inl ht'.1)
    · rintro (hm | ho)
      · exact hi d List.mem_cons_self hr hm
      · obtain ⟨hsome, -, hlists⟩ := h.former_lists hn hc ho
        exact ht ⟨htaken.2 (.inl hsome), hlists⟩

end Compose

/-- **One direction more.** -/
theorem TurnEffect.step (h : TurnEffect call l c done s)
    (hrec : ∀ e ∈ call.recent, c.cutoff call.nowTs ≤ e.marketTimestamp)
    (hids : ∀ e ∈ call.recent, ∀ e' ∈ call.recent, e.id = e'.id → e = e')
    (hd : d ∉ done) (hn : .none ∉ done) (hst : call.DirStep l c d s s') :
    TurnEffect call l c (d :: done) s' := by
  cases hst with
  | skip hr hs => exact hs ▸ h.skip hr
  | compose hr identity former hc => exact h.compose hrec hids hd hn hr hc

end Turn

/-- **A whole turn**, when the batch has an event of the lineage. -/
theorem lineageTurn_effect {call : SymbolCall} {l : Lineage} {s s' : ComposeState}
    (hlive : AllLive call.nowTs s.composer) (hst : (call.symbol, l) ∉ s.stolenNone)
    (hrec : ∀ e ∈ call.recent, s.composer.cutoff call.nowTs ≤ e.marketTimestamp)
    (hids : ∀ e ∈ call.recent, ∀ e' ∈ call.recent, e.id = e'.id → e = e')
    (hb : ∃ e ∈ call.batch, lineageOf e.type = l) (h : call.LineageChain l s s') :
    TurnEffect call l s.composer [.none, .down, .up] s' := by
  cases h with
  | skip h _ =>
    obtain ⟨e, he, hl⟩ := hb
    exact absurd hl (h e he)
  | turn _ s₁ s₂ up down none =>
    have h1 := (TurnEffect.init hlive hst).step hrec hids (by simp) (by simp) up
    have h2 := h1.step hrec hids (by simp) (by simp) down
    exact h2.step hrec hids (by simp) (by simp) none

end MarketSentinel
