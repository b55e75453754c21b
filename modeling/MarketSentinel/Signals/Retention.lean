import MarketSentinel.Signals.Membership

/-!
# Which events stay listed

An accepted event inside the look-back is `Covered` when some active signal lists it. A call
drops a NONE event when neither of two things holds of the state before it (`Retained`): the
event is selected and its target is composed, or an episode that lists it is left alone.

* `TurnEffect.listed`: what is listed after a lineage's turn, by the state before.
* `covered_consumeSymbol`: a call keeps every event covered exactly when it retains the NONE
  events (`KeepsAll`).
* `event_retained`: in runs of such calls, every event of the look-back is listed.
-/

namespace MarketSentinel

open Lib Machine SignalComposer

/-- Where an event of a batch goes, given the target of the NONE events. -/
def destOf (target : EventDirection) (e : MarketEvent) : EventDirection :=
  if e.direction = .none then target else e.direction

namespace SignalComposer

/-- The directions that a batch renews in a lineage. -/
def renewedBy (c : SignalComposer) (symbol : String) (batch : List MarketEvent) (lineage : Lineage) :
    List EventDirection :=
  (ofLineage lineage batch).map (destOf (c.targetAt symbol batch lineage))

/-- A NONE event of the look-back stays listed through a call on a batch of its lineage: it is
selected and its target is renewed, or a live episode that lists it is neither renewed nor, being
the NONE episode, taken over by a renewed direction without a live episode. -/
def Retained (c : SignalComposer) (symbol : String) (batch : List MarketEvent) (e : MarketEvent) :
    Prop :=
  let lineage := lineageOf e.type
  let target := c.targetAt symbol batch lineage
  (target ∈ c.renewedBy symbol batch lineage ∧
      c.selects symbol lineage ((ofLineage lineage batch).map (·.id)) target e = true) ∨
    ∃ d ∈ [EventDirection.none, .down, .up], d ∉ c.renewedBy symbol batch lineage ∧
      (∃ sig ∈ (c.live? (latestTs batch) ⟨symbol, lineage, d⟩).toList, e.id ∈ sig.eventIds) ∧
      (d = .none → ∀ d' ∈ c.renewedBy symbol batch lineage, d' ≠ .none →
        (c.live? (latestTs batch) ⟨symbol, lineage, d'⟩).isSome)

instance (c : SignalComposer) (symbol : String) (batch : List MarketEvent) (e : MarketEvent) :
    Decidable (c.Retained symbol batch e) :=
  inferInstanceAs (Decidable ((_ ∧ _ = true) ∨ ∃ d ∈ [EventDirection.none, .down, .up], _))

/-- The call retains the NONE events of the look-back, in the lineages of its batch. -/
def KeepsAll (c : SignalComposer) (symbol : String) (batch : List MarketEvent) : Prop :=
  ∀ e ∈ c.accepted.getD symbol [], c.cutoff (latestTs batch) ≤ e.marketTimestamp →
    e.direction = .none → (∃ b ∈ batch, lineageOf b.type = lineageOf e.type) →
      c.Retained symbol batch e

instance (c : SignalComposer) (symbol : String) (batch : List MarketEvent) :
    Decidable (c.KeepsAll symbol batch) :=
  inferInstanceAs (Decidable (∀ e ∈ c.accepted.getD symbol [], _))

/-- Every accepted event of the symbol is listed by an active signal. -/
def Covered (c : SignalComposer) (symbol : String) : Prop :=
  ∀ e ∈ c.accepted.getD symbol [], ∃ k, c.Lists k e.id

end SignalComposer

/-! ## A lineage's turn -/

section Turn

variable {call : SymbolCall} {l : Lineage} {c₀ c c' : SignalComposer} {s s' : ComposeState}
  {d : EventDirection}

/-- What is listed after a turn that starts from a composer like `c`. -/
def SymbolCall.ListedAt (call : SymbolCall) (l : Lineage) (c : SignalComposer) (e : MarketEvent) :
    Prop :=
  (∃ d, call.Renews l c d ∧ e ∈ call.members l c d) ∨
    ∃ d, ¬ call.Renews l c d ∧ c.Lists (call.keyOf l d) e.id ∧
      ¬ (d = .none ∧ call.Taken l c [.none, .down, .up])

theorem SameAt.lists (h : SameAt call l c c') {i : String} :
    c'.Lists (call.keyOf l d) i ↔ c.Lists (call.keyOf l d) i := by
  unfold SignalComposer.Lists
  rw [h.active]

theorem SameAt.listedAt (h : SameAt call l c c') (e : MarketEvent) :
    call.ListedAt l c' e ↔ call.ListedAt l c e := by
  unfold SymbolCall.ListedAt SymbolCall.Taken
  simp only [h.renews, h.members, h.lists, h.active]

/-- **What a turn leaves listed.** -/
theorem TurnEffect.listed {seen : Set String} (h : TurnEffect call l c [.none, .down, .up] s)
    (hbook : Book seen call.symbol c) (hrec : call.recent = c.accepted.getD call.symbol [])
    {e : MarketEvent} (he : e ∈ call.recent) :
    (∃ d, s.composer.Lists (call.keyOf l d) e.id) ↔ call.ListedAt l c e := by
  constructor
  · rintro ⟨d, hl⟩
    rcases h.lists hl with ⟨d', hr, -, hi⟩ | ⟨hk, hl, hn⟩
    · obtain ⟨e', he', heq⟩ := List.mem_map.1 hi
      have hee := hbook.ids (hrec ▸ (SymbolCall.mem_members.1 he').1.1) (hrec ▸ he) heq
      exact .inl ⟨d', hr, hee ▸ he'⟩
    · exact .inr ⟨d, fun hr => hk d hr rfl, hl, fun hn' => hn ⟨keyOf_inj.2 hn'.1, hn'.2⟩⟩
  · rintro (⟨d, hr, hm⟩ | ⟨d, hr, ⟨sig, ha, hi⟩, hn⟩)
    · obtain ⟨sig, ha, hids, -⟩ := h.composed d (mem_directions d) hr
      exact ⟨d, sig, ha, by rw [hids]; exact List.mem_map.2 ⟨e, hm, rfl⟩⟩
    · refine ⟨d, sig, (h.kept _ sig fun d' _ hr' he' => ?_).2 ⟨ha, fun hn' => ?_⟩, hi⟩
      · exact hr (keyOf_inj.1 he' ▸ hr')
      · exact hn ⟨keyOf_inj.1 hn'.1, hn'.2⟩

end Turn

/-! ## A whole call -/

section Call

variable {seen : Set String} {symbol : String} {c : SignalComposer} {batch : List MarketEvent}

/-- What a call leaves listed, by the state after it accepted the batch. -/
theorem consumeSymbol_listed (h : Book seen symbol c) (hb : FreshBatch seen symbol batch)
    (draws : Draws) (features : MarketFeatures) {e : MarketEvent} (he : e ∈ c.recentAt symbol batch) :
    let call := c.callFor draws symbol batch features
    let c₀ := c.accept symbol batch
    let c' := (c.consumeSymbol draws symbol batch features).2
    (∃ k, c'.Lists k e.id) ↔
      if ∃ b ∈ batch, lineageOf b.type = lineageOf e.type then call.ListedAt (lineageOf e.type) c₀ e
      else ∃ k, c₀.Lists k e.id := by
  obtain ⟨h0, s₁, s₂, ht1, h1, ht2, h2, heq⟩ := consumeSymbol_turns h hb draws features
  dsimp only
  rw [heq]
  set call := c.callFor draws symbol batch features
  set c₀ := c.accept symbol batch
  have hc₀ : c₀.accepted.getD symbol [] = c.recentAt symbol batch := by
    rw [accept_accepted, if_pos rfl]; rfl
  have herec : e ∈ call.recent := by show e ∈ c₀.accepted.getD symbol []; rw [hc₀]; exact he
  -- a listed recent event is listed in its own lineage
  have own : ∀ {c' : SignalComposer}, Book (seen ∪ idsOf batch) symbol c' →
      c'.accepted = c₀.accepted →
      ((∃ k, c'.Lists k e.id) ↔ ∃ d, c'.Lists (call.keyOf (lineageOf e.type) d) e.id) := by
    intro c' hbook hacc
    constructor
    · rintro ⟨⟨ks, kl, kd⟩, hl⟩
      obtain ⟨sig, ha, hi⟩ := hl
      have hsym : ks = symbol := hbook.one ha
      have hlin : lineageOf e.type = kl :=
        (hbook.typed (by rw [hacc, hc₀]; exact he) ⟨sig, ha, hi⟩).1
      rw [hsym, ← hlin] at ha
      exact ⟨kd, sig, ha, hi⟩
    · rintro ⟨d, hl⟩
      exact ⟨_, hl⟩
  -- the turn of the event's lineage
  have turn : ∀ {s s' : ComposeState}, CallInv (seen ∪ idsOf batch) call c₀ [lineageOf e.type] s →
      Turned call (lineageOf e.type) s s' →
      ((∃ d, s'.composer.Lists (call.keyOf (lineageOf e.type) d) e.id) ↔
        if ∃ b ∈ batch, lineageOf b.type = lineageOf e.type then
          call.ListedAt (lineageOf e.type) c₀ e
        else ∃ k, c₀.Lists k e.id) := by
    intro s s' hs ht
    have hsame := hs.same _ (List.mem_singleton_self _)
    rcases ht with ⟨hn, rfl⟩ | ⟨hbl, heff⟩
    · rw [if_neg (by push Not; exact hn), own h0.book rfl]
      exact exists_congr fun d => hsame.lists
    · have hbl' : ∃ b ∈ batch, lineageOf b.type = lineageOf e.type := hbl
      rw [if_pos hbl', ← hsame.listedAt]
      exact heff.listed hs.book (by rw [hs.accepted]; rfl) herec
  have hnil := own h2.book h2.accepted
  rw [hnil]
  cases hl : lineageOf e.type with
  | vwap => rw [hl] at turn; exact turn h1 ht2
  | tape =>
    rw [hl] at turn
    have hfirst := turn ⟨h0.book, h0.live, h0.lookback, h0.accepted,
      fun l hl' => h0.stolen l (by simp at hl'; simp [hl']),
      fun l hl' => h0.same l (by simp at hl'; simp [hl'])⟩ ht1
    rw [← hfirst]
    -- the other turn leaves the tape alone
    rcases ht2 with ⟨-, rfl⟩ | ⟨-, heff⟩
    · exact Iff.rfl
    · have hsame := heff.sameAt h1.book (by rw [h1.accepted]; rfl)
        (show Lineage.tape ≠ .vwap by simp)
      exact exists_congr fun d => hsame.lists

/-- An event of the batch is a member of the episode it goes to. -/
theorem mem_members_batch (h : Book seen symbol c) (hb : FreshBatch seen symbol batch)
    (hts : ∀ b ∈ batch, c.cutoff (latestTs batch) ≤ b.marketTimestamp) (draws : Draws)
    (features : MarketFeatures) {b : MarketEvent} (hbm : b ∈ batch) :
    b ∈ (c.callFor draws symbol batch features).members (lineageOf b.type) (c.accept symbol batch)
      (destOf (c.targetAt symbol batch (lineageOf b.type)) b) := by
  refine SymbolCall.mem_members.2 ⟨⟨?_, rfl⟩, ?_, ?_⟩
  · show b ∈ (c.accept symbol batch).accepted.getD symbol []
    rw [accept_accepted, if_pos rfl, List.mem_filter, decide_eq_true_eq]
    exact ⟨List.mem_append_right _ hbm, hts b hbm⟩
  · unfold selects
    split
    · rfl
    · -- a new event has no home
      cases hh : (c.accept symbol batch).home.get? b.id with
      | some k => exact absurd (h.homeSeen (accept_home.1 hh).1) (hb.unseen b hbm)
      | none =>
        refine decide_eq_true (List.mem_map.2 ⟨b, ?_, rfl⟩)
        exact List.mem_filter.2 ⟨hbm, decide_eq_true rfl⟩
  · rw [noneTarget_callFor]
    unfold destOf
    split <;> rfl

/-- The directions composed in a lineage are those that the batch renews. -/
theorem renews_iff (h : Book seen symbol c) (hb : FreshBatch seen symbol batch)
    (hts : ∀ b ∈ batch, c.cutoff (latestTs batch) ≤ b.marketTimestamp) (draws : Draws)
    (features : MarketFeatures) {l : Lineage} {d : EventDirection} :
    (c.callFor draws symbol batch features).Renews l (c.accept symbol batch) d ↔
      d ∈ c.renewedBy symbol batch l := by
  unfold renewedBy
  rw [List.mem_map]
  constructor
  · intro hr
    obtain ⟨b, hbm, hd⟩ := renews_dir (callFor_batchIds h hb draws features) hr
    refine ⟨b, hbm, ?_⟩
    unfold destOf
    rcases hd with ⟨hd, ht⟩ | ⟨hd, ht⟩
    · rw [if_pos hd, ← noneTarget_callFor draws features]; exact ht
    · rw [if_neg hd]; exact ht
  · rintro ⟨b, hbm, hd⟩
    rw [ofLineage, List.mem_filter, decide_eq_true_eq] at hbm
    obtain ⟨hbm, rfl⟩ := hbm
    exact ⟨b, hd ▸ mem_members_batch h hb hts draws features hbm, List.mem_map.2 ⟨b, hbm, rfl⟩⟩

/-- An old event of the look-back keeps its listing and its home when the batch is accepted. -/
theorem accept_old (h : Book seen symbol c) {e : MarketEvent} (he : e ∈ c.accepted.getD symbol [])
    (hts : c.cutoff (latestTs batch) ≤ e.marketTimestamp) :
    (∀ k, (c.accept symbol batch).Lists k e.id ↔ c.Lists k e.id) ∧
      (c.accept symbol batch).home.get? e.id = c.home.get? e.id := by
  have hlive : ∀ {k sig}, c.active.get? k = some sig → e.id ∈ sig.eventIds →
      ¬ c.Expired (latestTs batch) sig := by
    intro k sig ha hi hx
    exact absurd (hts.trans (h.latest he ha hi)) (not_le.2 hx)
  constructor
  · intro k
    constructor
    · rintro ⟨sig, ha, hi⟩
      exact ⟨sig, (accept_active.1 ha).1, hi⟩
    · rintro ⟨sig, ha, hi⟩
      exact ⟨sig, accept_active.2 ⟨ha, hlive ha hi⟩, hi⟩
  · apply Option.ext
    intro k
    rw [accept_home]
    exact and_iff_left fun sig ha hx hi => hlive ha hi hx

/-- A NONE event stays listed through a turn exactly when the state before retains it. -/
theorem listedAt_retained (h : Book seen symbol c) (hb : FreshBatch seen symbol batch)
    (hts : ∀ b ∈ batch, c.cutoff (latestTs batch) ≤ b.marketTimestamp) (draws : Draws)
    (features : MarketFeatures) {e : MarketEvent} (he : e ∈ c.accepted.getD symbol [])
    (hets : c.cutoff (latestTs batch) ≤ e.marketTimestamp) (hnone : e.direction = .none) :
    (c.callFor draws symbol batch features).ListedAt (lineageOf e.type) (c.accept symbol batch) e ↔
      c.Retained symbol batch e := by
  obtain ⟨hlists, hhome⟩ := accept_old h he hets
  have hrec : e ∈ (c.callFor draws symbol batch features).recent := by
    show e ∈ (c.accept symbol batch).accepted.getD symbol []
    rw [accept_accepted, if_pos rfl, List.mem_filter, decide_eq_true_eq]
    exact ⟨List.mem_append_left _ he, hets⟩
  -- Accepting the batch moves no home, so the same events are selected.
  have hsel : ∀ ids target, (c.accept symbol batch).selects symbol (lineageOf e.type) ids target e =
      c.selects symbol (lineageOf e.type) ids target e := by
    intro ids target
    unfold selects
    rw [hhome]
  unfold SymbolCall.ListedAt Retained SymbolCall.Taken
  dsimp only
  simp only [renews_iff h hb hts]
  refine or_congr ?_ (exists_congr fun d => ?_)
  · constructor
    · rintro ⟨d, hr, hm⟩
      obtain ⟨-, hs, hd⟩ := SymbolCall.mem_members.1 hm
      rw [if_pos hnone] at hd
      rw [noneTarget_callFor] at hs hd
      exact ⟨hd ▸ hr, (hsel _ _).symm.trans hs⟩
    · rintro ⟨hr, hs⟩
      refine ⟨_, hr, SymbolCall.mem_members.2 ⟨⟨hrec, rfl⟩, ?_, ?_⟩⟩
      · rw [noneTarget_callFor]; exact (hsel _ _).trans hs
      · rw [if_pos hnone, noneTarget_callFor]
  · have hkey : ∀ d', (c.callFor draws symbol batch features).keyOf (lineageOf e.type) d' =
        ⟨symbol, lineageOf e.type, d'⟩ := fun _ => rfl
    simp only [hkey, accept_active_eq]
    have hlist : (c.accept symbol batch).Lists ⟨symbol, lineageOf e.type, d⟩ e.id ↔
        ∃ sig ∈ (c.live? (latestTs batch) ⟨symbol, lineageOf e.type, d⟩).toList,
          e.id ∈ sig.eventIds := by
      unfold SignalComposer.Lists
      simp only [accept_active_eq, Option.mem_toList]
    rw [← hlist]
    constructor
    · -- A NONE episode that was not taken over: no renewed direction was without an episode.
      rintro ⟨hr, hl, hn⟩
      refine ⟨by cases d <;> simp, hr, hl, fun hd d' hr' hne => ?_⟩
      subst hd
      by_contra hlive
      obtain ⟨sig, ha, -⟩ := hl
      rw [accept_active_eq] at ha
      exact hn ⟨rfl, ⟨sig, ha⟩, d', mem_directions d', hne, hr',
        Option.not_isSome_iff_eq_none.1 hlive⟩
    · rintro ⟨-, hr, hl, hn⟩
      refine ⟨hr, hl, fun hd => ?_⟩
      obtain ⟨hd, -, d', -, hne, hr', hlive⟩ := hd
      have := hn hd d' hr' hne
      rw [hlive] at this
      cases this

/-- **A call keeps every event covered exactly when it retains the NONE events.** -/
theorem covered_consumeSymbol (h : Book seen symbol c) (hcov : c.Covered symbol)
    (hb : FreshBatch seen symbol batch)
    (hts : ∀ b ∈ batch, c.cutoff (latestTs batch) ≤ b.marketTimestamp) (draws : Draws)
    (features : MarketFeatures) :
    (c.consumeSymbol draws symbol batch features).2.Covered symbol ↔ c.KeepsAll symbol batch := by
  have hacc : (c.consumeSymbol draws symbol batch features).2.accepted.getD symbol [] =
      c.recentAt symbol batch := by
    obtain ⟨-, s₁, s₂, -, -, -, h2, heq⟩ := consumeSymbol_turns h hb draws features
    rw [heq]
    show s₂.composer.accepted.getD symbol [] = _
    rw [h2.accepted, accept_accepted, if_pos rfl]
    rfl
  unfold SignalComposer.Covered
  rw [hacc]
  have hmem : ∀ {e}, e ∈ c.recentAt symbol batch ↔
      (e ∈ c.accepted.getD symbol [] ∨ e ∈ batch) ∧
        c.cutoff (latestTs batch) ≤ e.marketTimestamp := by
    intro e
    unfold recentAt
    rw [List.mem_filter, List.mem_append, decide_eq_true_eq]
  constructor
  · -- An event that stays covered is listed at its lineage, so the state before retains it.
    intro hall e he hets hnone hbl
    have hl := (consumeSymbol_listed h hb draws features (hmem.2 ⟨.inl he, hets⟩)).1
      (hall e (hmem.2 ⟨.inl he, hets⟩))
    rw [if_pos hbl] at hl
    exact (listedAt_retained h hb hts draws features he hets hnone).1 hl
  · -- What is in the window afterwards was accepted before or came with the batch.
    intro hkeep e he
    refine (consumeSymbol_listed h hb draws features he).2 ?_
    obtain ⟨hor, hets⟩ := hmem.1 he
    split
    · rename_i hbl
      have hrec : e ∈ (c.callFor draws symbol batch features).recent := by
        show e ∈ (c.accept symbol batch).accepted.getD symbol []
        rw [accept_accepted, if_pos rfl]; exact he
      rcases hor with hold | hnew
      · by_cases hnone : e.direction = .none
        · exact (listedAt_retained h hb hts draws features hold hets hnone).2
            (hkeep e hold hets hnone hbl)
        · -- a directional event stays in the episode of its direction
          by_cases hr : (c.callFor draws symbol batch features).Renews (lineageOf e.type)
              (c.accept symbol batch) e.direction
          · refine .inl ⟨_, hr, SymbolCall.mem_members.2 ⟨⟨hrec, rfl⟩, ?_, by rw [if_neg hnone]⟩⟩
            unfold selects
            rw [if_pos hnone]
          · -- Its direction is not renewed, so the episode that lists it is left alone.
            obtain ⟨k, hl⟩ := hcov e hold
            obtain ⟨sig, ha, hi⟩ := id hl
            obtain ⟨hlin, hdir⟩ := h.typed hold hl
            have hk : k = (c.callFor draws symbol batch features).keyOf (lineageOf e.type)
                e.direction := by
              obtain ⟨ks, kl, kd⟩ := k
              have hsym : ks = symbol := h.one ha
              have hlin' : kl = lineageOf e.type := hlin.symm
              have hdir' : kd = e.direction := (hdir hnone).symm
              rw [hsym, hlin', hdir']; rfl
            refine .inr ⟨e.direction, hr, ?_, fun hn => hnone hn.1⟩
            exact hk ▸ ((accept_old h hold hets).1 k).2 hl
      · -- an event of the batch goes to a renewed direction
        have hd : destOf (c.targetAt symbol batch (lineageOf e.type)) e ∈
            c.renewedBy symbol batch (lineageOf e.type) :=
          List.mem_map.2 ⟨e, List.mem_filter.2 ⟨hnew, decide_eq_true rfl⟩, rfl⟩
        exact .inl ⟨_, (renews_iff h hb hts draws features).2 hd,
          mem_members_batch h hb hts draws features hnew⟩
    · rename_i hbl
      rcases hor with hold | hnew
      · obtain ⟨k, hl⟩ := hcov e hold
        exact ⟨k, ((accept_old h hold hets).1 k).2 hl⟩
      · exact absurd ⟨e, hnew, rfl⟩ hbl

end Call

/-! ## Whole runs -/

theorem consumeSymbol_lookback {seen : Set String} {symbol : String} {c : SignalComposer}
    {batch : List MarketEvent} (h : Book seen symbol c) (hb : FreshBatch seen symbol batch)
    (draws : Draws) (features : MarketFeatures) :
    (c.consumeSymbol draws symbol batch features).2.lookbackS = c.lookbackS ∧
      (c.consumeSymbol draws symbol batch features).2.accepted.getD symbol [] =
        c.recentAt symbol batch := by
  obtain ⟨-, s₁, s₂, -, -, -, h2, heq⟩ := consumeSymbol_turns h hb draws features
  rw [heq]
  refine ⟨h2.lookback.trans accept_lookback, ?_⟩
  show s₂.composer.accepted.getD symbol [] = _
  rw [h2.accepted, accept_accepted, if_pos rfl]
  rfl

/-- The consumed events that are inside the look-back of every time from the last call on are
still accepted. -/
def Remembers (symbol : String) (lookbackS : ℚ) (calls : List BatchCall) (c : SignalComposer) : Prop :=
  ∀ call ∈ calls, ∀ e ∈ call.events, ∀ t, (∀ call' ∈ calls, call'.ts ≤ t) →
    t - lookbackS ≤ e.marketTimestamp → e ∈ c.accepted.getD symbol []

theorem Remembers.snoc {symbol : String} {lookbackS : ℚ} {pre : List BatchCall} {call : BatchCall}
    {c c' : SignalComposer} (h : Remembers symbol lookbackS pre c) (hl : 0 ≤ lookbackS)
    (hts : ∀ e ∈ call.events, e.marketTimestamp = call.ts)
    (hc : ∀ e, (e ∈ c.accepted.getD symbol [] ∨ e ∈ call.events) →
      call.ts - lookbackS ≤ e.marketTimestamp → e ∈ c'.accepted.getD symbol []) :
    Remembers symbol lookbackS (pre ++ [call]) c' := by
  intro call₁ hm e he t ht hte
  have hcall : call.ts ≤ t := ht call (by simp)
  rcases List.mem_append.1 hm with hm | hm
  · have hold := h call₁ hm e he t (fun call' hc' => ht call' (by simp [hc'])) hte
    exact hc e (.inl hold) (by linarith)
  · rw [List.mem_singleton] at hm
    subst hm
    exact hc e (.inr he) (by rw [hts e he]; linarith)

/-- **In runs whose calls retain the NONE events, every event inside the look-back of the last call
is listed by an active signal.** -/
theorem event_retained {symbol : String} {calls : List BatchCall} {c : SignalComposer}
    {lookbackS : ℚ} {hl : 0 ≤ lookbackS} (hrun : SingleSymbolRun symbol calls)
    (hkeep : Along batchStep (fun c call => c.KeepsAll symbol call.events)
      (SignalComposer.new lookbackS hl) calls)
    (hr : run batchStep (SignalComposer.new lookbackS hl) calls = some c) :
    ∀ last ∈ calls.getLast?, ∀ e ∈ calls.flatMap (·.events), last.ts - lookbackS ≤ e.marketTimestamp →
      ∃ signal ∈ c.activeSignals symbol, e.id ∈ signal.eventIds := by
  have hinv : Book (idsIn calls) symbol c ∧ c.lookbackS = lookbackS ∧ c.Covered symbol ∧
      Remembers symbol lookbackS calls c := by
    refine run_history (I := fun pre c => Book (idsIn pre) symbol c ∧ c.lookbackS = lookbackS ∧
      c.Covered symbol ∧ Remembers symbol lookbackS pre c) ?_ ?_ hkeep hr
    · refine ⟨(book_new symbol hl).mono (Set.empty_subset _), rfl, fun e he => ?_, fun _ h => ?_⟩
      · cases he
      · cases h
    · intro pre call post c₁ c₂ heq hI hkeep₁ hstep
      obtain ⟨hbook, hlook, hcov, hrem⟩ := hI
      have hb : FreshBatch (idsIn pre) symbol call.events := (heq ▸ hrun).batch
      have hone : ∀ e ∈ call.events, e.marketTimestamp = call.ts := hrun.oneTs call (by simp [heq])
      rw [idsIn_snoc]
      rcases batchStep_eq hb.symbol hstep with ⟨hnil, rfl⟩ | ⟨hne, rfl⟩
      · refine ⟨hbook.mono Set.subset_union_left, hlook, hcov, hrem.snoc hl hone ?_⟩
        rintro e (he | he) -
        · exact he
        · rw [hnil] at he; cases he
      · have hlatest : latestTs call.events = call.ts := latestTs_eq hne hone
        have hts : ∀ b ∈ call.events, c₁.cutoff (latestTs call.events) ≤ b.marketTimestamp := by
          intro b hbm
          rw [hlatest, hone b hbm]
          exact sub_le_self _ c₁.lookback_nonneg
        obtain ⟨hlook', hacc⟩ := consumeSymbol_lookback hbook hb call.draws call.features
        refine ⟨hbook.consumeSymbol hb _ _, hlook'.trans hlook,
          (covered_consumeSymbol hbook hcov hb hts _ _).2 hkeep₁, hrem.snoc hl hone ?_⟩
        intro e he hets
        rw [hacc]
        refine List.mem_filter.2 ⟨List.mem_append.2 he, decide_eq_true ?_⟩
        unfold SignalComposer.cutoff
        rw [hlatest, hlook]
        exact hets
  obtain ⟨hbook, -, hcov, hrem⟩ := hinv
  intro last hlast e he hets
  obtain ⟨call, hcall, hecall⟩ := List.mem_flatMap.1 he
  -- the times do not decrease, so the last one is the largest
  have hmax : ∀ call' ∈ calls, call'.ts ≤ last.ts := by
    intro call' hc'
    obtain ⟨pre, rfl⟩ : ∃ pre, calls = pre ++ [last] :=
      ⟨calls.dropLast, (List.dropLast_append_getLast? last hlast).symm⟩
    have hs := hrun.sorted
    rw [List.map_append, List.pairwise_append] at hs
    rcases List.mem_append.1 hc' with hc' | hc'
    · exact hs.2.2 _ (List.mem_map.2 ⟨call', hc', rfl⟩) _ (by simp)
    · rw [List.mem_singleton] at hc'; rw [hc']
  obtain ⟨k, sig, ha, hi⟩ := hcov e (hrem call hcall e hecall last.ts hmax hets)
  exact ⟨sig, mem_activeSignals.2 ⟨k, hbook.one ha, ha⟩, hi⟩

/-- A NONE episode, then a batch with both directions. -/
def splitRun : List BatchCall :=
  [⟨prefixDraws "a" 0, [bareEvent "v" "A" .volumeSpike .none 0], bareFeatures "A" 0, 0⟩,
    ⟨prefixDraws "b" 1, [bareEvent "u" "A" .rapidMove .up 1, bareEvent "d" "A" .rapidMove .down 1],
      bareFeatures "A" 1, 1⟩]

theorem splitRun_single : SingleSymbolRun "A" splitRun :=
  ⟨by decide, by simp [splitRun, bareEvent], by decide +kernel, by decide⟩

/-- After `splitRun`, the NONE event is inside the look-back and no active signal lists it. -/
theorem event_lost :
    ¬ ∀ (symbol : String) (calls : List BatchCall) (c : SignalComposer), SingleSymbolRun symbol calls →
      run batchStep {} calls = some c → ∀ last ∈ calls.getLast?, ∀ e ∈ calls.flatMap (·.events),
        last.ts - clusterLookbackS ≤ e.marketTimestamp →
          ∃ signal ∈ c.activeSignals symbol, e.id ∈ signal.eventIds := by
  intro h
  have := h "A" splitRun _ splitRun_single rfl _ rfl (bareEvent "v" "A" .volumeSpike .none 0)
    (by decide) (by decide +kernel)
  revert this
  decide +kernel

/-- The NONE event is retained when the batch with both directions brings a NONE event too. -/
def rejoinedRun : List BatchCall :=
  [⟨prefixDraws "a" 0, [bareEvent "v" "A" .volumeSpike .none 0], bareFeatures "A" 0, 0⟩,
    ⟨prefixDraws "b" 1, [bareEvent "u" "A" .rapidMove .up 1, bareEvent "d" "A" .rapidMove .down 1,
      bareEvent "w" "A" .volumeSpike .none 1], bareFeatures "A" 1, 1⟩]

theorem event_retained_rejoined : ∃ c, run batchStep {} rejoinedRun = some c ∧
    ∀ e ∈ rejoinedRun.flatMap (·.events), 1 - clusterLookbackS ≤ e.marketTimestamp →
      ∃ signal ∈ c.activeSignals "A", e.id ∈ signal.eventIds := by
  have hr : run batchStep (.new clusterLookbackS clusterLookbackS_nonneg) rejoinedRun = some _ := rfl
  have hs : SingleSymbolRun "A" rejoinedRun :=
    ⟨by decide, by simp [rejoinedRun, bareEvent], by decide +kernel, by decide⟩
  exact ⟨_, hr, event_retained hs (by decide +kernel) hr _ rfl⟩

end MarketSentinel
