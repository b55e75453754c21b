import MarketSentinel.Signals.Episodes

/-!
# Look-back continuity

When the times of a composer's calls do not decrease, its directional entries are the signals that were
last produced under their keys, as far as these are inside the look-back (`Tracked`). So a directional
episode continues just as long as that, and an id that fell out of the look-back is gone for good.

* `Tracked.pruneActive`, `Tracked.compose`: what pruning and composing do to the last signals.
* `consumeSymbol_tracked`: what a call does, and that it continues the directional entries it finds.
* `gone_of_vacant`: the ids of a directional key without an entry never come back.
* `lookback_continuity`: when a batch reuses the last id of a direction.
-/

namespace MarketSentinel

open Lib Machine SignalComposer

/-- The key that a signal is filed under. -/
def Signal.key (s : Signal) : EpisodeKey := ⟨s.symbol, s.lineage, s.direction⟩

theorem Filed.key {p : EpisodeKey × Signal} (h : Filed p) : p.2.key = p.1 := by
  unfold Signal.key
  rw [h.symbol, h.lineage, h.direction]

/-- The last of the signals of a key. -/
def lastOf (signals : List Signal) (k : EpisodeKey) : Option Signal :=
  (signals.filter (·.key = k)).getLast?

theorem lastOf_snoc (signals : List Signal) (s : Signal) (k : EpisodeKey) :
    lastOf (signals ++ [s]) k = if s.key = k then some s else lastOf signals k := by
  unfold lastOf
  by_cases hk : s.key = k <;> simp [hk]

/-- The directional entries are the last signals of their keys that are inside the look-back of a
market time. -/
def Tracked (signals : List Signal) (t : ℚ) (c : SignalComposer) : Prop :=
  ∀ k : EpisodeKey, k.direction ≠ .none →
    c.active.get? k = (lastOf signals k).filter fun s => c.cutoff t ≤ s.marketTimestamp

variable {c : SignalComposer} {signals : List Signal} {t τ : ℚ}

theorem Tracked.active_iff (h : Tracked signals t c) {k : EpisodeKey} (hk : k.direction ≠ .none)
    {s : Signal} :
    c.active.get? k = some s ↔ lastOf signals k = some s ∧ c.cutoff t ≤ s.marketTimestamp := by
  rw [h k hk, Option.filter_eq_some_iff, decide_eq_true_eq]

/-- A later look-back. -/
theorem Tracked.pruneActive (h : Tracked signals τ c) (hle : τ ≤ t) :
    Tracked signals t (c.pruneActive t) := by
  intro k hk
  have hcutoff : c.cutoff τ ≤ c.cutoff t := sub_le_sub_right hle _
  ext s
  rw [pruneActive_active, h.active_iff hk, Option.filter_eq_some_iff, decide_eq_true_eq,
    cutoff_congr pruneActive_lookback]
  unfold Expired
  rw [not_lt, and_assoc]
  exact and_congr_right fun _ => ⟨And.right, fun hin => ⟨hcutoff.trans hin, hin⟩⟩

theorem Tracked.of_tables {c' : SignalComposer} (h : Tracked signals t c) (ha : c'.active = c.active)
    (hl : c'.lookbackS = c.lookbackS) : Tracked signals t c' := by
  intro k hk
  rw [ha, cutoff_congr hl]
  exact h k hk

theorem Tracked.prune (h : Tracked signals τ c) (hle : τ ≤ t) (symbol : String) :
    Tracked signals t (c.prune symbol t) :=
  (h.of_tables (trimAccepted_active symbol _) (trimAccepted_lookback symbol _)).pruneActive hle

theorem Tracked.accept {batch : List MarketEvent} (h : Tracked signals τ c) (hle : τ ≤ latestTs batch)
    (symbol : String) : Tracked signals (latestTs batch) (c.accept symbol batch) :=
  (h.of_tables (trimAccepted_active symbol _) (trimAccepted_lookback symbol _)).pruneActive hle

section Compose

variable {s s' : ComposeState} {draws : Draws} {key : EpisodeKey} {members : List MarketEvent}
  {features : MarketFeatures} {identity : String × ℚ} {former : Option Signal}

/-- A composition leaves the other directional entries alone. -/
theorem Composes.active_directional (h : Composes s s' draws key members features t identity former)
    {k : EpisodeKey} (hk : k.direction ≠ .none) (hne : k ≠ key) :
    s'.composer.active.get? k = s.composer.active.get? k := by
  rw [h.active, if_neg hne, if_neg]
  rintro ⟨-, rfl⟩
  exact hk rfl

/-- A composed signal is the last of its key. -/
theorem Tracked.compose (h : Tracked signals t s.composer)
    (hc : Composes s s' draws key members features t identity former)
    (hkey : (signalOf key members features identity).key = key)
    (hin : s.composer.cutoff t ≤ (signalOf key members features identity).marketTimestamp) :
    Tracked (signals ++ [signalOf key members features identity]) t s'.composer := by
  intro k hk
  rw [lastOf_snoc, hkey, cutoff_congr hc.lookback]
  by_cases hne : k = key
  · rw [hc.active, if_pos hne, if_pos hne.symm, Option.filter_some, if_pos (decide_eq_true hin)]
  · rw [hc.active_directional hk hne, if_neg (Ne.symm hne)]
    exact h k hk

/-- A live episode continues under its id. -/
theorem Composes.continues (h : Composes s s' draws key members features t identity former)
    (hlive : AllLive t s.composer) {existing : Signal} (ha : s.composer.active.get? key = some existing) :
    identity.1 = existing.id := by
  have hl := (hlive.live? key).trans ha
  cases h.origin with
  | continued existing' hl' => rw [Option.some.inj (hl'.symm.trans hl)]
  | taken noneSignal hk => cases hk.symm.trans hl
  | fresh hk => cases hk.symm.trans hl

end Compose

/-! ## One call -/

/-- The signal lists the members, and has the market time of the latest one. -/
structure Signal.ComposedOf (s : Signal) (members : List MarketEvent) : Prop where
  eventIds : s.eventIds = members.map (·.id)
  latest : IsGreatest {ts | ∃ e ∈ members, e.marketTimestamp = ts} s.marketTimestamp

theorem signalOf_composedOf {key : EpisodeKey} {l : List MarketEvent} (features : MarketFeatures)
    (identity : String × ℚ) (hne : sortMembers l ≠ []) :
    (signalOf key (sortMembers l) features identity).ComposedOf (sortMembers l) where
  eventIds := rfl
  latest := by
    obtain ⟨-, hlatest⟩ := sortMembers_getLast hne
    rw [signalOf_market hne]
    refine ⟨⟨_, List.getLast_mem hne, rfl⟩, ?_⟩
    rintro ts ⟨e, he, rfl⟩
    exact hlatest e (mem_sortMembers.1 he)

/-- What holds in a `_consume_symbol` call that began with the composer `c`, after the signals of the
calls before it. -/
structure Following (call : SymbolCall) (signals : List Signal) (c : SignalComposer) (s : ComposeState) :
    Prop where
  tracked : Tracked (signals ++ s.produced.map (·.1)) call.nowTs s.composer
  live : AllLive call.nowTs s.composer
  lookback : s.composer.lookbackS = c.lookbackS
  accepted : s.composer.accepted = c.accepted
  composed : ∀ q ∈ s.produced, ∃ members, members ⊆ call.recent ∧ q.1.ComposedOf members
  /-- A directional entry that the call found keeps its id. -/
  kept : ∀ k first, k.direction ≠ .none → c.active.get? k = some first →
    (∃ sig, s.composer.active.get? k = some sig ∧ sig.id = first.id) ∧
      ∀ q ∈ s.produced, q.1.key = k → q.1.id = first.id

variable {call : SymbolCall} {s s' : ComposeState}

/-- **One direction of a turn.** -/
theorem Following.step {lineage : Lineage} {start : SignalComposer} {d : EventDirection}
    (h : Following call signals c s) (hrecent : ∀ e ∈ call.recent, c.cutoff call.nowTs ≤ e.marketTimestamp)
    (hs : call.DirStep lineage start d s s') : Following call signals c s' := by
  cases hs with
  | skip _ hs => exact hs ▸ h
  | compose hr identity former hc =>
    have hmem : ∀ e ∈ call.members lineage start d, e ∈ call.recent ∧ lineageOf e.type = lineage :=
      fun e he => (SymbolCall.mem_members.1 he).1
    have hne : call.members lineage start d ≠ [] := by
      obtain ⟨e, he, -⟩ := hr
      exact List.ne_nil_of_mem he
    have hin : ∀ e ∈ call.members lineage start d, s.composer.cutoff call.nowTs ≤ e.marketTimestamp := by
      intro e he
      rw [cutoff_congr h.lookback]
      exact hrecent e (hmem e he).1
    have hkey := (@signalOf_filed (call.keyOf lineage d) _ call.features identity hne
      fun e he => (hmem e he).2).key
    refine ⟨?_, hc.allLive h.live hne hin, hc.lookback.trans h.lookback, hc.accepted.trans h.accepted,
      fun q hq => ?_, fun k first hk hfirst => ?_⟩
    · rw [hc.produced, List.map_append, ← List.append_assoc]
      refine h.tracked.compose hc hkey ?_
      rw [signalOf_market hne]
      exact hin _ (List.getLast_mem hne)
    · rw [hc.produced, List.mem_append, List.mem_singleton] at hq
      rcases hq with hq | rfl
      · exact h.composed q hq
      · exact ⟨_, fun e he => (hmem e he).1, signalOf_composedOf _ _ hne⟩
    · obtain ⟨⟨sig, ha, hid⟩, hproduced⟩ := h.kept k first hk hfirst
      -- The episode that is composed goes on under its id; no other directional episode is touched.
      by_cases hkk : k = call.keyOf lineage d
      · subst hkk
        have hcontinues := (hc.continues h.live ha).trans hid
        refine ⟨⟨_, (hc.active _).trans (if_pos rfl), hcontinues⟩, fun q hq hqk => ?_⟩
        rw [hc.produced, List.mem_append, List.mem_singleton] at hq
        rcases hq with hq | rfl
        · exact hproduced q hq hqk
        · exact hcontinues
      · refine ⟨⟨sig, (hc.active_directional hk hkk).trans ha, hid⟩, fun q hq hqk => ?_⟩
        rw [hc.produced, List.mem_append, List.mem_singleton] at hq
        rcases hq with hq | rfl
        · exact hproduced q hq hqk
        · exact absurd (hqk.symm.trans hkey) hkk

/-- **A `_consume_symbol` call**, after earlier signals. -/
theorem consumeSymbol_tracked {symbol : String} {batch : List MarketEvent} (h : Tracked signals τ c)
    (hle : τ ≤ latestTs batch) (draws : Draws) (features : MarketFeatures) :
    ∃ s, Following (c.callFor draws symbol batch features) signals (c.accept symbol batch) s ∧
      c.consumeSymbol draws symbol batch features = (s.produced, s.composer) := by
  obtain ⟨s₁, s₂, tape, vwap, heq⟩ := consumeSymbol_chain c draws symbol batch features
  refine ⟨s₂, ?_, heq⟩
  have h0 : Following (c.callFor draws symbol batch features) signals (c.accept symbol batch)
      { composer := c.accept symbol batch } := by
    refine ⟨?_, fun _ _ ha => (live?_eq_some.1 (accept_live ha)).2, rfl, rfl,
      fun _ hq => absurd hq List.not_mem_nil,
      fun k first _ ha => ⟨⟨first, ha, rfl⟩, fun _ hq => absurd hq List.not_mem_nil⟩⟩
    rw [List.map_nil, List.append_nil]
    exact h.accept hle symbol
  have hrecent : ∀ e ∈ (c.callFor draws symbol batch features).recent, (c.accept symbol batch).cutoff
      (c.callFor draws symbol batch features).nowTs ≤ e.marketTimestamp := fun _ he => callFor_recent he
  have h1 : Following (c.callFor draws symbol batch features) signals (c.accept symbol batch) s₁ :=
    tape.inv (fun _ _ _ _ hp hs => hp.step hrecent hs) h0
  exact vwap.inv (fun _ _ _ _ hp hs => hp.step hrecent hs) h1

/-- **The ids of a directional key without an entry are gone.** They were never those of another
direction, and the NONE entry that a direction takes over has no id that any direction had. -/
theorem gone_of_vacant {drawn : Set String} {log : List (EpisodeKey × Signal)} {k : EpisodeKey}
    (h : Tables.Logged Signal.id Continues (c.tables drawn log)) (hk : k.direction ≠ .none)
    (hvacant : c.active.get? k = none) {q : EpisodeKey × Signal} (hq : q ∈ log) (hqk : q.1 = k) :
    Tables.Gone Signal.id q.2.id (c.tables drawn log) where
  used := h.used q hq
  left := by
    intro k' v ha hid
    have hc := h.before Continues.refl ha hq hid.symm
    rw [← hqk] at hk hvacant
    have hdirection : k'.direction = q.1.direction := hc.direction.resolve_right hk
    have hkk : k' = q.1 := by
      obtain ⟨symbol, lineage, direction⟩ := k'
      exact EpisodeKey.mk.injEq .. ▸ ⟨hc.symbol, hc.lineage, hdirection⟩
    rw [hkk] at ha
    cases hvacant.symm.trans ha

/-! ## Runs -/

namespace SignalCall

/-- The market time of a call. A batch without events has none. -/
def marketTime? : SignalCall → Option ℚ
  | .process _ _ current => some current.marketTimestamp
  | .consumeBatch _ events _ => events.head?.map (·.marketTimestamp)
  | .prune _ nowTs => some nowTs

/-- The events that a batch brings. -/
def consumed : SignalCall → List MarketEvent
  | .consumeBatch _ events _ => events
  | _ => []

/-- A `consume_batch` or `prune` call for one symbol, with one market time. -/
inductive OneTime (symbol : String) : SignalCall → Prop
  | batch (draws : Draws) (events : List MarketEvent) (features : MarketFeatures)
      (hsymbol : ∀ e ∈ events, e.symbol = symbol)
      (htime : ∀ e ∈ events, ∀ e' ∈ events, e.marketTimestamp = e'.marketTimestamp) :
      OneTime symbol (.consumeBatch draws events features)
  | prune (nowTs : ℚ) : OneTime symbol (.prune symbol nowTs)

end SignalCall

/-- The market time of a batch is that of its first event. -/
theorem latestTs_of_time {events : List MarketEvent} {ts : ℚ}
    (htime : ∀ e ∈ events, ∀ e' ∈ events, e.marketTimestamp = e'.marketTimestamp)
    (h : events.head?.map (·.marketTimestamp) = some ts) : latestTs events = ts := by
  obtain ⟨e, he, rfl⟩ := Option.map_eq_some_iff.1 h
  have hmem := List.mem_of_head? he
  exact latestTs_eq (List.ne_nil_of_mem hmem) fun e' he' => htime e' he' e hmem

/-- What holds after the calls of a run from `p₀`: the directional entries are the last signals as far
as they are inside the look-back of some market time that is not after the next one. -/
structure Followed (p₀ : SignalPipeline) (calls : List SignalCall) (p : SignalPipeline) : Prop where
  lookback : p.composer.lookbackS = p₀.composer.lookbackS
  tracked : ∀ t, (∀ t' ∈ calls.filterMap (·.marketTime?), t' ≤ t) →
    ∃ τ ≤ t, Tracked (p₀.producedIn calls) τ p.composer
  accepted : ∀ s, p.composer.accepted.getD s [] ⊆ calls.flatMap (·.consumed)
  composed : ∀ s ∈ p₀.producedIn calls, ∃ members, members ⊆ calls.flatMap (·.consumed) ∧
    s.ComposedOf members

theorem accept_accepted_subset {symbol : String} {batch : List MarketEvent} (s : String) :
    (c.accept symbol batch).accepted.getD s [] ⊆ c.accepted.getD s [] ++ batch := by
  intro e he
  rw [accept_accepted] at he
  split at he
  · rename_i hs
    exact hs ▸ List.mem_of_mem_filter he
  · exact List.mem_append_left _ he

theorem prune_accepted_subset {symbol : String} (s : String) :
    (c.prune symbol t).accepted.getD s [] ⊆ c.accepted.getD s [] := by
  intro e he
  unfold SignalComposer.prune at he
  rw [pruneActive_accepted, trimAccepted_accepted] at he
  split at he
  · rename_i hs
    exact hs ▸ List.mem_of_mem_filter he
  · exact he

theorem SignalPipeline.producedIn_snoc (p : SignalPipeline) (calls : List SignalCall) (call : SignalCall) :
    p.producedIn (calls ++ [call]) = p.producedIn calls ++ (calls.foldl after p).producedBy call := by
  rw [producedIn_append, producedIn, producedIn, List.append_nil]

/-- **One call more.** -/
theorem Followed.step {p₀ : SignalPipeline} {calls : List SignalCall} {call : SignalCall} {symbol : String}
    (h : Followed p₀ calls (calls.foldl SignalPipeline.after p₀)) (hone : call.OneTime symbol)
    (htimes : ((calls ++ [call]).filterMap (·.marketTime?)).Pairwise (· ≤ ·)) :
    Followed p₀ (calls ++ [call]) ((calls.foldl SignalPipeline.after p₀).after call) := by
  have hproduced := p₀.producedIn_snoc calls call
  generalize calls.foldl SignalPipeline.after p₀ = p at h hproduced
  rw [List.filterMap_append, List.pairwise_append] at htimes
  have hbefore := htimes.2.2
  have hconsumed : (calls ++ [call]).flatMap (·.consumed) = calls.flatMap (·.consumed) ++ call.consumed := by
    rw [List.flatMap_append, List.flatMap_singleton]
  have hsub : calls.flatMap (·.consumed) ⊆ (calls ++ [call]).flatMap (·.consumed) :=
    hconsumed ▸ List.subset_append_left _ _
  have hold : ∀ s ∈ p₀.producedIn calls, ∃ members,
      members ⊆ (calls ++ [call]).flatMap (·.consumed) ∧ s.ComposedOf members := by
    intro s hs
    obtain ⟨members, hmembers, hcomposed⟩ := h.composed s hs
    exact ⟨members, List.Subset.trans hmembers hsub, hcomposed⟩
  have hlast : ∀ {t₀ t}, call.marketTime? = some t₀ →
      (∀ t' ∈ (calls ++ [call]).filterMap (·.marketTime?), t' ≤ t) → t₀ ≤ t := by
    intro t₀ t hcall ht
    exact ht t₀ (List.mem_filterMap.2 ⟨call, by simp, hcall⟩)
  have hnext : ∀ {t₀}, call.marketTime? = some t₀ → ∃ τ ≤ t₀, Tracked (p₀.producedIn calls) τ p.composer :=
    fun {t₀} hcall => h.tracked t₀ fun t' ht' => hbefore t' ht' t₀ (by simp [hcall])
  cases hone with
  | batch draws events features hsymbol htime =>
    -- An empty batch changes nothing.
    by_cases hne : events = []
    · subst hne
      rw [show p.producedBy (.consumeBatch draws [] features) = [] from rfl, List.append_nil] at hproduced
      refine ⟨h.lookback, fun t ht => ?_, fun s => List.Subset.trans (h.accepted s) hsub, ?_⟩
      · rw [hproduced]
        exact h.tracked t fun t' ht' => ht t' (by
          rw [List.filterMap_append]; exact List.mem_append_left _ ht')
      · rw [hproduced]
        exact hold
    · obtain ⟨e, rest, rfl⟩ := List.exists_cons_of_ne_nil hne
      -- All events of the batch have one market time, which is not before the time of the earlier calls.
      have hnow : latestTs (e :: rest) = e.marketTimestamp := latestTs_of_time htime rfl
      obtain ⟨τ, hle, htracked⟩ := @hnext e.marketTimestamp rfl
      rw [← hnow] at hle
      obtain ⟨s, hs, heq⟩ := @consumeSymbol_tracked _ _ _ symbol _ htracked hle draws features
      have hcall : p.composer.consumeBatch draws (e :: rest) features = (s.produced, s.composer) :=
        (consumeBatch_single _ draws features hne hsymbol).trans heq
      have hby : p.producedBy (.consumeBatch draws (e :: rest) features) = s.produced.map (·.1) :=
        congrArg (fun r => r.1.map (·.1)) hcall
      have hafter : (p.after (.consumeBatch draws (e :: rest) features)).composer = s.composer :=
        congrArg Prod.snd hcall
      have hin : ∀ s', (p.composer.accept symbol (e :: rest)).accepted.getD s' [] ⊆
          (calls ++ [SignalCall.consumeBatch draws (e :: rest) features]).flatMap (·.consumed) := by
        intro s' x hx
        rw [hconsumed]
        exact (List.mem_append.1 (accept_accepted_subset s' hx)).elim
          (fun hx => List.mem_append_left _ (h.accepted s' hx)) (List.mem_append_right _)
      refine ⟨?_, fun t ht => ⟨e.marketTimestamp, hlast rfl ht, ?_⟩, fun s' => ?_, fun q hq => ?_⟩
      · rw [hafter, hs.lookback, accept_lookback, h.lookback]
      · rw [hproduced, hby, hafter, ← hnow]
        exact hs.tracked
      · rw [hafter, hs.accepted]
        exact hin s'
      · rw [hproduced, List.mem_append, hby] at hq
        rcases hq with hq | hq
        · exact hold q hq
        · obtain ⟨q', hq', rfl⟩ := List.mem_map.1 hq
          obtain ⟨members, hmembers, hcomposed⟩ := hs.composed q' hq'
          exact ⟨members, List.Subset.trans hmembers (hin symbol), hcomposed⟩
  | prune nowTs =>
    rw [show p.producedBy (.prune symbol nowTs) = [] from rfl, List.append_nil] at hproduced
    obtain ⟨τ, hle, htracked⟩ := hnext rfl
    refine ⟨pruneActive_lookback.trans h.lookback, fun t ht => ⟨nowTs, hlast rfl ht, ?_⟩, fun s => ?_, ?_⟩
    · rw [hproduced]
      exact htracked.prune hle symbol
    · exact List.Subset.trans (prune_accepted_subset s) (List.Subset.trans (h.accepted s) hsub)
    · rw [hproduced]
      exact hold

/-- **Every run of one symbol** whose times do not decrease. -/
theorem run_followed {p₀ : SignalPipeline} {symbol : String} {lookbackS : ℚ} {hl : 0 ≤ lookbackS}
    (h₀ : p₀.composer = .new lookbackS hl) (calls : List SignalCall)
    (hone : ∀ call ∈ calls, call.OneTime symbol)
    (htimes : (calls.filterMap (·.marketTime?)).Pairwise (· ≤ ·)) :
    Followed p₀ calls (calls.foldl SignalPipeline.after p₀) := by
  induction calls using List.reverseRecOn with
  | nil =>
    refine ⟨rfl, fun t _ => ⟨t, le_rfl, fun k _ => ?_⟩, fun s => ?_, fun _ hs => absurd hs List.not_mem_nil⟩
    · rw [List.foldl_nil, h₀]
      rfl
    · rw [List.foldl_nil, h₀]
      exact List.nil_subset _
  | append_singleton calls call ih =>
    have hprefix : (calls.filterMap (·.marketTime?)).Pairwise (· ≤ ·) := by
      rw [List.filterMap_append, List.pairwise_append] at htimes
      exact htimes.1
    rw [List.foldl_append, List.foldl_cons, List.foldl_nil]
    exact (ih (fun call' hc => hone call' (List.mem_append_left _ hc)) hprefix).step
      (hone call (by simp)) htimes

/-- **The ids of a direction that is out of the look-back are not produced again.** -/
theorem vacant_ne {p₀ p : SignalPipeline} {calls : List SignalCall} {symbol : String} {draws : Draws}
    {events : List MarketEvent} {lookbackS : ℚ} {hl : 0 ≤ lookbackS}
    (h₀ : p₀.composer = .new lookbackS hl) (hrun : run SignalPipeline.step p₀ calls = some p)
    (hnd : (calls.flatMap (·.drawIds)).Nodup) (hdraws : FreshDraws (drawnIn calls) symbol draws)
    (features : MarketFeatures) {k : EpisodeKey} (hk : k.direction ≠ .none)
    (hvacant : (p.composer.accept symbol events).active.get? k = none) :
    ∀ s' ∈ p₀.producedIn calls, s'.key = k →
      ∀ q ∈ (p.composer.consumeSymbol draws symbol events features).1, q.1.id ≠ s'.id := by
  obtain ⟨log, hfiled, hproduced, hlock, hlogged⟩ := run_logged h₀ hnd hrun
  have hpath := (accept_walk p.composer symbol events (subset_refl (drawnIn calls))).path log
  rw [List.append_nil] at hpath
  have hlogged' := hlogged.of_path Continues.refl Continues.trans hlock hpath
  obtain ⟨more, hwalk, hmore⟩ := consumeSymbol_walk_accepted p.composer hdraws events features
  intro s' hs' hkey q hq
  rw [hproduced] at hs'
  obtain ⟨q', hq', rfl⟩ := List.mem_map.1 hs'
  have hgone := gone_of_vacant hlogged' hk hvacant hq' ((hfiled q' hq').key.symm.trans hkey)
  obtain ⟨-, more', hlog, hne⟩ := hgone.of_path (hwalk.path log)
  obtain rfl : more = more' := List.append_cancel_left hlog
  obtain ⟨q'', hq'', heq⟩ := List.mem_map.1 (hmore ▸ List.mem_map_of_mem hq)
  rw [← heq]
  exact hne q'' hq''

/-- **Look-back continuity.** Along every run of `consume_batch` and `prune` calls for one symbol, whose
market times do not decrease and in which `uuid4` repeats no signal id: an UP or DOWN signal that a batch
produces has the id of the last signal of its lineage and direction just when the latest member of that
signal is at most the look-back older than the batch, and if it is older, the id is that of no earlier
signal of the lineage and direction. -/
theorem lookback_continuity {p₀ p : SignalPipeline} {calls : List SignalCall} {symbol : String}
    {draws : Draws} {events : List MarketEvent} {features : MarketFeatures} {lookbackS : ℚ}
    {hl : 0 ≤ lookbackS} (h₀ : p₀.composer = .new lookbackS hl)
    (hone : ∀ call ∈ calls ++ [SignalCall.consumeBatch draws events features], call.OneTime symbol)
    (htimes : ((calls ++ [SignalCall.consumeBatch draws events features]).filterMap
      (·.marketTime?)).Pairwise (· ≤ ·))
    (hnd : ((calls ++ [SignalCall.consumeBatch draws events features]).flatMap (·.drawIds)).Nodup)
    (hrun : run SignalPipeline.step p₀ calls = some p) :
    ∀ s ∈ p.producedBy (.consumeBatch draws events features), s.direction ≠ .none →
      (∀ last, lastOf (p₀.producedIn calls) s.key = some last →
        (∃ members, members ⊆ calls.flatMap (·.consumed) ∧ last.ComposedOf members) ∧
        (s.id = last.id ↔ latestTs events - last.marketTimestamp ≤ lookbackS)) ∧
      ((∀ last, lastOf (p₀.producedIn calls) s.key = some last →
          lookbackS < latestTs events - last.marketTimestamp) →
        ∀ s' ∈ p₀.producedIn calls, s'.key = s.key → s.id ≠ s'.id) := by
  have hfoldl : calls.foldl SignalPipeline.after p₀ = p := SignalPipeline.run_eq_foldl.1 hrun
  have htimes' := htimes
  rw [List.filterMap_append, List.pairwise_append] at htimes'
  obtain ⟨hcalls, -, hbefore⟩ := htimes'
  have hfollowed := run_followed h₀ calls (fun call hc => hone call (List.mem_append_left _ hc)) hcalls
  rw [hfoldl] at hfollowed
  intro s hs hdirection
  have hne : events ≠ [] := by
    rintro rfl
    exact absurd hs List.not_mem_nil
  cases hone (.consumeBatch draws events features) (by simp) with
  | batch _ _ _ hsymbol htime =>
    obtain ⟨e, rest, rfl⟩ := List.exists_cons_of_ne_nil hne
    have hnow : latestTs (e :: rest) = e.marketTimestamp := latestTs_of_time htime rfl
    obtain ⟨τ, hle, htracked⟩ := hfollowed.tracked (latestTs (e :: rest)) fun t' ht' =>
      hbefore t' ht' _ (by simp [SignalCall.marketTime?, hnow])
    change s ∈ (p.composer.consumeBatch draws (e :: rest) features).1.map (·.1) at hs
    rw [consumeBatch_single _ draws features hne hsymbol] at hs
    obtain ⟨q, hq, rfl⟩ := List.mem_map.1 hs
    -- The entry that the batch finds, after it was accepted, is the last signal inside the look-back.
    have hentry : ∀ {first}, (p.composer.accept symbol (e :: rest)).active.get? q.1.key = some first ↔
        lastOf (p₀.producedIn calls) q.1.key = some first ∧
          latestTs (e :: rest) - first.marketTimestamp ≤ lookbackS := by
      intro first
      rw [(htracked.accept hle symbol).active_iff hdirection]
      unfold cutoff
      rw [accept_lookback, hfollowed.lookback, h₀, sub_le_comm]
      rfl
    have hcomposed : ∀ {last}, lastOf (p₀.producedIn calls) q.1.key = some last →
        ∃ members, members ⊆ calls.flatMap (·.consumed) ∧ last.ComposedOf members := fun hlast =>
      hfollowed.composed _ (List.mem_of_mem_filter (List.mem_of_getLast? hlast))
    cases ha : (p.composer.accept symbol (e :: rest)).active.get? q.1.key with
    | some first =>
      obtain ⟨hlast, hin⟩ := hentry.1 ha
      obtain ⟨st, hst, heq⟩ := consumeSymbol_tracked htracked hle draws features
      rw [heq] at hq
      have hid := (hst.kept _ first hdirection ha).2 q hq rfl
      refine ⟨fun last hlast' => ?_, fun hout => absurd hin (not_le.2 (hout first hlast))⟩
      obtain rfl := Option.some.inj (hlast.symm.trans hlast')
      exact ⟨hcomposed hlast, iff_of_true hid hin⟩
    | none =>
      obtain ⟨hdrawn, hnew⟩ := nodup_split hnd
      have hkeys : ∀ k : EpisodeKey, k.symbol = symbol → k ∈ (symbolsOf (e :: rest)).flatMap keysOf := by
        intro k hk
        refine List.mem_flatMap.2 ⟨symbol, mem_symbolsOf.2 ⟨e, List.mem_cons_self, ?_⟩, mem_keysOf.2 hk⟩
        exact hsymbol e List.mem_cons_self
      have hdraws : FreshDraws (drawnIn calls) symbol draws :=
        ⟨fun k hk => hnew _ (List.mem_map.2 ⟨k, hkeys k hk, rfl⟩),
          fun k k' hk hk' => List.inj_on_of_nodup_map hdrawn (hkeys k hk) (hkeys k' hk')⟩
      have hcallsNodup : (calls.flatMap (·.drawIds)).Nodup := by
        rw [List.flatMap_append, List.nodup_append] at hnd
        exact hnd.1
      have hgone := vacant_ne h₀ hrun hcallsNodup hdraws features hdirection ha
      refine ⟨fun last hlast => ⟨hcomposed hlast, iff_of_false ?_ fun hin => ?_⟩, fun _ s' hs' hkey =>
        hgone s' hs' hkey q hq⟩
      · have hmem := List.mem_of_getLast? hlast
        rw [List.mem_filter, decide_eq_true_eq] at hmem
        exact hgone last hmem.1 hmem.2 q hq
      · cases ha.symm.trans (hentry.2 ⟨hlast, hin⟩)

/-- An UP batch at 0, a prune at 60, and another UP batch when the first is just the look-back old. -/
theorem lookback_continuity_boundary :
    let calls := [SignalCall.consumeBatch (prefixDraws "a" 0) [bareEvent "e0" "A" .rapidMove .up 0]
      (bareFeatures "A" 0), .prune "A" 60]
    let events := [bareEvent "e1" "A" .rapidMove .up 90]
    ∃ p, run SignalPipeline.step {} calls = some p ∧
      (p.producedBy (.consumeBatch (prefixDraws "b" 90) events (bareFeatures "A" 90))).map (·.id) =
        ["atuA"] ∧
      ∀ s ∈ p.producedBy (.consumeBatch (prefixDraws "b" 90) events (bareFeatures "A" 90)),
        s.direction ≠ .none → ∀ last, lastOf (({} : SignalPipeline).producedIn calls) s.key = some last →
          (s.id = last.id ↔ latestTs events - last.marketTimestamp ≤ clusterLookbackS) := by
  intro calls events
  obtain ⟨p, hp⟩ : ∃ p, run SignalPipeline.step {} calls = some p := ⟨_, rfl⟩
  have hids : (p.producedBy (.consumeBatch (prefixDraws "b" 90) events (bareFeatures "A" 90))).map (·.id) =
      ["atuA"] := by
    cases hp
    decide +kernel
  have hone : ∀ call ∈ calls ++ [SignalCall.consumeBatch (prefixDraws "b" 90) events (bareFeatures "A" 90)],
      call.OneTime "A" := by
    intro call hcall
    simp only [calls, List.cons_append, List.nil_append, List.mem_cons, List.not_mem_nil, or_false] at hcall
    rcases hcall with rfl | rfl | rfl
    · exact .batch _ _ _ (by simp [bareEvent]) (by simp)
    · exact .prune 60
    · exact .batch _ _ _ (by simp [events, bareEvent]) (by simp [events])
  have h₀ : ({} : SignalPipeline).composer = .new clusterLookbackS clusterLookbackS_nonneg := rfl
  have hcontinuity := lookback_continuity h₀ hone (by decide +kernel) (by decide +kernel) hp
  exact ⟨p, hp, hids, fun s hs hdirection last hlast => ((hcontinuity s hs hdirection).1 last hlast).2⟩

end MarketSentinel
