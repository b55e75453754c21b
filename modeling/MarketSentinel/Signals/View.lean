import MarketSentinel.Signals.Runs

/-!
# What one symbol sees of the composer

The tables of the composer are shared by all symbols. `SameView o A c c'` says that two composers
look alike from symbol `A`: its accepted events, its active episodes, the homes of its events
and the traces of its signals. `o` tells the symbol of every event id and of every signal id, and
`Own o c` that the tables agree with it.

* `ownState_consumeSymbol`, `own_prune`: every call keeps the owners.
* `foreign_consumeSymbol`, `foreign_prune`: a call for another symbol leaves the view of `A`
  unchanged, if it finds no episode of `A` older than the look-back of its own market time.
* `same_consumeSymbol`, `same_prune`: a call for `A` in two composers with the same view gives the
  same result and the same view.
-/

namespace MarketSentinel

open Lib SignalComposer

/-- The symbol of each event id and of each signal id. -/
structure Owners where
  event : String → String
  signal : String → String

/-- The tables agree with the owners of the ids. -/
structure Own (o : Owners) (c : SignalComposer) : Prop where
  listed : ∀ {k sig}, c.active.get? k = some sig → ∀ i ∈ sig.eventIds, o.event i = k.symbol
  signal : ∀ {k sig}, c.active.get? k = some sig → o.signal sig.id = k.symbol
  accepted : ∀ {s e}, e ∈ c.accepted.getD s [] → o.event e.id = s
  home : ∀ {i k}, c.home.get? i = some k → o.event i = k.symbol

/-- Two composers look alike from symbol `A`. -/
structure SameView (o : Owners) (A : String) (c c' : SignalComposer) : Prop where
  lookback : c'.lookbackS = c.lookbackS
  accepted : c'.accepted.getD A [] = c.accepted.getD A []
  active : ∀ k, k.symbol = A → c'.active.get? k = c.active.get? k
  home : ∀ i, o.event i = A → c'.home.get? i = c.home.get? i
  traces : ∀ i, o.signal i = A → c'.traces.get? i = c.traces.get? i

/-- No episode of `A` is older than the look-back of a market time. -/
def SignalComposer.Spares (c : SignalComposer) (A : String) (nowTs : ℚ) : Prop :=
  ∀ e ∈ c.active.entries, e.1.symbol = A → c.cutoff nowTs ≤ e.2.marketTimestamp

instance (c : SignalComposer) (A : String) (nowTs : ℚ) : Decidable (c.Spares A nowTs) :=
  inferInstanceAs (Decidable (∀ e ∈ c.active.entries, _))

variable {o : Owners} {A symbol : String} {c c' : SignalComposer} {nowTs : ℚ}

theorem SameView.refl : SameView o A c c := ⟨rfl, rfl, fun _ _ => rfl, fun _ _ => rfl, fun _ _ => rfl⟩

theorem SameView.symm (h : SameView o A c c') : SameView o A c' c :=
  ⟨h.lookback.symm, h.accepted.symm, fun k hk => (h.active k hk).symm, fun i hi => (h.home i hi).symm,
    fun i hi => (h.traces i hi).symm⟩

theorem SameView.trans {c'' : SignalComposer} (h : SameView o A c c') (h' : SameView o A c' c'') :
    SameView o A c c'' :=
  ⟨h'.lookback.trans h.lookback, h'.accepted.trans h.accepted,
    fun k hk => (h'.active k hk).trans (h.active k hk), fun i hi => (h'.home i hi).trans (h.home i hi),
    fun i hi => (h'.traces i hi).trans (h.traces i hi)⟩

/-- A spared episode does not expire. -/
theorem SignalComposer.Spares.not_expired (h : c.Spares A nowTs) {k : EpisodeKey} {sig : Signal}
    (hk : k.symbol = A) (ha : c.active.get? k = some sig) : ¬ c.Expired nowTs sig :=
  not_lt.2 (h (k, sig) (Dict.mem_entries.2 ha) hk)

/-! ## Pruning -/

/-- Retiring episodes keeps the owners. -/
theorem own_pruneActive (h : Own o c) : Own o (c.pruneActive nowTs) where
  listed := fun ha => h.listed (pruneActive_active.1 ha).1
  signal := fun ha => h.signal (pruneActive_active.1 ha).1
  accepted := by rw [pruneActive_accepted]; exact h.accepted
  home := fun hi => h.home (pruneActive_home.1 hi).1

/-- Pruning at a time that spares the episodes of `A` does not show to `A`. -/
theorem foreign_pruneActive (h : Own o c) (hs : c.Spares A nowTs) :
    SameView o A c (c.pruneActive nowTs) where
  lookback := pruneActive_lookback
  accepted := by rw [pruneActive_accepted]
  active := by
    intro k hk
    apply Option.ext
    intro sig
    rw [pruneActive_active]
    exact and_iff_left_of_imp fun ha => hs.not_expired hk ha
  home := by
    intro i hi
    apply Option.ext
    intro k
    rw [pruneActive_home]
    refine and_iff_left_of_imp fun hh sig ha hx => absurd hx (hs.not_expired ?_ ha)
    exact (h.home hh).symm.trans hi
  traces := by
    intro i hi
    apply Option.ext
    intro t
    rw [pruneActive_traces]
    refine and_iff_left_of_imp fun _ k sig ha hx hid => absurd hx (hs.not_expired ?_ ha)
    rw [← h.signal ha, hid, hi]

/-- Pruning at one time keeps two views alike. -/
theorem same_pruneActive (h : SameView o A c c') (ho : Own o c) (ho' : Own o c') :
    SameView o A (c.pruneActive nowTs) (c'.pruneActive nowTs) where
  lookback := by rw [pruneActive_lookback, pruneActive_lookback, h.lookback]
  accepted := by rw [pruneActive_accepted, pruneActive_accepted, h.accepted]
  active := by
    intro k hk
    apply Option.ext
    intro sig
    rw [pruneActive_active, pruneActive_active, h.active k hk]
    unfold Expired
    rw [cutoff_congr h.lookback]
  home := by
    intro i hi
    apply Option.ext
    intro k
    rw [pruneActive_home, pruneActive_home, h.home i hi]
    refine and_congr_right fun hh => ?_
    have hk : k.symbol = A := (ho.home hh).symm.trans hi
    unfold Expired
    rw [h.active k hk, cutoff_congr h.lookback]
  traces := by
    intro i hi
    apply Option.ext
    intro t
    rw [pruneActive_traces, pruneActive_traces, h.traces i hi]
    refine and_congr_right fun _ => ?_
    -- only the episodes of `A` have signals of `A`
    unfold Expired
    rw [cutoff_congr h.lookback]
    constructor
    · intro hx k sig ha he hid
      have hk : k.symbol = A := by rw [← ho.signal ha, hid, hi]
      exact hx k sig (by rw [h.active k hk]; exact ha) he hid
    · intro hx k sig ha he hid
      have hk : k.symbol = A := by rw [← ho'.signal ha, hid, hi]
      exact hx k sig (by rw [← h.active k hk]; exact ha) he hid

/-- So does forgetting events. -/
theorem own_trimAccepted (h : Own o c) {events : List MarketEvent}
    (he : ∀ e ∈ events, o.event e.id = symbol) : Own o (c.trimAccepted symbol events nowTs) where
  listed := h.listed
  signal := h.signal
  accepted := by
    intro s e hm
    rcases mem_trimAccepted hm with ⟨rfl, hnew⟩ | hold
    · exact he e hnew
    · exact h.accepted hold
  home := h.home

/-- The events of another symbol are not seen. -/
theorem foreign_trimAccepted (hne : symbol ≠ A) (events : List MarketEvent) :
    SameView o A c (c.trimAccepted symbol events nowTs) where
  lookback := rfl
  accepted := by rw [trimAccepted_accepted, if_neg (Ne.symm hne)]
  active := fun _ _ => rfl
  home := fun _ _ => rfl
  traces := fun _ _ => rfl

/-- The events of the symbol are forgotten alike. -/
theorem same_trimAccepted (h : SameView o A c c') (events : List MarketEvent) :
    SameView o A (c.trimAccepted A events nowTs) (c'.trimAccepted A events nowTs) where
  lookback := h.lookback
  accepted := by
    rw [trimAccepted_accepted, trimAccepted_accepted, if_pos rfl, if_pos rfl, cutoff_congr h.lookback]
  active := h.active
  home := h.home
  traces := h.traces

/-- Pruning keeps the owners. -/
theorem own_prune (h : Own o c) (symbol : String) (nowTs : ℚ) : Own o (c.prune symbol nowTs) :=
  own_pruneActive (own_trimAccepted h fun _ he => h.accepted he)

/-- The prune of another symbol is not seen, if it spares the symbol. -/
theorem foreign_prune (h : Own o c) (hne : symbol ≠ A) (hs : c.Spares A nowTs) :
    SameView o A c (c.prune symbol nowTs) :=
  (foreign_trimAccepted hne _).trans
    (foreign_pruneActive (own_trimAccepted h fun _ he => h.accepted he) hs)

/-- The symbol is pruned alike. -/
theorem same_prune (h : SameView o A c c') (ho : Own o c) (ho' : Own o c') :
    SameView o A (c.prune A nowTs) (c'.prune A nowTs) := by
  unfold prune
  rw [h.accepted]
  exact same_pruneActive (same_trimAccepted h _) (own_trimAccepted ho fun _ he => ho.accepted he)
    (own_trimAccepted ho' fun _ he => ho.accepted he)

/-! ## Accepting a batch -/

variable {batch : List MarketEvent}

/-- A batch is owned by its symbol. -/
theorem own_accept (h : Own o c) (hb : ∀ e ∈ batch, o.event e.id = symbol) :
    Own o (c.accept symbol batch) := by
  refine own_pruneActive (own_trimAccepted h fun e he => ?_)
  rcases List.mem_append.1 he with he | he
  · exact h.accepted he
  · exact hb e he

/-- The batch of another symbol is not seen. -/
theorem foreign_accept (h : Own o c) (hb : ∀ e ∈ batch, o.event e.id = symbol) (hne : symbol ≠ A)
    (hs : c.Spares A (latestTs batch)) : SameView o A c (c.accept symbol batch) := by
  refine (foreign_trimAccepted hne _).trans (foreign_pruneActive (own_trimAccepted h fun e he => ?_) hs)
  rcases List.mem_append.1 he with he | he
  · exact h.accepted he
  · exact hb e he

/-- A batch is accepted alike. -/
theorem same_accept (h : SameView o A c c') (ho : Own o c) (ho' : Own o c')
    (hb : ∀ e ∈ batch, o.event e.id = A) : SameView o A (c.accept A batch) (c'.accept A batch) := by
  have hown : ∀ e ∈ c.accepted.getD A [] ++ batch, o.event e.id = A := by
    intro e he
    rcases List.mem_append.1 he with he | he
    · exact ho.accepted he
    · exact hb e he
  unfold SignalComposer.accept
  rw [h.accepted]
  exact same_pruneActive (same_trimAccepted h _) (own_trimAccepted ho hown) (own_trimAccepted ho' hown)

/-! ## A call for another symbol -/

section Foreign

variable {s s' : ComposeState} {draws : Draws} {key : EpisodeKey} {members : List MarketEvent}
  {features : MarketFeatures} {identity : String × ℚ} {former : Option Signal}

/-- What is taken over is the NONE episode of the key's symbol. -/
theorem Composes.over_active (hc : Composes s s' draws key members features nowTs identity former)
    {i : String} (hi : i ∈ overIds former) :
    ∃ sig, s.composer.active.get? key.noneKey = some sig ∧ i ∈ sig.eventIds := by
  cases hc.origin with
  | continued => cases hi
  | taken noneSignal _ _ _ hl => exact ⟨noneSignal, (live?_eq_some.1 hl).1, hi⟩
  | fresh => cases hi

/-- The identity of an episode is owned by its symbol. -/
theorem Composes.identity_own (hc : Composes s s' draws key members features nowTs identity former)
    (ho : Own o s.composer) (hd : o.signal (draws key).1 = key.symbol) :
    o.signal identity.1 = key.symbol := by
  cases hc.origin with
  | continued existing hl => exact ho.signal (live?_eq_some.1 hl).1
  | taken noneSignal _ _ _ hl =>
    exact ho.signal (k := key.noneKey) (live?_eq_some.1 hl).1
  | fresh => exact hd

/-- **Composing an episode keeps the owners.** -/
theorem Composes.own (hc : Composes s s' draws key members features nowTs identity former)
    (ho : Own o s.composer) (hm : ∀ e ∈ members, o.event e.id = key.symbol)
    (hd : o.signal (draws key).1 = key.symbol) : Own o s'.composer where
  listed := by
    intro k sig ha i hi
    by_cases hk : k = key
    · rw [hc.active, if_pos hk] at ha
      cases ha
      obtain ⟨e, he, rfl⟩ := List.mem_map.1 hi
      rw [hk]; exact hm e he
    · exact ho.listed (hc.active_of_ne hk ha).1 i hi
  signal := by
    intro k sig ha
    by_cases hk : k = key
    · rw [hc.active, if_pos hk] at ha
      cases ha
      rw [hk]; exact hc.identity_own ho hd
    · exact ho.signal (hc.active_of_ne hk ha).1
  accepted := by rw [hc.accepted]; exact ho.accepted
  home := by
    intro i k hi
    rw [hc.home] at hi
    split at hi
    · rename_i hor
      cases hi
      -- An event goes home to the key as a member, or with the episode that is taken over.
      rcases hor with hor | hor
      · obtain ⟨e, he, rfl⟩ := List.mem_map.1 hor
        exact hm e he
      · obtain ⟨sig, ha, hi⟩ := hc.over_active hor
        exact ho.listed ha i hi
    · exact ho.home hi

/-- **Composing an episode of another symbol does not show to `A`.** -/
theorem Composes.foreign (hc : Composes s s' draws key members features nowTs identity former)
    (ho : Own o s.composer) (hm : ∀ e ∈ members, o.event e.id = key.symbol)
    (hd : o.signal (draws key).1 = key.symbol) (hne : key.symbol ≠ A) :
    SameView o A s.composer s'.composer where
  lookback := hc.lookback
  accepted := by rw [hc.accepted]
  active := by
    intro k hk
    rw [hc.active, if_neg, if_neg]
    · rintro ⟨-, rfl⟩; exact hne hk
    · rintro rfl; exact hne hk
  home := by
    intro i hi
    rw [hc.home, if_neg]
    rintro (hor | hor)
    · obtain ⟨e, he, rfl⟩ := List.mem_map.1 hor
      exact hne ((hm e he).symm.trans hi)
    · obtain ⟨sig, ha, hmem⟩ := hc.over_active hor
      exact hne ((ho.listed ha i hmem).symm.trans hi)
  traces := by
    intro i hi
    rw [hc.traces, if_neg]
    rintro rfl
    exact hne ((hc.identity_own ho hd).symm.trans hi)

/-- The ids that come with a call belong to its symbol. -/
structure OwnCall (o : Owners) (symbol : String) (draws : Draws) (batch : List MarketEvent) : Prop where
  batch : ∀ e ∈ batch, o.event e.id = symbol
  draws : ∀ k, k.symbol = symbol → o.signal (draws k).1 = symbol

/-- What the turns of a call keep; `c` is the composer before them. -/
structure OwnState (o : Owners) (call : SymbolCall) (c : SignalComposer) (s : ComposeState) : Prop where
  own : Own o s.composer
  accepted : s.composer.accepted = c.accepted
  produced : ∀ p ∈ s.produced, o.signal p.1.id = call.symbol
  foreign : ∀ A, call.symbol ≠ A → SameView o A c s.composer

/-- A direction keeps the owners. -/
theorem ownState_dirStep {call : SymbolCall} {l : Lineage} {c₀ c : SignalComposer}
    {d : EventDirection} (hrec : ∀ e ∈ call.recent, o.event e.id = call.symbol)
    (hd : ∀ k, k.symbol = call.symbol → o.signal (call.draws k).1 = call.symbol)
    (h : OwnState o call c₀ s) (hst : call.DirStep l c d s s') : OwnState o call c₀ s' := by
  cases hst with
  | skip _ hs => exact hs ▸ h
  | compose _ identity former hc =>
    have hm : ∀ e ∈ call.members l c d, o.event e.id = (call.keyOf l d).symbol := fun e he =>
      hrec e (SymbolCall.mem_members.1 he).1.1
    have hdraw : o.signal (call.draws (call.keyOf l d)).1 = (call.keyOf l d).symbol := hd _ rfl
    refine ⟨hc.own h.own hm hdraw, hc.accepted.trans h.accepted, fun p hp => ?_, fun A hA => ?_⟩
    · rw [hc.produced, List.mem_append, List.mem_singleton] at hp
      rcases hp with hp | rfl
      · exact h.produced p hp
      · exact hc.identity_own h.own hdraw
    · exact (h.foreign A hA).trans (hc.foreign h.own hm hdraw hA)

/-- A call keeps the owners, and does not show to the other symbols beyond its pruning. -/
theorem ownState_consumeSymbol (h : Own o c) (features : MarketFeatures)
    (hcall : OwnCall o symbol draws batch) :
    Own o (c.consumeSymbol draws symbol batch features).2 ∧
      (∀ p ∈ (c.consumeSymbol draws symbol batch features).1, o.signal p.1.id = symbol) ∧
      ∀ A, symbol ≠ A →
        SameView o A (c.accept symbol batch) (c.consumeSymbol draws symbol batch features).2 := by
  obtain ⟨s₁, s₂, tape, vwap, heq⟩ := consumeSymbol_chain c draws symbol batch features
  have hacc := own_accept h hcall.batch
  have h0 : OwnState o (c.callFor draws symbol batch features) (c.accept symbol batch)
      { composer := c.accept symbol batch } := ⟨hacc, rfl, by simp, fun _ _ => .refl⟩
  have hrec : ∀ e ∈ (c.callFor draws symbol batch features).recent, o.event e.id = symbol :=
    fun e he => hacc.accepted he
  have h1 := tape.inv (fun _ _ _ _ ht hst => ownState_dirStep hrec hcall.draws ht hst) h0
  have h2 := vwap.inv (fun _ _ _ _ ht hst => ownState_dirStep hrec hcall.draws ht hst) h1
  rw [heq]
  exact ⟨h2.own, h2.produced, h2.foreign⟩

/-- **A call for another symbol that spares the episodes of `A` does not show to `A`.** -/
theorem foreign_consumeSymbol (h : Own o c) (features : MarketFeatures)
    (hcall : OwnCall o symbol draws batch) (hne : symbol ≠ A) (hs : c.Spares A (latestTs batch)) :
    SameView o A c (c.consumeSymbol draws symbol batch features).2 :=
  (foreign_accept h hcall.batch hne hs).trans ((ownState_consumeSymbol h features hcall).2.2 A hne)

end Foreign

/-! ## A call for the symbol itself -/

section Same

/-- Two states of a call for `A` that look alike. -/
structure SameState (o : Owners) (A : String) (s s' : ComposeState) : Prop where
  view : SameView o A s.composer s'.composer
  stolen : s'.stolenNone = s.stolenNone
  produced : s'.produced = s.produced

variable {s s' : ComposeState} {draws : Draws} {key : EpisodeKey}

/-- The same episodes are live. -/
theorem SameView.live? (h : SameView o A c c') (hk : key.symbol = A) :
    c'.live? nowTs key = c.live? nowTs key := by
  unfold SignalComposer.live?
  rw [h.active key hk, cutoff_congr h.lookback]

/-- A NONE episode is taken over alike. -/
theorem same_takeOver (h : SameState o A s s') (noneSignal : Signal) :
    SameState o A (s.takeOver key noneSignal) (s'.takeOver key noneSignal) where
  view :=
    { lookback := h.view.lookback
      accepted := h.view.accepted
      active := by
        intro k hk
        simp only [ComposeState.takeOver, Dict.get?_pop, h.view.active k hk]
      home := by
        intro i hi
        simp only [ComposeState.takeOver, Dict.get?_setAll, h.view.home i hi]
      traces := h.view.traces }
  stolen := by simp only [ComposeState.takeOver, h.stolen]
  produced := h.produced

/-- A composed signal is stored alike. -/
theorem same_store (h : SameState o A s s') (members : List MarketEvent) (signal : Signal)
    (trace : SignalTrace) :
    SameState o A (s.store key members signal trace) (s'.store key members signal trace) where
  view :=
    { lookback := h.view.lookback
      accepted := h.view.accepted
      active := by
        intro k hk
        simp only [ComposeState.store, Dict.get?_set, h.view.active k hk]
      home := by
        intro i hi
        simp only [ComposeState.store, Dict.get?_setAll, h.view.home i hi]
      traces := by
        intro i hi
        simp only [ComposeState.store, Dict.get?_set, h.view.traces i hi] }
  stolen := h.stolen
  produced := by simp only [ComposeState.store, h.produced]

/-- An identity is resolved alike. -/
theorem same_resolveIdentity (draws : Draws) (nowTs : ℚ) (h : SameState o A s s')
    (hk : key.symbol = A) :
    (s'.resolveIdentity draws key nowTs).1 = (s.resolveIdentity draws key nowTs).1 ∧
      SameState o A (s.resolveIdentity draws key nowTs).2 (s'.resolveIdentity draws key nowTs).2 := by
  unfold ComposeState.resolveIdentity
  have hk' : key.noneKey.symbol = A := hk
  rw [h.view.live? hk, h.view.live? hk', h.stolen]
  split
  · exact ⟨rfl, h⟩
  · split
    · split
      · exact ⟨rfl, same_takeOver h _⟩
      · exact ⟨rfl, h⟩
    · exact ⟨rfl, h⟩

/-- An episode is composed alike. -/
theorem same_composeEpisode (h : SameState o A s s') (hk : key.symbol = A)
    (members : List MarketEvent) (features : MarketFeatures) :
    SameState o A (s.composeEpisode draws key members features nowTs)
      (s'.composeEpisode draws key members features nowTs) := by
  obtain ⟨hid, hs⟩ := same_resolveIdentity draws nowTs h hk
  unfold ComposeState.composeEpisode
  dsimp only
  rw [hid]
  exact same_store hs ..

/-- So is a lineage. -/
theorem same_consumeLineage {call : SymbolCall} (h : SameState o A s s') (hA : call.symbol = A)
    (hrec : ∀ e ∈ call.recent, o.event e.id = A) (l : Lineage) :
    SameState o A (call.consumeLineage s l) (call.consumeLineage s' l) := by
  -- The target of the NONE events depends on the episodes of the symbol, and the selection on the homes of its events.
  have hdirs : s'.composer.liveDirections call.symbol l = s.composer.liveDirections call.symbol l := by
    ext d
    simp only [liveDirections, List.mem_toFinset, List.mem_map, List.mem_filter, Dict.mem_keys,
      decide_eq_true_eq]
    refine exists_congr fun k => and_congr_left fun _ => and_congr_left fun hk => ?_
    rw [h.view.active k (hk.1.trans hA)]
  have htarget : call.noneTarget s'.composer l = call.noneTarget s.composer l := by
    unfold SymbolCall.noneTarget
    rw [hdirs]
  have hsel : call.selected s'.composer l = call.selected s.composer l := by
    unfold SymbolCall.selected eventsForPartition
    rw [htarget]
    refine List.filter_congr fun e he => ?_
    unfold selects
    rw [h.view.home e.id (hrec e (List.mem_of_mem_filter he))]
  have hfold : ∀ (es : List (EventDirection × List MarketEvent)) (t t' : ComposeState),
      SameState o A t t' →
        SameState o A (es.foldl (call.composeNew l) t) (es.foldl (call.composeNew l) t') := by
    intro es
    induction es with
    | nil => intro t t' ht; exact ht
    | cons e es ih =>
      intro t t' ht
      refine ih _ _ ?_
      unfold SymbolCall.composeNew
      split
      · exact same_composeEpisode ht hA ..
      · exact ht
  unfold SymbolCall.consumeLineage
  split
  · dsimp only
    rw [htarget, hsel]
    exact hfold _ _ _ h
  · exact h

/-- **A call for `A` in two composers that look alike from `A`.** -/
theorem same_consumeSymbol (h : SameView o A c c') (ho : Own o c) (ho' : Own o c') {draws : Draws}
    (features : MarketFeatures) (hcall : OwnCall o A draws batch) :
    (c'.consumeSymbol draws A batch features).1 = (c.consumeSymbol draws A batch features).1 ∧
      SameView o A (c.consumeSymbol draws A batch features).2
        (c'.consumeSymbol draws A batch features).2 := by
  have hacc := same_accept h ho ho' hcall.batch
  have hcf : c'.callFor draws A batch features = c.callFor draws A batch features := by
    unfold callFor
    rw [hacc.accepted]
  have hrec : ∀ e ∈ (c.callFor draws A batch features).recent, o.event e.id = A := fun e he =>
    (own_accept ho hcall.batch).accepted he
  have h0 : SameState o A { composer := c.accept A batch } { composer := c'.accept A batch } :=
    ⟨hacc, rfl, rfl⟩
  have h2 := same_consumeLineage (same_consumeLineage h0 rfl hrec .tape) rfl hrec .vwap
  unfold consumeSymbol
  rw [hcf]
  exact ⟨h2.produced, h2.view⟩

end Same

end MarketSentinel
