import MarketSentinel.Signals.Composer

/-!
# What each composer operation does

One lemma for each operation, reading the tables back after it; later proofs never unfold
an operation.

* `pruneActive_active`, `pruneActive_traces`, `pruneActive_home`: pruning.
* `composeEpisode_spec`: composing an episode is one of three things (`Origin`): the live
  episode of the key continues, it takes over the live NONE episode, or it is new.
* `consumeLineage_chain`, `consumeSymbol_chain`: a call is a chain of such steps, one for
  each direction and lineage at most (`LineageChain`).
-/

namespace MarketSentinel

open Lib

variable {c : SignalComposer} {nowTs : ℚ} {k key : EpisodeKey}

/-! ## Pruning -/

namespace SignalComposer

/-- An episode that is older than the look-back of a market time. -/
def Expired (c : SignalComposer) (nowTs : ℚ) (signal : Signal) : Prop :=
  signal.marketTimestamp < c.cutoff nowTs

theorem live?_eq_some {signal : Signal} :
    c.live? nowTs k = some signal ↔ c.active.get? k = some signal ∧ ¬ c.Expired nowTs signal := by
  unfold live? Expired
  rw [Option.filter_eq_some_iff, decide_eq_true_eq, not_lt]

theorem dropEpisode_home (signal : Signal) (e : String) :
    (c.dropEpisode key signal).home.get? e =
      if e ∈ signal.eventIds ∧ c.home.get? e = some key then none else c.home.get? e := by
  have hfold : ∀ (ids : List String) (home : Dict String EpisodeKey),
      (ids.foldl (fun home i => if home.get? i = some key then home.pop i else home) home).get? e =
        if e ∈ ids ∧ home.get? e = some key then none else home.get? e := by
    intro ids
    induction ids with
    | nil => intro home; simp
    | cons i ids ih =>
      intro home
      rw [List.foldl_cons, ih]
      by_cases hi : home.get? i = some key
      · rw [if_pos hi, Dict.get?_pop]
        by_cases he : e = i
        · subst he; simp [hi]
        · simp [he]
      · rw [if_neg hi]
        by_cases he : e = i
        · subst he; simp [hi]
        · simp [he]
  exact hfold _ _

/-- Dropping a list of episodes, read back. -/
theorem foldl_dropEpisode : ∀ (es : List (EpisodeKey × Signal)) (c : SignalComposer),
    let c' := es.foldl (fun c e => c.dropEpisode e.1 e.2) c
    c'.lookbackS = c.lookbackS ∧ c'.accepted = c.accepted ∧
      (∀ k s, c'.active.get? k = some s ↔ c.active.get? k = some s ∧ k ∉ es.map Prod.fst) ∧
      (∀ i t, c'.traces.get? i = some t ↔ c.traces.get? i = some t ∧ ∀ e ∈ es, e.2.id ≠ i) ∧
      (∀ i k, c'.home.get? i = some k ↔
        c.home.get? i = some k ∧ ∀ e ∈ es, e.1 = k → i ∉ e.2.eventIds) := by
  intro es
  induction es with
  | nil => intro c; simp
  | cons e es ih =>
    intro c
    obtain ⟨h1, h2, h3, h4, h5⟩ := ih (c.dropEpisode e.1 e.2)
    refine ⟨h1, h2, ?_, ?_, ?_⟩
    · intro k s
      rw [List.foldl_cons, h3]
      simp only [dropEpisode, Dict.get?_pop, List.map_cons, List.mem_cons, not_or]
      by_cases hk : k = e.1 <;> simp [hk]
    · intro i t
      rw [List.foldl_cons, h4]
      simp only [dropEpisode, Dict.get?_pop, List.forall_mem_cons]
      by_cases hi : i = e.2.id
      · simp [hi]
      · simp [hi, Ne.symm hi]
    · intro i k
      rw [List.foldl_cons, h5, dropEpisode_home]
      simp only [List.forall_mem_cons]
      by_cases hm : i ∈ e.2.eventIds
      · -- A drop clears the home of a listed event only if it is the dropped episode.
        by_cases hh : c.home.get? i = some e.1
        · simp only [hm, hh, and_self, if_true, reduceCtorEq, false_and, Option.some.injEq,
            not_true_eq_false, imp_false, false_iff, not_and]
          intro h _; tauto
        · simp only [hm, hh, and_false, if_false, not_true_eq_false, imp_false]
          constructor
          · rintro ⟨a, b⟩; exact ⟨a, fun h => hh (h ▸ a), b⟩
          · rintro ⟨a, -, b⟩; exact ⟨a, b⟩
      · simp [hm]

theorem pruneActive_lookback : (c.pruneActive nowTs).lookbackS = c.lookbackS :=
  (foldl_dropEpisode _ c).1

theorem pruneActive_accepted : (c.pruneActive nowTs).accepted = c.accepted :=
  (foldl_dropEpisode _ c).2.1

theorem mem_expired {nowTs : ℚ} {e : EpisodeKey × Signal} :
    (e ∈ c.active.entries.filter fun e => e.2.marketTimestamp < c.cutoff nowTs) ↔
      c.active.get? e.1 = some e.2 ∧ c.Expired nowTs e.2 := by
  rw [List.mem_filter, decide_eq_true_eq, ← Dict.mem_entries]
  rfl

/-- **Pruning leaves the episodes that are inside the look-back.** -/
theorem pruneActive_active {s : Signal} : (c.pruneActive nowTs).active.get? k = some s ↔
    c.active.get? k = some s ∧ ¬ c.Expired nowTs s := by
  have h := (foldl_dropEpisode (c.active.entries.filter fun e => e.2.marketTimestamp < c.cutoff nowTs)
    c).2.2.1 k s
  unfold pruneActive
  rw [h]
  simp only [List.mem_map, not_exists, not_and]
  constructor
  · rintro ⟨ha, hn⟩
    exact ⟨ha, fun he => hn (k, s) (mem_expired.2 ⟨ha, he⟩) rfl⟩
  · rintro ⟨ha, hn⟩
    refine ⟨ha, ?_⟩
    rintro ⟨k', s'⟩ hm rfl
    obtain ⟨ha', he'⟩ := mem_expired.1 hm
    simp only at ha'
    rw [ha] at ha'
    cases ha'
    exact hn he'

theorem pruneActive_traces {i : String} {t : SignalTrace} :
    (c.pruneActive nowTs).traces.get? i = some t ↔ c.traces.get? i = some t ∧
      ∀ k s, c.active.get? k = some s → c.Expired nowTs s → s.id ≠ i := by
  unfold pruneActive
  rw [(foldl_dropEpisode _ c).2.2.2.1 i t]
  refine and_congr_right fun _ => ⟨fun h k s ha he => ?_, fun h e he => ?_⟩
  · exact h (k, s) (mem_expired.2 ⟨ha, he⟩)
  · obtain ⟨ha, hx⟩ := mem_expired.1 he
    exact h e.1 e.2 ha hx

theorem pruneActive_home {i : String} : (c.pruneActive nowTs).home.get? i = some k ↔
    c.home.get? i = some k ∧
      ∀ s, c.active.get? k = some s → c.Expired nowTs s → i ∉ s.eventIds := by
  unfold pruneActive
  rw [(foldl_dropEpisode _ c).2.2.2.2 i k]
  refine and_congr_right fun _ => ⟨fun h s ha he => ?_, fun h e he hk => ?_⟩
  · exact h (k, s) (mem_expired.2 ⟨ha, he⟩) rfl
  · obtain ⟨ha, hx⟩ := mem_expired.1 he
    exact h e.2 (hk ▸ ha) hx

/-! ## Accepting a batch -/

@[simp] theorem trimAccepted_active (symbol : String) (events : List MarketEvent) :
    (c.trimAccepted symbol events nowTs).active = c.active := rfl

@[simp] theorem trimAccepted_traces (symbol : String) (events : List MarketEvent) :
    (c.trimAccepted symbol events nowTs).traces = c.traces := rfl

@[simp] theorem trimAccepted_home (symbol : String) (events : List MarketEvent) :
    (c.trimAccepted symbol events nowTs).home = c.home := rfl

@[simp] theorem trimAccepted_lookback (symbol : String) (events : List MarketEvent) :
    (c.trimAccepted symbol events nowTs).lookbackS = c.lookbackS := rfl

theorem trimAccepted_accepted (symbol s : String) (events : List MarketEvent) :
    (c.trimAccepted symbol events nowTs).accepted.getD s [] =
      if s = symbol then events.filter fun e => c.cutoff nowTs ≤ e.marketTimestamp
      else c.accepted.getD s [] := Dict.getD_set ..

theorem mem_trimAccepted {symbol s : String} {events : List MarketEvent} {e : MarketEvent}
    (he : e ∈ (c.trimAccepted symbol events nowTs).accepted.getD s []) :
    s = symbol ∧ e ∈ events ∨ e ∈ c.accepted.getD s [] := by
  rw [trimAccepted_accepted] at he
  split at he
  · next hs => exact .inl ⟨hs, List.mem_of_mem_filter he⟩
  · exact .inr he

theorem cutoff_congr {c c' : SignalComposer} (h : c'.lookbackS = c.lookbackS) (t : ℚ) :
    c'.cutoff t = c.cutoff t := by unfold cutoff; rw [h]

variable {symbol : String} {batch : List MarketEvent}

theorem accept_lookback : (c.accept symbol batch).lookbackS = c.lookbackS := pruneActive_lookback

theorem accept_accepted (s : String) : (c.accept symbol batch).accepted.getD s [] =
    if s = symbol then (c.accepted.getD symbol [] ++ batch).filter
      fun e => c.cutoff (latestTs batch) ≤ e.marketTimestamp
    else c.accepted.getD s [] := by
  unfold accept
  rw [pruneActive_accepted, trimAccepted_accepted]

theorem accept_active {s : Signal} : (c.accept symbol batch).active.get? k = some s ↔
    c.active.get? k = some s ∧ ¬ c.Expired (latestTs batch) s := pruneActive_active

theorem accept_home {i : String} : (c.accept symbol batch).home.get? i = some k ↔
    c.home.get? i = some k ∧
      ∀ s, c.active.get? k = some s → c.Expired (latestTs batch) s → i ∉ s.eventIds :=
  pruneActive_home

/-- After accepting a batch, every episode is inside the look-back. -/
theorem accept_live {s : Signal} (h : (c.accept symbol batch).active.get? k = some s) :
    (c.accept symbol batch).live? (latestTs batch) k = some s := by
  refine live?_eq_some.2 ⟨h, ?_⟩
  unfold Expired
  rw [cutoff_congr accept_lookback]
  exact (accept_active.1 h).2

/-- A batch of one market time has that time. -/
theorem latestTs_eq {ts : ℚ} (hne : batch ≠ []) (h : ∀ e ∈ batch, e.marketTimestamp = ts) :
    latestTs batch = ts := by
  cases batch with
  | nil => exact absurd rfl hne
  | cons b bs =>
    have hfold : ∀ (l : List MarketEvent) (m : ℚ), m = ts → (∀ e ∈ l, e.marketTimestamp = ts) →
        l.foldl (fun m x => max m x.marketTimestamp) m = ts := by
      intro l
      induction l with
      | nil => intro m hm _; exact hm
      | cons y ys ih =>
        intro m hm hl
        rw [List.forall_mem_cons] at hl
        exact ih _ (by simp only [hm, hl.1, max_self]) hl.2
    rw [List.forall_mem_cons] at h
    exact hfold bs _ h.1 h.2

end SignalComposer

/-! ## Composing an episode -/

/-- The events that come home with a take-over. -/
def overIds : Option Signal → List String
  | none => []
  | some noneSignal => noneSignal.eventIds

open SignalComposer in
/-- Where the identity of a composed episode comes from, and the NONE episode it takes over. -/
inductive Origin (s : ComposeState) (draws : Draws) (key : EpisodeKey) (nowTs : ℚ) :
    String × ℚ → Option Signal → Prop
  /-- The live episode of the key continues. -/
  | continued (existing : Signal) (h : s.composer.live? nowTs key = some existing) :
      Origin s draws key nowTs (existing.id, existing.signalCreatedTimestamp) none
  /-- A directional episode takes over the live NONE episode. -/
  | taken (noneSignal : Signal) (hk : s.composer.live? nowTs key = none)
      (hd : key.direction ≠ .none) (hs : (key.symbol, key.lineage) ∉ s.stolenNone)
      (h : s.composer.live? nowTs key.noneKey = some noneSignal) :
      Origin s draws key nowTs (noneSignal.id, noneSignal.signalCreatedTimestamp) (some noneSignal)
  /-- A new episode. -/
  | fresh (hk : s.composer.live? nowTs key = none)
      (hn : key.direction = .none ∨ (key.symbol, key.lineage) ∈ s.stolenNone ∨
        s.composer.live? nowTs key.noneKey = none) :
      Origin s draws key nowTs (draws key) none

/-- `s'` is `s` with the episode of `key` composed from `members`. -/
structure Composes (s s' : ComposeState) (draws : Draws) (key : EpisodeKey)
    (members : List MarketEvent) (features : MarketFeatures) (nowTs : ℚ) (identity : String × ℚ)
    (former : Option Signal) : Prop where
  origin : Origin s draws key nowTs identity former
  lookback : s'.composer.lookbackS = s.composer.lookbackS
  accepted : s'.composer.accepted = s.composer.accepted
  active : ∀ k, s'.composer.active.get? k =
    if k = key then some (signalOf key members features identity)
    else if former.isSome ∧ k = key.noneKey then none else s.composer.active.get? k
  home : ∀ i, s'.composer.home.get? i =
    if i ∈ members.map (·.id) ∨ i ∈ overIds former then some key else s.composer.home.get? i
  traces : ∀ i, s'.composer.traces.get? i =
    if i = identity.1 then
      some (traceOf members features (signalOf key members features identity))
    else s.composer.traces.get? i
  stolen : s'.stolenNone =
    if former.isSome then (key.symbol, key.lineage) :: s.stolenNone else s.stolenNone
  produced : s'.produced = s.produced ++ [(signalOf key members features identity,
    traceOf members features (signalOf key members features identity))]

/-- **Composing an episode**, whichever of the three things it is. -/
theorem composeEpisode_spec (s : ComposeState) (draws : Draws) (key : EpisodeKey)
    (members : List MarketEvent) (features : MarketFeatures) (nowTs : ℚ) :
    ∃ identity former, Composes s (s.composeEpisode draws key members features nowTs) draws key
      members features nowTs identity former := by
  -- a composition that takes nothing over only writes the key
  have plain : ∀ identity, Origin s draws key nowTs identity none →
      Composes s (s.store key members (signalOf key members features identity)
        (traceOf members features (signalOf key members features identity))) draws key members
        features nowTs identity none := by
    intro identity ho
    refine ⟨ho, rfl, rfl, ?_, ?_, ?_, rfl, rfl⟩
    · intro k; simp [ComposeState.store, Dict.get?_set]
    · intro i; simp [ComposeState.store, Dict.get?_setAll, overIds]
    · intro i; exact Dict.get?_set ..
  unfold ComposeState.composeEpisode ComposeState.resolveIdentity
  cases hk : s.composer.live? nowTs key with
  | some existing => exact ⟨_, none, plain _ (.continued existing hk)⟩
  | none =>
    dsimp only
    by_cases hd : key.direction ≠ .none ∧ (key.symbol, key.lineage) ∉ s.stolenNone
    · rw [if_pos hd]
      cases hn : s.composer.live? nowTs key.noneKey with
      | none => exact ⟨_, none, plain _ (.fresh hk (.inr (.inr hn)))⟩
      | some noneSignal =>
        refine ⟨_, some noneSignal, .taken noneSignal hk hd.1 hd.2 hn, rfl, rfl, ?_, ?_, ?_, rfl, rfl⟩
        · intro k
          simp [ComposeState.store, ComposeState.takeOver, Dict.get?_set, Dict.get?_pop]
        · intro i
          simp only [ComposeState.store, ComposeState.takeOver, Dict.get?_setAll]
          by_cases hm : i ∈ members.map (·.id) <;> by_cases ho : i ∈ noneSignal.eventIds <;>
            simp [overIds, hm, ho, -List.mem_map]
        · intro i; exact Dict.get?_set ..
    · rw [if_neg hd]
      have : key.direction = .none ∨ (key.symbol, key.lineage) ∈ s.stolenNone := by tauto
      exact ⟨_, none, plain _ (.fresh hk (this.elim .inl fun h => .inr (.inl h)))⟩

/-! ## A call, step by step -/

namespace SymbolCall

variable (call : SymbolCall) (lineage : Lineage)

/-- The key of a direction's episode in the call. -/
def keyOf (d : EventDirection) : EpisodeKey := ⟨call.symbol, lineage, d⟩

/-- The members of a direction's episode, in the state the lineage's turn starts from. -/
def members (c : SignalComposer) (d : EventDirection) : List MarketEvent :=
  sortMembers (membersOf (call.selected c lineage) (call.noneTarget c lineage) d)

/-- A direction's episode has a new member. -/
def Renews (c : SignalComposer) (d : EventDirection) : Prop :=
  ∃ e ∈ call.members lineage c d, e.id ∈ call.batch.map (·.id)

/-- One direction of a lineage's turn, which started from the composer `c`. -/
inductive DirStep (c : SignalComposer) (d : EventDirection) (s s' : ComposeState) : Prop
  | skip (h : ¬ call.Renews lineage c d) (hs : s' = s)
  | compose (h : call.Renews lineage c d) (identity : String × ℚ) (former : Option Signal)
      (hc : Composes s s' call.draws (call.keyOf lineage d) (call.members lineage c d) call.features
        call.nowTs identity former)

/-- A lineage's turn: the three directions in order, or nothing when the batch has no event of
the lineage. -/
inductive LineageChain (s s' : ComposeState) : Prop
  | skip (h : ∀ e ∈ call.batch, lineageOf e.type ≠ lineage) (hs : s' = s)
  | turn (h : ∃ e ∈ call.batch, lineageOf e.type = lineage) (s₁ s₂ : ComposeState)
      (up : call.DirStep lineage s.composer .up s s₁)
      (down : call.DirStep lineage s.composer .down s₁ s₂)
      (none : call.DirStep lineage s.composer .none s₂ s')

variable {call lineage}

theorem foldl_episodeOf (c : SignalComposer) (d : EventDirection) (s : ComposeState) :
    call.DirStep lineage c d s
      ((episodeOf (call.selected c lineage) (call.noneTarget c lineage) d).foldl
        (call.composeNew lineage) s) := by
  unfold episodeOf
  split
  · rename_i h
    refine .skip ?_ rfl
    rintro ⟨e, he, -⟩
    unfold members at he
    rw [mem_sortMembers, h] at he
    cases he
  · simp only [List.foldl_cons, List.foldl_nil, composeNew]
    split
    · rename_i h
      simp only [List.any_eq_true, decide_eq_true_eq] at h
      obtain ⟨identity, former, hc⟩ := composeEpisode_spec s call.draws (call.keyOf lineage d)
        (call.members lineage c d) call.features call.nowTs
      exact .compose h identity former hc
    · rename_i h
      simp only [List.any_eq_true, decide_eq_true_eq] at h
      exact .skip h rfl

/-- **A lineage's turn is a chain of direction steps.** -/
theorem consumeLineage_chain (s : ComposeState) :
    call.LineageChain lineage s (call.consumeLineage s lineage) := by
  unfold consumeLineage
  dsimp only
  split
  · rename_i h
    simp only [List.any_eq_true, decide_eq_true_eq] at h
    rw [partition_eq, List.foldl_append, List.foldl_append]
    exact .turn h _ _ (foldl_episodeOf ..) (foldl_episodeOf ..) (foldl_episodeOf ..)
  · rename_i h
    simp only [List.any_eq_true, decide_eq_true_eq] at h
    exact .skip (fun e he hl => h ⟨e, he, hl⟩) rfl

/-- What every direction step preserves, a lineage's turn preserves. -/
theorem LineageChain.inv {P : ComposeState → Prop} {s s' : ComposeState}
    (h : call.LineageChain lineage s s')
    (hstep : ∀ c d t t', P t → call.DirStep lineage c d t t' → P t') (hs : P s) : P s' := by
  cases h with
  | skip _ hs' => exact hs' ▸ hs
  | turn _ s₁ s₂ up down none =>
    exact hstep _ _ _ _ (hstep _ _ _ _ (hstep _ _ _ _ hs up) down) none

end SymbolCall

namespace SignalComposer

variable {symbol : String} {batch : List MarketEvent}

/-- **`_consume_symbol`, step by step**: accept the batch, then the tape and the vwap turn. -/
theorem consumeSymbol_chain (c : SignalComposer) (draws : Draws) (symbol : String)
    (batch : List MarketEvent) (features : MarketFeatures) :
    ∃ s₁ s₂ : ComposeState,
      let call := c.callFor draws symbol batch features
      call.LineageChain .tape { composer := c.accept symbol batch } s₁ ∧
        call.LineageChain .vwap s₁ s₂ ∧
        c.consumeSymbol draws symbol batch features = (s₂.produced, s₂.composer) :=
  ⟨_, _, SymbolCall.consumeLineage_chain _, SymbolCall.consumeLineage_chain _, rfl⟩

/-! ## Batches by symbol -/

theorem bySymbol_getD (events : List MarketEvent) (s : String) :
    (bySymbol events).getD s [] = events.filter (·.symbol = s) := by
  have hfold : ∀ (l : List MarketEvent) (d : Dict String (List MarketEvent)),
      (l.foldl (fun d e => d.set e.symbol (d.getD e.symbol [] ++ [e])) d).getD s [] =
        d.getD s [] ++ l.filter (·.symbol = s) := by
    intro l
    induction l with
    | nil => intro d; simp
    | cons e l ih =>
      intro d
      rw [List.foldl_cons, ih, Dict.getD_set, List.filter_cons]
      by_cases hs : s = e.symbol
      · subst hs; simp
      · simp [hs, Ne.symm hs]
  unfold bySymbol
  simpa using hfold events Dict.empty

/-- A batch of one symbol is one call. -/
theorem bySymbol_single {events : List MarketEvent} (hne : events ≠ [])
    (hs : ∀ e ∈ events, e.symbol = symbol) : (bySymbol events).entries = [(symbol, events)] := by
  have hfold : ∀ (l pre : List MarketEvent) (d : Dict String (List MarketEvent)),
      (∀ e ∈ l, e.symbol = symbol) → d.entries = [(symbol, pre)] →
        (l.foldl (fun d e => d.set e.symbol (d.getD e.symbol [] ++ [e])) d).entries =
          [(symbol, pre ++ l)] := by
    intro l
    induction l with
    | nil => intro pre d _ hd; simpa using hd
    | cons e l ih =>
      intro pre d hl hd
      rw [List.forall_mem_cons] at hl
      rw [List.foldl_cons]
      have hset : (d.set e.symbol (d.getD e.symbol [] ++ [e])).entries =
          [(symbol, pre ++ [e])] := by
        unfold Dict.set Dict.keys Dict.getD Dict.get?
        simp [hd, hl.1]
      rw [ih (pre ++ [e]) _ hl.2 hset]
      simp
  obtain ⟨e, l, rfl⟩ := List.exists_cons_of_ne_nil hne
  rw [List.forall_mem_cons] at hs
  unfold bySymbol
  rw [List.foldl_cons]
  refine hfold l [e] _ hs.2 ?_
  unfold Dict.set Dict.keys Dict.getD Dict.get? Dict.empty
  simp [hs.1]

/-- **A batch of one symbol** is one `_consume_symbol` call. -/
theorem consumeBatch_single (c : SignalComposer) (draws : Draws) {events : List MarketEvent}
    (features : MarketFeatures) (hne : events ≠ []) (hs : ∀ e ∈ events, e.symbol = symbol) :
    c.consumeBatch draws events features = c.consumeSymbol draws symbol events features := by
  unfold consumeBatch
  rw [bySymbol_single hne hs]
  rfl

end SignalComposer

end MarketSentinel
