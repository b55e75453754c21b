import MarketSentinel.Lib.Renaming
import MarketSentinel.Signals.Priority
import MarketSentinel.Signals.Runs

/-!
# Signals under other ids

Event and signal ids are drawn at random, and the members of an episode are sorted by market timestamp and
id. Under other ids, members with one market timestamp may come in another order; here is what a signal
keeps, and what the composer keeps.

* `signalOf_reordered`: a signal depends on the ids only through `id` and `event_ids`, when its members
  with one market timestamp agree in the other two timestamps.
* `Renamed`: two composers whose tables correspond under a renaming of the ids.
* `renamed_consumeSymbol`, `renamed_prune`: the calls keep them so.
-/

namespace MarketSentinel

open Lib SignalComposer

/-- An event under its other id. -/
def MarketEvent.rename (ρ : Equiv.Perm String) (e : MarketEvent) : MarketEvent := { e with id := ρ e.id }

/-- The same members under other ids. Those with one market timestamp may be in another order. -/
structure Reordered (ρ : Equiv.Perm String) (members members' : List MarketEvent) : Prop where
  perm : members'.Perm (members.map (·.rename ρ))
  times : members'.map (·.marketTimestamp) = members.map (·.marketTimestamp)

/-- The events that can be members of one signal of a symbol: two with one market timestamp were also
received and detected at one time. -/
structure Uniform (P : MarketEvent → Prop) (symbol : String) (members : List MarketEvent) : Prop where
  known : ∀ e ∈ members, P e
  symbol : ∀ e ∈ members, e.symbol = symbol
  stamps : ∀ e ∈ members, ∀ e' ∈ members, e.marketTimestamp = e'.marketTimestamp →
    e.receivedTimestamp = e'.receivedTimestamp ∧ e.detectedTimestamp = e'.detectedTimestamp

variable {ρ σ : Equiv.Perm String} {P : MarketEvent → Prop} {members members' : List MarketEvent}

namespace Reordered

/-- Every member of the second run is a renamed member of the first. -/
theorem mem (h : Reordered ρ members members') {e' : MarketEvent} :
    e' ∈ members' ↔ ∃ e ∈ members, e.rename ρ = e' := by
  rw [h.perm.mem_iff, List.mem_map]

/-- What is read off an event without its id is the same for both. -/
theorem map_perm {α : Type*} (h : Reordered ρ members members') {f : MarketEvent → α}
    (hf : ∀ e, f (e.rename ρ) = f e) : (members'.map f).Perm (members.map f) := by
  have hmap := h.perm.map f
  rw [List.map_map] at hmap
  have hsame : members.map (f ∘ (·.rename ρ)) = members.map f := List.map_congr_left fun e _ => hf e
  rwa [hsame] at hmap

theorem eq_nil (h : Reordered ρ members members') : members' = [] ↔ members = [] := by
  have hlen := h.perm.length_eq
  rw [List.length_map] at hlen
  rw [← List.length_eq_zero_iff, ← List.length_eq_zero_iff, hlen]

/-- The ids of the members are renamed. -/
theorem mem_ids (h : Reordered ρ members members') (i : String) :
    ρ i ∈ members'.map (·.id) ↔ i ∈ members.map (·.id) := by
  rw [List.mem_map, List.mem_map]
  constructor
  · rintro ⟨e', he', hid⟩
    obtain ⟨e, he, rfl⟩ := h.mem.1 he'
    exact ⟨e, he, ρ.injective hid⟩
  · rintro ⟨e, he, rfl⟩
    exact ⟨e.rename ρ, h.mem.2 ⟨e, he, rfl⟩, rfl⟩

end Reordered

/-- **Sorting under other ids** reorders only the events with one market timestamp. -/
theorem reordered_sortMembers (events : List MarketEvent) :
    Reordered ρ (sortMembers events) (sortMembers (events.map (·.rename ρ))) := by
  have hsorted : ∀ l : List MarketEvent,
      ((sortMembers l).map (·.marketTimestamp)).Pairwise (· ≤ ·) := by
    intro l
    rw [List.pairwise_map]
    refine (List.pairwise_insertionSort MemberLe l).imp fun {a b} hab => ?_
    rcases hab with hlt | ⟨heq, -⟩
    · exact hlt.le
    · exact heq.le
  have hperm : (sortMembers (events.map (·.rename ρ))).Perm ((sortMembers events).map (·.rename ρ)) :=
    (List.perm_insertionSort MemberLe _).trans ((List.perm_insertionSort MemberLe events).map _).symm
  refine ⟨hperm, ?_⟩
  have htimes := hperm.map (·.marketTimestamp)
  rw [List.map_map] at htimes
  exact htimes.eq_of_pairwise (fun a b _ _ hab hba => le_antisymm hab hba) (hsorted _) (hsorted events)

/-! ## What a signal is made of -/

/-- The copy of a signal depends on the types of its members, and on the last one's symbol. -/
theorem renderCopy_perm (family : String) (features : MarketFeatures)
    (ht : (members'.map (·.type.value)).Perm (members.map (·.type.value)))
    (hs : members'.getLast?.map (·.symbol) = members.getLast?.map (·.symbol)) :
    renderCopy members' family features = renderCopy members family features := by
  have hvalues : ((members'.map (·.type.value)).dedup).insertionSort (· ≤ ·) =
      ((members.map (·.type.value)).dedup).insertionSort (· ≤ ·) := by
    have hperm := (List.perm_insertionSort (· ≤ ·) _).trans
      (ht.dedup.trans (List.perm_insertionSort (· ≤ ·) _).symm)
    exact hperm.eq_of_pairwise (fun a b _ _ hab hba => le_antisymm hab hba)
      (List.pairwise_insertionSort _ _) (List.pairwise_insertionSort _ _)
  unfold renderCopy
  simp only [hs, hvalues]

/-- The last members carry the same stamps. -/
theorem Reordered.getLast? {symbol : String} (h : Reordered ρ members members')
    (hu : Uniform P symbol members) :
    members'.getLast?.map (·.symbol) = members.getLast?.map (·.symbol) ∧
      members'.getLast?.map (·.marketTimestamp) = members.getLast?.map (·.marketTimestamp) ∧
      members'.getLast?.map (·.receivedTimestamp) = members.getLast?.map (·.receivedTimestamp) ∧
      members'.getLast?.map (·.detectedTimestamp) = members.getLast?.map (·.detectedTimestamp) := by
  have htime : members'.getLast?.map (·.marketTimestamp) = members.getLast?.map (·.marketTimestamp) := by
    rw [← List.getLast?_map, ← List.getLast?_map, h.times]
  cases hlast : members.getLast? with
  | none =>
    have hnil := h.eq_nil.2 (List.getLast?_eq_none_iff.1 hlast)
    subst hnil
    exact ⟨rfl, rfl, rfl, rfl⟩
  | some e =>
    rw [hlast] at htime
    obtain ⟨e', hlast', hts⟩ := Option.map_eq_some_iff.1 htime
    obtain ⟨e₀, he₀, rfl⟩ := h.mem.1 (List.mem_of_getLast? hlast')
    have he := List.mem_of_getLast? hlast
    obtain ⟨hreceived, hdetected⟩ := hu.stamps e₀ he₀ e he hts
    have hsymbol := (hu.symbol e₀ he₀).trans (hu.symbol e he).symm
    rw [hlast']
    exact ⟨congrArg some hsymbol, congrArg some hts, congrArg some hreceived, congrArg some hdetected⟩

/-- **A signal under other ids** is the same signal, but for its id and the ids of its members. -/
theorem signalOf_reordered {symbol : String} (h : Reordered ρ members members') (hu : Uniform P symbol members)
    (key : EpisodeKey) (features : MarketFeatures) (i : String) (createdAt : ℚ) :
    signalOf key members' features (σ i, createdAt) =
      { signalOf key members features (i, createdAt) with
        id := σ i
        eventIds := members'.map (·.id) } := by
  obtain ⟨hsymbol, hmarket, hreceived, hdetected⟩ := h.getLast? hu
  have ht : (members'.map (·.type)).Perm (members.map (·.type)) := h.map_perm fun _ => rfl
  have hs : (members'.map (·.severity)).Perm (members.map (·.severity)) := h.map_perm fun _ => rfl
  have hv : (members'.map (·.type.value)).Perm (members.map (·.type.value)) := h.map_perm fun _ => rfl
  unfold signalOf
  dsimp only
  rw [classifyFamily_perm ht, composePriority_perm _ ht hs, renderCopy_perm _ features hv hsymbol, hmarket,
    hreceived, hdetected]

/-! ## Signals and traces of two runs -/

/-- Two signals that are the same, but for the ids and the order of members with one market timestamp. -/
def SameSignal (ρ σ : Equiv.Perm String) (P : MarketEvent → Prop) (s s' : Signal) : Prop :=
  ∃ members members', (∀ e ∈ members, P e) ∧ Reordered ρ members members' ∧
    s.eventIds = members.map (·.id) ∧
      s' = { s with
        id := σ s.id
        eventIds := members'.map (·.id) }

/-- Two traces that are the same in this sense. -/
def SameTrace (ρ σ : Equiv.Perm String) (P : MarketEvent → Prop) (t t' : SignalTrace) : Prop :=
  ∃ members members', (∀ e ∈ members, P e) ∧ Reordered ρ members members' ∧
    t.eventIds = members.map (·.id) ∧ t.ruleNames = members.map (·.ruleName) ∧
      t' = { t with
        signalId := σ t.signalId
        eventIds := members'.map (·.id)
        ruleNames := members'.map (·.ruleName) }

namespace SameSignal

variable {s s' : Signal}

/-- The id of a signal is renamed. -/
theorem id_eq (h : SameSignal ρ σ P s s') : s'.id = σ s.id := by
  obtain ⟨-, -, -, -, -, rfl⟩ := h
  rfl

theorem market_eq (h : SameSignal ρ σ P s s') : s'.marketTimestamp = s.marketTimestamp := by
  obtain ⟨-, -, -, -, -, rfl⟩ := h
  rfl

theorem created_eq (h : SameSignal ρ σ P s s') : s'.signalCreatedTimestamp = s.signalCreatedTimestamp := by
  obtain ⟨-, -, -, -, -, rfl⟩ := h
  rfl

theorem detected_eq (h : SameSignal ρ σ P s s') : s'.detectedTimestamp = s.detectedTimestamp := by
  obtain ⟨-, -, -, -, -, rfl⟩ := h
  rfl

theorem priority_eq (h : SameSignal ρ σ P s s') : s'.priority = s.priority := by
  obtain ⟨-, -, -, -, -, rfl⟩ := h
  rfl

/-- So are its event ids. -/
theorem mem_ids (h : SameSignal ρ σ P s s') (i : String) : ρ i ∈ s'.eventIds ↔ i ∈ s.eventIds := by
  obtain ⟨members, members', -, hm, hids, rfl⟩ := h
  rw [hids]
  exact hm.mem_ids i

end SameSignal

/-- What composing one episode writes, under other ids. -/
theorem same_signalOf {symbol : String} (h : Reordered ρ members members') (hu : Uniform P symbol members)
    (key : EpisodeKey) (features : MarketFeatures) {identity identity' : String × ℚ}
    (hid : identity' = (σ identity.1, identity.2)) :
    SameSignal ρ σ P (signalOf key members features identity) (signalOf key members' features identity') ∧
      SameTrace ρ σ P (traceOf members features (signalOf key members features identity))
        (traceOf members' features (signalOf key members' features identity')) := by
  subst hid
  have hsignal := signalOf_reordered (σ := σ) h hu key features identity.1 identity.2
  have ht : (members'.map (·.type)).Perm (members.map (·.type)) := h.map_perm fun _ => rfl
  have hs : (members'.map (·.severity)).Perm (members.map (·.severity)) := h.map_perm fun _ => rfl
  refine ⟨⟨members, members', hu.known, h, rfl, hsignal⟩, members, members', hu.known, h, rfl, rfl, ?_⟩
  rw [hsignal]
  unfold traceOf
  dsimp only
  rw [composePriority_perm _ ht hs]
  rfl

/-! ## Composers of two runs -/

/-- Two composers whose tables correspond under a renaming of the ids. -/
structure Renamed (ρ σ : Equiv.Perm String) (P : MarketEvent → Prop) (c c' : SignalComposer) : Prop where
  lookback : c'.lookbackS = c.lookbackS
  accepted : ∀ symbol, c'.accepted.getD symbol [] = (c.accepted.getD symbol []).map (·.rename ρ)
  active : ∀ k, Option.Rel (SameSignal ρ σ P) (c.active.get? k) (c'.active.get? k)
  traces : ∀ i, Option.Rel (SameTrace ρ σ P) (c.traces.get? i) (c'.traces.get? (σ i))
  home : ∀ i, c'.home.get? (ρ i) = c.home.get? i

variable {c c' : SignalComposer} {nowTs : ℚ} {symbol : String}

/-- An episode expires in both runs. -/
theorem Renamed.expired_iff (h : Renamed ρ σ P c c') {s s' : Signal} (hs : SameSignal ρ σ P s s') :
    c'.Expired nowTs s' ↔ c.Expired nowTs s := by
  unfold Expired
  rw [cutoff_congr h.lookback, hs.market_eq]

/-- Both runs retire the same episodes. -/
theorem renamed_pruneActive (h : Renamed ρ σ P c c') (nowTs : ℚ) :
    Renamed ρ σ P (c.pruneActive nowTs) (c'.pruneActive nowTs) where
  lookback := by rw [pruneActive_lookback, pruneActive_lookback, h.lookback]
  accepted := by
    intro symbol
    rw [pruneActive_accepted, pruneActive_accepted]
    exact h.accepted symbol
  active := by
    intro k
    obtain ⟨hto, hfrom⟩ := rel_iff.1 (h.active k)
    refine rel_iff.2 ⟨?_, ?_⟩
    · intro s hs
      obtain ⟨ha, hlive⟩ := pruneActive_active.1 hs
      obtain ⟨s', ha', hsame⟩ := hto s ha
      exact ⟨s', pruneActive_active.2 ⟨ha', mt (h.expired_iff hsame).1 hlive⟩, hsame⟩
    · intro s' hs'
      obtain ⟨ha', hlive⟩ := pruneActive_active.1 hs'
      obtain ⟨s, ha, hsame⟩ := hfrom s' ha'
      exact ⟨s, pruneActive_active.2 ⟨ha, mt (h.expired_iff hsame).2 hlive⟩, hsame⟩
  traces := by
    intro i
    obtain ⟨hto, hfrom⟩ := rel_iff.1 (h.traces i)
    refine rel_iff.2 ⟨?_, ?_⟩
    · intro t ht
      obtain ⟨htr, hkept⟩ := pruneActive_traces.1 ht
      obtain ⟨t', htr', hsame⟩ := hto t htr
      -- A trace goes with the expired signal of its id, and renaming mixes up no two ids.
      refine ⟨t', pruneActive_traces.2 ⟨htr', fun k s' hs' hexp hid => ?_⟩, hsame⟩
      obtain ⟨s, hs, hsig⟩ := (rel_iff.1 (h.active k)).2 s' hs'
      exact hkept k s hs ((h.expired_iff hsig).1 hexp) (σ.injective (hsig.id_eq ▸ hid))
    · intro t' ht'
      obtain ⟨htr', hkept⟩ := pruneActive_traces.1 ht'
      obtain ⟨t, htr, hsame⟩ := hfrom t' htr'
      refine ⟨t, pruneActive_traces.2 ⟨htr, fun k s hs hexp hid => ?_⟩, hsame⟩
      obtain ⟨s', hs', hsig⟩ := (rel_iff.1 (h.active k)).1 s hs
      exact hkept k s' hs' ((h.expired_iff hsig).2 hexp) (hsig.id_eq.trans (congrArg σ hid))
  home := by
    intro i
    apply Option.ext
    intro k
    obtain ⟨hto, hfrom⟩ := rel_iff.1 (h.active k)
    rw [pruneActive_home, pruneActive_home, h.home]
    refine and_congr_right fun _ => ?_
    constructor
    · intro hall s hs hexp
      obtain ⟨s', hs', hsame⟩ := hto s hs
      exact mt (hsame.mem_ids i).2 (hall s' hs' ((h.expired_iff hsame).2 hexp))
    · intro hall s' hs' hexp
      obtain ⟨s, hs, hsame⟩ := hfrom s' hs'
      exact mt (hsame.mem_ids i).1 (hall s hs ((h.expired_iff hsame).1 hexp))

/-- Both keep the same events. -/
theorem renamed_trimAccepted (h : Renamed ρ σ P c c') (symbol : String) (events : List MarketEvent)
    (nowTs : ℚ) :
    Renamed ρ σ P (c.trimAccepted symbol events nowTs)
      (c'.trimAccepted symbol (events.map (·.rename ρ)) nowTs) where
  lookback := h.lookback
  accepted := by
    intro s
    rw [trimAccepted_accepted, trimAccepted_accepted, cutoff_congr h.lookback]
    split
    · rw [List.filter_map]
      rfl
    · exact h.accepted s
  active := h.active
  traces := h.traces
  home := h.home

/-- So they prune alike. -/
theorem renamed_prune (h : Renamed ρ σ P c c') (symbol : String) (nowTs : ℚ) :
    Renamed ρ σ P (c.prune symbol nowTs) (c'.prune symbol nowTs) := by
  unfold prune
  rw [h.accepted]
  exact renamed_pruneActive (renamed_trimAccepted h symbol _ nowTs) nowTs

theorem latestTs_rename (batch : List MarketEvent) : latestTs (batch.map (·.rename ρ)) = latestTs batch := by
  cases batch with
  | nil => rfl
  | cons e es =>
    rw [List.map_cons]
    unfold latestTs
    dsimp only
    rw [List.foldl_map]
    rfl

/-- They accept a renamed batch alike. -/
theorem renamed_accept (h : Renamed ρ σ P c c') (symbol : String) (batch : List MarketEvent) :
    Renamed ρ σ P (c.accept symbol batch) (c'.accept symbol (batch.map (·.rename ρ))) := by
  unfold accept
  rw [latestTs_rename, h.accepted, ← List.map_append]
  exact renamed_pruneActive (renamed_trimAccepted h symbol _ _) _

/-! ## Composing an episode in two runs -/

/-- Two states of a call that correspond. -/
structure RenamedState (ρ σ : Equiv.Perm String) (P : MarketEvent → Prop) (s s' : ComposeState) : Prop where
  composer : Renamed ρ σ P s.composer s'.composer
  stolen : s'.stolenNone = s.stolenNone
  produced : List.Forall₂ (fun a b => SameSignal ρ σ P a.1 b.1 ∧ SameTrace ρ σ P a.2 b.2) s.produced s'.produced

/-- The draws of the two runs correspond, and the clock reads the same. -/
def RenamedDraws (σ : Equiv.Perm String) (draws draws' : Draws) : Prop :=
  ∀ k, draws' k = (σ (draws k).1, (draws k).2)

variable {s s' : ComposeState} {draws draws' : Draws} {key : EpisodeKey}

/-- A live episode is live in both runs. -/
theorem Renamed.live? (h : Renamed ρ σ P c c') (k : EpisodeKey) :
    Option.Rel (SameSignal ρ σ P) (c.live? nowTs k) (c'.live? nowTs k) := by
  unfold SignalComposer.live?
  refine rel_filter (h.active k) fun signal signal' hsame => ?_
  rw [cutoff_congr h.lookback, hsame.market_eq]

/-- A NONE episode is taken over in both. -/
theorem renamed_takeOver (h : RenamedState ρ σ P s s') {noneSignal noneSignal' : Signal}
    (hs : SameSignal ρ σ P noneSignal noneSignal') :
    RenamedState ρ σ P (s.takeOver key noneSignal) (s'.takeOver key noneSignal') where
  composer :=
    { lookback := h.composer.lookback
      accepted := h.composer.accepted
      active := by
        intro k
        simp only [ComposeState.takeOver, Dict.get?_pop]
        split
        · exact .none
        · exact h.composer.active k
      traces := h.composer.traces
      home := by
        intro i
        simp only [ComposeState.takeOver, Dict.get?_setAll, hs.mem_ids i, h.composer.home i] }
  stolen := by simp only [ComposeState.takeOver, h.stolen]
  produced := h.produced

/-- A composed signal is stored in both. -/
theorem renamed_store (h : RenamedState ρ σ P s s') (hm : Reordered ρ members members')
    {signal signal' : Signal} {trace trace' : SignalTrace} (hs : SameSignal ρ σ P signal signal')
    (ht : SameTrace ρ σ P trace trace') :
    RenamedState ρ σ P (s.store key members signal trace) (s'.store key members' signal' trace') where
  composer :=
    { lookback := h.composer.lookback
      accepted := h.composer.accepted
      active := by
        intro k
        simp only [ComposeState.store, Dict.get?_set]
        split
        · exact .some hs
        · exact h.composer.active k
      traces := by
        intro i
        simp only [ComposeState.store, Dict.get?_set, hs.id_eq, σ.injective.eq_iff]
        split
        · exact .some ht
        · exact h.composer.traces i
      home := by
        intro i
        simp only [ComposeState.store, Dict.get?_setAll, hm.mem_ids i, h.composer.home i] }
  stolen := h.stolen
  produced := List.rel_append h.produced (.cons ⟨hs, ht⟩ .nil)

/-- The identity of an episode is drawn, kept or taken over in both. -/
theorem renamed_resolveIdentity (h : RenamedState ρ σ P s s') (hd : RenamedDraws σ draws draws') (nowTs : ℚ) :
    (s'.resolveIdentity draws' key nowTs).1 =
        (σ (s.resolveIdentity draws key nowTs).1.1, (s.resolveIdentity draws key nowTs).1.2) ∧
      RenamedState ρ σ P (s.resolveIdentity draws key nowTs).2 (s'.resolveIdentity draws' key nowTs).2 := by
  have hlive := @Renamed.live? _ _ _ _ _ nowTs h.composer key
  have hnone := @Renamed.live? _ _ _ _ _ nowTs h.composer key.noneKey
  unfold ComposeState.resolveIdentity
  generalize s.composer.live? nowTs key = o at hlive ⊢
  generalize s'.composer.live? nowTs key = o' at hlive ⊢
  cases hlive with
  | some hsame =>
    dsimp only
    exact ⟨by rw [hsame.id_eq, hsame.created_eq], h⟩
  | none =>
    dsimp only
    rw [h.stolen]
    split
    · generalize s.composer.live? nowTs key.noneKey = n at hnone ⊢
      generalize s'.composer.live? nowTs key.noneKey = n' at hnone ⊢
      cases hnone with
      | some hsame =>
        dsimp only
        exact ⟨by rw [hsame.id_eq, hsame.created_eq], renamed_takeOver h hsame⟩
      | none => exact ⟨hd key, h⟩
    · exact ⟨hd key, h⟩

/-- **An episode is composed alike in two runs.** -/
theorem renamed_composeEpisode (h : RenamedState ρ σ P s s') (hd : RenamedDraws σ draws draws')
    (hm : Reordered ρ members members') (hu : Uniform P symbol members) (features : MarketFeatures)
    (nowTs : ℚ) :
    RenamedState ρ σ P (s.composeEpisode draws key members features nowTs)
      (s'.composeEpisode draws' key members' features nowTs) := by
  obtain ⟨hid, hstate⟩ := renamed_resolveIdentity h hd nowTs
  obtain ⟨hsignal, htrace⟩ := same_signalOf hm hu key features hid
  unfold ComposeState.composeEpisode
  exact renamed_store hstate hm hsignal htrace

/-! ## A call in two runs -/

/-- A call on the same batch under other ids. -/
structure RenamedCall (ρ σ : Equiv.Perm String) (call call' : SymbolCall) : Prop where
  draws : RenamedDraws σ call.draws call'.draws
  symbol : call'.symbol = call.symbol
  batch : call'.batch = call.batch.map (·.rename ρ)
  features : call'.features = call.features
  recent : call'.recent = call.recent.map (·.rename ρ)

/-- One direction is UP and the other DOWN. -/
def Opposite (d d' : EventDirection) : Prop := (d = .up ∧ d' = .down) ∨ (d = .down ∧ d' = .up)

instance (d d' : EventDirection) : Decidable (Opposite d d') := inferInstanceAs (Decidable (_ ∨ _))

/-- Two events that can meet in one episode, at one market time, have the same stamps. -/
def Untied (e e' : MarketEvent) : Prop :=
  e.marketTimestamp = e'.marketTimestamp → lineageOf e.type = lineageOf e'.type →
    ¬ Opposite e.direction e'.direction →
      e.receivedTimestamp = e'.receivedTimestamp ∧ e.detectedTimestamp = e'.detectedTimestamp

instance (e e' : MarketEvent) : Decidable (Untied e e') := inferInstanceAs (Decidable (_ → _ → _ → _ ∧ _))

/-- It does not matter which of two events comes first. -/
theorem Untied.symm {e e' : MarketEvent} (h : Untied e e') : Untied e' e := by
  intro hts hl hd
  have hd' : ¬ Opposite e.direction e'.direction := fun ho => hd (ho.symm.imp And.symm And.symm)
  obtain ⟨hreceived, hdetected⟩ := h hts.symm hl.symm hd'
  exact ⟨hreceived.symm, hdetected.symm⟩

/-- The look-back events of a symbol have no ties that the ids would break. -/
structure Settled (P : MarketEvent → Prop) (symbol : String) (events : List MarketEvent) : Prop where
  known : ∀ e ∈ events, P e
  symbol : ∀ e ∈ events, e.symbol = symbol
  untied : ∀ e ∈ events, ∀ e' ∈ events, Untied e e'

/-- Fewer events are settled too. -/
theorem Settled.mono {events events' : List MarketEvent} (h : Settled P symbol events) (hsub : events' ⊆ events) :
    Settled P symbol events' :=
  ⟨fun e he => h.known e (hsub he), fun e he => h.symbol e (hsub he),
    fun e he e' he' => h.untied e (hsub he) e' (hsub he')⟩

/-- New ids leave the directions. -/
theorem directionsOf_rename (events : List MarketEvent) :
    directionsOf (events.map (·.rename ρ)) = directionsOf events := by
  unfold directionsOf
  rw [List.map_map]
  rfl

theorem ofLineage_rename (l : Lineage) (events : List MarketEvent) :
    ofLineage l (events.map (·.rename ρ)) = (ofLineage l events).map (·.rename ρ) := by
  unfold ofLineage
  rw [List.filter_map]
  rfl

/-- New ids leave the members of an episode. -/
theorem membersOf_rename (recent : List MarketEvent) (t d : EventDirection) :
    membersOf (recent.map (·.rename ρ)) t d = (membersOf recent t d).map (·.rename ρ) := by
  have hfilter : ∀ d : EventDirection, (recent.map (·.rename ρ)).filter (·.direction = d) =
      (recent.filter (·.direction = d)).map (·.rename ρ) := by
    intro d
    rw [List.filter_map]
    rfl
  cases d <;> simp only [membersOf, hfilter, List.map_append] <;> split <;> rfl

/-- The directions of the live episodes are the same. -/
theorem Renamed.liveDirections (h : Renamed ρ σ P c c') (symbol : String) (l : Lineage) :
    c'.liveDirections symbol l = c.liveDirections symbol l := by
  ext d
  simp only [SignalComposer.liveDirections, List.mem_toFinset, List.mem_map, List.mem_filter, Dict.mem_keys,
    decide_eq_true_eq]
  refine exists_congr fun k => and_congr_left fun _ => and_congr_left fun _ => ?_
  obtain ⟨hto, hfrom⟩ := rel_iff.1 (h.active k)
  constructor
  · rintro ⟨s', hs'⟩
    obtain ⟨s, hs, -⟩ := hfrom s' hs'
    exact ⟨s, hs⟩
  · rintro ⟨s, hs⟩
    obtain ⟨s', hs', -⟩ := hto s hs
    exact ⟨s', hs'⟩

theorem mem_ids_rename (batch : List MarketEvent) (i : String) :
    ρ i ∈ (batch.map (·.rename ρ)).map (·.id) ↔ i ∈ batch.map (·.id) := by
  have hids : (batch.map (·.rename ρ)).map (·.id) = (batch.map (·.id)).map ρ := by
    rw [List.map_map, List.map_map]
    rfl
  rw [hids, List.mem_map_of_injective ρ.injective]

/-- The events of the split are the same. -/
theorem Renamed.eventsForPartition (h : Renamed ρ σ P c c') (l : Lineage) (recent batch : List MarketEvent)
    (t : EventDirection) :
    c'.eventsForPartition symbol l (recent.map (·.rename ρ)) (batch.map (·.rename ρ)) t =
      (c.eventsForPartition symbol l recent batch t).map (·.rename ρ) := by
  unfold SignalComposer.eventsForPartition
  rw [List.filter_map]
  congr 1
  refine List.filter_congr fun e _ => ?_
  have hhome : c'.home.get? (e.rename ρ).id = c.home.get? e.id := h.home e.id
  have hbatch := mem_ids_rename (ρ := ρ) batch e.id
  unfold selects
  rw [Function.comp_apply, hhome]
  simp only [show (e.rename ρ).direction = e.direction from rfl, show (e.rename ρ).id = ρ e.id from rfl, hbatch]

section Call

variable {call call' : SymbolCall}

theorem RenamedCall.nowTs_eq (hc : RenamedCall ρ σ call call') : call'.nowTs = call.nowTs := by
  unfold SymbolCall.nowTs
  rw [hc.batch, latestTs_rename]

/-- The NONE events go to the same episode. -/
theorem RenamedCall.noneTarget_eq (hc : RenamedCall ρ σ call call') (h : Renamed ρ σ P c c') (l : Lineage) :
    call'.noneTarget c' l = call.noneTarget c l := by
  unfold SymbolCall.noneTarget resolveNoneTarget
  rw [hc.batch, hc.recent, hc.symbol, h.liveDirections, ofLineage_rename, ofLineage_rename, directionsOf_rename,
    directionsOf_rename]

/-- The same events are selected. -/
theorem RenamedCall.selected_eq (hc : RenamedCall ρ σ call call') (h : Renamed ρ σ P c c') (l : Lineage) :
    call'.selected c' l = (call.selected c l).map (·.rename ρ) := by
  unfold SymbolCall.selected
  rw [hc.noneTarget_eq h, hc.batch, hc.recent, hc.symbol, ofLineage_rename, ofLineage_rename, h.eventsForPartition]

/-- A directional member has the direction of the episode. -/
theorem not_opposite_members {call : SymbolCall} {c : SignalComposer} {l : Lineage} {d : EventDirection}
    {e e' : MarketEvent} (he : e ∈ call.members l c d) (he' : e' ∈ call.members l c d) :
    ¬ Opposite e.direction e'.direction := by
  obtain ⟨-, -, hd⟩ := SymbolCall.mem_members.1 he
  obtain ⟨-, -, hd'⟩ := SymbolCall.mem_members.1 he'
  rintro (⟨hup, hdown⟩ | ⟨hdown, hup⟩)
  · rw [hup, if_neg (by decide)] at hd
    rw [hdown, if_neg (by decide)] at hd'
    cases hd.trans hd'.symm
  · rw [hdown, if_neg (by decide)] at hd
    rw [hup, if_neg (by decide)] at hd'
    cases hd.trans hd'.symm

/-- The members of an episode have no ties that the ids would break. -/
theorem uniform_members (hs : Settled P call.symbol call.recent) (c : SignalComposer) (l : Lineage)
    (d : EventDirection) : Uniform P call.symbol (call.members l c d) where
  known := fun e he => hs.known e (SymbolCall.mem_members.1 he).1.1
  symbol := fun e he => hs.symbol e (SymbolCall.mem_members.1 he).1.1
  stamps := by
    intro e he e' he' hts
    obtain ⟨⟨hr, hl⟩, -⟩ := SymbolCall.mem_members.1 he
    obtain ⟨⟨hr', hl'⟩, -⟩ := SymbolCall.mem_members.1 he'
    exact hs.untied e hr e' hr' hts (hl.trans hl'.symm) (not_opposite_members he he')

/-- **One direction of a lineage's turn**, under other ids. -/
theorem renamed_foldl_episodeOf (hc : RenamedCall ρ σ call call') (hs : Settled P call.symbol call.recent)
    (hstart : Renamed ρ σ P c c') (l : Lineage) (d : EventDirection) (h : RenamedState ρ σ P s s') :
    RenamedState ρ σ P
      ((episodeOf (call.selected c l) (call.noneTarget c l) d).foldl (call.composeNew l) s)
      ((episodeOf (call'.selected c' l) (call'.noneTarget c' l) d).foldl (call'.composeNew l) s') := by
  have hmem : Reordered ρ (call.members l c d) (call'.members l c' d) := by
    unfold SymbolCall.members
    rw [hc.selected_eq hstart, hc.noneTarget_eq hstart, membersOf_rename]
    exact reordered_sortMembers _
  have hnil := hmem.eq_nil
  unfold SymbolCall.members at hnil
  rw [sortMembers_eq_nil, sortMembers_eq_nil] at hnil
  -- A direction is renewed under the other ids when it is under these.
  have hnew : ((call'.members l c' d).any fun e => e.id ∈ call'.batch.map (·.id)) =
      (call.members l c d).any fun e => e.id ∈ call.batch.map (·.id) := by
    rw [Bool.eq_iff_iff, List.any_eq_true, List.any_eq_true, hc.batch]
    simp only [decide_eq_true_eq]
    constructor
    · rintro ⟨e', he', hid⟩
      obtain ⟨e, he, rfl⟩ := hmem.mem.1 he'
      exact ⟨e, he, (mem_ids_rename _ _).1 hid⟩
    · rintro ⟨e, he, hid⟩
      exact ⟨e.rename ρ, hmem.mem.2 ⟨e, he, rfl⟩, (mem_ids_rename _ _).2 hid⟩
  unfold episodeOf
  by_cases hempty : membersOf (call.selected c l) (call.noneTarget c l) d = []
  · rw [if_pos hempty, if_pos (hnil.2 hempty)]
    exact h
  · rw [if_neg hempty, if_neg (mt hnil.1 hempty)]
    show RenamedState ρ σ P (call.composeNew l s (d, call.members l c d))
      (call'.composeNew l s' (d, call'.members l c' d))
    unfold SymbolCall.composeNew
    dsimp only
    rw [hnew, hc.symbol, hc.features, hc.nowTs_eq]
    split
    · exact renamed_composeEpisode h hc.draws hmem (uniform_members hs c l d) _ _
    · exact h

/-- **A lineage's turn** under other ids. -/
theorem renamed_consumeLineage (hc : RenamedCall ρ σ call call') (hs : Settled P call.symbol call.recent)
    (l : Lineage) (h : RenamedState ρ σ P s s') :
    RenamedState ρ σ P (call.consumeLineage s l) (call'.consumeLineage s' l) := by
  have hturn : (call'.batch.any fun e => lineageOf e.type = l) = call.batch.any fun e => lineageOf e.type = l := by
    rw [hc.batch, List.any_map]
    rfl
  unfold SymbolCall.consumeLineage
  rw [hturn]
  split
  · dsimp only
    rw [partition_eq, partition_eq, List.foldl_append, List.foldl_append, List.foldl_append, List.foldl_append]
    have hup := renamed_foldl_episodeOf hc hs h.composer l .up h
    have hdown := renamed_foldl_episodeOf hc hs h.composer l .down hup
    exact renamed_foldl_episodeOf hc hs h.composer l .none hdown
  · exact h

end Call

/-- **A `_consume_symbol` call under other ids**, on a look-back that stays without ties. -/
theorem renamed_consumeSymbol (h : Renamed ρ σ P c c') (hd : RenamedDraws σ draws draws') (batch : List MarketEvent)
    (features : MarketFeatures) (hs : Settled P symbol (c.accepted.getD symbol [] ++ batch)) :
    List.Forall₂ (fun a b => SameSignal ρ σ P a.1 b.1 ∧ SameTrace ρ σ P a.2 b.2)
        (c.consumeSymbol draws symbol batch features).1
        (c'.consumeSymbol draws' symbol (batch.map (·.rename ρ)) features).1 ∧
      Renamed ρ σ P (c.consumeSymbol draws symbol batch features).2
        (c'.consumeSymbol draws' symbol (batch.map (·.rename ρ)) features).2 := by
  have hacc := renamed_accept h symbol batch
  have hcall : RenamedCall ρ σ (c.callFor draws symbol batch features)
      (c'.callFor draws' symbol (batch.map (·.rename ρ)) features) :=
    ⟨hd, rfl, rfl, rfl, hacc.accepted symbol⟩
  have hrecent : Settled P symbol (c.callFor draws symbol batch features).recent := by
    refine hs.mono fun e he => ?_
    have he' : e ∈ (c.accept symbol batch).accepted.getD symbol [] := he
    rw [accept_accepted, if_pos rfl] at he'
    exact List.mem_of_mem_filter he'
  have h0 : RenamedState ρ σ P { composer := c.accept symbol batch }
      { composer := c'.accept symbol (batch.map (·.rename ρ)) } := ⟨hacc, rfl, .nil⟩
  have htape := renamed_consumeLineage hcall hrecent .tape h0
  have hvwap := renamed_consumeLineage hcall hrecent .vwap htape
  exact ⟨hvwap.produced, hvwap.composer⟩

end MarketSentinel
