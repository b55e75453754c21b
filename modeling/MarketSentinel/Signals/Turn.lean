import MarketSentinel.Signals.Identity

/-!
# What a call produces

A `_consume_symbol` call treats the six keys of its symbol in a fixed order. `TurnInv` is what
holds after some of them (`done`): the produced signals are those of the treated keys with a
new member, each is still the active signal of its key, and the tables are in step.

* `TurnInv.step`: one key more.
* `consumeSymbol_turn`: a whole call on a batch of fresh events.
* `consumeSymbol_complete`: every event of the batch is in exactly one produced signal.
-/

namespace MarketSentinel

open Lib SignalComposer

/-- The ids drawn for the keys of a symbol are new and distinct. -/
structure FreshDraws (drawn : Set String) (symbol : String) (draws : Draws) : Prop where
  undrawn : ∀ k, k.symbol = symbol → (draws k).1 ∉ drawn
  inj : ∀ k k', k.symbol = symbol → k'.symbol = symbol → (draws k).1 = (draws k').1 → k = k'

/-- The ids offered for a list of keys. -/
def drawsOf (draws : Draws) (keys : List EpisodeKey) : Set String :=
  {i | ∃ k ∈ keys, (draws k).1 = i}

/-- The keys of a symbol, in the order a call treats them. -/
def keysOf (symbol : String) : List EpisodeKey :=
  [⟨symbol, .tape, .up⟩, ⟨symbol, .tape, .down⟩, ⟨symbol, .tape, .none⟩,
    ⟨symbol, .vwap, .up⟩, ⟨symbol, .vwap, .down⟩, ⟨symbol, .vwap, .none⟩]

theorem mem_keysOf {symbol : String} {k : EpisodeKey} : k ∈ keysOf symbol ↔ k.symbol = symbol := by
  obtain ⟨s, l, d⟩ := k
  cases l <;> cases d <;> simp [keysOf]

/-- What a call relies on: `c₀` is the composer after it accepted the batch; the event ids in
`seen` and the signal ids in `drawn` were known before. -/
structure SymbolCall.Fits (call : SymbolCall) (c₀ : SignalComposer) (seen drawn : Set String) :
    Prop where
  inv : Inv (seen ∪ idsOf call.batch) drawn c₀
  live : AllLive call.nowTs c₀
  recent : call.recent = c₀.accepted.getD call.symbol []
  within : ∀ e ∈ call.recent, c₀.cutoff call.nowTs ≤ e.marketTimestamp
  batch : FreshBatch seen call.symbol call.batch
  oldSignals : ∀ {k sig}, c₀.active.get? k = some sig → ∀ i ∈ sig.eventIds, i ∈ seen
  oldHome : ∀ {i k}, c₀.home.get? i = some k → i ∈ seen
  batchIds : ∀ e ∈ call.recent, ∀ b ∈ call.batch, e.id = b.id → e = b
  draws : FreshDraws drawn call.symbol call.draws

/-- A call on a batch of fresh events, with fresh draws, fits. -/
theorem callFor_fits {c : SignalComposer} {seen drawn : Set String} {symbol : String}
    {batch : List MarketEvent} {draws : Draws} (h : Inv seen drawn c)
    (hb : FreshBatch seen symbol batch) (hd : FreshDraws drawn symbol draws)
    (features : MarketFeatures) :
    (c.callFor draws symbol batch features).Fits (c.accept symbol batch) seen drawn where
  inv := accept_inv h hb
  live := fun _ _ ha => (live?_eq_some.1 (accept_live ha)).2
  recent := rfl
  within := by
    intro e he
    have he' : e ∈ (c.accept symbol batch).accepted.getD symbol [] := he
    rw [accept_accepted, if_pos rfl, List.mem_filter, decide_eq_true_eq] at he'
    rw [cutoff_congr accept_lookback]
    exact he'.2
  batch := hb
  oldSignals := fun ha => h.eventSeen (accept_active.1 ha).1
  oldHome := fun ha => h.homeSeen (accept_home.1 ha).1
  batchIds := by
    intro e he b hbm heq
    have he' : e ∈ (c.accept symbol batch).accepted.getD symbol [] := he
    rw [accept_accepted, if_pos rfl, List.mem_filter, List.mem_append] at he'
    rcases he'.1 with he' | he'
    · exact absurd (heq ▸ (h.accepted he').1) (hb.unseen b hbm)
    · exact hb.ids e he' b hbm heq
  draws := hd

namespace SymbolCall

variable {call : SymbolCall} {c₀ : SignalComposer} {lineage : Lineage} {d : EventDirection}

/-- **The members of a direction's episode.** -/
theorem mem_members {c : SignalComposer} {e : MarketEvent} : e ∈ call.members lineage c d ↔
    (e ∈ call.recent ∧ lineageOf e.type = lineage) ∧
      c.selects call.symbol lineage ((ofLineage lineage call.batch).map (·.id))
        (call.noneTarget c lineage) e = true ∧
      if e.direction = .none then call.noneTarget c lineage = d else e.direction = d := by
  unfold members selected eventsForPartition
  rw [mem_sortMembers, mem_membersOf, List.mem_filter, ofLineage, List.mem_filter, decide_eq_true_eq,
    and_assoc]

/-- An event is a member of one direction's episode at most. -/
theorem members_disjoint {c : SignalComposer} {d' : EventDirection} {e : MarketEvent}
    (h : e ∈ call.members lineage c d) (h' : e ∈ call.members lineage c d') : d = d' := by
  have h := (mem_members.1 h).2.2
  have h' := (mem_members.1 h').2.2
  split at h
  · rename_i hd
    rw [if_pos hd] at h'
    exact h.symm.trans h'
  · rename_i hd
    rw [if_neg hd] at h'
    exact h.symm.trans h'

end SymbolCall

/-! ## Key by key -/

section Turn

variable (call : SymbolCall) (c₀ : SignalComposer) (start : Lineage → SignalComposer)
  (seen drawn : Set String)

/-- The members of a key's episode; `start` gives the composer each lineage's turn starts from. -/
def SymbolCall.membersAt (k : EpisodeKey) : List MarketEvent :=
  call.members k.lineage (start k.lineage) k.direction

/-- What holds when the keys in `done` are treated. -/
structure TurnInv (done : List EpisodeKey) (s : ComposeState) : Prop where
  inv : Inv (seen ∪ idsOf call.batch) (drawn ∪ drawsOf call.draws done) s.composer
  live : AllLive call.nowTs s.composer
  lookback : s.composer.lookbackS = c₀.lookbackS
  accepted : s.composer.accepted = c₀.accepted
  old : ∀ {k sig}, k ∉ done → s.composer.active.get? k = some sig → c₀.active.get? k = some sig
  homeless : ∀ b ∈ call.batch, (∀ k ∈ done, k.lineage ≠ lineageOf b.type) →
    s.composer.home.get? b.id = none
  nodup : (s.produced.map (·.1.id)).Nodup
  produced : ∀ p ∈ s.produced, ∃ k ∈ done, s.composer.active.get? k = some p.1 ∧
    s.composer.traces.get? p.1.id = some p.2 ∧
    p.1.eventIds = (call.membersAt start k).map (·.id)
  renewed : ∀ k ∈ done, call.Renews k.lineage (start k.lineage) k.direction →
    ∃ p ∈ s.produced, p.1.eventIds = (call.membersAt start k).map (·.id)

variable {call c₀ start seen drawn}

theorem TurnInv.init (start : Lineage → SignalComposer) (hf : call.Fits c₀ seen drawn) :
    TurnInv call c₀ start seen drawn [] { composer := c₀ } where
  inv := hf.inv.mono subset_rfl Set.subset_union_left
  live := hf.live
  lookback := rfl
  accepted := rfl
  old := fun _ h => h
  homeless := by
    intro b hb _
    cases hh : c₀.home.get? b.id with
    | none => rfl
    | some k => exact absurd (hf.oldHome hh) (hf.batch.unseen b hb)
  nodup := List.nodup_nil
  produced := by simp
  renewed := by simp

/-- A key with no new member. -/
theorem TurnInv.skip {done : List EpisodeKey} {s : ComposeState} {k : EpisodeKey}
    (h : TurnInv call c₀ start seen drawn done s)
    (hr : ¬ call.Renews k.lineage (start k.lineage) k.direction) :
    TurnInv call c₀ start seen drawn (k :: done) s where
  inv := h.inv.mono subset_rfl (Set.union_subset_union_right _
    (by rintro i ⟨k', hk', rfl⟩; exact ⟨k', List.mem_cons_of_mem _ hk', rfl⟩))
  live := h.live
  lookback := h.lookback
  accepted := h.accepted
  old := fun hk ha => h.old (fun hm => hk (List.mem_cons_of_mem _ hm)) ha
  homeless := fun b hb hl => h.homeless b hb fun k' hk' => hl k' (List.mem_cons_of_mem _ hk')
  nodup := h.nodup
  produced := by
    intro p hp
    obtain ⟨k', hk', rest⟩ := h.produced p hp
    exact ⟨k', List.mem_cons_of_mem _ hk', rest⟩
  renewed := by
    intro k' hk' hr'
    rcases List.mem_cons.1 hk' with rfl | hk'
    · exact absurd hr' hr
    · exact h.renewed k' hk' hr'

/-- A key whose episode is composed. The NONE key of a lineage comes after its other two, so a
take-over never displaces a signal of this call. -/
theorem TurnInv.compose {done : List EpisodeKey} {s s' : ComposeState} {k : EpisodeKey}
    {identity : String × ℚ} {former : Option Signal}
    (h : TurnInv call c₀ start seen drawn done s) (hf : call.Fits c₀ seen drawn)
    (hdone : ∀ k' ∈ done, k'.symbol = call.symbol) (hsym : k.symbol = call.symbol)
    (hk : k ∉ done) (hn : k.noneKey ∉ done)
    (hr : call.Renews k.lineage (start k.lineage) k.direction)
    (hc : Composes s s' call.draws k (call.membersAt start k) call.features call.nowTs identity
      former) :
    TurnInv call c₀ start seen drawn (k :: done) s' := by
  have hrecent : ∀ e ∈ call.membersAt start k, e ∈ call.recent ∧ lineageOf e.type = k.lineage :=
    fun e he => (SymbolCall.mem_members.1 he).1
  have hseen : ∀ e ∈ call.membersAt start k, e.id ∈ seen ∪ idsOf call.batch := by
    intro e he
    have := (hrecent e he).1
    rw [hf.recent] at this
    exact (hf.inv.accepted this).1
  have hne : call.membersAt start k ≠ [] := by
    obtain ⟨e, he, -⟩ := hr
    exact List.ne_nil_of_mem he
  have hdraw : (call.draws k).1 ∉ drawn ∪ drawsOf call.draws done := by
    rintro (hd | ⟨k', hk', heq⟩)
    · exact hf.draws.undrawn k hsym hd
    · exact hk (hf.draws.inj k' k (hdone k' hk') hsym heq ▸ hk')
  -- a treated key other than `k` keeps its signal
  have hkeep : ∀ {k' sig}, k' ∈ done → s.composer.active.get? k' = some sig →
      s'.composer.active.get? k' = some sig := by
    intro k' sig hk' ha
    rw [hc.active, if_neg (fun he : k' = k => hk (he ▸ hk')),
      if_neg (fun he : former.isSome ∧ k' = k.noneKey => hn (he.2 ▸ hk'))]
    exact ha
  have hid : ∀ {k' sig}, k' ∈ done → s.composer.active.get? k' = some sig → sig.id ≠ identity.1 := by
    intro k' sig hk' ha
    exact hc.id_ne h.inv hdraw (fun he : k' = k => hk (he ▸ hk')) (hkeep hk' ha)
  refine ⟨?_, ?_, hc.lookback.trans h.lookback, hc.accepted.trans h.accepted, ?_, ?_, ?_, ?_, ?_⟩
  · refine (hc.inv h.inv h.live hseen hdraw).mono subset_rfl ?_
    rintro i (rfl | hi | ⟨k', hk', rfl⟩)
    · exact .inr ⟨k, List.mem_cons_self, rfl⟩
    · exact .inl hi
    · exact .inr ⟨k', List.mem_cons_of_mem _ hk', rfl⟩
  · refine hc.allLive h.live hne fun e he => ?_
    rw [cutoff_congr h.lookback]
    exact hf.within e (hrecent e he).1
  · intro k' sig hk' ha
    rw [List.mem_cons, not_or] at hk'
    exact h.old hk'.2 (hc.active_of_ne hk'.1 ha).1
  · intro b hb hl
    rw [hc.home, if_neg]
    · exact h.homeless b hb fun k' hk' => hl k' (List.mem_cons_of_mem _ hk')
    · rintro (hm | ho)
      · -- a member with the id of `b` is `b`, of the lineage just treated
        obtain ⟨e, he, heq⟩ := List.mem_map.1 hm
        have heb := hf.batchIds e (hrecent e he).1 b hb heq
        subst heb
        exact hl k List.mem_cons_self (hrecent e he).2.symm
      · -- the NONE episode that is taken over is older than the batch
        have hold : b.id ∈ seen := by
          cases hc.origin with
          | continued => cases ho
          | taken noneSignal _ _ _ hl => exact hf.oldSignals (h.old hn (live?_eq_some.1 hl).1) _ ho
          | fresh => cases ho
        exact hf.batch.unseen b hb hold
  · rw [hc.produced, List.map_append, List.nodup_append]
    refine ⟨h.nodup, by simp, ?_⟩
    intro i hi j hj
    obtain ⟨p, hp, rfl⟩ := List.mem_map.1 hi
    rw [List.map_cons, List.map_nil, List.mem_singleton] at hj
    subst hj
    obtain ⟨k', hk', ha, -⟩ := h.produced p hp
    exact hid hk' ha
  · intro p hp
    rw [hc.produced, List.mem_append, List.mem_singleton] at hp
    rcases hp with hp | rfl
    · obtain ⟨k', hk', ha, ht, he⟩ := h.produced p hp
      refine ⟨k', List.mem_cons_of_mem _ hk', hkeep hk' ha, ?_, he⟩
      rw [hc.traces, if_neg (hid hk' ha)]
      exact ht
    · exact ⟨k, List.mem_cons_self, (hc.active k).trans (if_pos rfl),
        (hc.traces _).trans (if_pos rfl), rfl⟩
  · intro k' hk' hr'
    rw [hc.produced]
    rcases List.mem_cons.1 hk' with rfl | hk'
    · exact ⟨_, List.mem_append_right _ (List.mem_singleton_self _), rfl⟩
    · obtain ⟨p, hp, he⟩ := h.renewed k' hk' hr'
      exact ⟨p, List.mem_append_left _ hp, he⟩

/-- **One key more.** -/
theorem TurnInv.step {done : List EpisodeKey} {s s' : ComposeState} {l : Lineage}
    {d : EventDirection} (h : TurnInv call c₀ start seen drawn done s)
    (hf : call.Fits c₀ seen drawn) (hdone : ∀ k' ∈ done, k'.symbol = call.symbol)
    (hk : call.keyOf l d ∉ done) (hn : call.keyOf l .none ∉ done)
    (hst : call.DirStep l (start l) d s s') :
    TurnInv call c₀ start seen drawn (call.keyOf l d :: done) s' := by
  cases hst with
  | skip hr hs => exact hs ▸ h.skip hr
  | compose hr identity former hc => exact h.compose hf hdone rfl hk hn hr hc

/-- A lineage's turn. -/
theorem TurnInv.lineage {done : List EpisodeKey} {s s' : ComposeState} {l : Lineage}
    (h : TurnInv call c₀ start seen drawn done s) (hf : call.Fits c₀ seen drawn)
    (hdone : ∀ k' ∈ done, k'.symbol = call.symbol) (hl : ∀ k' ∈ done, k'.lineage ≠ l)
    (hstart : start l = s.composer) (hc : call.LineageChain l s s') :
    TurnInv call c₀ start seen drawn
      (call.keyOf l .none :: call.keyOf l .down :: call.keyOf l .up :: done) s' := by
  have hnot : ∀ d, call.keyOf l d ∉ done := fun d hd => hl _ hd rfl
  cases hc with
  | skip hb hs =>
    -- no event of the batch is in the lineage, so no episode has a new member
    have hr : ∀ d, ¬ call.Renews l (start l) d := by
      rintro d ⟨e, he, hid⟩
      obtain ⟨b, hbm, heq⟩ := List.mem_map.1 hid
      obtain ⟨⟨hrec, hle⟩, -⟩ := SymbolCall.mem_members.1 he
      have heb := hf.batchIds e hrec b hbm heq.symm
      exact hb b hbm (heb ▸ hle)
    subst hs
    exact ((h.skip (hr .up)).skip (hr .down)).skip (hr .none)
  | turn hb s₁ s₂ up down none =>
    rw [← hstart] at up down none
    have h1 := h.step hf hdone (hnot .up) (hnot .none) up
    have h2 := h1.step hf (by simpa [SymbolCall.keyOf] using hdone)
      (by simpa [SymbolCall.keyOf] using hnot .down) (by simpa [SymbolCall.keyOf] using hnot .none) down
    exact h2.step hf (by simpa [SymbolCall.keyOf] using hdone)
      (by simpa [SymbolCall.keyOf] using hnot .none) (by simpa [SymbolCall.keyOf] using hnot .none) none

end Turn

/-! ## A whole call -/

section Call

variable {c : SignalComposer} {seen drawn : Set String} {symbol : String} {batch : List MarketEvent}
  {draws : Draws}

/-- **A call on a batch of fresh events of one symbol.** -/
theorem consumeSymbol_turn (h : Inv seen drawn c) (hb : FreshBatch seen symbol batch)
    (hd : FreshDraws drawn symbol draws) (features : MarketFeatures) :
    ∃ (start : Lineage → SignalComposer) (done : List EpisodeKey) (s : ComposeState),
      let call := c.callFor draws symbol batch features
      TurnInv call (c.accept symbol batch) start seen drawn done s ∧
        (∀ k, k ∈ done ↔ k.symbol = symbol) ∧
        (∀ b ∈ batch, (start (lineageOf b.type)).home.get? b.id = none) ∧
        c.consumeSymbol draws symbol batch features = (s.produced, s.composer) := by
  obtain ⟨s₁, s₂, tape, vwap, heq⟩ := consumeSymbol_chain c draws symbol batch features
  have hf := callFor_fits h hb hd features
  let start : Lineage → SignalComposer := fun l => if l = .tape then c.accept symbol batch else s₁.composer
  have h0 := TurnInv.init start hf
  have h1 := h0.lineage hf (by simp) (by simp) rfl tape
  have h2 := h1.lineage hf (by simp [SymbolCall.keyOf]) (by simp [SymbolCall.keyOf]) rfl vwap
  refine ⟨start, _, s₂, h2, ?_, ?_, heq⟩
  · rintro ⟨s, l, d⟩
    cases l <;> cases d <;> simp [SymbolCall.keyOf, callFor, eq_comm]
  · intro b hbm
    cases hl : lineageOf b.type with
    | tape => exact h0.homeless b hbm (by simp)
    | vwap => exact h1.homeless b hbm (by simp [SymbolCall.keyOf, hl])

/-- The invariant over a call: the batch's ids are seen, and the ids offered to the call drawn. -/
theorem consumeSymbol_inv (h : Inv seen drawn c) (hb : FreshBatch seen symbol batch)
    (hd : FreshDraws drawn symbol draws) (features : MarketFeatures) :
    Inv (seen ∪ idsOf batch) (drawn ∪ drawsOf draws (keysOf symbol))
      (c.consumeSymbol draws symbol batch features).2 := by
  obtain ⟨start, done, s, ht, hdone, -, heq⟩ := consumeSymbol_turn h hb hd features
  rw [heq]
  refine ht.inv.mono subset_rfl (Set.union_subset_union_right _ ?_)
  rintro i ⟨k, hk, rfl⟩
  exact ⟨k, mem_keysOf.2 ((hdone k).1 hk), rfl⟩

/-- The produced signals of a call have distinct ids and are active, with their traces, after it. -/
theorem consumeSymbol_produced (h : Inv seen drawn c) (hb : FreshBatch seen symbol batch)
    (hd : FreshDraws drawn symbol draws) (features : MarketFeatures) :
    let r := c.consumeSymbol draws symbol batch features
    (r.1.map (·.1.id)).Nodup ∧ ∀ p ∈ r.1, ∃ k, k.symbol = symbol ∧
      r.2.active.get? k = some p.1 ∧ r.2.traces.get? p.1.id = some p.2 := by
  obtain ⟨start, done, s, ht, hdone, -, heq⟩ := consumeSymbol_turn h hb hd features
  rw [heq]
  refine ⟨ht.nodup, fun p hp => ?_⟩
  obtain ⟨k, hk, ha, htr, -⟩ := ht.produced p hp
  exact ⟨k, (hdone k).1 hk, ha, htr⟩

/-- **Every event of the batch inside the look-back is in exactly one produced signal.** -/
theorem consumeSymbol_complete (h : Inv seen drawn c) (hb : FreshBatch seen symbol batch)
    (hd : FreshDraws drawn symbol draws) (features : MarketFeatures) {b : MarketEvent}
    (hbm : b ∈ batch) (hts : c.cutoff (latestTs batch) ≤ b.marketTimestamp) :
    ∃! p, p ∈ (c.consumeSymbol draws symbol batch features).1 ∧ b.id ∈ p.1.eventIds := by
  obtain ⟨start, done, s, ht, hdone, hhome, heq⟩ :=
    consumeSymbol_turn h hb hd features
  have hf := callFor_fits h hb hd features
  rw [heq]
  set call := c.callFor draws symbol batch features with hcall
  set lin := lineageOf b.type
  have hrec : b ∈ call.recent := by
    show b ∈ (c.accept symbol batch).accepted.getD symbol []
    rw [accept_accepted, if_pos rfl, List.mem_filter, decide_eq_true_eq]
    exact ⟨List.mem_append_right _ hbm, hts⟩
  -- `b` is selected, and goes to one direction
  have hsel : (start lin).selects call.symbol lin ((ofLineage lin call.batch).map (·.id))
      (call.noneTarget (start lin) lin) b = true := by
    unfold SignalComposer.selects
    rw [hhome b hbm]
    split
    · rfl
    · refine decide_eq_true (List.mem_map.2 ⟨b, ?_, rfl⟩)
      exact List.mem_filter.2 ⟨hbm, decide_eq_true rfl⟩
  obtain ⟨d, hd'⟩ : ∃ d, b ∈ call.members lin (start lin) d := by
    by_cases hdir : b.direction = .none
    · exact ⟨_, SymbolCall.mem_members.2 ⟨⟨hrec, rfl⟩, hsel, by rw [if_pos hdir]⟩⟩
    · exact ⟨_, SymbolCall.mem_members.2 ⟨⟨hrec, rfl⟩, hsel, by rw [if_neg hdir]⟩⟩
  have hrenew : call.Renews lin (start lin) d := ⟨b, hd', List.mem_map.2 ⟨b, hbm, rfl⟩⟩
  obtain ⟨p, hp, hids⟩ := ht.renewed ⟨symbol, lin, d⟩ ((hdone _).2 rfl) hrenew
  have hmem0 : b.id ∈ p.1.eventIds := by rw [hids]; exact List.mem_map.2 ⟨b, hd', rfl⟩
  refine ⟨p, ⟨hp, hmem0⟩, ?_⟩
  intro p' hp''
  obtain ⟨hp', hmem⟩ := hp''
  obtain ⟨k', hk', ha', -, hids'⟩ := ht.produced p' hp'
  obtain ⟨k, hk, ha, -, hids''⟩ := ht.produced p hp
  -- both signals list `b`, so they are signals of the same key
  have own : ∀ {k : EpisodeKey} {q : Signal × SignalTrace}, k ∈ done → b.id ∈ q.1.eventIds →
      q.1.eventIds = (call.membersAt start k).map (·.id) → k = ⟨symbol, lin, d⟩ := by
    rintro ⟨sym, l, d'⟩ q hk hq hq'
    rw [hq'] at hq
    obtain ⟨e, he, hide⟩ := List.mem_map.1 hq
    have heb := hf.batchIds e (SymbolCall.mem_members.1 he).1.1 b hbm hide
    subst heb
    have hsym : sym = symbol := (hdone _).1 hk
    have hlin : lin = l := (SymbolCall.mem_members.1 he).1.2
    subst hlin
    have hdir : d' = d := SymbolCall.members_disjoint he hd'
    rw [hsym, hdir]
  rw [own hk' hmem hids'] at ha'
  rw [own hk hmem0 hids''] at ha
  have hsig : p'.1 = p.1 := by rw [ha] at ha'; exact (Option.some.inj ha').symm
  exact List.inj_on_of_nodup_map ht.nodup hp' hp (by rw [hsig])

end Call

end MarketSentinel
