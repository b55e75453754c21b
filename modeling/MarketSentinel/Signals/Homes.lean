import MarketSentinel.Signals.Episodes

/-!
# The home map

Composing an episode sends its members home to its key, and the events of the NONE episode it takes over
as well; pruning an episode removes the homes of the events that it lists. So an event whose home is an
episode that no longer lists it stays in the map for good.

* `AllListed`: every home is an active episode that lists the event; pruning keeps it.
* `Composes.listed`: so does composing, when each event that comes home to the key is a member, or one of
  an episode that is composed later in the turn.
* `homes_listed`: along runs in which every composition does so, the map has listed events only.
-/

namespace MarketSentinel

open Lib Machine SignalComposer

/-- Every home is an active episode that lists the event, apart from the events in `later`. -/
def ListedBut (later : String → Prop) (c : SignalComposer) : Prop :=
  ∀ ⦃i k⦄, c.home.get? i = some k → (∃ s, c.active.get? k = some s ∧ i ∈ s.eventIds) ∨ later i

/-- Every home is an active episode that lists the event. -/
abbrev AllListed (c : SignalComposer) : Prop := ListedBut (fun _ => False) c

variable {c : SignalComposer} {later : String → Prop}

theorem AllListed.but (h : AllListed c) (later : String → Prop) : ListedBut later c := fun _ _ hi =>
  .inl ((h hi).resolve_right id)

/-- An episode goes together with the homes of its events. -/
theorem AllListed.pruneActive (h : AllListed c) (nowTs : ℚ) : AllListed (c.pruneActive nowTs) := by
  intro i k hi
  rw [pruneActive_home] at hi
  obtain ⟨s, ha, hmem⟩ := (h hi.1).resolve_right id
  exact .inl ⟨s, pruneActive_active.2 ⟨ha, fun hexpired => hi.2 s ha hexpired hmem⟩, hmem⟩

theorem AllListed.prune (h : AllListed c) (symbol : String) (nowTs : ℚ) : AllListed (c.prune symbol nowTs) :=
  AllListed.pruneActive (c := c.trimAccepted symbol (c.accepted.getD symbol []) nowTs) h nowTs

theorem AllListed.accept (h : AllListed c) (symbol : String) (batch : List MarketEvent) :
    AllListed (c.accept symbol batch) :=
  AllListed.pruneActive (c := c.trimAccepted symbol (c.accepted.getD symbol [] ++ batch) _) h _

/-! ## Composing -/

namespace ComposeState

/-- The NONE episode that composing the key takes over. -/
def takenOver (s : ComposeState) (key : EpisodeKey) (nowTs : ℚ) : Option Signal :=
  if (s.composer.live? nowTs key).isNone ∧ key.direction ≠ .none ∧
      (key.symbol, key.lineage) ∉ s.stolenNone then s.composer.live? nowTs key.noneKey
  else none

/-- The events whose home is the key, or becomes the key with the NONE episode. -/
def comeHome (s : ComposeState) (key : EpisodeKey) (nowTs : ℚ) : List String :=
  (s.composer.home.keys.filter fun i => s.composer.home.get? i = some key) ++
    overIds (s.takenOver key nowTs)

theorem mem_comeHome {s : ComposeState} {key : EpisodeKey} {nowTs : ℚ} {i : String} :
    i ∈ s.comeHome key nowTs ↔
      s.composer.home.get? i = some key ∨ i ∈ overIds (s.takenOver key nowTs) := by
  unfold comeHome
  rw [List.mem_append, List.mem_filter, decide_eq_true_eq, Dict.mem_keys]
  exact or_congr_left ⟨And.right, fun h => ⟨⟨key, h⟩, h⟩⟩

end ComposeState

section Compose

variable {s s' : ComposeState} {draws : Draws} {key : EpisodeKey} {members : List MarketEvent}
  {features : MarketFeatures} {nowTs : ℚ} {identity : String × ℚ} {former : Option Signal}

theorem Origin.former_eq (h : Origin s draws key nowTs identity former) : former = s.takenOver key nowTs := by
  unfold ComposeState.takenOver
  cases h with
  | continued existing hk => rw [if_neg (by simp [hk])]
  | taken noneSignal hk hd hs hn => rw [if_pos ⟨by simp [hk], hd, hs⟩, hn]
  | fresh hk hn =>
    split
    · rename_i hcan
      rcases hn with hd | hs | hn
      · exact absurd hd hcan.2.1
      · exact absurd hs hcan.2.2
      · exact hn.symm
    · rfl

/-- **Composing an episode** whose comers are members, or members of a later episode. -/
theorem Composes.listed (h : Composes s s' draws key members features nowTs identity former)
    (hbefore : ListedBut (fun i => i ∈ members.map (·.id) ∨ later i) s.composer)
    (hkeep : ∀ i ∈ s.comeHome key nowTs, i ∈ members.map (·.id) ∨ later i) :
    ListedBut later s'.composer := by
  intro i k hi
  rw [h.home] at hi
  by_cases hmem : i ∈ members.map (·.id)
  · rw [if_pos (.inl hmem)] at hi
    cases hi
    exact .inl ⟨_, (h.active _).trans (if_pos rfl), hmem⟩
  have hover : i ∈ overIds former → later i := fun hover =>
    (hkeep i (ComposeState.mem_comeHome.2 (.inr (h.origin.former_eq ▸ hover)))).resolve_left hmem
  by_cases hin : i ∈ overIds former
  · exact .inr (hover hin)
  rw [if_neg (by tauto)] at hi
  rcases hbefore hi with ⟨sig, ha, hlisted⟩ | hlater
  · by_cases hk : k = key
    · exact .inr ((hkeep i (ComposeState.mem_comeHome.2 (.inl (hk ▸ hi)))).resolve_left hmem)
    · refine .inl ⟨sig, ?_, hlisted⟩
      rw [h.active, if_neg hk, if_neg, ha]
      rintro ⟨hsome, rfl⟩
      -- The NONE episode went, but its events came home.
      cases h.origin with
      | continued => cases hsome
      | taken noneSignal _ _ _ hn =>
        obtain rfl := Option.some.inj (ha.symm.trans (live?_eq_some.1 hn).1)
        exact hin hlisted
      | fresh => cases hsome
  · exact .inr (hlater.resolve_left hmem)

/-- For one composition this is exact. -/
theorem Composes.listed_iff (h : Composes s s' draws key members features nowTs identity former)
    (hbefore : AllListed s.composer) :
    AllListed s'.composer ↔ ∀ i ∈ s.comeHome key nowTs, i ∈ members.map (·.id) := by
  constructor
  · intro hafter i hi
    by_contra hmem
    have hhome : s'.composer.home.get? i = some key := by
      rw [h.home]
      rcases ComposeState.mem_comeHome.1 hi with hi | hi
      · rw [hi, ite_self]
      · rw [if_pos (.inr (h.origin.former_eq ▸ hi))]
    obtain ⟨sig, ha, hlisted⟩ := (hafter hhome).resolve_right id
    rw [h.active, if_pos rfl] at ha
    cases ha
    exact hmem hlisted
  · intro hkeep
    exact h.listed (hbefore.but _) fun i hi => .inl (hkeep i hi)

end Compose

/-! ## The condition -/

namespace SymbolCall

/-- An episode of the split has a new member, so it is composed. -/
def IsNew (call : SymbolCall) (episode : EventDirection × List MarketEvent) : Prop :=
  ∃ e ∈ episode.2, e.id ∈ call.batch.map (·.id)

instance (call : SymbolCall) (episode : EventDirection × List MarketEvent) : Decidable (call.IsNew episode) :=
  inferInstanceAs (Decidable (∃ e ∈ episode.2, _))

/-- An episode that is composed has the event as a member. -/
def Listed (call : SymbolCall) (episodes : List (EventDirection × List MarketEvent)) (i : String) : Prop :=
  ∃ episode ∈ episodes, call.IsNew episode ∧ i ∈ episode.2.map (·.id)

instance (call : SymbolCall) (episodes : List (EventDirection × List MarketEvent)) (i : String) :
    Decidable (call.Listed episodes i) := inferInstanceAs (Decidable (∃ episode ∈ episodes, _))

/-- Whenever an episode is composed, the events that come home to it are members of it or of an episode
that is composed after it. -/
def KeepsHomes (call : SymbolCall) (lineage : Lineage) :
    List (EventDirection × List MarketEvent) → ComposeState → Prop
  | [], _ => True
  | episode :: rest, s =>
    (call.IsNew episode → ∀ i ∈ s.comeHome ⟨call.symbol, lineage, episode.1⟩ call.nowTs,
      call.Listed (episode :: rest) i) ∧
    call.KeepsHomes lineage rest (call.composeNew lineage s episode)

instance KeepsHomes.decidable (call : SymbolCall) (lineage : Lineage) :
    ∀ episodes s, Decidable (call.KeepsHomes lineage episodes s)
  | [], _ => isTrue trivial
  | episode :: rest, s =>
    have := KeepsHomes.decidable call lineage rest (call.composeNew lineage s episode)
    inferInstanceAs (Decidable ((_ → ∀ i ∈ _, _) ∧ _))

/-- The same for a lineage's turn, which there is when the batch has an event of the lineage. -/
def KeepsTurn (call : SymbolCall) (lineage : Lineage) (s : ComposeState) : Prop :=
  (∃ e ∈ call.batch, lineageOf e.type = lineage) →
    call.KeepsHomes lineage (partitionLineageEpisodes (call.selected s.composer lineage)
      (call.noneTarget s.composer lineage)) s

instance (call : SymbolCall) (lineage : Lineage) (s : ComposeState) : Decidable (call.KeepsTurn lineage s) :=
  inferInstanceAs (Decidable (_ → _))

variable {call : SymbolCall} {lineage : Lineage}

theorem composeNew_listed : ∀ (episodes : List (EventDirection × List MarketEvent)) {s : ComposeState},
    ListedBut (call.Listed episodes) s.composer → call.KeepsHomes lineage episodes s →
    AllListed (episodes.foldl (call.composeNew lineage) s).composer := by
  intro episodes
  induction episodes with
  | nil =>
    intro s hbefore _ i k hi
    refine .inl ((hbefore hi).resolve_right ?_)
    rintro ⟨episode, hepisode, -⟩
    exact absurd hepisode List.not_mem_nil
  | cons episode rest ih =>
    intro s hbefore hkeep
    obtain ⟨hkeep, hrest⟩ := hkeep
    refine ih ?_ hrest
    unfold composeNew
    have hlisted : ∀ i, call.Listed (episode :: rest) i ↔
        call.IsNew episode ∧ i ∈ episode.2.map (·.id) ∨ call.Listed rest i := by
      intro i
      unfold Listed
      rw [List.exists_mem_cons_iff]
    -- An episode that is composed lists its members from now on; one that is skipped sends no event home.
    by_cases hnew : call.IsNew episode
    · rw [if_pos (by simpa [IsNew] using hnew)]
      obtain ⟨identity, former, hc⟩ := composeEpisode_spec s call.draws ⟨call.symbol, lineage, episode.1⟩
        episode.2 call.features call.nowTs
      refine hc.listed (fun i k hi => (hbefore hi).imp_right fun hl => ?_) fun i hi => ?_
      · exact ((hlisted i).1 hl).imp_left And.right
      · exact ((hlisted i).1 (hkeep hnew i hi)).imp_left And.right
    · rw [if_neg (by simpa [IsNew] using hnew)]
      intro i k hi
      refine (hbefore hi).imp_right fun hl => ((hlisted i).1 hl).resolve_left ?_
      exact fun h => hnew h.1

/-- **A lineage's turn.** -/
theorem consumeLineage_listed {s : ComposeState} (h : AllListed s.composer) (hkeep : call.KeepsTurn lineage s) :
    AllListed (call.consumeLineage s lineage).composer := by
  unfold consumeLineage
  dsimp only
  split
  · rename_i hany
    simp only [List.any_eq_true, decide_eq_true_eq] at hany
    exact composeNew_listed _ (h.but _) (hkeep hany)
  · exact h

end SymbolCall

namespace SignalComposer

/-- The condition for the two turns of a call. -/
def KeepsSymbol (c : SignalComposer) (draws : Draws) (symbol : String) (batch : List MarketEvent)
    (features : MarketFeatures) : Prop :=
  let call := c.callFor draws symbol batch features
  let s : ComposeState := { composer := c.accept symbol batch }
  call.KeepsTurn .tape s ∧ call.KeepsTurn .vwap (call.consumeLineage s .tape)

instance (c : SignalComposer) (draws : Draws) (symbol : String) (batch : List MarketEvent)
    (features : MarketFeatures) : Decidable (c.KeepsSymbol draws symbol batch features) :=
  inferInstanceAs (Decidable (_ ∧ _))

/-- The condition for a batch, symbol by symbol. -/
def KeepsBatch (draws : Draws) (features : MarketFeatures) :
    List (String × List MarketEvent) → SignalComposer → Prop
  | [], _ => True
  | e :: rest, c => c.KeepsSymbol draws e.1 e.2 features ∧
    KeepsBatch draws features rest (c.consumeSymbol draws e.1 e.2 features).2

instance KeepsBatch.decidable (draws : Draws) (features : MarketFeatures) :
    ∀ entries c, Decidable (KeepsBatch draws features entries c)
  | [], _ => isTrue trivial
  | e :: rest, c =>
    have := KeepsBatch.decidable draws features rest (c.consumeSymbol draws e.1 e.2 features).2
    inferInstanceAs (Decidable (_ ∧ _))

/-- **A `_consume_symbol` call.** -/
theorem consumeSymbol_listed {draws : Draws} {symbol : String} {batch : List MarketEvent}
    {features : MarketFeatures} (h : AllListed c) (hkeep : c.KeepsSymbol draws symbol batch features) :
    AllListed (c.consumeSymbol draws symbol batch features).2 :=
  SymbolCall.consumeLineage_listed (SymbolCall.consumeLineage_listed (h.accept symbol batch) hkeep.1) hkeep.2

theorem foldl_consumeSymbol_listed {draws : Draws} {features : MarketFeatures} :
    ∀ (entries : List (String × List MarketEvent)) (r : List (Signal × SignalTrace) × SignalComposer),
      AllListed r.2 → KeepsBatch draws features entries r.2 →
      AllListed (entries.foldl (fun r e =>
        let (produced, c) := r.2.consumeSymbol draws e.1 e.2 features
        (r.1 ++ produced, c)) r).2 := by
  intro entries
  induction entries with
  | nil => exact fun r h _ => h
  | cons e rest ih => exact fun r h hkeep => ih _ (consumeSymbol_listed h hkeep.1) hkeep.2

end SignalComposer

namespace SignalPipeline

/-- The condition for a call, on the pipeline before it. -/
def Keeps (p : SignalPipeline) : SignalCall → Prop
  | .process env previous current => (admitted p env previous current).2 ≠ [] →
    p.composer.KeepsSymbol env.draws current.symbol (admitted p env previous current).2 current
  | .consumeBatch draws events features => KeepsBatch draws features (bySymbol events).entries p.composer
  | .prune .. => True

instance (p : SignalPipeline) : ∀ call, Decidable (p.Keeps call)
  | .process .. => inferInstanceAs (Decidable (_ → _))
  | .consumeBatch .. => inferInstanceAs (Decidable (KeepsBatch ..))
  | .prune .. => isTrue trivial

/-- **One call.** -/
theorem after_listed {p : SignalPipeline} {call : SignalCall} (h : AllListed p.composer) (hkeep : p.Keeps call) :
    AllListed (p.after call).composer := by
  cases call with
  | process env previous current =>
    unfold after
    dsimp only
    rw [process_composer, composeStage_eq]
    split
    · rename_i hne
      exact consumeSymbol_listed h (hkeep hne)
    · exact h.prune _ _
  | consumeBatch draws events features => exact foldl_consumeSymbol_listed _ ([], p.composer) h hkeep
  | prune symbol nowTs => exact h.prune symbol nowTs

end SignalPipeline

/-- **The home map is bounded by the live episodes**, after every run of `process`, `consume_batch` and
`prune` calls in which every event that comes home to a composed episode is a member of it, or of an
episode composed after it in the turn. -/
theorem homes_listed {p₀ p : SignalPipeline} {calls : List SignalCall} {lookbackS : ℚ}
    {hl : 0 ≤ lookbackS} (h₀ : p₀.composer = .new lookbackS hl)
    (hkeep : Along SignalPipeline.step (fun p call => p.Keeps call) p₀ calls)
    (hrun : run SignalPipeline.step p₀ calls = some p) :
    (∀ i ∈ p.composer.home.keys, ∃ k s, p.composer.active.get? k = some s ∧ i ∈ s.eventIds) ∧
      p.composer.home.keys.length ≤ (p.composer.active.values.flatMap (·.eventIds)).length := by
  have hempty : AllListed p₀.composer := by
    intro i k hi
    rw [h₀] at hi
    cases hi
  have hbefore : AllListed p.composer := by
    refine run_inv_of (I := fun p => AllListed p.composer) (fun p call p' h hk hstep => ?_) hempty hkeep hrun
    cases hstep
    exact SignalPipeline.after_listed h hk
  have hlisted : ∀ i ∈ p.composer.home.keys, ∃ k s, p.composer.active.get? k = some s ∧ i ∈ s.eventIds := by
    intro i hi
    obtain ⟨k, hk⟩ := Dict.mem_keys.1 hi
    exact ⟨k, (hbefore hk).resolve_right id⟩
  refine ⟨hlisted, (p.composer.home.nodup.subperm fun i hi => ?_).length_le⟩
  obtain ⟨k, s, ha, hmem⟩ := hlisted i hi
  exact List.mem_flatMap.2 ⟨s, Dict.mem_values.2 ⟨k, ha⟩, hmem⟩

/-- The run with a NONE episode, which its UP event takes over. -/
theorem homes_listed_mixed : ∃ p, run SignalPipeline.step {} mixedRun = some p ∧
    p.composer.home.keys = ["e0", "e1", "e2"] ∧
    (∀ i ∈ p.composer.home.keys, ∃ k s, p.composer.active.get? k = some s ∧ i ∈ s.eventIds) := by
  obtain ⟨p, hp⟩ : ∃ p, run SignalPipeline.step {} mixedRun = some p := ⟨_, rfl⟩
  have h₀ : ({} : SignalPipeline).composer = .new clusterLookbackS clusterLookbackS_nonneg := rfl
  refine ⟨p, hp, ?_, (homes_listed h₀ (by decide +kernel) hp).1⟩
  cases hp
  decide +kernel

/-- An UP episode that goes on at 60 and at 120: at 120 its first event is out of the look-back. -/
def continuingRun : List SignalCall :=
  [.consumeBatch (prefixDraws "a" 0) [bareEvent "e0" "A" .rapidMove .up 0] (bareFeatures "A" 0),
    .consumeBatch (prefixDraws "b" 60) [bareEvent "e1" "A" .rapidMove .up 60] (bareFeatures "A" 60),
    .consumeBatch (prefixDraws "c" 120) [bareEvent "e2" "A" .rapidMove .up 120] (bareFeatures "A" 120)]

/-- The first event keeps its home, and no active signal lists it. -/
theorem homes_leak : ∃ p, run SignalPipeline.step {} continuingRun = some p ∧
    ¬ ∀ i ∈ p.composer.home.keys, ∃ k s, p.composer.active.get? k = some s ∧ i ∈ s.eventIds := by
  obtain ⟨p, hp⟩ : ∃ p, run SignalPipeline.step {} continuingRun = some p := ⟨_, rfl⟩
  have hvalues : p.composer.active.values.map (·.eventIds) = [["e1", "e2"]] := by
    cases hp
    decide +kernel
  have hhome : "e0" ∈ p.composer.home.keys := by
    cases hp
    decide +kernel
  refine ⟨p, hp, fun hlisted => ?_⟩
  obtain ⟨k, s, ha, hmem⟩ := hlisted "e0" hhome
  have hs : s.eventIds ∈ p.composer.active.values.map (·.eventIds) :=
    List.mem_map_of_mem (Dict.mem_values.2 ⟨k, ha⟩)
  rw [hvalues, List.mem_singleton] at hs
  rw [hs] at hmem
  revert hmem
  decide

end MarketSentinel
