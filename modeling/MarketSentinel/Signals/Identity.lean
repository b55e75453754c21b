import MarketSentinel.Signals.ComposerSpec

/-!
# Identities: the composer's tables stay in step

`SignalComposer.Inv seen drawn` holds of every composer whose calls carried fresh event ids
(collected in `seen`) and drew fresh signal ids (collected in `drawn`): the active signals
have distinct ids, the traces are exactly theirs, and no id is known that was not seen.

* `prune_inv`, `accept_inv`: pruning, and accepting a batch of fresh events, keep it.
* `Composes.inv`: so does composing an episode.
-/

namespace MarketSentinel

open Lib

/-- A trace agrees with its signal. -/
structure Agrees (t : SignalTrace) (s : Signal) : Prop where
  signalId : t.signalId = s.id
  eventIds : t.eventIds = s.eventIds
  family : t.family = s.family
  direction : t.direction = s.direction
  priority : t.priority = s.priority
  detected : t.detectedTimestamp = s.detectedTimestamp
  created : t.signalCreatedTimestamp = s.signalCreatedTimestamp

theorem traceOf_agrees (members : List MarketEvent) (features : MarketFeatures) (s : Signal) :
    Agrees (traceOf members features s) s := ⟨rfl, rfl, rfl, rfl, rfl, rfl, rfl⟩

namespace SignalComposer

/-- The tables are in step, with the event ids in `seen` and the signal ids in `drawn`. -/
structure Inv (seen drawn : Set String) (c : SignalComposer) : Prop where
  keyed : ∀ {k s}, c.active.get? k = some s → s.symbol = k.symbol ∧ s.direction = k.direction
  inj : ∀ {k k' s s'}, c.active.get? k = some s → c.active.get? k' = some s' → s.id = s'.id → k = k'
  drawn : ∀ {k s}, c.active.get? k = some s → s.id ∈ drawn
  eventSeen : ∀ {k s}, c.active.get? k = some s → ∀ i ∈ s.eventIds, i ∈ seen
  homeSeen : ∀ {i k}, c.home.get? i = some k → i ∈ seen
  accepted : ∀ {s e}, e ∈ c.accepted.getD s [] → e.id ∈ seen ∧ e.symbol = s
  ids : ∀ {s s' e e'}, e ∈ c.accepted.getD s [] → e' ∈ c.accepted.getD s' [] → e.id = e'.id → e = e'
  traced : ∀ {i t}, c.traces.get? i = some t → ∃ k s, c.active.get? k = some s ∧ s.id = i
  trace : ∀ {k s}, c.active.get? k = some s → ∃ t, c.traces.get? s.id = some t ∧ Agrees t s

variable {seen drawn : Set String} {c : SignalComposer}

theorem inv_empty (lookbackS : ℚ) (h : 0 ≤ lookbackS) :
    Inv seen drawn { lookbackS := lookbackS, lookback_nonneg := h } := by
  constructor <;> intros <;> simp_all

theorem Inv.mono {seen' drawn' : Set String} (h : Inv seen drawn c) (hs : seen ⊆ seen')
    (hd : drawn ⊆ drawn') : Inv seen' drawn' c where
  keyed := h.keyed
  inj := h.inj
  drawn := fun a => hd (h.drawn a)
  eventSeen := fun a i hi => hs (h.eventSeen a i hi)
  homeSeen := fun a => hs (h.homeSeen a)
  accepted := fun a => ⟨hs (h.accepted a).1, (h.accepted a).2⟩
  ids := h.ids
  traced := h.traced
  trace := h.trace

/-- Pruning keeps the tables in step: an episode and its trace go together. -/
theorem pruneActive_inv (h : Inv seen drawn c) (nowTs : ℚ) : Inv seen drawn (c.pruneActive nowTs) where
  keyed := fun a => h.keyed (pruneActive_active.1 a).1
  inj := fun a b => h.inj (pruneActive_active.1 a).1 (pruneActive_active.1 b).1
  drawn := fun a => h.drawn (pruneActive_active.1 a).1
  eventSeen := fun a => h.eventSeen (pruneActive_active.1 a).1
  homeSeen := fun a => h.homeSeen (pruneActive_home.1 a).1
  accepted := by rw [pruneActive_accepted]; exact h.accepted
  ids := by rw [pruneActive_accepted]; exact h.ids
  traced := by
    intro i t ht
    obtain ⟨ht, hx⟩ := pruneActive_traces.1 ht
    obtain ⟨k, s, ha, hi⟩ := h.traced ht
    exact ⟨k, s, pruneActive_active.2 ⟨ha, fun he => hx k s ha he hi⟩, hi⟩
  trace := by
    intro k s ha
    obtain ⟨ha, hn⟩ := pruneActive_active.1 ha
    obtain ⟨t, ht, hag⟩ := h.trace ha
    refine ⟨t, pruneActive_traces.2 ⟨ht, ?_⟩, hag⟩
    -- an expired episode with the same id would be this one
    intro k' s' ha' he' hid
    have hk := h.inj ha' ha hid
    subst hk
    rw [ha] at ha'
    cases ha'
    exact hn he'

/-- Trimming keeps the tables in step, when the ids of the events are known and are those of no
other accepted event. -/
theorem trimAccepted_inv (h : Inv seen drawn c) (symbol : String) {events : List MarketEvent}
    (he : ∀ e ∈ events, e.id ∈ seen ∧ e.symbol = symbol)
    (hid : ∀ e ∈ events, ∀ e' ∈ events, e.id = e'.id → e = e')
    (hid' : ∀ e ∈ events, ∀ s, ∀ e' ∈ c.accepted.getD s [], e.id = e'.id → e = e') (nowTs : ℚ) :
    Inv seen drawn (c.trimAccepted symbol events nowTs) where
  keyed := h.keyed
  inj := h.inj
  drawn := h.drawn
  eventSeen := h.eventSeen
  homeSeen := h.homeSeen
  accepted := by
    intro s e hm
    rcases mem_trimAccepted hm with ⟨rfl, hnew⟩ | hold
    · exact he e hnew
    · exact h.accepted hold
  ids := by
    intro s s' e e' hm hm' heq
    rcases mem_trimAccepted hm with ⟨-, hm⟩ | hm <;> rcases mem_trimAccepted hm' with ⟨-, hm'⟩ | hm'
    · exact hid e hm e' hm' heq
    · exact hid' e hm s' e' hm' heq
    · exact (hid' e' hm' s e hm heq.symm).symm
    · exact h.ids hm hm' heq
  traced := h.traced
  trace := h.trace

theorem prune_inv (h : Inv seen drawn c) (symbol : String) (nowTs : ℚ) :
    Inv seen drawn (c.prune symbol nowTs) :=
  pruneActive_inv (trimAccepted_inv h symbol (fun _ => h.accepted)
    (fun _ he _ he' => h.ids he he') (fun _ he _ _ he' => h.ids he he') nowTs) nowTs

/-- The ids of a list of events. -/
def idsOf (events : List MarketEvent) : Set String := {i | ∃ e ∈ events, e.id = i}

/-- A batch of one symbol whose ids are new and distinct. -/
structure FreshBatch (seen : Set String) (symbol : String) (batch : List MarketEvent) : Prop where
  symbol : ∀ e ∈ batch, e.symbol = symbol
  unseen : ∀ e ∈ batch, e.id ∉ seen
  ids : ∀ e ∈ batch, ∀ e' ∈ batch, e.id = e'.id → e = e'

theorem accept_inv (h : Inv seen drawn c) {symbol : String} {batch : List MarketEvent}
    (hb : FreshBatch seen symbol batch) : Inv (seen ∪ idsOf batch) drawn (c.accept symbol batch) := by
  have h' : Inv (seen ∪ idsOf batch) drawn c := h.mono Set.subset_union_left subset_rfl
  refine pruneActive_inv (trimAccepted_inv h' symbol ?_ ?_ ?_ _) _
  · intro e he
    rcases List.mem_append.1 he with he | he
    · exact h'.accepted he
    · exact ⟨.inr ⟨e, he, rfl⟩, hb.symbol e he⟩
  · intro e he e' he' heq
    rcases List.mem_append.1 he with he | he <;> rcases List.mem_append.1 he' with he' | he'
    · exact h.ids he he' heq
    · exact absurd (heq ▸ (h.accepted he).1) (hb.unseen e' he')
    · exact absurd (heq ▸ (h.accepted he').1) (hb.unseen e he)
    · exact hb.ids e he e' he' heq
  · intro e he s e' he' heq
    rcases List.mem_append.1 he with he | he
    · exact h.ids he he' heq
    · exact absurd (heq ▸ (h.accepted he').1) (hb.unseen e he)

end SignalComposer

open SignalComposer

/-! ## One composed episode -/

variable {seen drawn : Set String} {s s' : ComposeState} {draws : Draws} {key : EpisodeKey}
  {members : List MarketEvent} {features : MarketFeatures} {nowTs : ℚ} {identity : String × ℚ}
  {former : Option Signal}

/-- Every episode is inside the look-back of the call. -/
def AllLive (nowTs : ℚ) (c : SignalComposer) : Prop :=
  ∀ ⦃k sig⦄, c.active.get? k = some sig → ¬ c.Expired nowTs sig

theorem AllLive.live? {c : SignalComposer} (h : AllLive nowTs c) (k : EpisodeKey) :
    c.live? nowTs k = c.active.get? k := by
  cases hk : c.active.get? k with
  | some sig => exact live?_eq_some.2 ⟨hk, h hk⟩
  | none => unfold SignalComposer.live?; rw [hk]; rfl

/-- A composed signal has the market time of its last member. -/
theorem signalOf_market (hne : members ≠ []) :
    (signalOf key members features identity).marketTimestamp =
      (members.getLast hne).marketTimestamp := by
  simp [signalOf, List.getLast?_eq_getLast_of_ne_nil hne]

/-- The other episodes after a composition were there before, and are not the one taken over. -/
theorem Composes.active_of_ne (h : Composes s s' draws key members features nowTs identity former)
    {k : EpisodeKey} {sig : Signal} (hk : k ≠ key) (ha : s'.composer.active.get? k = some sig) :
    s.composer.active.get? k = some sig ∧ ¬ (former.isSome ∧ k = key.noneKey) := by
  rw [h.active, if_neg hk] at ha
  split at ha
  · cases ha
  · rename_i hn; exact ⟨ha, hn⟩

/-- The identity of a composed episode is that of no other episode. -/
theorem Composes.id_ne (h : Composes s s' draws key members features nowTs identity former)
    (hinv : Inv seen drawn s.composer) (hd : (draws key).1 ∉ drawn) {k : EpisodeKey} {sig : Signal}
    (hk : k ≠ key) (ha : s'.composer.active.get? k = some sig) : sig.id ≠ identity.1 := by
  obtain ⟨ha, hn⟩ := h.active_of_ne hk ha
  intro hid
  cases h.origin with
  | continued existing hl => exact hk (hinv.inj ha (live?_eq_some.1 hl).1 hid)
  | taken noneSignal _ _ _ hl => exact hn ⟨rfl, hinv.inj ha (live?_eq_some.1 hl).1 hid⟩
  | fresh => exact hd (hid ▸ hinv.drawn ha)

/-- **Composing an episode keeps the tables in step.** -/
theorem Composes.inv (h : Composes s s' draws key members features nowTs identity former)
    (hinv : Inv seen drawn s.composer) (hlive : AllLive nowTs s.composer)
    (hm : ∀ e ∈ members, e.id ∈ seen) (hd : (draws key).1 ∉ drawn) :
    Inv seen (insert (draws key).1 drawn) s'.composer where
  keyed := by
    intro k sig ha
    by_cases hk : k = key
    · rw [h.active, if_pos hk] at ha
      cases ha
      exact hk ▸ ⟨rfl, rfl⟩
    · exact hinv.keyed (h.active_of_ne hk ha).1
  inj := by
    intro k k' sig sig' ha ha' hid
    by_cases hk : k = key <;> by_cases hk' : k' = key
    · rw [hk, hk']
    · rw [h.active, if_pos hk] at ha
      cases ha
      exact absurd hid.symm (h.id_ne hinv hd hk' ha')
    · rw [h.active, if_pos hk'] at ha'
      cases ha'
      exact absurd hid (h.id_ne hinv hd hk ha)
    · exact hinv.inj (h.active_of_ne hk ha).1 (h.active_of_ne hk' ha').1 hid
  drawn := by
    intro k sig ha
    by_cases hk : k = key
    · rw [h.active, if_pos hk] at ha
      cases ha
      show identity.1 ∈ _
      cases h.origin with
      | continued existing hl => exact Set.mem_insert_of_mem _ (hinv.drawn (live?_eq_some.1 hl).1)
      | taken noneSignal _ _ _ hl => exact Set.mem_insert_of_mem _ (hinv.drawn (live?_eq_some.1 hl).1)
      | fresh => exact Set.mem_insert _ _
    · exact Set.mem_insert_of_mem _ (hinv.drawn (h.active_of_ne hk ha).1)
  eventSeen := by
    intro k sig ha i hi
    by_cases hk : k = key
    · rw [h.active, if_pos hk] at ha
      cases ha
      obtain ⟨e, he, rfl⟩ := List.mem_map.1 hi
      exact hm e he
    · exact hinv.eventSeen (h.active_of_ne hk ha).1 i hi
  homeSeen := by
    intro i k hi
    rw [h.home] at hi
    split at hi
    · rename_i hor
      rcases hor with hor | hor
      · obtain ⟨e, he, rfl⟩ := List.mem_map.1 hor
        exact hm e he
      · cases h.origin with
        | continued => cases hor
        | taken noneSignal _ _ _ hl => exact hinv.eventSeen (live?_eq_some.1 hl).1 i hor
        | fresh => cases hor
    · exact hinv.homeSeen hi
  accepted := by rw [h.accepted]; exact hinv.accepted
  ids := by rw [h.accepted]; exact hinv.ids
  traced := by
    intro i t ht
    by_cases hi : i = identity.1
    · exact ⟨key, _, by rw [h.active, if_pos rfl], hi.symm⟩
    · rw [h.traces, if_neg hi] at ht
      obtain ⟨k, sig, ha, hid⟩ := hinv.traced ht
      refine ⟨k, sig, ?_, hid⟩
      -- the only entries that go are the two whose id the new signal has
      have hl := live?_eq_some.2 ⟨ha, hlive ha⟩
      rw [h.active]
      by_cases hk : k = key
      · subst hk
        cases h.origin with
        | continued existing hl' =>
          rw [hl] at hl'; cases hl'; exact absurd hid.symm hi
        | taken noneSignal hk' => rw [hl] at hk'; cases hk'
        | fresh hk' => rw [hl] at hk'; cases hk'
      · rw [if_neg hk]
        split
        · rename_i hn
          cases h.origin with
          | continued => cases hn.1
          | taken noneSignal _ _ _ hl' =>
            rw [hn.2] at hl
            rw [hl] at hl'; cases hl'; exact absurd hid.symm hi
          | fresh => cases hn.1
        · exact ha
  trace := by
    intro k sig ha
    by_cases hk : k = key
    · rw [h.active, if_pos hk] at ha
      cases ha
      exact ⟨_, (h.traces _).trans (if_pos rfl), traceOf_agrees ..⟩
    · obtain ⟨t, ht, hag⟩ := hinv.trace (h.active_of_ne hk ha).1
      exact ⟨t, by rw [h.traces, if_neg (h.id_ne hinv hd hk ha)]; exact ht, hag⟩

/-- A composition of recent members keeps every episode inside the look-back. -/
theorem Composes.allLive (h : Composes s s' draws key members features nowTs identity former)
    (hlive : AllLive nowTs s.composer) (hne : members ≠ [])
    (hm : ∀ e ∈ members, s.composer.cutoff nowTs ≤ e.marketTimestamp) : AllLive nowTs s'.composer := by
  intro k sig ha
  unfold Expired
  rw [cutoff_congr h.lookback, not_lt]
  by_cases hk : k = key
  · rw [h.active, if_pos hk] at ha
    cases ha
    rw [signalOf_market hne]
    exact hm _ (List.getLast_mem hne)
  · exact not_lt.1 (hlive (h.active_of_ne hk ha).1)

end MarketSentinel
