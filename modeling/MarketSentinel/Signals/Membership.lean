import MarketSentinel.Lib.Machine
import MarketSentinel.Signals.LineageTurn
import MarketSentinel.Signals.Runs

/-!
# Who lists an event

Runs of `consume_batch` calls for one symbol (`SingleSymbolRun`). `Book` is what every such run
keeps of the tables; `Homed` says that an event listed by an active signal has that signal's key
for its home, so that no other active signal lists it.

* `Book.turn`, `homed_turn`: a lineage's turn. A turn keeps `Homed` unless it finds the NONE
  episode and the episode of its target both active.
* `TwoHomes`: the calls that find both.
* `claimed_once`: in runs without such a call, no event is listed by two active signals.
-/

namespace MarketSentinel

open Lib Machine SignalComposer

/-- One `consume_batch` call of a run; `ts` is the market time of its events. -/
structure BatchCall where
  draws : Draws
  events : List MarketEvent
  features : MarketFeatures
  ts : ℚ

/-- The composer after a call. -/
def SignalComposer.batchStep (c : SignalComposer) (call : BatchCall) : Option SignalComposer :=
  some (c.consumeBatch call.draws call.events call.features).2

/-- The calls are for one symbol; each has one market time, and the times do not decrease; no
event id comes twice. -/
structure SingleSymbolRun (symbol : String) (calls : List BatchCall) : Prop where
  symbol : ∀ call ∈ calls, ∀ e ∈ call.events, e.symbol = symbol
  oneTs : ∀ call ∈ calls, ∀ e ∈ call.events, e.marketTimestamp = call.ts
  sorted : (calls.map (·.ts)).Pairwise (· ≤ ·)
  fresh : (calls.flatMap fun call => call.events.map (·.id)).Nodup

/-- The event ids of a run. -/
def idsIn (calls : List BatchCall) : Set String :=
  {i | i ∈ calls.flatMap fun call => call.events.map (·.id)}

/-- What every run for `symbol` keeps of the tables. -/
structure Book (seen : Set String) (symbol : String) (c : SignalComposer) : Prop where
  one : ∀ {k sig}, c.active.get? k = some sig → k.symbol = symbol
  accepted : ∀ {e}, e ∈ c.accepted.getD symbol [] → e.id ∈ seen
  ids : ∀ {e e'}, e ∈ c.accepted.getD symbol [] → e' ∈ c.accepted.getD symbol [] →
    e.id = e'.id → e = e'
  listed : ∀ {k i}, c.Lists k i → i ∈ seen
  homeSeen : ∀ {i k}, c.home.get? i = some k → i ∈ seen
  typed : ∀ {k e}, e ∈ c.accepted.getD symbol [] → c.Lists k e.id →
    lineageOf e.type = k.lineage ∧ (e.direction ≠ .none → e.direction = k.direction)
  latest : ∀ {k sig e}, e ∈ c.accepted.getD symbol [] → c.active.get? k = some sig →
    e.id ∈ sig.eventIds → e.marketTimestamp ≤ sig.marketTimestamp

/-- An event listed by an active signal is at home there. -/
def Homed (c : SignalComposer) : Prop := ∀ ⦃k i⦄, c.Lists k i → c.home.get? i = some k

/-! ## A lineage's turn -/

section Turn

variable {call : SymbolCall} {l : Lineage} {c : SignalComposer} {s : ComposeState}
  {seen : Set String}

/-- The directions of a turn. -/
theorem mem_directions (d : EventDirection) : d ∈ [EventDirection.none, .down, .up] := by
  cases d <;> simp

/-- A listed event after a turn is a member of the episode composed there, or was listed before. -/
theorem TurnEffect.lists (h : TurnEffect call l c [.none, .down, .up] s) {k : EpisodeKey} {i : String}
    (hl : s.composer.Lists k i) :
    (∃ d, call.Renews l c d ∧ k = call.keyOf l d ∧ i ∈ (call.members l c d).map (·.id)) ∨
      (∀ d, call.Renews l c d → k ≠ call.keyOf l d) ∧ c.Lists k i ∧
        ¬ (k = call.keyOf l .none ∧ call.Taken l c [.none, .down, .up]) := by
  obtain ⟨sig, ha, hi⟩ := hl
  by_cases hk : ∃ d, call.Renews l c d ∧ k = call.keyOf l d
  · obtain ⟨d, hr, rfl⟩ := hk
    obtain ⟨sig', ha', hids, -⟩ := h.composed d (mem_directions d) hr
    rw [ha] at ha'
    cases ha'
    exact .inl ⟨d, hr, rfl, hids ▸ hi⟩
  · push Not at hk
    obtain ⟨ha', hn⟩ := (h.kept k sig fun d _ => hk d).1 ha
    exact .inr ⟨hk, ⟨sig, ha', hi⟩, hn⟩

/-- **A lineage's turn keeps the book.** -/
theorem Book.turn (hbook : Book seen call.symbol c)
    (hrec : call.recent = c.accepted.getD call.symbol [])
    (h : TurnEffect call l c [.none, .down, .up] s) : Book seen call.symbol s.composer := by
  have hmem : ∀ {d e}, e ∈ call.members l c d → e ∈ c.accepted.getD call.symbol [] := by
    intro d e he
    exact hrec ▸ (SymbolCall.mem_members.1 he).1.1
  have hseen : ∀ {d i}, i ∈ (call.members l c d).map (·.id) → i ∈ seen := by
    intro d i hi
    obtain ⟨e, he, rfl⟩ := List.mem_map.1 hi
    exact hbook.accepted (hmem he)
  refine ⟨?_, ?_, ?_, ?_, ?_, ?_, ?_⟩
  · intro k sig ha
    by_cases hk : ∃ d, call.Renews l c d ∧ k = call.keyOf l d
    · obtain ⟨d, -, rfl⟩ := hk; rfl
    · push Not at hk
      exact hbook.one ((h.kept k sig fun d _ => hk d).1 ha).1
  · rw [h.accepted]; exact hbook.accepted
  · rw [h.accepted]; exact hbook.ids
  · intro k i hl
    rcases h.lists hl with ⟨d, -, -, hi⟩ | ⟨-, hl, -⟩
    · exact hseen hi
    · exact hbook.listed hl
  · intro i k hi
    by_cases hm : ∃ d, call.Renews l c d ∧ i ∈ (call.members l c d).map (·.id)
    · obtain ⟨d, -, hm⟩ := hm; exact hseen hm
    · push Not at hm
      -- The home of an event moves with the episode that took it over, and stays otherwise.
      by_cases ht : call.Taken l c [.none, .down, .up] ∧ c.Lists (call.keyOf l .none) i
      · exact hbook.listed ht.2
      · rw [h.homeKept i (fun d _ => hm d) ht] at hi
        exact hbook.homeSeen hi
  · -- A listed event is a member of a composed episode, or was listed before.
    intro k e he hl
    rw [h.accepted] at he
    rcases h.lists hl with ⟨d, -, rfl, hi⟩ | ⟨-, hl, -⟩
    · obtain ⟨e', he', heq⟩ := List.mem_map.1 hi
      have hee := hbook.ids (hmem he') he heq
      subst hee
      obtain ⟨⟨-, hlin⟩, -, hdir⟩ := SymbolCall.mem_members.1 he'
      exact ⟨hlin, fun hd => by rw [if_neg hd] at hdir; exact hdir⟩
    · exact hbook.typed he hl
  · -- A composed signal is as late as its latest member; the others are as they were.
    intro k sig e he ha hi
    rw [h.accepted] at he
    by_cases hk : ∃ d, call.Renews l c d ∧ k = call.keyOf l d
    · obtain ⟨d, hr, rfl⟩ := hk
      obtain ⟨sig', ha', hids, hts⟩ := h.composed d (mem_directions d) hr
      rw [ha] at ha'
      cases ha'
      rw [hids] at hi
      obtain ⟨e', he', heq⟩ := List.mem_map.1 hi
      have hee := hbook.ids (hmem he') he heq
      subst hee
      exact hts e' he'
    · push Not at hk
      exact hbook.latest he ((h.kept k sig fun d _ => hk d).1 ha).1 hi

/-- A turn finds the NONE episode and the episode of its directional target both active. -/
def SymbolCall.ClashAt (call : SymbolCall) (l : Lineage) (c : SignalComposer) : Prop :=
  call.noneTarget c l ≠ .none ∧ (∃ sig, c.active.get? (call.keyOf l .none) = some sig) ∧
    ∃ sig, c.active.get? (call.keyOf l (call.noneTarget c l)) = some sig

/-- A direction with a new member is the target, or that of an event of the batch. -/
theorem renews_dir (hb : ∀ e ∈ call.recent, ∀ b ∈ call.batch, e.id = b.id → e = b)
    {d : EventDirection} (hr : call.Renews l c d) :
    ∃ b ∈ ofLineage l call.batch, (b.direction = .none ∧ call.noneTarget c l = d) ∨
      (b.direction ≠ .none ∧ b.direction = d) := by
  obtain ⟨e, he, hid⟩ := hr
  obtain ⟨b, hbm, heq⟩ := List.mem_map.1 hid
  obtain ⟨⟨hrec, hlin⟩, -, hdir⟩ := SymbolCall.mem_members.1 he
  have heb := hb e hrec b hbm heq.symm
  subst heb
  refine ⟨e, List.mem_filter.2 ⟨hbm, decide_eq_true hlin⟩, ?_⟩
  by_cases hd : e.direction = .none
  · rw [if_pos hd] at hdir; exact .inl ⟨hd, hdir⟩
  · rw [if_neg hd] at hdir; exact .inr ⟨hd, hdir⟩

/-- With a directional target, only the target is composed. -/
theorem renews_target (hb : ∀ e ∈ call.recent, ∀ b ∈ call.batch, e.id = b.id → e = b)
    {d : EventDirection} (ht : call.noneTarget c l ≠ .none) (hr : call.Renews l c d) :
    d = call.noneTarget c l := by
  obtain ⟨b, hbm, ⟨-, h⟩ | ⟨hd, h⟩⟩ := renews_dir hb hr
  · exact h.symm
  · rcases resolveNoneTarget_dirs hbm hd with hn | hn
    · exact absurd hn ht
    · exact (hn.trans h).symm

/-- **A turn that finds no clash keeps every listed event at home.** -/
theorem homed_turn (hbook : Book seen call.symbol c) (hhome : Homed c)
    (hrec : call.recent = c.accepted.getD call.symbol [])
    (hb : ∀ e ∈ call.recent, ∀ b ∈ call.batch, e.id = b.id → e = b)
    (hno : ¬ call.ClashAt l c) (h : TurnEffect call l c [.none, .down, .up] s) :
    Homed s.composer := by
  have hmem : ∀ {d e}, e ∈ call.members l c d → e ∈ c.accepted.getD call.symbol [] := by
    intro d e he
    exact hrec ▸ (SymbolCall.mem_members.1 he).1.1
  intro k i hl
  rcases h.lists hl with ⟨d, hr, rfl, hi⟩ | ⟨hk, hl, hn⟩
  · rcases h.home d (mem_directions d) hr i hi with hh | ⟨hlist, hd, d', hne, hd', hr'⟩
    · exact hh
    · -- a NONE event was sent to `d`, so no other direction was composed
      obtain ⟨e, he, rfl⟩ := List.mem_map.1 hi
      obtain ⟨-, -, hdir⟩ := SymbolCall.mem_members.1 he
      have hnone : e.direction = .none := by
        by_contra hdn
        exact hdn ((hbook.typed (hmem he) hlist).2 hdn)
      rw [if_pos hnone] at hdir
      exact absurd (hdir ▸ renews_target hb (hdir ▸ hd) hr') hne
  · -- An episode that was not composed: its events were at home, and no composition took them.
    have hkhome := hhome hl
    rw [h.homeKept i ?_ ?_]
    · exact hkhome
    · intro d _ hr hi
      obtain ⟨e, he, rfl⟩ := List.mem_map.1 hi
      obtain ⟨⟨-, hlin⟩, hsel, hdir⟩ := SymbolCall.mem_members.1 he
      obtain ⟨hkl, hkd⟩ := hbook.typed (hmem he) hl
      obtain ⟨sig, ha, -⟩ := id hl
      have hkey : ∀ d', k.direction = d' → k = call.keyOf l d' := by
        rintro d' rfl
        obtain ⟨ks, kl, kd⟩ := k
        have h1 : ks = call.symbol := hbook.one ha
        have h2 : l = kl := hlin.symm.trans hkl
        rw [h1, h2]; rfl
      by_cases hd : e.direction = .none
      · -- a NONE event that stayed elsewhere: it came from the NONE episode, which goes
        rw [if_pos hd] at hdir
        unfold selects at hsel
        rw [if_neg (not_not.2 hd), hkhome] at hsel
        dsimp only at hsel
        split at hsel
        · cases hsel
        · split at hsel
          · rename_i hkt
            exact hk d hr (hkey d (hkt.trans hdir))
          · have hsel := of_decide_eq_true hsel
            have hkn := hkey _ hsel.1
            -- It was sent to a direction with no episode yet, or there would be a clash.
            have hne : call.noneTarget c l ≠ .none := by
              rcases hsel.2 with h | h <;> rw [h] <;> simp
            refine hn ⟨hkn, ⟨sig, hkn ▸ ha⟩, d, mem_directions d, hdir ▸ hne, hr, ?_⟩
            cases hc : c.active.get? (call.keyOf l d) with
            | none => rfl
            | some sig' => exact absurd ⟨hne, ⟨sig, hkn ▸ ha⟩, sig', hdir ▸ hc⟩ hno
      · rw [if_neg hd] at hdir
        exact hk d hr (hkey d ((hkd hd).symm.trans hdir))
    · rintro ⟨ht, hlist⟩
      have := hhome hlist
      rw [hkhome] at this
      exact hn ⟨Option.some.inj this, ht⟩

end Turn

/-! ## The other lineage -/

section Frame

variable {call : SymbolCall} {l l' : Lineage} {c c' : SignalComposer} {d : EventDirection}

/-- Two composers agree on a lineage: on its episodes, and on the homes of its recent events. -/
structure SameAt (call : SymbolCall) (l : Lineage) (c c' : SignalComposer) : Prop where
  active : ∀ d, c'.active.get? (call.keyOf l d) = c.active.get? (call.keyOf l d)
  home : ∀ e ∈ call.recent, lineageOf e.type = l → c'.home.get? e.id = c.home.get? e.id

theorem SameAt.refl : SameAt call l c c := ⟨fun _ => rfl, fun _ _ _ => rfl⟩

theorem mem_liveDirections {symbol : String} : d ∈ c.liveDirections symbol l ↔
    ∃ sig, c.active.get? ⟨symbol, l, d⟩ = some sig := by
  unfold liveDirections
  rw [List.mem_toFinset, List.mem_map]
  constructor
  · rintro ⟨⟨ks, kl, kd⟩, hk, rfl⟩
    rw [List.mem_filter, decide_eq_true_eq] at hk
    obtain ⟨hk, rfl, rfl⟩ := hk
    exact Dict.mem_keys.1 hk
  · intro h
    refine ⟨_, List.mem_filter.2 ⟨Dict.mem_keys.2 h, ?_⟩, rfl⟩
    simp

theorem SameAt.noneTarget (h : SameAt call l c c') : call.noneTarget c' l = call.noneTarget c l := by
  unfold SymbolCall.noneTarget
  congr 1
  ext d
  rw [mem_liveDirections, mem_liveDirections]
  show (∃ sig, c'.active.get? (call.keyOf l d) = _) ↔ ∃ sig, c.active.get? (call.keyOf l d) = _
  rw [h.active]

theorem SameAt.members (h : SameAt call l c c') : call.members l c' d = call.members l c d := by
  unfold SymbolCall.members SymbolCall.selected eventsForPartition
  rw [h.noneTarget]
  congr 2
  refine List.filter_congr fun e he => ?_
  rw [ofLineage, List.mem_filter, decide_eq_true_eq] at he
  unfold selects
  rw [h.home e he.1 he.2]

theorem SameAt.renews (h : SameAt call l c c') : call.Renews l c' d ↔ call.Renews l c d := by
  unfold SymbolCall.Renews
  rw [h.members]

theorem SameAt.clash (h : SameAt call l c c') : call.ClashAt l c' ↔ call.ClashAt l c := by
  unfold SymbolCall.ClashAt
  rw [h.noneTarget, h.active, h.active]

/-- **A turn leaves the other lineage alone.** -/
theorem TurnEffect.sameAt {seen : Set String} {s : ComposeState} (hbook : Book seen call.symbol c)
    (hrec : call.recent = c.accepted.getD call.symbol []) (hne : l' ≠ l)
    (h : TurnEffect call l c [.none, .down, .up] s) : SameAt call l' c s.composer where
  active := by
    intro d
    have hkey : ∀ d', call.keyOf l' d ≠ call.keyOf l d' := fun d' he =>
      hne (congrArg EpisodeKey.lineage he)
    apply Option.ext
    intro sig
    rw [h.kept _ sig fun d' _ _ => hkey d']
    exact and_iff_left fun hn => hkey _ hn.1
  home := by
    intro e he hlin
    have he' : e ∈ c.accepted.getD call.symbol [] := hrec ▸ he
    refine h.homeKept e.id ?_ ?_
    · intro d _ _ hi
      obtain ⟨e', hm, heq⟩ := List.mem_map.1 hi
      obtain ⟨⟨hr', hlin'⟩, -⟩ := SymbolCall.mem_members.1 hm
      have := hbook.ids (hrec ▸ hr') he' heq
      subst this
      exact hne (hlin.symm.trans hlin')
    · rintro ⟨-, hlist⟩
      exact hne (hlin.symm.trans (hbook.typed he' hlist).1)

end Frame

/-! ## A whole call -/

section Call

variable {seen : Set String} {symbol : String} {c : SignalComposer} {batch : List MarketEvent}

/-- **Accepting a batch of fresh events keeps the book.** -/
theorem Book.accept (h : Book seen symbol c) (hb : FreshBatch seen symbol batch) :
    Book (seen ∪ idsOf batch) symbol (c.accept symbol batch) := by
  have hacc : ∀ {e}, e ∈ (c.accept symbol batch).accepted.getD symbol [] →
      e ∈ c.accepted.getD symbol [] ∨ e ∈ batch := by
    intro e he
    rw [accept_accepted, if_pos rfl, List.mem_filter] at he
    exact List.mem_append.1 he.1
  have hlists : ∀ {k i}, (c.accept symbol batch).Lists k i → c.Lists k i := by
    rintro k i ⟨sig, ha, hi⟩
    exact ⟨sig, (accept_active.1 ha).1, hi⟩
  -- a listed event is not one of the batch
  have hold : ∀ {k e}, e ∈ (c.accept symbol batch).accepted.getD symbol [] → c.Lists k e.id →
      e ∈ c.accepted.getD symbol [] := by
    intro k e he hl
    exact (hacc he).resolve_right fun hm => hb.unseen e hm (h.listed hl)
  refine ⟨fun ha => h.one (accept_active.1 ha).1, ?_, ?_, fun hl => .inl (h.listed (hlists hl)),
    fun hi => .inl (h.homeSeen (accept_home.1 hi).1), ?_, ?_⟩
  · intro e he
    rcases hacc he with he | he
    · exact .inl (h.accepted he)
    · exact .inr ⟨e, he, rfl⟩
  · intro e e' he he' heq
    rcases hacc he with he | he <;> rcases hacc he' with he' | he'
    · exact h.ids he he' heq
    · exact absurd (heq ▸ h.accepted he) (hb.unseen e' he')
    · exact absurd (heq ▸ h.accepted he') (hb.unseen e he)
    · exact hb.ids e he e' he' heq
  · intro k e he hl
    exact h.typed (hold he (hlists hl)) (hlists hl)
  · intro k sig e he ha hi
    have ha := (accept_active.1 ha).1
    exact h.latest (hold he ⟨sig, ha, hi⟩) ha hi

/-- Accepting a batch drops the home of an event only with its episode. -/
theorem Homed.accept (h : Homed c) : Homed (c.accept symbol batch) := by
  rintro k i ⟨sig, ha, hi⟩
  obtain ⟨ha, hn⟩ := accept_active.1 ha
  refine accept_home.2 ⟨h ⟨sig, ha, hi⟩, fun sig' ha' he' => ?_⟩
  rw [ha] at ha'
  cases ha'
  exact absurd he' hn

/-- What the turns of a call rely on and keep. -/
structure CallInv (seen : Set String) (call : SymbolCall) (c₀ : SignalComposer)
    (todo : List Lineage) (s : ComposeState) : Prop where
  book : Book seen call.symbol s.composer
  live : AllLive call.nowTs s.composer
  lookback : s.composer.lookbackS = c₀.lookbackS
  accepted : s.composer.accepted = c₀.accepted
  stolen : ∀ l ∈ todo, (call.symbol, l) ∉ s.stolenNone
  same : ∀ l ∈ todo, SameAt call l c₀ s.composer

/-- What a lineage's turn did. -/
def Turned (call : SymbolCall) (l : Lineage) (s s' : ComposeState) : Prop :=
  ((∀ b ∈ call.batch, lineageOf b.type ≠ l) ∧ s' = s) ∨
    (∃ b ∈ call.batch, lineageOf b.type = l) ∧
      TurnEffect call l s.composer [.none, .down, .up] s'

/-- A turn steals only its own lineage's NONE episode. -/
theorem stolen_other {call : SymbolCall} {l l' : Lineage} {s s' : ComposeState}
    (h : call.LineageChain l s s') (hne : l' ≠ l) (hs : (call.symbol, l') ∉ s.stolenNone) :
    (call.symbol, l') ∉ s'.stolenNone := by
  refine h.inv (P := fun t => (call.symbol, l') ∉ t.stolenNone) ?_ hs
  intro c d t t' ht hst
  cases hst with
  | skip _ hs' => exact hs' ▸ ht
  | compose _ identity former hc =>
    rw [hc.stolen]
    split
    · rw [List.mem_cons, not_or]
      exact ⟨fun he => hne (Prod.ext_iff.1 he).2, ht⟩
    · exact ht

theorem CallInv.turn {call : SymbolCall} {c₀ : SignalComposer} {l : Lineage} {todo : List Lineage}
    {s s' : ComposeState} (h : CallInv seen call c₀ (l :: todo) s) (hl : l ∉ todo)
    (hrec : call.recent = c₀.accepted.getD call.symbol [])
    (hwithin : ∀ e ∈ call.recent, c₀.cutoff call.nowTs ≤ e.marketTimestamp)
    (hc : call.LineageChain l s s') : Turned call l s s' ∧ CallInv seen call c₀ todo s' := by
  have hrec' : call.recent = s.composer.accepted.getD call.symbol [] := by rw [h.accepted]; exact hrec
  have hst : ∀ l' ∈ todo, (call.symbol, l') ∉ s'.stolenNone := fun l' hl' =>
    stolen_other hc (fun he => hl (he ▸ hl')) (h.stolen l' (List.mem_cons_of_mem _ hl'))
  by_cases hb : ∃ b ∈ call.batch, lineageOf b.type = l
  · have heff := lineageTurn_effect h.live (h.stolen l List.mem_cons_self)
      (fun e he => by rw [cutoff_congr h.lookback]; exact hwithin e he)
      (fun e he e' he' => h.book.ids (hrec' ▸ he) (hrec' ▸ he')) hb hc
    refine ⟨.inr ⟨hb, heff⟩, h.book.turn hrec' heff, heff.live, heff.lookback.trans h.lookback,
      heff.accepted.trans h.accepted, hst, fun l' hl' => ?_⟩
    have hold := h.same l' (List.mem_cons_of_mem _ hl')
    have hnew := heff.sameAt h.book hrec' (fun he : l' = l => hl (he ▸ hl'))
    exact ⟨fun d => (hnew.active d).trans (hold.active d),
      fun e he hlin => (hnew.home e he hlin).trans (hold.home e he hlin)⟩
  · push Not at hb
    cases hc with
    | skip _ hs =>
      subst hs
      exact ⟨.inl ⟨hb, rfl⟩, h.book, h.live, h.lookback, h.accepted, hst,
        fun l' hl' => h.same l' (List.mem_cons_of_mem _ hl')⟩
    | turn hb' =>
      obtain ⟨b, hbm, hlin⟩ := hb'
      exact absurd hlin (hb b hbm)

/-- **A call, turn by turn.** -/
theorem consumeSymbol_turns (h : Book seen symbol c) (hb : FreshBatch seen symbol batch)
    (draws : Draws) (features : MarketFeatures) :
    let call := c.callFor draws symbol batch features
    let c₀ := c.accept symbol batch
    CallInv (seen ∪ idsOf batch) call c₀ [.tape, .vwap] { composer := c₀ } ∧
      ∃ s₁ s₂ : ComposeState, Turned call .tape { composer := c₀ } s₁ ∧
        CallInv (seen ∪ idsOf batch) call c₀ [.vwap] s₁ ∧ Turned call .vwap s₁ s₂ ∧
        CallInv (seen ∪ idsOf batch) call c₀ [] s₂ ∧
        c.consumeSymbol draws symbol batch features = (s₂.produced, s₂.composer) := by
  obtain ⟨s₁, s₂, tape, vwap, heq⟩ := consumeSymbol_chain c draws symbol batch features
  have hwithin : ∀ e ∈ (c.callFor draws symbol batch features).recent,
      (c.accept symbol batch).cutoff (latestTs batch) ≤ e.marketTimestamp := by
    intro e he
    have he' : e ∈ (c.accept symbol batch).accepted.getD symbol [] := he
    rw [accept_accepted, if_pos rfl, List.mem_filter, decide_eq_true_eq] at he'
    rw [cutoff_congr accept_lookback]
    exact he'.2
  have h0 : CallInv (seen ∪ idsOf batch) (c.callFor draws symbol batch features)
      (c.accept symbol batch) [.tape, .vwap] { composer := c.accept symbol batch } :=
    ⟨h.accept hb, fun _ _ ha => (live?_eq_some.1 (accept_live ha)).2, rfl, rfl, by simp,
      fun _ _ => .refl⟩
  obtain ⟨ht1, h1⟩ := h0.turn (by simp) rfl hwithin tape
  obtain ⟨ht2, h2⟩ := h1.turn (by simp) rfl hwithin vwap
  exact ⟨h0, s₁, s₂, ht1, h1, ht2, h2, heq⟩

/-- The batch is not among the other recent events. -/
theorem callFor_batchIds (h : Book seen symbol c) (hb : FreshBatch seen symbol batch)
    (draws : Draws) (features : MarketFeatures) :
    ∀ e ∈ (c.callFor draws symbol batch features).recent,
      ∀ b ∈ (c.callFor draws symbol batch features).batch, e.id = b.id → e = b := by
  intro e he b hbm heq
  have he' : e ∈ (c.accept symbol batch).accepted.getD symbol [] := he
  rw [accept_accepted, if_pos rfl, List.mem_filter, List.mem_append] at he'
  rcases he'.1 with he' | he'
  · exact absurd (heq ▸ h.accepted he') (hb.unseen b hbm)
  · exact hb.ids e he' b hbm heq

end Call

/-! ## The calls that find two homes -/

namespace SignalComposer

/-- The look-back of a symbol with a batch added. -/
def recentAt (c : SignalComposer) (symbol : String) (batch : List MarketEvent) : List MarketEvent :=
  (c.accepted.getD symbol [] ++ batch).filter fun e => c.cutoff (latestTs batch) ≤ e.marketTimestamp

/-- The target of a batch's NONE events, in the state before the call. -/
def targetAt (c : SignalComposer) (symbol : String) (batch : List MarketEvent) (lineage : Lineage) :
    EventDirection :=
  resolveNoneTarget (ofLineage lineage batch) (ofLineage lineage (c.recentAt symbol batch))
    (({.none, .up, .down} : Finset EventDirection).filter fun d =>
      (c.live? (latestTs batch) ⟨symbol, lineage, d⟩).isSome)

/-- The call finds, in a lineage of its batch, both a live NONE episode and a live episode of the
direction that the lineage's NONE events are sent to. -/
def TwoHomes (c : SignalComposer) (symbol : String) (batch : List MarketEvent) : Prop :=
  ∃ lineage ∈ [Lineage.tape, Lineage.vwap], (∃ b ∈ batch, lineageOf b.type = lineage) ∧
    c.targetAt symbol batch lineage ≠ .none ∧
    (c.live? (latestTs batch) ⟨symbol, lineage, .none⟩).isSome ∧
    (c.live? (latestTs batch) ⟨symbol, lineage, c.targetAt symbol batch lineage⟩).isSome

instance (c : SignalComposer) (symbol : String) (batch : List MarketEvent) :
    Decidable (c.TwoHomes symbol batch) :=
  inferInstanceAs (Decidable (∃ lineage ∈ [Lineage.tape, Lineage.vwap], _))

variable {c : SignalComposer} {symbol : String} {batch : List MarketEvent}

/-- After accepting the batch, the active episodes are the live ones of the state before. -/
theorem accept_active_eq (k : EpisodeKey) :
    (c.accept symbol batch).active.get? k = c.live? (latestTs batch) k := by
  apply Option.ext
  intro sig
  rw [accept_active, live?_eq_some]

theorem noneTarget_callFor (draws : Draws) (features : MarketFeatures) (lineage : Lineage) :
    (c.callFor draws symbol batch features).noneTarget (c.accept symbol batch) lineage =
      c.targetAt symbol batch lineage := by
  unfold SymbolCall.noneTarget targetAt
  have hrec : (c.callFor draws symbol batch features).recent = c.recentAt symbol batch := by
    show (c.accept symbol batch).accepted.getD symbol [] = _
    rw [accept_accepted, if_pos rfl]
    rfl
  rw [hrec]
  congr 1
  ext d
  rw [mem_liveDirections, Finset.mem_filter]
  show (∃ sig, (c.accept symbol batch).active.get? _ = some sig) ↔ _
  rw [accept_active_eq, ← Option.isSome_iff_exists]
  exact ⟨fun h => ⟨by cases d <;> simp, h⟩, fun h => h.2⟩

theorem clash_twoHomes {draws : Draws} {features : MarketFeatures} {lineage : Lineage}
    (hb : ∃ b ∈ batch, lineageOf b.type = lineage)
    (h : (c.callFor draws symbol batch features).ClashAt lineage (c.accept symbol batch)) :
    c.TwoHomes symbol batch := by
  obtain ⟨h1, h2, h3⟩ := h
  rw [noneTarget_callFor] at h1 h3
  rw [accept_active_eq, ← Option.isSome_iff_exists] at h2 h3
  exact ⟨lineage, by cases lineage <;> simp, hb, h1, h2, h3⟩

end SignalComposer

/-- **A call that does not find two homes keeps every listed event at home.** -/
theorem homed_consumeSymbol {seen : Set String} {symbol : String} {c : SignalComposer}
    {batch : List MarketEvent} (h : Book seen symbol c) (hhome : Homed c)
    (hb : FreshBatch seen symbol batch) (draws : Draws) (features : MarketFeatures)
    (hno : ¬ c.TwoHomes symbol batch) :
    Homed (c.consumeSymbol draws symbol batch features).2 := by
  obtain ⟨h0, s₁, s₂, ht1, h1, ht2, -, heq⟩ := consumeSymbol_turns h hb draws features
  have hids := callFor_batchIds h hb draws features
  rw [heq]
  have hs1 : Homed s₁.composer := by
    rcases ht1 with ⟨-, rfl⟩ | ⟨hbl, heff⟩
    · exact hhome.accept
    · exact homed_turn h0.book hhome.accept rfl hids (fun hc => hno (clash_twoHomes hbl hc)) heff
  rcases ht2 with ⟨-, rfl⟩ | ⟨hbl, heff⟩
  · exact hs1
  · refine homed_turn h1.book hs1 ?_ hids (fun hc => ?_) heff
    · rw [h1.accepted]; rfl
    · exact hno (clash_twoHomes hbl ((h1.same .vwap (by simp)).clash.1 hc))

/-! ## Whole runs -/

/-- A call on a batch of fresh events keeps the book. -/
theorem Book.consumeSymbol {seen : Set String} {symbol : String} {c : SignalComposer}
    {batch : List MarketEvent} (h : Book seen symbol c) (hb : FreshBatch seen symbol batch)
    (draws : Draws) (features : MarketFeatures) :
    Book (seen ∪ idsOf batch) symbol (c.consumeSymbol draws symbol batch features).2 := by
  obtain ⟨-, s₁, s₂, -, -, -, h2, heq⟩ := consumeSymbol_turns h hb draws features
  rw [heq]
  exact h2.book

theorem Book.mono {seen seen' : Set String} {symbol : String} {c : SignalComposer}
    (h : Book seen symbol c) (hs : seen ⊆ seen') : Book seen' symbol c :=
  ⟨h.one, fun a => hs (h.accepted a), h.ids, fun a => hs (h.listed a), fun a => hs (h.homeSeen a),
    h.typed, h.latest⟩

theorem book_new (symbol : String) {lookbackS : ℚ} (hl : 0 ≤ lookbackS) :
    Book ∅ symbol (SignalComposer.new lookbackS hl) := by
  constructor <;> intros <;> simp_all [SignalComposer.new, SignalComposer.Lists]

theorem idsIn_snoc (pre : List BatchCall) (call : BatchCall) :
    idsIn (pre ++ [call]) = idsIn pre ∪ idsOf call.events := by
  ext i; simp [idsIn, idsOf]

/-- The batch of a call is fresh after the calls before it. -/
theorem SingleSymbolRun.batch {symbol : String} {pre post : List BatchCall} {call : BatchCall}
    (h : SingleSymbolRun symbol (pre ++ call :: post)) :
    FreshBatch (idsIn pre) symbol call.events := by
  obtain ⟨hnd, hne⟩ := nodup_split h.fresh
  exact ⟨h.symbol call (by simp), fun e he => hne _ (List.mem_map.2 ⟨e, he, rfl⟩),
    fun e he e' he' heq => List.inj_on_of_nodup_map hnd he he' heq⟩

/-- A call of a single-symbol run is one `_consume_symbol` call, or nothing. -/
theorem batchStep_eq {symbol : String} {call : BatchCall} {c c' : SignalComposer}
    (hs : ∀ e ∈ call.events, e.symbol = symbol) (h : c.batchStep call = some c') :
    (call.events = [] ∧ c' = c) ∨
      call.events ≠ [] ∧ c' = (c.consumeSymbol call.draws symbol call.events call.features).2 := by
  unfold batchStep at h
  cases h
  by_cases hne : call.events = []
  · rw [hne]; exact .inl ⟨rfl, rfl⟩
  · exact .inr ⟨hne, by rw [consumeBatch_single c _ _ hne hs]⟩

/-- **In runs whose calls never find two homes, no event is listed by two active signals.** -/
theorem claimed_once {symbol : String} {calls : List BatchCall} {c : SignalComposer} {lookbackS : ℚ}
    {hl : 0 ≤ lookbackS} (hrun : SingleSymbolRun symbol calls)
    (hno : Along batchStep (fun c call => ¬ c.TwoHomes symbol call.events)
      (SignalComposer.new lookbackS hl) calls)
    (hr : run batchStep (SignalComposer.new lookbackS hl) calls = some c) :
    ∀ signal ∈ c.activeSignals symbol, ∀ signal' ∈ c.activeSignals symbol,
      ∀ i ∈ signal.eventIds, i ∈ signal'.eventIds → signal = signal' := by
  have hinv : Book (idsIn calls) symbol c ∧ Homed c := by
    refine run_history (I := fun pre c => Book (idsIn pre) symbol c ∧ Homed c) ?_ ?_ hno hr
    · refine ⟨(book_new symbol hl).mono (Set.empty_subset _), ?_⟩
      rintro k i ⟨sig, ha, -⟩
      cases ha
    · intro pre call post c₁ c₂ heq hI hno₁ hstep
      have hb : FreshBatch (idsIn pre) symbol call.events := (heq ▸ hrun).batch
      rw [idsIn_snoc]
      rcases batchStep_eq hb.symbol hstep with ⟨hnil, rfl⟩ | ⟨-, rfl⟩
      · exact ⟨hI.1.mono Set.subset_union_left, hI.2⟩
      · exact ⟨hI.1.consumeSymbol hb _ _, homed_consumeSymbol hI.1 hI.2 hb _ _ hno₁⟩
  intro signal hs signal' hs' i hi hi'
  obtain ⟨k, -, ha⟩ := mem_activeSignals.1 hs
  obtain ⟨k', -, ha'⟩ := mem_activeSignals.1 hs'
  have hk := hinv.2 ⟨signal, ha, hi⟩
  rw [hinv.2 ⟨signal', ha', hi'⟩] at hk
  cases hk
  exact Option.some.inj (ha.symm.trans ha')

/-- An UP and a DOWN episode, then a NONE episode, then one more UP event. -/
def sharedRun : List BatchCall :=
  [⟨prefixDraws "a" 0, [bareEvent "u" "A" .rapidMove .up 0, bareEvent "d" "A" .rapidMove .down 0],
      bareFeatures "A" 0, 0⟩,
    ⟨prefixDraws "b" 1, [bareEvent "v" "A" .volumeSpike .none 1], bareFeatures "A" 1, 1⟩,
    ⟨prefixDraws "c" 2, [bareEvent "u2" "A" .rapidMove .up 2], bareFeatures "A" 2, 2⟩]

theorem sharedRun_single (calls : List BatchCall) (h : calls.IsPrefix sharedRun) :
    SingleSymbolRun "A" calls := by
  have hall : SingleSymbolRun "A" sharedRun :=
    ⟨by decide, by simp [sharedRun, bareEvent], by decide +kernel, by decide⟩
  obtain ⟨post, hpost⟩ := h
  rw [← hpost] at hall
  refine ⟨fun call hc => hall.symbol call (by simp [hc]), fun call hc => hall.oneTs call (by simp [hc]),
    ?_, ?_⟩
  · have := hall.sorted
    rw [List.map_append, List.pairwise_append] at this
    exact this.1
  · have := hall.fresh
    rw [List.flatMap_append, List.nodup_append] at this
    exact this.1

/-- The NONE event of `sharedRun` is listed by the NONE and by the UP signal. -/
theorem event_claimed_twice :
    ¬ ∀ (symbol : String) (calls : List BatchCall) (c : SignalComposer), SingleSymbolRun symbol calls →
      run batchStep {} calls = some c →
        ∀ signal ∈ c.activeSignals symbol, ∀ signal' ∈ c.activeSignals symbol,
          ∀ i ∈ signal.eventIds, i ∈ signal'.eventIds → signal = signal' := by
  intro h
  have := h "A" sharedRun _ (sharedRun_single _ (List.prefix_refl _)) rfl
  revert this
  decide +kernel

/-- The first two calls of `sharedRun` find no two homes. -/
theorem claimed_once_prefix : ∃ c, run batchStep {} (sharedRun.take 2) = some c ∧
    ∀ signal ∈ c.activeSignals "A", ∀ signal' ∈ c.activeSignals "A",
      ∀ i ∈ signal.eventIds, i ∈ signal'.eventIds → signal = signal' := by
  have hr : run batchStep (.new clusterLookbackS clusterLookbackS_nonneg) (sharedRun.take 2) = some _ := rfl
  exact ⟨_, hr, claimed_once (sharedRun_single _ (List.take_prefix 2 _)) (by decide +kernel) hr⟩

end MarketSentinel
