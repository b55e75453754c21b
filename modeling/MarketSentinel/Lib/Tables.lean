import Mathlib.Data.Set.Insert
import Mathlib.Data.List.Pairwise
import Mathlib.Logic.Relation

/-!
# A table of named entries and its shadow

Entries are kept under keys, and each has a name that it keeps when it is written again, also under
another key; new names are never those of an earlier entry. A second table, the shadow, is kept by
name. The log has what was written, in order.

* `Lockstep`: no two entries have one name, and the shadow has the names of the entries.
* `Logged`: the log of a name is a chain, of which the entry is the last.
* `Lockstep.of_path`, `Logged.of_path`, `Gone.of_path`: what holds along every path of steps; a name
  that left the table never comes back.
-/

namespace Lib

variable {K V N T : Type*}

structure Tables (K V N T : Type*) where
  active : K → Option V
  shadow : N → Option T
  /-- The names that were given. -/
  used : Set N
  /-- What was written, oldest first. -/
  log : List (K × V)

namespace Tables

variable {name : V → N} {Agree : T → V → Prop} {Succ : K × V → K × V → Prop}

/-- Some entries are dropped, each with its shadow. -/
structure Drops (name : V → N) (s s' : Tables K V N T) : Prop where
  active : ∃ gone : V → Prop, (∀ k v, s'.active k = some v ↔ s.active k = some v ∧ ¬ gone v) ∧
    ∀ n t, s'.shadow n = some t ↔
      s.shadow n = some t ∧ ∀ k v, s.active k = some v → gone v → name v ≠ n
  used : s.used ⊆ s'.used
  log : s'.log = s.log

/-- Where the name of a written entry comes from. -/
inductive Source (name : V → N) (Succ : K × V → K × V → Prop) (s : Tables K V N T) (k : K) (v : V) :
    Option K → Prop
  /-- A new name. -/
  | fresh (hk : s.active k = none) (hn : name v ∉ s.used) : Source name Succ s k v none
  /-- The entry of the key is written again. -/
  | again (v₀ : V) (h : s.active k = some v₀) (hn : name v = name v₀) (hs : Succ (k, v₀) (k, v)) :
    Source name Succ s k v none
  /-- The entry of another key moves here. -/
  | moved (k₀ : K) (v₀ : V) (h : s.active k₀ = some v₀) (hk : s.active k = none)
      (hn : name v = name v₀) (hs : Succ (k₀, v₀) (k, v)) : Source name Succ s k v (some k₀)

/-- An entry is written, with its shadow. -/
structure Writes (name : V → N) (Agree : T → V → Prop) (Succ : K × V → K × V → Prop)
    (s s' : Tables K V N T) (k : K) (v : V) : Prop where
  source : ∃ source, Source name Succ s k v source ∧
    ∀ k' v', s'.active k' = some v' ↔
      k' = k ∧ v' = v ∨ k' ≠ k ∧ source ≠ some k' ∧ s.active k' = some v'
  shadow : ∃ t, Agree t v ∧ ∀ n t', s'.shadow n = some t' ↔
    n = name v ∧ t' = t ∨ n ≠ name v ∧ s.shadow n = some t'
  used : s.used ⊆ s'.used
  named : (∃ k₀ v₀, s.active k₀ = some v₀ ∧ name v = name v₀) ∨ name v ∈ s'.used
  log : s'.log = s.log ++ [(k, v)]

inductive Step (name : V → N) (Agree : T → V → Prop) (Succ : K × V → K × V → Prop)
    (s s' : Tables K V N T) : Prop
  | drop (h : Drops name s s')
  | write (k : K) (v : V) (h : Writes name Agree Succ s s' k v)

/-- Any number of steps. -/
abbrev Path (name : V → N) (Agree : T → V → Prop) (Succ : K × V → K × V → Prop) :
    Tables K V N T → Tables K V N T → Prop :=
  Relation.ReflTransGen (Step name Agree Succ)

/-! ## The two tables -/

/-- The names of the entries are distinct and used, and the shadow has just these names. -/
structure Lockstep (name : V → N) (Agree : T → V → Prop) (s : Tables K V N T) : Prop where
  inj : ∀ {k k' v v'}, s.active k = some v → s.active k' = some v' → name v = name v' → k = k'
  used : ∀ {k v}, s.active k = some v → name v ∈ s.used
  shadowed : ∀ {k v}, s.active k = some v → ∃ t, s.shadow (name v) = some t ∧ Agree t v
  shadow : ∀ {n t}, s.shadow n = some t → ∃ k v, s.active k = some v ∧ name v = n

variable {s s' : Tables K V N T} {k : K} {v : V} {source : Option K}

theorem Lockstep.of_drops (h : Lockstep name Agree s) (hs : Drops name s s') : Lockstep name Agree s' := by
  obtain ⟨gone, hactive, hshadow⟩ := hs.active
  refine ⟨fun a b => h.inj ((hactive _ _).1 a).1 ((hactive _ _).1 b).1,
    fun a => hs.used (h.used ((hactive _ _).1 a).1), fun {k v} a => ?_, fun {n t} a => ?_⟩
  · obtain ⟨ha, hstay⟩ := (hactive k v).1 a
    obtain ⟨t, ht, hagree⟩ := h.shadowed ha
    refine ⟨t, (hshadow _ _).2 ⟨ht, fun k' v' ha' hgone hn => ?_⟩, hagree⟩
    -- A dropped entry with the same name would be this one.
    obtain rfl := h.inj ha' ha hn
    obtain rfl := Option.some.inj (ha'.symm.trans ha)
    exact hstay hgone
  · obtain ⟨ht, hothers⟩ := (hshadow n t).1 a
    obtain ⟨k, v, ha, hn⟩ := h.shadow ht
    exact ⟨k, v, (hactive _ _).2 ⟨ha, fun hgone => hothers k v ha hgone hn⟩, hn⟩

/-- The name of a written entry is that of no other entry that stays. -/
theorem Source.name_ne (h : Lockstep name Agree s) (hsource : Source name Succ s k v source) {k' : K}
    {v' : V} (hk : k' ≠ k) (hstay : source ≠ some k') (ha : s.active k' = some v') : name v' ≠ name v := by
  intro hn
  cases hsource with
  | fresh _ hnew => exact hnew (hn ▸ h.used ha)
  | again v₀ h₀ hn₀ _ => exact hk (h.inj ha h₀ (hn.trans hn₀))
  | moved k₀ v₀ h₀ _ hn₀ _ => exact hstay (congrArg some (h.inj ha h₀ (hn.trans hn₀))).symm

/-- An entry whose name is not written stays. -/
theorem Source.stays (hsource : Source name Succ s k v source) {k' : K} {v' : V}
    (ha : s.active k' = some v') (hn : name v' ≠ name v) : k' ≠ k ∧ source ≠ some k' := by
  cases hsource with
  | fresh hk _ =>
    refine ⟨?_, nofun⟩
    rintro rfl
    rw [hk] at ha
    cases ha
  | again v₀ h₀ hn₀ _ =>
    refine ⟨?_, nofun⟩
    rintro rfl
    obtain rfl := Option.some.inj (ha.symm.trans h₀)
    exact hn hn₀.symm
  | moved k₀ v₀ h₀ hk hn₀ _ =>
    constructor
    · rintro rfl
      rw [hk] at ha
      cases ha
    · intro heq
      obtain rfl := Option.some.inj heq
      obtain rfl := Option.some.inj (ha.symm.trans h₀)
      exact hn hn₀.symm

/-- The name of a written entry is used. -/
theorem Writes.name_used (h : Lockstep name Agree s) (hs : Writes name Agree Succ s s' k v) :
    name v ∈ s'.used := by
  rcases hs.named with ⟨k₀, v₀, h₀, hn⟩ | hn
  · exact hn ▸ hs.used (h.used h₀)
  · exact hn

theorem Lockstep.of_writes (h : Lockstep name Agree s) (hs : Writes name Agree Succ s s' k v) :
    Lockstep name Agree s' := by
  obtain ⟨source, hsource, hactive⟩ := hs.source
  obtain ⟨t, hagree, hshadow⟩ := hs.shadow
  have hsub := hs.used
  have hnew := hs.name_used h
  refine ⟨fun {k₁ k₂ v₁ v₂} a b hn => ?_, fun {k' v'} a => ?_, fun {k' v'} a => ?_, fun {n t'} a => ?_⟩
  · rcases (hactive k₁ v₁).1 a with ⟨rfl, rfl⟩ | ⟨hk₁, hstay₁, ha₁⟩ <;>
      rcases (hactive k₂ v₂).1 b with ⟨rfl, rfl⟩ | ⟨hk₂, hstay₂, ha₂⟩
    · rfl
    · exact absurd hn.symm (hsource.name_ne h hk₂ hstay₂ ha₂)
    · exact absurd hn (hsource.name_ne h hk₁ hstay₁ ha₁)
    · exact h.inj ha₁ ha₂ hn
  · rcases (hactive k' v').1 a with ⟨rfl, rfl⟩ | ⟨-, -, ha⟩
    · exact hnew
    · exact hsub (h.used ha)
  · rcases (hactive k' v').1 a with ⟨rfl, rfl⟩ | ⟨hk, hstay, ha⟩
    · exact ⟨t, (hshadow _ _).2 (.inl ⟨rfl, rfl⟩), hagree⟩
    · obtain ⟨t', ht', hagree'⟩ := h.shadowed ha
      exact ⟨t', (hshadow _ _).2 (.inr ⟨hsource.name_ne h hk hstay ha, ht'⟩), hagree'⟩
  · rcases (hshadow n t').1 a with ⟨rfl, rfl⟩ | ⟨hn, ht'⟩
    · exact ⟨k, v, (hactive _ _).2 (.inl ⟨rfl, rfl⟩), rfl⟩
    · obtain ⟨k', v', ha, rfl⟩ := h.shadow ht'
      obtain ⟨hk, hstay⟩ := hsource.stays ha hn
      exact ⟨k', v', (hactive _ _).2 (.inr ⟨hk, hstay, ha⟩), rfl⟩

theorem Lockstep.of_step (h : Lockstep name Agree s) (hs : Step name Agree Succ s s') :
    Lockstep name Agree s' := by
  cases hs with
  | drop hd => exact h.of_drops hd
  | write k v hw => exact h.of_writes hw

/-- **The two tables stay in step.** -/
theorem Lockstep.of_path (h : Lockstep name Agree s) (hp : Path name Agree Succ s s') :
    Lockstep name Agree s' := by
  induction hp with
  | refl => exact h
  | tail _ hs ih => exact ih.of_step hs

/-! ## The log -/

/-- The log is a chain for each name, and an entry is the last of its name. -/
structure Logged (name : V → N) (Succ : K × V → K × V → Prop) (s : Tables K V N T) : Prop where
  used : ∀ p ∈ s.log, name p.2 ∈ s.used
  last : ∀ {k v}, s.active k = some v →
    ∃ pre post, s.log = pre ++ (k, v) :: post ∧ ∀ p ∈ post, name p.2 ≠ name v
  chain : s.log.Pairwise fun p q => name p.2 = name q.2 → Succ p q

theorem Logged.of_drops (h : Logged name Succ s) (hs : Drops name s s') : Logged name Succ s' := by
  obtain ⟨gone, hactive, -⟩ := hs.active
  refine ⟨?_, fun a => ?_, ?_⟩
  · rw [hs.log]
    exact fun p hp => hs.used (h.used p hp)
  · rw [hs.log]
    exact h.last ((hactive _ _).1 a).1
  · rw [hs.log]
    exact h.chain

/-- What was logged under the name of an entry comes before it. -/
theorem Logged.before (h : Logged name Succ s) (hrefl : ∀ p, Succ p p) (ha : s.active k = some v)
    {p : K × V} (hp : p ∈ s.log) (hn : name p.2 = name v) : Succ p (k, v) := by
  obtain ⟨pre, post, hlog, hpost⟩ := h.last ha
  have hchain := h.chain
  rw [hlog] at hp hchain
  rcases List.mem_append.1 hp with hp | hp
  · exact (List.pairwise_append.1 hchain).2.2 p hp (k, v) List.mem_cons_self hn
  · rcases List.mem_cons.1 hp with rfl | hp
    · exact hrefl _
    · exact absurd hn (hpost p hp)

theorem Logged.of_writes (h : Logged name Succ s) (hlock : Lockstep name Agree s)
    (hrefl : ∀ p, Succ p p) (htrans : ∀ p q r, Succ p q → Succ q r → Succ p r)
    (hs : Writes name Agree Succ s s' k v) : Logged name Succ s' := by
  obtain ⟨source, hsource, hactive⟩ := hs.source
  have hsub := hs.used
  have hnew := hs.name_used hlock
  refine ⟨fun p hp => ?_, fun {k' v'} a => ?_, ?_⟩
  · rw [hs.log, List.mem_append, List.mem_singleton] at hp
    rcases hp with hp | rfl
    · exact hsub (h.used p hp)
    · exact hnew
  · rw [hs.log]
    rcases (hactive k' v').1 a with ⟨rfl, rfl⟩ | ⟨hk, hstay, ha⟩
    · exact ⟨s.log, [], rfl, nofun⟩
    · obtain ⟨pre, post, hlog, hpost⟩ := h.last ha
      refine ⟨pre, post ++ [(k, v)], by rw [hlog, List.append_assoc, List.cons_append], fun p hp => ?_⟩
      rcases List.mem_append.1 hp with hp | hp
      · exact hpost p hp
      · rw [List.mem_singleton.1 hp]
        exact (hsource.name_ne hlock hk hstay ha).symm
  · -- The new entry succeeds every earlier one of its name, through the row that it was written over.
    rw [hs.log, List.pairwise_append]
    refine ⟨h.chain, List.pairwise_singleton _ _, fun p hp q hq hn => ?_⟩
    rw [List.mem_singleton.1 hq] at hn ⊢
    cases hsource with
    | fresh _ hfresh => exact absurd (hn ▸ h.used p hp) hfresh
    | again v₀ h₀ hn₀ hsucc => exact htrans _ _ _ (h.before hrefl h₀ hp (hn.trans hn₀)) hsucc
    | moved k₀ v₀ h₀ _ hn₀ hsucc => exact htrans _ _ _ (h.before hrefl h₀ hp (hn.trans hn₀)) hsucc

/-- **The log stays a chain for each name.** -/
theorem Logged.of_path (hrefl : ∀ p, Succ p p) (htrans : ∀ p q r, Succ p q → Succ q r → Succ p r)
    (h : Logged name Succ s) (hlock : Lockstep name Agree s) (hp : Path name Agree Succ s s') :
    Logged name Succ s' := by
  induction hp with
  | refl => exact h
  | tail hp hs ih =>
    cases hs with
    | drop hd => exact ih.of_drops hd
    | write k v hw => exact ih.of_writes (hlock.of_path hp) hrefl htrans hw

/-- A name that left the table. -/
structure Gone (name : V → N) (n : N) (s : Tables K V N T) : Prop where
  used : n ∈ s.used
  left : ∀ k v, s.active k = some v → name v ≠ n

/-- **A name that left never comes back.** -/
theorem Gone.of_path {n : N} (h : Gone name n s) (hp : Path name Agree Succ s s') :
    Gone name n s' ∧ ∃ more, s'.log = s.log ++ more ∧ ∀ p ∈ more, name p.2 ≠ n := by
  induction hp with
  | refl => exact ⟨h, [], by simp, nofun⟩
  | tail _ hs ih =>
    obtain ⟨hgone, more, hlog, hmore⟩ := ih
    cases hs with
    | drop hd =>
      obtain ⟨gone, hactive, -⟩ := hd.active
      exact ⟨⟨hd.used hgone.used, fun k v ha => hgone.left k v ((hactive k v).1 ha).1⟩, more,
        hd.log.trans hlog, hmore⟩
    | write k v hw =>
      obtain ⟨source, hsource, hactive⟩ := hw.source
      -- A name comes from the names that were never used or from a row that is there.
      have hne : name v ≠ n := by
        rintro rfl
        cases hsource with
        | fresh _ hfresh => exact hfresh hgone.used
        | again v₀ h₀ hn₀ _ => exact hgone.left _ _ h₀ hn₀.symm
        | moved k₀ v₀ h₀ _ hn₀ _ => exact hgone.left _ _ h₀ hn₀.symm
      refine ⟨⟨hw.used hgone.used, fun k' v' ha => ?_⟩, more ++ [(k, v)], ?_, fun p hp => ?_⟩
      · rcases (hactive k' v').1 ha with ⟨rfl, rfl⟩ | ⟨-, -, ha⟩
        · exact hne
        · exact hgone.left _ _ ha
      · rw [hw.log, hlog, List.append_assoc]
      · rcases List.mem_append.1 hp with hp | hp
        · exact hmore p hp
        · rw [List.mem_singleton.1 hp]
          exact hne

end Tables

end Lib
