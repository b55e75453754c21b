import Mathlib.Data.Finset.Card
import Mathlib.Data.List.Sort
import Mathlib.Data.String.Basic
import MarketSentinel.Domain.Model

/-!
# Lineages, directional episodes and families

`signals/cluster.py`: how the look-back events of one lineage are split into an UP, a
DOWN and a NONE episode, where the NONE events of a batch go, and which family a set of
members has.

* `partition_eq`: which events each episode of the split lists.
* `resolveNoneTarget_up`, `resolveNoneTarget_down`, `resolveNoneTarget_none`: the target of the NONE
  events, by the directions of the batch.
-/

namespace MarketSentinel

inductive Lineage
  | tape | vwap
  deriving DecidableEq, Repr

instance : LawfulBEq (String × Lineage) := inferInstance

/-- `CLUSTER_LOOKBACK_S`. -/
def clusterLookbackS : ℚ := 90

def lineageOf : EventType → Lineage
  | .vwapCross => .vwap
  | _ => .tape

theorem clusterLookbackS_nonneg : 0 ≤ clusterLookbackS := by decide +kernel

/-- The sort key `(market_timestamp, id)` of episode members. -/
def MemberLe (a b : MarketEvent) : Prop :=
  a.marketTimestamp < b.marketTimestamp ∨ (a.marketTimestamp = b.marketTimestamp ∧ a.id ≤ b.id)

instance : DecidableRel MemberLe := fun _ _ => inferInstanceAs (Decidable (_ ∨ _ ∧ _))

def sortMembers (members : List MarketEvent) : List MarketEvent := members.insertionSort MemberLe

/-- Split one lineage's look-back events into directional episodes. The NONE events go to the
episode of `noneTarget`. -/
def partitionLineageEpisodes (recent : List MarketEvent) (noneTarget : EventDirection) :
    List (EventDirection × List MarketEvent) :=
  let ups := recent.filter (·.direction = .up)
  let downs := recent.filter (·.direction = .down)
  let nones := recent.filter (·.direction = .none)
  let noneUp := if noneTarget = .up then nones else []
  let noneDown := if noneTarget = .down then nones else []
  let noneAlone := if noneTarget = .none then nones else []
  (if ups ≠ [] ∨ noneUp ≠ [] then [(.up, sortMembers (noneUp ++ ups))] else []) ++
  (if downs ≠ [] ∨ noneDown ≠ [] then [(.down, sortMembers (noneDown ++ downs))] else []) ++
  (if noneAlone ≠ [] then [(.none, sortMembers noneAlone)] else [])

/-- The set `{item.direction for item in events if item.direction in {UP, DOWN}}`. -/
def directionsOf (events : List MarketEvent) : Finset EventDirection :=
  (events.map (·.direction)).toFinset ∩ {.up, .down}

/-- The home of the NONE events of a batch. -/
def resolveNoneTarget (batch recent : List MarketEvent) (liveDirections : Finset EventDirection) :
    EventDirection :=
  let batchDirs := directionsOf batch
  if batchDirs = {.up} then .up
  else if batchDirs = {.down} then .down
  else if 1 < batchDirs.card then .none
  else
    let candidates := directionsOf recent ∪ (liveDirections ∩ {.up, .down})
    if candidates = {.up} then .up
    else if candidates = {.down} then .down
    else .none

def classifyFamily (events : List MarketEvent) : String :=
  let types := (events.map (·.type))
  let hasVol : Bool := decide (EventType.volumeSpike ∈ types ∨ EventType.priceVolumeExpansion ∈ types)
  let hasMove : Bool := decide (EventType.rapidMove ∈ types ∨ EventType.priceVolumeExpansion ∈ types)
  if hasVol && hasMove then "price_volume"
  else if .dayHighBreakout ∈ types then "breakout"
  else if .dayLowBreakdown ∈ types then "breakdown"
  else if hasVol then "volume"
  else if hasMove then "move"
  else if .vwapCross ∈ types then "vwap"
  else "other"

/-! ## Members -/

instance : Std.Total MemberLe where
  total a b := by
    unfold MemberLe
    rcases lt_trichotomy a.marketTimestamp b.marketTimestamp with h | h | h
    · exact .inl (.inl h)
    · rcases le_total a.id b.id with hi | hi
      · exact .inl (.inr ⟨h, hi⟩)
      · exact .inr (.inr ⟨h.symm, hi⟩)
    · exact .inr (.inl h)

instance : IsTrans MarketEvent MemberLe where
  trans a b c := by
    unfold MemberLe
    rintro (h1 | ⟨h1, h1'⟩) (h2 | ⟨h2, h2'⟩)
    · exact .inl (h1.trans h2)
    · exact .inl (h2 ▸ h1)
    · exact .inl (h1 ▸ h2)
    · exact .inr ⟨h1.trans h2, h1'.trans h2'⟩

@[simp] theorem mem_sortMembers {l : List MarketEvent} {e : MarketEvent} :
    e ∈ sortMembers l ↔ e ∈ l := List.mem_insertionSort _

@[simp] theorem sortMembers_eq_nil {l : List MarketEvent} : sortMembers l = [] ↔ l = [] := by
  constructor
  · intro h
    have := List.length_insertionSort MemberLe l
    rw [show l.insertionSort MemberLe = [] from h] at this
    exact List.length_eq_zero_iff.1 this.symm
  · rintro rfl; rfl

/-- The last member of a sorted list is a latest one. -/
theorem sortMembers_getLast {l : List MarketEvent} (h : sortMembers l ≠ []) :
    (sortMembers l).getLast h ∈ l ∧
      ∀ e ∈ l, e.marketTimestamp ≤ ((sortMembers l).getLast h).marketTimestamp := by
  refine ⟨mem_sortMembers.1 (List.getLast_mem h), ?_⟩
  intro e he
  have hs : (sortMembers l).Pairwise MemberLe := List.pairwise_insertionSort _ l
  have he' : e ∈ sortMembers l := mem_sortMembers.2 he
  rw [← List.dropLast_append_getLast h, List.mem_append, List.mem_singleton] at he'
  rcases he' with he' | he'
  · rw [← List.dropLast_append_getLast h, List.pairwise_append] at hs
    rcases hs.2.2 e he' _ (List.mem_singleton_self _) with hlt | ⟨heq, -⟩
    · exact hlt.le
    · exact heq.le
  · exact he' ▸ le_rfl

/-- The events of the split that go to direction `d`. A NONE event sent elsewhere goes nowhere. -/
def membersOf (recent : List MarketEvent) (noneTarget d : EventDirection) : List MarketEvent :=
  match d with
  | .none => if noneTarget = .none then recent.filter (·.direction = .none) else []
  | d => (if noneTarget = d then recent.filter (·.direction = .none) else []) ++
      recent.filter (·.direction = d)

theorem mem_membersOf {recent : List MarketEvent} {t d : EventDirection} {e : MarketEvent} :
    e ∈ membersOf recent t d ↔ e ∈ recent ∧
      if e.direction = .none then t = d else e.direction = d := by
  cases d <;> unfold membersOf <;> dsimp only <;> cases t <;>
    simp only [if_true, reduceCtorEq, if_false, List.nil_append, List.mem_append, List.mem_filter,
      decide_eq_true_eq, List.not_mem_nil] <;>
    cases e.direction <;> simp

/-- The episode of direction `d` in the split, when it has a member. -/
def episodeOf (recent : List MarketEvent) (noneTarget d : EventDirection) :
    List (EventDirection × List MarketEvent) :=
  if membersOf recent noneTarget d = [] then [] else [(d, sortMembers (membersOf recent noneTarget d))]

/-- **The split, episode by episode**: UP, DOWN and NONE in this order, each only when it has a
member. -/
theorem partition_eq (recent : List MarketEvent) (t : EventDirection) :
    partitionLineageEpisodes recent t =
      episodeOf recent t .up ++ episodeOf recent t .down ++ episodeOf recent t .none := by
  have hor : ∀ (a b : List MarketEvent) (d : EventDirection),
      (if a ≠ [] ∨ b ≠ [] then [(d, sortMembers (b ++ a))] else []) =
        if b ++ a = [] then [] else [(d, sortMembers (b ++ a))] := by
    intro a b d
    by_cases ha : a = [] <;> by_cases hb : b = [] <;> simp [ha, hb]
  unfold partitionLineageEpisodes episodeOf membersOf
  dsimp only
  rw [hor, hor, ite_not]

/-! ## The target of NONE events -/

/-- Some event of the list has direction `d`. -/
def HasDir (events : List MarketEvent) (d : EventDirection) : Prop :=
  ∃ e ∈ events, e.direction = d

instance (events : List MarketEvent) (d : EventDirection) : Decidable (HasDir events d) :=
  inferInstanceAs (Decidable (∃ e ∈ events, _))

theorem mem_directionsOf {events : List MarketEvent} {d : EventDirection} :
    d ∈ directionsOf events ↔ HasDir events d ∧ d ≠ .none := by
  unfold directionsOf HasDir
  cases d <;> simp

theorem directionsOf_eq_up {events : List MarketEvent} :
    directionsOf events = {.up} ↔ HasDir events .up ∧ ¬ HasDir events .down := by
  rw [Finset.ext_iff]
  constructor
  · intro h
    have h1 := (h .up).2 (by simp)
    have h2 := mt (h .down).1 (by simp)
    rw [mem_directionsOf] at h1 h2
    simp_all
  · rintro ⟨h1, h2⟩ d
    rw [mem_directionsOf]
    cases d <;> simp_all

theorem directionsOf_eq_down {events : List MarketEvent} :
    directionsOf events = {.down} ↔ HasDir events .down ∧ ¬ HasDir events .up := by
  rw [Finset.ext_iff]
  constructor
  · intro h
    have h1 := (h .down).2 (by simp)
    have h2 := mt (h .up).1 (by simp)
    rw [mem_directionsOf] at h1 h2
    simp_all
  · rintro ⟨h1, h2⟩ d
    rw [mem_directionsOf]
    cases d <;> simp_all

/-- A batch with UP and no DOWN events takes the NONE events along. -/
theorem resolveNoneTarget_up {batch recent : List MarketEvent} {live : Finset EventDirection}
    (h1 : HasDir batch .up) (h2 : ¬ HasDir batch .down) :
    resolveNoneTarget batch recent live = .up := by
  unfold resolveNoneTarget
  rw [if_pos (directionsOf_eq_up.2 ⟨h1, h2⟩)]

theorem resolveNoneTarget_down {batch recent : List MarketEvent} {live : Finset EventDirection}
    (h1 : HasDir batch .down) (h2 : ¬ HasDir batch .up) :
    resolveNoneTarget batch recent live = .down := by
  unfold resolveNoneTarget
  rw [if_neg (mt directionsOf_eq_up.1 (by tauto)), if_pos (directionsOf_eq_down.2 ⟨h1, h2⟩)]

/-- A batch with both directions leaves the NONE events alone. -/
theorem resolveNoneTarget_none {batch recent : List MarketEvent} {live : Finset EventDirection}
    (h1 : HasDir batch .up) (h2 : HasDir batch .down) :
    resolveNoneTarget batch recent live = .none := by
  unfold resolveNoneTarget
  have hcard : 1 < (directionsOf batch).card :=
    Finset.one_lt_card.2 ⟨.up, mem_directionsOf.2 ⟨h1, by simp⟩, .down,
      mem_directionsOf.2 ⟨h2, by simp⟩, by simp⟩
  rw [if_neg (mt directionsOf_eq_up.1 (by tauto)), if_neg (mt directionsOf_eq_down.1 (by tauto)),
    if_pos hcard]

/-- The target is NONE or the direction of every directional event of the batch. -/
theorem resolveNoneTarget_dirs {batch recent : List MarketEvent} {live : Finset EventDirection}
    {b : MarketEvent} (hb : b ∈ batch) (hd : b.direction ≠ .none) :
    resolveNoneTarget batch recent live = .none ∨
      resolveNoneTarget batch recent live = b.direction := by
  have hdir : HasDir batch b.direction := ⟨b, hb, rfl⟩
  cases hbd : b.direction with
  | up =>
    rw [hbd] at hdir
    by_cases hdown : HasDir batch .down
    · exact .inl (resolveNoneTarget_none hdir hdown)
    · exact .inr (resolveNoneTarget_up hdir hdown)
  | down =>
    rw [hbd] at hdir
    by_cases hup : HasDir batch .up
    · exact .inl (resolveNoneTarget_none hup hdir)
    · exact .inr (resolveNoneTarget_down hdir hup)
  | none => exact absurd hbd hd

end MarketSentinel
