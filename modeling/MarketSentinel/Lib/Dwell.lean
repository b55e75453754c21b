import Mathlib.Algebra.Order.Field.Basic
import Mathlib.Data.List.Basic
import Mathlib.Tactic.Linarith
import Mathlib.Tactic.Positivity
import Mathlib.Tactic.Ring

/-!
# Levels that dwell

A level moves now and then, and a move is let through only after the level has dwelt for a required time since it
moved last. `Dwells` says this of a list of moves, from a level and the time of its last move.

* `dwells_append`: moves put together.
* `Dwells.falls_mul_le`: falls are apart, when a fall has to dwell.
* `Dwells.length_add_le`: rises are paid for by falls; the potential is the rank of the level.
* `Dwells.flapping`: how often a level can move within a span of time.
-/

namespace Lib.Dwell

variable {L T : Type*}

/-- A move of a level. -/
structure Move (L T : Type*) where
  time : T
  before : L
  after : L
  deriving DecidableEq, Repr

/-- The level after some moves. -/
def endLevel (level : L) (moves : List (Move L T)) : L := moves.foldl (fun _ m => m.after) level

/-- The time of the last move. -/
def endTime (time : T) (moves : List (Move L T)) : T := moves.foldl (fun _ m => m.time) time

/-- The time of the last move, if there was one. -/
def lastTime (last : Option T) (moves : List (Move L T)) : Option T :=
  moves.foldl (fun _ m => some m.time) last

/-- The moves to a lower rank. -/
def falls (rank : L → ℕ) (moves : List (Move L T)) : ℕ :=
  moves.countP fun m => decide (rank m.after < rank m.before)

theorem falls_cons (rank : L → ℕ) (m : Move L T) (moves : List (Move L T)) : falls rank (m :: moves) =
    falls rank moves + if rank m.after < rank m.before then 1 else 0 := by
  unfold falls
  rw [List.countP_cons]
  simp only [decide_eq_true_eq]

section Dwells

variable [Sub T] [LE T]

/-- Each move leaves the level it finds, and comes no sooner than it must. -/
def Dwells (dwell : L → L → T) : Option T → L → List (Move L T) → Prop
  | _, _, [] => True
  | last, level, m :: moves =>
    m.before = level ∧ m.after ≠ level ∧ (∀ t ∈ last, dwell level m.after ≤ m.time - t) ∧
      Dwells dwell (some m.time) m.after moves

variable {rank : L → ℕ} {dwell : L → L → T} {last : Option T} {t : T} {level : L} {moves moves' : List (Move L T)}

theorem dwells_append : Dwells dwell last level (moves ++ moves') ↔
    Dwells dwell last level moves ∧ Dwells dwell (lastTime last moves) (endLevel level moves) moves' := by
  induction moves generalizing last level with
  | nil => simp [Dwells, lastTime, endLevel]
  | cons m moves ih =>
    simp only [List.cons_append, Dwells, ih, lastTime, endLevel, List.foldl_cons, and_assoc]

/-- **Rises are paid for by falls**: a rise gains a rank, and a fall loses at most all of them. -/
theorem Dwells.length_add_le {n : ℕ} (h : Dwells dwell (some t) level moves) (hrank : ∀ a, rank a ≤ n)
    (hinj : Function.Injective rank) :
    moves.length + rank level ≤ rank (endLevel level moves) + (n + 1) * falls rank moves := by
  induction moves generalizing t level with
  | nil => simp [endLevel, falls]
  | cons m moves ih =>
    obtain ⟨hbefore, hmoved, -, hrest⟩ := h
    have hmany := ih hrest
    have hlevel := hrank level
    have hend : endLevel level (m :: moves) = endLevel m.after moves := rfl
    rw [falls_cons, hend, List.length_cons, hbefore]
    split
    · rw [Nat.mul_add]
      omega
    · next hrise =>
      have hne : rank m.after ≠ rank level := fun heq => hmoved (hinj heq)
      simp only [Nat.add_zero]
      omega

end Dwells

/-! ## Counting -/

section Counting

variable [Field T] [LinearOrder T] [IsStrictOrderedRing T] {rank : L → ℕ} {dwell : L → L → T} {d t : T} {level : L}
  {moves : List (Move L T)}

/-- **Falls are apart.** -/
theorem Dwells.falls_mul_le (h : Dwells dwell (some t) level moves) (hnonneg : ∀ a b, 0 ≤ dwell a b)
    (hfall : ∀ a b, rank b < rank a → d ≤ dwell a b) : (falls rank moves : T) * d ≤ endTime t moves - t := by
  induction moves generalizing t level with
  | nil => simp [falls, endTime]
  | cons m moves ih =>
    obtain ⟨hbefore, -, hdwell, hrest⟩ := h
    have hone := hdwell t rfl
    have hmany := ih hrest
    have hpos := hnonneg level m.after
    have hend : endTime t (m :: moves) = endTime m.time moves := rfl
    rw [falls_cons, hend]
    split
    · next hlt =>
      have hd := hfall level m.after (hbefore ▸ hlt)
      push_cast
      linarith
    · push_cast
      linarith

/-- **Flapping is bounded**: in a span of time a level moves at most so often. -/
theorem Dwells.flapping {n : ℕ} (h : Dwells dwell (some t) level moves) (hd : 0 ≤ d)
    (hnonneg : ∀ a b, 0 ≤ dwell a b) (hfall : ∀ a b, rank b < rank a → d ≤ dwell a b)
    (hrank : ∀ a, rank a ≤ n) (hinj : Function.Injective rank) :
    (moves.length : T) * d ≤ (n + 1) * (endTime t moves - t) + n * d := by
  have hspan := h.falls_mul_le hnonneg hfall
  have hlength := h.length_add_le hrank hinj
  have hend := hrank (endLevel level moves)
  have hcount : (moves.length : T) ≤ n + (n + 1) * falls rank moves := by
    have hle : moves.length ≤ n + (n + 1) * falls rank moves := by omega
    exact_mod_cast hle
  have hn : (0 : T) ≤ n + 1 := by positivity
  calc (moves.length : T) * d ≤ (n + (n + 1) * falls rank moves) * d := mul_le_mul_of_nonneg_right hcount hd
    _ = (n + 1) * (falls rank moves * d) + n * d := by ring
    _ ≤ (n + 1) * (endTime t moves - t) + n * d := by
      have := mul_le_mul_of_nonneg_left hspan hn
      linarith

end Counting

end Lib.Dwell
