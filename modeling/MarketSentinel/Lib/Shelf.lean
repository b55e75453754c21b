import Mathlib.Data.List.Basic
import Mathlib.Logic.Function.Basic
import Mathlib.Order.Basic

/-!
# Numbered slots

Items are kept in numbered slots, oldest first: slot 0 takes the new ones, and a rotation drops the highest
slot and moves every other slot one up.

* `contents_push`, `contents_move`, `contents_drop`: what the slots hold together.
* `rotation_contents`: a rotation that stops between any two operations leaves a suffix of the items.
* `rotation_zero`: a whole rotation empties slot 0.
* `foldl_apply_source`: every slot comes from another.
-/

namespace Lib

abbrev Shelf (A : Type*) := ℕ → Option (List A)

namespace Shelf

variable {A : Type*} {s s' : Shelf A} {i m n : ℕ}

/-- What the slots below a number hold, the highest slot first. -/
def contents (s : Shelf A) : ℕ → List A
  | 0 => []
  | n + 1 => (s n).getD [] ++ contents s n

inductive Op
  | drop (i : ℕ)
  | move (i j : ℕ)
  /-- Slot 0 is there from now on. -/
  | touch

/-- An operation on slots; moving an empty slot does nothing. -/
def Op.apply (s : Shelf A) : Op → Shelf A
  | drop i => Function.update s i none
  | move i j =>
    match s i with
    | none => s
    | some xs => Function.update (Function.update s i none) j (some xs)
  | touch => Function.update s 0 (some ((s 0).getD []))

/-- A new item goes to slot 0. -/
def push (s : Shelf A) (a : A) : Shelf A := Function.update s 0 (some ((s 0).getD [] ++ [a]))

/-- Slot `n` is dropped, the others move one up, and slot 0 is made again. -/
def rotation (n : ℕ) : List Op :=
  .drop n :: (((List.range n).reverse.map fun i => .move i (i + 1)) ++ [.touch])

@[simp] theorem apply_drop : (Op.drop i).apply s = Function.update s i none := rfl

@[simp] theorem apply_touch : Op.touch.apply s = Function.update s 0 (some ((s 0).getD [])) := rfl

theorem apply_move_none {j : ℕ} (h : s i = none) : (Op.move i j).apply s = s := by
  unfold Op.apply
  dsimp only
  rw [h]

theorem apply_move_some {j : ℕ} {xs : List A} (h : s i = some xs) :
    (Op.move i j).apply s = Function.update (Function.update s i none) j (some xs) := by
  unfold Op.apply
  dsimp only
  rw [h]

/-! ## Contents -/

theorem contents_congr (h : ∀ i < n, s i = s' i) : contents s n = contents s' n := by
  induction n with
  | zero => rfl
  | succ n ih =>
    unfold contents
    rw [h n (Nat.lt_succ_self n), ih fun i hi => h i (Nat.lt_succ_of_lt hi)]

theorem mem_contents {xs : List A} {a : A} (hi : i < n) (hs : s i = some xs) (ha : a ∈ xs) : a ∈ contents s n := by
  induction n with
  | zero => omega
  | succ n ih =>
    unfold contents
    rw [List.mem_append]
    by_cases hlast : i = n
    · subst hlast
      rw [hs]
      exact .inl ha
    · exact .inr (ih (by omega))

/-- Slot 0 comes last. -/
theorem contents_zero (h : ∀ i, i ≠ 0 → s i = s' i) :
    ∃ older, contents s (n + 1) = older ++ (s 0).getD [] ∧ contents s' (n + 1) = older ++ (s' 0).getD [] := by
  induction n with
  | zero => exact ⟨[], by simp [contents]⟩
  | succ n ih =>
    obtain ⟨older, hs, hs'⟩ := ih
    refine ⟨(s (n + 1)).getD [] ++ older, ?_, ?_⟩
    · rw [contents, hs, List.append_assoc]
    · rw [contents, hs', ← h (n + 1) (by omega), List.append_assoc]

theorem contents_push (s : Shelf A) (a : A) (n : ℕ) : contents (push s a) (n + 1) = contents s (n + 1) ++ [a] := by
  obtain ⟨older, hs, hs'⟩ := @contents_zero A s (push s a) n fun i hi => by
    unfold push
    rw [Function.update_of_ne hi]
  rw [hs, hs', push, Function.update_self, Option.getD_some, List.append_assoc]

theorem contents_touch (s : Shelf A) (n : ℕ) : contents (Op.touch.apply s) n = contents s n := by
  cases n with
  | zero => rfl
  | succ n =>
    obtain ⟨older, hs, hs'⟩ := @contents_zero A s (Op.touch.apply s) n fun i hi => by
      rw [apply_touch, Function.update_of_ne hi]
    rw [hs, hs', apply_touch, Function.update_self, Option.getD_some]

theorem contents_drop (s : Shelf A) (n : ℕ) : contents ((Op.drop n).apply s) (n + 1) <:+ contents s (n + 1) := by
  have hbelow : contents ((Op.drop n).apply s) n = contents s n := contents_congr fun i hi => by
    rw [apply_drop, Function.update_of_ne (by omega)]
  unfold contents
  rw [hbelow, apply_drop, Function.update_self, Option.getD_none, List.nil_append]
  exact List.suffix_append ..

/-- **Moving a slot up into an empty one** keeps the contents. -/
theorem contents_move (hfree : s (i + 1) = none) : ∀ {n : ℕ}, i + 1 < n →
    contents ((Op.move i (i + 1)).apply s) n = contents s n := by
  cases hi : s i with
  | none =>
    rw [apply_move_none hi]
    exact fun _ => rfl
  | some xs =>
    rw [apply_move_some hi]
    intro n hn
    induction n with
    | zero => omega
    | succ n ih =>
      unfold contents
      by_cases hlast : n = i + 1
      · subst hlast
        have hbelow : contents (Function.update (Function.update s i none) (i + 1) (some xs)) i = contents s i :=
          contents_congr fun j hj => by
            rw [Function.update_of_ne (by omega), Function.update_of_ne (by omega)]
        unfold contents
        rw [hbelow, Function.update_self, Function.update_of_ne (by omega), Function.update_self, hfree, hi]
        rfl
      · rw [ih (by omega), Function.update_of_ne hlast, Function.update_of_ne (by omega)]

/-! ## Rotations -/

theorem move_empties (s : Shelf A) (i : ℕ) : (Op.move i (i + 1)).apply s i = none := by
  cases hi : s i with
  | none => rw [apply_move_none hi, hi]
  | some xs => rw [apply_move_some hi, Function.update_of_ne (by omega), Function.update_self]

/-- The moves of a rotation, up to any point: each slot moves into an empty one. -/
theorem moves_contents (hm : m ≤ n) (hfree : s m = none) (k : ℕ) :
    contents (((((List.range m).reverse.map fun i => Op.move i (i + 1)) ++ [Op.touch]).take k).foldl Op.apply s)
      (n + 1) = contents s (n + 1) := by
  induction m generalizing s k with
  | zero =>
    cases k with
    | zero => rfl
    | succ k =>
      rw [List.range_zero, List.reverse_nil, List.map_nil, List.nil_append, List.take_succ_cons, List.take_nil]
      exact contents_touch s (n + 1)
  | succ m ih =>
    cases k with
    | zero => rfl
    | succ k =>
      rw [List.range_succ, List.reverse_concat, List.map_cons, List.cons_append, List.take_succ_cons,
        List.foldl_cons, ih (by omega) (move_empties s m), contents_move hfree (by omega)]

/-- **A rotation that stops anywhere** leaves a suffix. -/
theorem rotation_contents (s : Shelf A) (n k : ℕ) :
    contents (((rotation n).take k).foldl Op.apply s) (n + 1) <:+ contents s (n + 1) := by
  cases k with
  | zero => exact List.suffix_refl _
  | succ k =>
    have hfree : (Op.drop n).apply s n = none := Function.update_self ..
    unfold rotation
    rw [List.take_succ_cons, List.foldl_cons, moves_contents (Nat.le_refl n) hfree]
    exact contents_drop s n

/-- Every slot holds what some slot held before, or nothing yet. -/
theorem apply_source {op : Op} {xs : List A} (h : op.apply s i = some xs) : xs = [] ∨ ∃ j, s j = some xs := by
  cases op with
  | drop j =>
    rw [apply_drop, Function.update_apply] at h
    split at h
    · cases h
    · exact .inr ⟨i, h⟩
  | move j k =>
    cases hj : s j with
    | none =>
      rw [apply_move_none hj] at h
      exact .inr ⟨i, h⟩
    | some ys =>
      rw [apply_move_some hj, Function.update_apply] at h
      split at h
      · exact .inr ⟨j, hj.trans h⟩
      · rw [Function.update_apply] at h
        split at h
        · cases h
        · exact .inr ⟨i, h⟩
  | touch =>
    rw [apply_touch, Function.update_apply] at h
    split at h
    · cases hzero : s 0 with
      | none =>
        rw [hzero] at h
        exact .inl (Option.some.inj h).symm
      | some ys =>
        rw [hzero] at h
        exact .inr ⟨0, hzero.trans h⟩
    · exact .inr ⟨i, h⟩

theorem foldl_apply_source {xs : List A} : ∀ {ops : List Op} {s : Shelf A},
    ops.foldl Op.apply s i = some xs → xs = [] ∨ ∃ j, s j = some xs := by
  intro ops
  induction ops with
  | nil => intro s h; exact .inr ⟨i, h⟩
  | cons op ops ih =>
    intro s h
    rcases ih h with h | ⟨j, h⟩
    · exact .inl h
    · exact apply_source h

/-- No operation of a rotation fills a slot above the highest. -/
theorem rotation_bounded (hs : ∀ i, n < i → s i = none) (k : ℕ) :
    ∀ i, n < i → ((rotation n).take k).foldl Op.apply s i = none := by
  have hops : ∀ op ∈ rotation n, ∀ s : Shelf A, (∀ i, n < i → s i = none) → ∀ i, n < i → op.apply s i = none := by
    intro op hop s hs i hi
    rcases List.mem_cons.1 hop with rfl | hop
    · rw [apply_drop, Function.update_of_ne (by omega)]
      exact hs i hi
    · rcases List.mem_append.1 hop with hop | hop
      · obtain ⟨j, hj, rfl⟩ := List.mem_map.1 hop
        have hlt := List.mem_range.1 (List.mem_reverse.1 hj)
        cases hsj : s j with
        | none =>
          rw [apply_move_none hsj]
          exact hs i hi
        | some xs =>
          rw [apply_move_some hsj, Function.update_of_ne (by omega), Function.update_of_ne (by omega)]
          exact hs i hi
      · rw [List.mem_singleton.1 hop, apply_touch, Function.update_of_ne (by omega)]
        exact hs i hi
  have hall : ∀ ops : List Op, (∀ op ∈ ops, op ∈ rotation n) → ∀ s : Shelf A, (∀ i, n < i → s i = none) →
      ∀ i, n < i → ops.foldl Op.apply s i = none := by
    intro ops
    induction ops with
    | nil => exact fun _ s hs => hs
    | cons op ops ih =>
      intro hmem s hs
      rw [List.forall_mem_cons] at hmem
      exact ih hmem.2 _ (hops op hmem.1 s hs)
  exact hall _ (fun op hop => List.mem_of_mem_take hop) s hs

/-- The moves of a rotation end with that of slot 0. -/
theorem rotation_succ (n : ℕ) :
    rotation (n + 1) =
      .drop (n + 1) :: (((List.range' 1 n).reverse.map fun i => Op.move i (i + 1)) ++ [.move 0 1, .touch]) := by
  have hrange : List.range (n + 1) = 0 :: List.range' 1 n := by
    rw [List.range_eq_range', List.range'_succ]
  unfold rotation
  rw [hrange, List.reverse_cons, List.map_append, List.append_assoc]
  rfl

/-- **A whole rotation** leaves slot 0 empty. -/
theorem rotation_zero (n : ℕ) (s : Shelf A) : (rotation (n + 1)).foldl Op.apply s 0 = some [] := by
  rw [rotation_succ, List.foldl_cons, List.foldl_append]
  generalize List.foldl Op.apply _ ((List.range' 1 n).reverse.map fun i => Op.move i (i + 1)) = s'
  have hempty : (Op.move 0 1).apply s' 0 = none := move_empties s' 0
  rw [List.foldl_cons, List.foldl_cons, List.foldl_nil, apply_touch, Function.update_self, hempty]
  rfl

end Shelf

end Lib
