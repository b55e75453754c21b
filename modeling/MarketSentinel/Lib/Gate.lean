import MarketSentinel.Lib.Dict
import Mathlib.Data.List.Chain
import Mathlib.Data.List.Induction

/-!
# Gates

A gate lets items pass or refuses them, one at a time. It keeps a note of the last item that passed
under each key, and decides on an item from that note alone; an item it refuses leaves no trace.

* `get?_after`: the note of a key is that of the last item that passed under it.
* `isChain_passed`: what the decision tells of two items holds along the items that passed under a key.
* `refused`: a refused item was refused for the last one that passed.
* `passed_passed`: refused items can be left out.
-/

namespace Lib

/-- What a gate remembers under a key, and whom it lets pass. -/
structure Gate (K R A : Type*) where
  key : A → K
  note : A → R
  /-- Whether an item passes after the noted one. -/
  passes : A → Option R → Bool

namespace Gate

variable {K R A : Type*} [DecidableEq K] (g : Gate K R A)

/-- Whether an item passes, and the notes after it. -/
def offer (d : Dict K R) (x : A) : Bool × Dict K R :=
  if g.passes x (d.get? (g.key x)) then (true, d.set (g.key x) (g.note x)) else (false, d)

/-- What is remembered after a list of offers. -/
def after (d : Dict K R) (xs : List A) : Dict K R := xs.foldl (fun d x => (g.offer d x).2) d

/-- The items of a list that pass. -/
def passed (d : Dict K R) : List A → List A
  | [] => []
  | x :: xs => (if (g.offer d x).1 then [x] else []) ++ passed (g.offer d x).2 xs

variable {g} {d : Dict K R} {x : A} {xs : List A}

@[simp] theorem offer_fst : (g.offer d x).1 = g.passes x (d.get? (g.key x)) := by
  unfold offer
  split
  · next h => exact h.symm
  · next h => exact (Bool.eq_false_iff.2 h).symm

/-- Who passes is remembered. -/
theorem offer_passed (h : g.passes x (d.get? (g.key x)) = true) :
    (g.offer d x).2 = d.set (g.key x) (g.note x) := by
  unfold offer
  rw [if_pos h]

/-- Who is refused leaves no trace. -/
theorem offer_refused (h : g.passes x (d.get? (g.key x)) = false) : (g.offer d x).2 = d := by
  unfold offer
  rw [if_neg (Bool.eq_false_iff.1 h)]

theorem after_snoc (xs : List A) : g.after d (xs ++ [x]) = (g.offer (g.after d xs) x).2 := by
  unfold after
  rw [List.foldl_append, List.foldl_cons, List.foldl_nil]

/-- A list of offers in two stretches. -/
theorem passed_append (ys : List A) : ∀ (xs : List A) (d : Dict K R),
    g.passed d (xs ++ ys) = g.passed d xs ++ g.passed (g.after d xs) ys := by
  intro xs
  induction xs with
  | nil => intro d; rfl
  | cons x xs ih =>
    intro d
    rw [List.cons_append, passed, passed, ih, List.append_assoc]
    rfl

theorem passed_snoc (xs : List A) : g.passed d (xs ++ [x]) =
    g.passed d xs ++ if g.passes x ((g.after d xs).get? (g.key x)) then [x] else [] := by
  rw [passed_append, passed, passed, offer_fst, List.append_nil]

/-- Those who pass keep their order. -/
theorem passed_sublist : ∀ (xs : List A) (d : Dict K R), (g.passed d xs).Sublist xs := by
  intro xs
  induction xs with
  | nil => intro d; exact .slnil
  | cons x xs ih =>
    intro d
    rw [passed]
    split
    · exact (ih _).cons_cons x
    · exact (ih _).cons x

variable (g) in
/-- The items of a list that pass under a key, from no notes. -/
def lane (xs : List A) (k : K) : List A := (g.passed Dict.empty xs).filter fun x => g.key x = k

/-- Those of one key who pass, after one offer more. -/
theorem lane_snoc (xs : List A) (k : K) : g.lane (xs ++ [x]) k =
    g.lane xs k ++ if g.passes x ((g.after Dict.empty xs).get? (g.key x)) = true ∧ g.key x = k then [x] else [] := by
  unfold lane
  rw [passed_snoc, List.filter_append]
  congr 1
  by_cases hpass : g.passes x ((g.after Dict.empty xs).get? (g.key x)) = true <;> by_cases hk : g.key x = k <;>
    simp [hpass, hk]

/-- **The note of a key.** -/
theorem get?_after (xs : List A) (k : K) : (g.after Dict.empty xs).get? k = (g.lane xs k).getLast?.map g.note := by
  induction xs using List.reverseRecOn with
  | nil => rfl
  | append_singleton xs x ih =>
    rw [after_snoc, lane_snoc]
    cases hpass : g.passes x ((g.after Dict.empty xs).get? (g.key x)) with
    | false =>
      rw [offer_refused hpass, ih, if_neg (by simp), List.append_nil]
    | true =>
      rw [offer_passed hpass, Dict.get?_set]
      by_cases hk : g.key x = k
      · rw [if_pos hk.symm, if_pos ⟨rfl, hk⟩, List.getLast?_concat]
        rfl
      · rw [if_neg (Ne.symm hk), if_neg fun h => hk h.2, List.append_nil, ih]

/-- **Consecutive items.** -/
theorem isChain_passed {Rel : A → A → Prop} (h : ∀ a b, g.passes b (some (g.note a)) = true → Rel a b)
    (xs : List A) (k : K) : (g.lane xs k).IsChain Rel := by
  induction xs using List.reverseRecOn with
  | nil => exact .nil
  | append_singleton xs x ih =>
    rw [lane_snoc]
    split
    · next hx =>
      obtain ⟨hpass, rfl⟩ := hx
      refine List.isChain_append.2 ⟨ih, .singleton x, fun a ha b hb => ?_⟩
      obtain rfl : x = b := by simpa using hb
      have hnote : (g.after Dict.empty xs).get? (g.key x) = some (g.note a) := by
        rw [get?_after, Option.mem_def.1 ha]
        rfl
      rw [hnote] at hpass
      exact h a x hpass
    · rw [List.append_nil]
      exact ih

/-- **A refused item.** -/
theorem refused (hfirst : g.passes x none = true) (h : g.passes x ((g.after Dict.empty xs).get? (g.key x)) = false) :
    ∃ last ∈ (g.lane xs (g.key x)).getLast?, g.passes x (some (g.note last)) = false := by
  rw [get?_after] at h
  cases hlast : (g.lane xs (g.key x)).getLast? with
  | none =>
    rw [hlast] at h
    cases h.symm.trans hfirst
  | some last =>
    rw [hlast] at h
    exact ⟨last, rfl, h⟩

/-- **Refused items leave no trace.** -/
theorem passed_passed : ∀ (xs : List A) (d : Dict K R), g.passed d (g.passed d xs) = g.passed d xs := by
  intro xs
  induction xs with
  | nil => intro d; rfl
  | cons x xs ih =>
    intro d
    rw [passed]
    cases hpass : g.passes x (d.get? (g.key x)) with
    | true =>
      have hx : (g.offer d x).1 = true := offer_fst.trans hpass
      rw [if_pos hx, List.singleton_append, passed, if_pos hx, ih]
      rfl
    | false =>
      have hx : (g.offer d x).1 = false := offer_fst.trans hpass
      rw [hx, if_neg Bool.false_ne_true, List.nil_append, offer_refused hpass, ih]

end Gate

end Lib
