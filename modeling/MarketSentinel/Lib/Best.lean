import Mathlib.Data.List.Basic
import Mathlib.Order.Basic

/-!
# The best of a list

A loop that keeps the better of two values, starting with none, finds the best of its list. `op` picks
the better one, and `R a b` says that `b` is at least as good as `a`: `max` and `≤`, or `min` and `≥`.
-/

namespace Lib

variable {α : Type*}

/-- Keep the better of the best so far and one more value. -/
def keepBest (op : α → α → α) (best : Option α) (x : α) : Option α := some ((best.map (op · x)).getD x)

/-- `best` is one of the list that none is better than, or there is none. -/
structure IsBest (R : α → α → Prop) (l : List α) (best : Option α) : Prop where
  none_iff : best = none ↔ l = []
  mem : ∀ m, best = some m → m ∈ l
  best : ∀ m, best = some m → ∀ x ∈ l, R x m

theorem isBest_nil (R : α → α → Prop) : IsBest R [] none :=
  ⟨iff_of_true rfl rfl, fun _ h => (by cases h), fun _ h => (by cases h)⟩

/-- **One value more.** -/
theorem IsBest.snoc {R : α → α → Prop} {op : α → α → α} {l : List α} {best : Option α}
    (h : IsBest R l best) (hrefl : ∀ a, R a a) (htrans : ∀ a b c, R a b → R b c → R a c)
    (hleft : ∀ a b, R a (op a b)) (hright : ∀ a b, R b (op a b)) (hsel : ∀ a b, op a b = a ∨ op a b = b)
    (x : α) : IsBest R (l ++ [x]) (keepBest op best x) where
  none_iff := by simp [keepBest]
  mem := by
    intro m hm
    obtain rfl := Option.some.inj hm
    cases hb : best with
    | none => simp
    | some b =>
      rw [Option.map_some, Option.getD_some, List.mem_append, List.mem_singleton]
      -- The operation picks one of its arguments.
      refine (hsel b x).imp_left fun (heq : op b x = b) => ?_
      rw [heq]
      exact h.mem b hb
  best := by
    intro m hm y hy
    obtain rfl := Option.some.inj hm
    cases hb : best with
    | none =>
      rw [h.none_iff.1 hb, List.nil_append, List.mem_singleton] at hy
      exact hy ▸ hrefl x
    | some b =>
      rw [Option.map_some, Option.getD_some]
      rcases List.mem_append.1 hy with hy | hy
      · exact htrans y b _ (h.best b hb y hy) (hleft b x)
      · exact List.mem_singleton.1 hy ▸ hright b x

/-- A loop that starts with a value ends with one that is as good as that value and every other. -/
theorem foldl_best {β : Type*} {R : α → α → Prop} {op : α → α → α} (hrefl : ∀ a, R a a)
    (htrans : ∀ a b c, R a b → R b c → R a c) (hleft : ∀ a b, R a (op a b)) (hright : ∀ a b, R b (op a b))
    (f : β → α) (l : List β) (m : α) : R m (l.foldl (fun m x => op m (f x)) m) ∧
      ∀ x ∈ l, R (f x) (l.foldl (fun m x => op m (f x)) m) := by
  induction l generalizing m with
  | nil => exact ⟨hrefl m, fun _ h => absurd h List.not_mem_nil⟩
  | cons y l ih =>
    obtain ⟨hseed, hrest⟩ := ih (op m (f y))
    refine ⟨htrans _ _ _ (hleft m (f y)) hseed, fun x hx => ?_⟩
    rcases List.mem_cons.1 hx with rfl | hx
    · exact htrans _ _ _ (hright m (f x)) hseed
    · exact hrest x hx

/-- A value beats all of the list just when it beats the best of them. -/
theorem IsBest.forall_iff {R S : α → α → Prop} {l : List α} {m : α} (h : IsBest R l (some m))
    (htrans : ∀ a b c, R a b → S b c → S a c) (x : α) : (∀ y ∈ l, S y x) ↔ S m x :=
  ⟨fun hall => hall m (h.mem m rfl), fun hm y hy => htrans y m x (h.best m rfl y hy) hm⟩

end Lib
