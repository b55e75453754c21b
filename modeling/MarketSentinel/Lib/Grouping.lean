import MarketSentinel.Lib.Dict
import MarketSentinel.Lib.Returns

/-!
# Grouping a list by a key

`groups[key(x)].append(x)` over a list, on a dictionary whose missing keys read as empty lists. An
element without a key is left out; in `groupByM` computing a key may raise.

* `getD_groupBy`: the group of a key is the elements that have it, in order.
-/

namespace Lib

universe u v

variable {ε : Type u} {α K : Type v} [DecidableEq K]

/-- `groups[k].append(x)`. -/
def Dict.push (groups : Dict K (List α)) (k : K) (x : α) : Dict K (List α) :=
  groups.set k (groups.getD k [] ++ [x])

/-- One element of the loop. -/
def Dict.pushBy (groups : Dict K (List α)) (x : α) (key : Option K) : Dict K (List α) :=
  key.elim groups fun k => groups.push k x

/-- The elements by their keys; those without a key are left out. -/
def groupBy (key : α → Option K) (l : List α) : Dict K (List α) :=
  l.foldl (fun groups x => groups.pushBy x (key x)) Dict.empty

/-- The same, where a key may raise. -/
def groupByM (key : α → Except ε (Option K)) (l : List α) : Except ε (Dict K (List α)) :=
  l.foldlM (fun groups x => do return groups.pushBy x (← key x)) Dict.empty

/-- A pushed element is the last of its group. -/
theorem Dict.getD_push (groups : Dict K (List α)) (k k' : K) (x : α) :
    (groups.push k x).getD k' [] = groups.getD k' [] ++ if k = k' then [x] else [] := by
  unfold Dict.push Dict.getD
  rw [Dict.get?_set]
  by_cases h : k = k'
  · subst h; simp
  · rw [if_neg (Ne.symm h), if_neg h, List.append_nil]

private theorem getD_foldl_pushBy (key : α → Option K) (k : K) : ∀ (l : List α) (groups : Dict K (List α)),
    (l.foldl (fun groups x => groups.pushBy x (key x)) groups).getD k [] =
      groups.getD k [] ++ l.filter fun x => key x = some k := by
  intro l
  induction l with
  | nil => intro groups; simp
  | cons x l ih =>
    intro groups
    rw [List.foldl_cons, ih]
    cases hx : key x with
    | none => simp [Dict.pushBy, hx]
    | some k' =>
      unfold Dict.pushBy
      rw [Option.elim_some, Dict.getD_push]
      by_cases h : k' = k
      · subst h; simp [hx]
      · simp [hx, h]

/-- **The group of a key** is the elements that have it, in order. -/
theorem getD_groupBy (key : α → Option K) (l : List α) (k : K) :
    (groupBy key l).getD k [] = l.filter fun x => key x = some k := by
  unfold groupBy
  rw [getD_foldl_pushBy, Dict.getD_empty, List.nil_append]

private theorem keys_foldl_pushBy (key : α → Option K) (k : K) : ∀ (l : List α) (groups : Dict K (List α)),
    k ∈ (l.foldl (fun groups x => groups.pushBy x (key x)) groups).keys ↔
      k ∈ groups.keys ∨ ∃ x ∈ l, key x = some k := by
  intro l
  induction l with
  | nil => intro groups; simp
  | cons x l ih =>
    intro groups
    rw [List.foldl_cons, ih]
    have hstep : k ∈ (groups.pushBy x (key x)).keys ↔ k ∈ groups.keys ∨ key x = some k := by
      unfold Dict.pushBy Dict.push
      cases key x with
      | none => simp
      | some k' =>
        rw [Option.elim_some, Dict.mem_keys, Dict.mem_keys, Dict.get?_set]
        by_cases h : k = k'
        · simp [h]
        · simp [h, Ne.symm h]
    rw [hstep, List.exists_mem_cons_iff, or_assoc]

/-- The keys are those of the elements. -/
theorem mem_keys_groupBy {key : α → Option K} {l : List α} {k : K} :
    k ∈ (groupBy key l).keys ↔ ∃ x ∈ l, key x = some k := by
  unfold groupBy
  rw [keys_foldl_pushBy]
  simp [Dict.keys, Dict.empty]

/-- Grouping by keys that are all computed is grouping. -/
theorem groupByM_eq {keyM : α → Except ε (Option K)} {key : α → Option K} {l : List α}
    (h : ∀ x ∈ l, keyM x = .ok (key x)) : groupByM keyM l = .ok (groupBy key l) := by
  unfold groupByM groupBy
  apply foldlM_eq_foldl
  intro groups x hx
  rw [h x hx]
  rfl

end Lib
