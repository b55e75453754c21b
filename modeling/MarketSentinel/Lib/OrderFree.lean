import Mathlib.Algebra.BigOperators.Group.List.Basic
import Mathlib.Algebra.GroupWithZero.Nat
import Mathlib.Data.List.Sort
import Mathlib.Data.List.Dedup
import Mathlib.Data.List.Perm.Basic
import MarketSentinel.Lib.Grouping

/-!
# Loops whose result does not depend on the order

What a loop over a list makes of a permutation of it.

* `insertionSort_eq`: sorting by an order forgets the order of the list.
* `getLast?_insertionSort`: the last element of a sorted list is a greatest one.
* `Dict.entries_perm`: two dictionaries that read alike have the same entries, in some order.
* `foldl_bump_perm`, `get?_foldl_tick_perm`: counters under known keys, and under the keys that come.
* `keys_groupBy_perm`, `getD_groupBy_perm`: the groups of a permutation are permutations.
* `countP_groups`: a count is the sum of the counts of the groups.
-/

namespace Lib

universe u v

/-- **Sorting forgets the order.** -/
theorem insertionSort_eq {α : Type*} {r : α → α → Prop} [DecidableRel r] [Std.Total r] [IsTrans α r]
    [Std.Antisymm r] {l l' : List α} (h : l.Perm l') : l.insertionSort r = l'.insertionSort r := by
  have hperm : (l.insertionSort r).Perm (l'.insertionSort r) :=
    (List.perm_insertionSort r l).trans (h.trans (List.perm_insertionSort r l').symm)
  exact hperm.eq_of_pairwise' (List.pairwise_insertionSort r l) (List.pairwise_insertionSort r l')

/-- **The last of a sorted list** is a greatest one. -/
theorem getLast?_insertionSort {α : Type*} {r : α → α → Prop} [DecidableRel r] [Std.Total r] [IsTrans α r]
    {l : List α} {m : α} (h : (l.insertionSort r).getLast? = some m) : m ∈ l ∧ ∀ x ∈ l, r x m := by
  have hsorted := List.pairwise_insertionSort r l
  obtain ⟨init, hinit⟩ := List.getLast?_eq_some_iff.1 h
  rw [hinit, List.pairwise_append] at hsorted
  refine ⟨(List.mem_insertionSort r).1 (List.mem_of_getLast? h), fun x hx => ?_⟩
  have hmem : x ∈ init ++ [m] := hinit ▸ (List.mem_insertionSort r).2 hx
  rcases List.mem_append.1 hmem with hx | hx
  · exact hsorted.2.2 x hx m List.mem_cons_self
  · rw [List.mem_singleton.1 hx]
    exact (Std.Total.total (r := r) m m).elim id id

namespace Dict

variable {K V : Type*}

theorem keys_perm {d d' : Dict K V} (h : ∀ k, k ∈ d.keys ↔ k ∈ d'.keys) : d.keys.Perm d'.keys :=
  (List.perm_ext_iff_of_nodup d.nodup d'.nodup).2 h

theorem ext_of_entries {d d' : Dict K V} (h : d.entries = d'.entries) : d = d' := by
  obtain ⟨es, hes⟩ := d
  obtain ⟨es', hes'⟩ := d'
  cases h
  rfl

variable [DecidableEq K]

/-- The entries are read off the keys. -/
theorem entries_eq_getD (d : Dict K V) (v : V) : d.entries = d.keys.map fun k => (k, d.getD k v) := by
  unfold keys
  rw [List.map_map]
  refine (List.map_id _).symm.trans (List.map_congr_left fun e he => ?_)
  have hget : d.get? e.1 = some e.2 := mem_entries.1 he
  unfold getD
  exact Prod.ext rfl (by simp [hget])

theorem values_eq_getD (d : Dict K V) (v : V) : d.values = d.keys.map fun k => d.getD k v := by
  unfold values
  rw [entries_eq_getD d v, List.map_map]
  rfl

/-- **Dictionaries that read alike** have the same entries. -/
theorem entries_perm {d d' : Dict K V} (h : ∀ k, d.get? k = d'.get? k) : d.entries.Perm d'.entries := by
  have hnodup : ∀ d : Dict K V, d.entries.Nodup := fun d => List.Nodup.of_map _ d.nodup
  rw [List.perm_ext_iff_of_nodup (hnodup d) (hnodup d')]
  rintro ⟨k, v⟩
  rw [mem_entries, mem_entries, h k]

theorem values_perm {d d' : Dict K V} (h : ∀ k, d.get? k = d'.get? k) : d.values.Perm d'.values :=
  (entries_perm h).map Prod.snd

/-! ## Counters under known keys -/

/-- Bumping a counter adds one to the entry of its key, if there is one. -/
theorem entries_bump (d : Dict K ℕ) (k : K) :
    (d.bump k).entries = d.entries.map fun e => if e.1 = k then (k, e.2 + 1) else e := by
  unfold bump
  cases hk : d.get? k with
  | none =>
    have hne : ∀ e ∈ d.entries, (if e.1 = k then (k, e.2 + 1) else e) = id e := by
      rintro ⟨k', n⟩ he
      have hget := mem_entries.1 he
      rw [if_neg]
      · rfl
      · rintro rfl
        rw [hk] at hget
        cases hget
    rw [List.map_congr_left hne, List.map_id]
  | some n =>
    have hkey : k ∈ d.keys := mem_keys.2 ⟨n, hk⟩
    have hset : (d.set k (n + 1)).entries = d.entries.map fun e => if e.1 = k then (k, n + 1) else e := by
      unfold set
      rw [dif_pos hkey]
    dsimp only
    rw [hset]
    apply List.map_congr_left
    rintro ⟨k', m⟩ he
    have hget := mem_entries.1 he
    by_cases h : k' = k
    · subst h
      rw [hk] at hget
      cases hget
      rfl
    · rw [if_neg h, if_neg h]

theorem bump_comm (d : Dict K ℕ) (k k' : K) : (d.bump k).bump k' = (d.bump k').bump k := by
  apply ext_of_entries
  rw [entries_bump, entries_bump, entries_bump, entries_bump, List.map_map, List.map_map]
  apply List.map_congr_left
  rintro ⟨k₀, n⟩ -
  simp only [Function.comp_apply]
  by_cases h : k₀ = k
  · subst h
    by_cases h' : k₀ = k'
    · subst h'
      rfl
    · simp [h']
  · by_cases h' : k₀ = k'
    · subst h'
      simp [h]
    · simp [h, h']

/-- **Counters forget the order** of what they counted. -/
theorem foldl_bump_perm {α : Type*} (f : α → Option K) (d : Dict K ℕ) {l l' : List α} (h : l.Perm l') :
    l.foldl (fun d x => (f x).elim d d.bump) d = l'.foldl (fun d x => (f x).elim d d.bump) d := by
  apply h.foldl_eq'
  intro x _ y _ d
  cases f x <;> cases f y <;> simp only [Option.elim_none, Option.elim_some]
  exact bump_comm d _ _

/-! ## Counters under the keys that come -/

/-- `counts[k] += 1` on a `defaultdict(int)`. -/
def tick (d : Dict K ℕ) (k : K) : Dict K ℕ := d.set k (d.getD k 0 + 1)

theorem getD_tick (d : Dict K ℕ) (k k' : K) :
    (d.tick k).getD k' 0 = d.getD k' 0 + if k = k' then 1 else 0 := by
  unfold tick
  rw [getD_set]
  by_cases h : k' = k
  · rw [if_pos h, if_pos h.symm, h]
  · rw [if_neg h, if_neg (Ne.symm h)]
    rfl

theorem get?_tick_isSome (d : Dict K ℕ) (k k' : K) :
    ((d.tick k).get? k').isSome = (decide (k = k') || (d.get? k').isSome) := by
  unfold tick
  rw [get?_set]
  by_cases h : k' = k
  · simp [h]
  · simp [h, Ne.symm h]

/-- A dictionary of counters is read off its keys and its counts. -/
theorem get?_eq_getD (d : Dict K ℕ) (k : K) :
    d.get? k = if (d.get? k).isSome then some (d.getD k 0) else none := by
  unfold getD
  cases d.get? k <;> rfl

theorem foldl_tick {α : Type*} (f : α → Option K) (k : K) : ∀ (l : List α) (d : Dict K ℕ),
    (l.foldl (fun d x => (f x).elim d d.tick) d).getD k 0 =
        d.getD k 0 + l.countP (fun x => f x = some k) ∧
      (((l.foldl (fun d x => (f x).elim d d.tick) d).get? k).isSome =
        ((d.get? k).isSome || l.any fun x => f x = some k)) := by
  intro l
  induction l with
  | nil => intro d; simp
  | cons x l ih =>
    intro d
    rw [List.foldl_cons, List.countP_cons, List.any_cons]
    obtain ⟨hcount, hsome⟩ := ih ((f x).elim d d.tick)
    rw [hcount, hsome]
    cases hx : f x with
    | none => simp
    | some k' =>
      rw [Option.elim_some, getD_tick, get?_tick_isSome]
      by_cases h : k' = k
      · simp [h]; omega
      · simp [h]

/-- **So do counters under the keys that come**, but for the order of the keys. -/
theorem get?_foldl_tick_perm {α : Type*} (f : α → Option K) (d : Dict K ℕ) {l l' : List α}
    (h : l.Perm l') (k : K) :
    (l.foldl (fun d x => (f x).elim d d.tick) d).get? k =
      (l'.foldl (fun d x => (f x).elim d d.tick) d).get? k := by
  rw [get?_eq_getD, get?_eq_getD (l'.foldl _ d), (foldl_tick f k l d).1, (foldl_tick f k l d).2,
    (foldl_tick f k l' d).1, (foldl_tick f k l' d).2, h.countP_eq, h.any_eq]

end Dict

/-! ## Groups -/

variable {α K : Type v} [DecidableEq K]

theorem keys_groupBy_perm (key : α → Option K) {l l' : List α} (h : l.Perm l') :
    (groupBy key l).keys.Perm (groupBy key l').keys := by
  apply Dict.keys_perm
  intro k
  rw [mem_keys_groupBy, mem_keys_groupBy]
  simp only [h.mem_iff]

theorem getD_groupBy_perm (key : α → Option K) {l l' : List α} (h : l.Perm l') (k : K) :
    ((groupBy key l).getD k []).Perm ((groupBy key l').getD k []) := by
  rw [getD_groupBy, getD_groupBy]
  exact h.filter _

/-! ## Counts over groups -/

theorem sum_indicator {keys : List K} (hnodup : keys.Nodup) {k₀ : K} (hmem : k₀ ∈ keys) (n : ℕ) :
    (keys.map fun k => if k₀ = k then n else 0).sum = n := by
  induction keys with
  | nil => cases hmem
  | cons k keys ih =>
    rw [List.nodup_cons] at hnodup
    rw [List.map_cons, List.sum_cons]
    by_cases h : k₀ = k
    · -- The other keys are different ones.
      have hzero : (keys.map fun k => if k₀ = k then n else 0) = keys.map fun _ => 0 := by
        apply List.map_congr_left
        intro k' hk'
        rw [if_neg]
        rintro rfl
        exact hnodup.1 (h ▸ hk')
      rw [if_pos h, hzero]
      simp
    · rw [if_neg h, ih hnodup.2 ((List.mem_cons.1 hmem).resolve_left h), Nat.zero_add]

/-- **A count is the sum over the groups**, when every counted element is in one. -/
theorem countP_groups {keys : List K} (hnodup : keys.Nodup) (p : α → Bool) (key : α → Option K) :
    ∀ {l : List α}, (∀ x ∈ l, p x = true → ∃ k ∈ keys, key x = some k) →
      l.countP p = (keys.map fun k => (l.filter fun x => key x = some k).countP p).sum := by
  intro l
  induction l with
  | nil =>
    intro _
    simp
  | cons x l ih =>
    intro h
    rw [List.countP_cons, ih fun y hy => h y (List.mem_cons_of_mem _ hy)]
    by_cases hx : p x = true
    · obtain ⟨k₀, hmem, hkey⟩ := h x List.mem_cons_self hx
      have hstep : ∀ k, ((x :: l).filter fun x => key x = some k).countP p =
          (l.filter fun x => key x = some k).countP p + if k₀ = k then 1 else 0 := by
        intro k
        rw [List.filter_cons]
        by_cases hk : k₀ = k
        · simp [hkey, hk, hx]
        · simp [hkey, hk]
      simp only [hstep]
      rw [List.sum_map_add, sum_indicator hnodup hmem, if_pos hx]
    · have hstep : ∀ k, ((x :: l).filter fun x => key x = some k).countP p =
          (l.filter fun x => key x = some k).countP p := by
        intro k
        rw [List.filter_cons]
        split
        · rw [List.countP_cons, if_neg hx, Nat.add_zero]
        · rfl
      simp only [hstep]
      rw [if_neg hx, Nat.add_zero]

end Lib
