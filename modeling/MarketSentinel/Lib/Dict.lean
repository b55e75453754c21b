import Mathlib.Data.List.Nodup
import Mathlib.Data.List.Basic
import Mathlib.Tactic.Ext

/-!
# Insertion-ordered dictionaries

`Dict K V` is a finite map that remembers the order in which its keys were first
written: writing a key that is there replaces its value in place, writing a new
key appends it. The keys are distinct by a field of the structure, so every
operation proves that it keeps them so and no later proof has to.

* `get?_set`, `get?_pop`, `get?_filter`: the three operations, read back.
* `get?_foldl_bump`: what a dictionary of counters holds after a list.
* `AgreeOff`: what two dictionaries hold under all other keys.
* `mem_entries`: the entries are exactly the pairs that can be read back.
-/

namespace Lib

/-- A finite map with distinct keys, in the order of their first insertion. -/
structure Dict (K V : Type*) where
  entries : List (K × V)
  nodup : (entries.map Prod.fst).Nodup

namespace Dict

variable {K V : Type*}

/-- The dictionary with no key. -/
def empty : Dict K V := ⟨[], List.nodup_nil⟩

instance : Inhabited (Dict K V) := ⟨empty⟩

/-- The keys, oldest first. -/
def keys (d : Dict K V) : List K := d.entries.map Prod.fst

/-- The values, oldest key first. -/
def values (d : Dict K V) : List V := d.entries.map Prod.snd

/-- The entries whose key and value pass a test. -/
def filter (d : Dict K V) (p : K → V → Bool) : Dict K V where
  entries := d.entries.filter fun e => p e.1 e.2
  nodup := d.nodup.sublist (List.filter_sublist.map _)

variable [DecidableEq K]

/-- The value under a key. -/
def get? (d : Dict K V) (k : K) : Option V := d.entries.lookup k

/-- The value under a key, or a default. -/
def getD (d : Dict K V) (k : K) (v : V) : V := (d.get? k).getD v

/-- Write a key: in place when it is there, at the end when it is new. -/
def set (d : Dict K V) (k : K) (v : V) : Dict K V :=
  if h : k ∈ d.keys then
    { entries := d.entries.map fun e => if e.1 = k then (k, v) else e
      nodup := by
        have : (d.entries.map fun e => if e.1 = k then (k, v) else e).map Prod.fst =
            d.entries.map Prod.fst := by
          rw [List.map_map]
          apply List.map_congr_left
          intro e _
          by_cases he : e.1 = k <;> simp [he]
        rw [this]; exact d.nodup }
  else
    { entries := d.entries ++ [(k, v)]
      nodup := by
        rw [List.map_append, List.nodup_append]
        refine ⟨d.nodup, by simp, ?_⟩
        intro a ha b hb
        simp only [List.map_cons, List.map_nil, List.mem_singleton] at hb
        subst hb
        exact fun hab => h (hab ▸ ha) }

/-- Every value is replaced. -/
def mapValues (d : Dict K V) (f : K → V → V) : Dict K V where
  entries := d.entries.map fun e => (e.1, f e.1 e.2)
  nodup := by
    rw [List.map_map]
    exact d.nodup

/-- Remove a key, if it is there. -/
def pop (d : Dict K V) (k : K) : Dict K V := d.filter fun k' _ => decide (k' ≠ k)

/-- Write one value under each key of a list. -/
def setAll (d : Dict K V) (ks : List K) (v : V) : Dict K V := ks.foldl (fun d k => d.set k v) d

/-! ## Reading back -/

/-- The entries are what is read. -/
theorem mem_entries {d : Dict K V} {k : K} {v : V} : (k, v) ∈ d.entries ↔ d.get? k = some v := by
  obtain ⟨es, hes⟩ := d
  unfold get?
  simp only
  induction es with
  | nil => simp
  | cons e es ih =>
    obtain ⟨k', v'⟩ := e
    simp only [List.map_cons, List.nodup_cons] at hes
    rw [List.lookup_cons, List.mem_cons]
    by_cases hk : k = k'
    · subst hk
      have hnot : (k, v) ∉ es := fun hm => hes.1 (List.mem_map.2 ⟨_, hm, rfl⟩)
      simp [hnot, eq_comm]
    · have hb : (k == k') = false := by simpa using hk
      simp only [hb, Prod.mk.injEq, hk, false_and, false_or]
      exact ih hes.2

/-- The keys are what can be read. -/
theorem mem_keys {d : Dict K V} {k : K} : k ∈ d.keys ↔ ∃ v, d.get? k = some v := by
  unfold keys
  rw [List.mem_map]
  constructor
  · rintro ⟨⟨k', v⟩, hm, rfl⟩
    exact ⟨v, mem_entries.1 hm⟩
  · rintro ⟨v, hv⟩
    exact ⟨(k, v), mem_entries.2 hv, rfl⟩

theorem mem_values {d : Dict K V} {v : V} : v ∈ d.values ↔ ∃ k, d.get? k = some v := by
  unfold values
  rw [List.mem_map]
  constructor
  · rintro ⟨⟨k, v'⟩, hm, rfl⟩
    exact ⟨k, mem_entries.1 hm⟩
  · rintro ⟨k, hk⟩
    exact ⟨(k, v), mem_entries.2 hk, rfl⟩

/-- A dictionary is read off its membership. -/
theorem get?_eq_of_mem {d : Dict K V} {k : K} {o : Option V}
    (h : ∀ v, (k, v) ∈ d.entries ↔ o = some v) : d.get? k = o := by
  cases o with
  | some v => exact mem_entries.1 ((h v).2 rfl)
  | none =>
    cases hg : d.get? k with
    | none => rfl
    | some v => exact absurd ((h v).1 (mem_entries.2 hg)) (by simp)

/-- The entries of one key. -/
theorem filter_entries (d : Dict K V) (k : K) :
    (d.entries.filter fun e => e.1 = k) = (d.get? k).toList.map fun v => (k, v) := by
  obtain ⟨es, hes⟩ := d
  unfold get?
  dsimp only
  induction es with
  | nil => rfl
  | cons e es ih =>
    obtain ⟨k', v'⟩ := e
    simp only [List.map_cons, List.nodup_cons] at hes
    rw [List.filter_cons, List.lookup_cons]
    by_cases hk : k' = k
    · subst hk
      have hnil : (es.filter fun e => e.1 = k') = [] := by
        rw [List.filter_eq_nil_iff]
        intro e he hk
        exact hes.1 (List.mem_map.2 ⟨e, he, of_decide_eq_true hk⟩)
      simp [hnil]
    · have hb : (k == k') = false := by simpa using Ne.symm hk
      simp only [hk, decide_false, Bool.false_eq_true, if_false, hb]
      exact ih hes.2

@[simp] theorem get?_empty (k : K) : (empty : Dict K V).get? k = none := rfl

@[simp] theorem getD_empty (k : K) (v : V) : (empty : Dict K V).getD k v = v := rfl

@[simp] theorem get?_filter (d : Dict K V) (p : K → V → Bool) (k : K) :
    (d.filter p).get? k = (d.get? k).filter (p k) := by
  apply get?_eq_of_mem
  intro v
  simp only [filter, List.mem_filter, mem_entries, Option.filter_eq_some_iff]

/-- A key that was popped is gone, and no other. -/
theorem get?_pop (d : Dict K V) (k k' : K) :
    (d.pop k).get? k' = if k' = k then none else d.get? k' := by
  unfold pop
  rw [get?_filter]
  by_cases h : k' = k
  · cases d.get? k' <;> simp [h, Option.filter]
  · cases d.get? k' <;> simp [h, Option.filter]

@[simp] theorem get?_pop_self (d : Dict K V) (k : K) : (d.pop k).get? k = none := by simp [get?_pop]

theorem get?_pop_ne (d : Dict K V) {k k' : K} (h : k' ≠ k) : (d.pop k).get? k' = d.get? k' := by
  simp [get?_pop, h]

/-- A key that was set has its value, and the others have theirs. -/
theorem get?_set (d : Dict K V) (k k' : K) (v : V) :
    (d.set k v).get? k' = if k' = k then some v else d.get? k' := by
  unfold set
  split
  · rename_i hk
    obtain ⟨v₀, hv₀⟩ := mem_keys.1 hk
    -- A key that is there keeps its place in the order, and its value is replaced.
    apply get?_eq_of_mem
    intro v'
    simp only [List.mem_map]
    constructor
    · rintro ⟨⟨k₁, v₁⟩, hm, he⟩
      by_cases h1 : k₁ = k
      · simp only [h1, if_true, Prod.mk.injEq] at he
        obtain ⟨rfl, rfl⟩ := he; simp
      · simp only [h1, if_false, Prod.mk.injEq] at he
        obtain ⟨rfl, rfl⟩ := he
        rw [if_neg h1]; exact mem_entries.1 hm
    · intro he
      by_cases h1 : k' = k
      · subst h1
        rw [if_pos rfl] at he
        cases he
        exact ⟨(k', v₀), mem_entries.2 hv₀, by simp⟩
      · rw [if_neg h1] at he
        exact ⟨(k', v'), mem_entries.2 he, by simp [h1]⟩
  · rename_i hk
    -- A new key is appended.
    apply get?_eq_of_mem
    intro v'
    simp only [List.mem_append, List.mem_singleton, Prod.mk.injEq]
    by_cases h1 : k' = k
    · subst h1
      have hnot : (k', v') ∉ d.entries := fun hm => hk (mem_keys.2 ⟨v', mem_entries.1 hm⟩)
      simp [hnot, eq_comm]
    · simp [h1, mem_entries]

@[simp] theorem get?_set_self (d : Dict K V) (k : K) (v : V) : (d.set k v).get? k = some v := by
  simp [get?_set]

theorem get?_set_ne (d : Dict K V) {k k' : K} (h : k' ≠ k) (v : V) :
    (d.set k v).get? k' = d.get? k' := by simp [get?_set, h]

/-- A new key goes to the end. -/
theorem values_set_new {d : Dict K V} {k : K} (h : k ∉ d.keys) (v : V) :
    (d.set k v).values = d.values ++ [v] := by
  unfold set values
  rw [dif_neg h, List.map_append, List.map_cons, List.map_nil]

/-- Writing what is there. -/
theorem set_eq_self {d : Dict K V} {k : K} {v : V} (h : d.get? k = some v) : d.set k v = d := by
  obtain ⟨es, hes⟩ := d
  unfold set
  rw [dif_pos (mem_keys.2 ⟨v, h⟩)]
  congr 1
  refine (List.map_congr_left fun e he => ?_).trans (List.map_id _)
  split
  · next hk =>
    have hv := mem_entries.1 (show (e.1, e.2) ∈ (⟨es, hes⟩ : Dict K V).entries from he)
    rw [hk, h] at hv
    exact Prod.ext hk.symm (Option.some.inj hv)
  · rfl

/-- Values are mapped under their keys. -/
theorem get?_mapValues (d : Dict K V) (f : K → V → V) (k : K) : (d.mapValues f).get? k = (d.get? k).map (f k) := by
  apply get?_eq_of_mem
  intro v
  simp only [mapValues, List.mem_map, Prod.mk.injEq]
  constructor
  · rintro ⟨e, he, rfl, rfl⟩
    rw [mem_entries.1 (show (e.1, e.2) ∈ d.entries from he)]
    rfl
  · intro h
    obtain ⟨v₀, hv₀, rfl⟩ := Option.map_eq_some_iff.1 h
    exact ⟨(k, v₀), mem_entries.2 hv₀, rfl, rfl⟩

omit [DecidableEq K] in
theorem mapValues_mapValues (d : Dict K V) (f g : K → V → V) :
    (d.mapValues f).mapValues g = d.mapValues fun k v => g k (f k v) := by
  unfold mapValues
  congr 1
  rw [List.map_map]
  rfl

theorem mapValues_congr {d : Dict K V} {f g : K → V → V} (h : ∀ k v, d.get? k = some v → f k v = g k v) :
    d.mapValues f = d.mapValues g := by
  unfold mapValues
  congr 1
  refine List.map_congr_left fun e he => ?_
  rw [h e.1 e.2 (mem_entries.1 he)]

/-- Values that are mapped to themselves change nothing. -/
theorem mapValues_eq_self {d : Dict K V} {f : K → V → V} :
    d.mapValues f = d ↔ ∀ k v, d.get? k = some v → f k v = v := by
  constructor
  · intro h k v hv
    have hentries : (d.entries.map fun e => (e.1, f e.1 e.2)) = d.entries.map id := by
      rw [List.map_id]
      exact congrArg entries h
    exact (Prod.mk.inj (List.map_inj_left.1 hentries (k, v) (mem_entries.2 hv))).2
  · intro h
    refine (mapValues_congr (fun k v hv => (h k v hv : f k v = (fun _ v => v) k v))).trans ?_
    unfold mapValues
    congr 1
    exact List.map_id _

/-- Writing a key that is there replaces its value. -/
theorem set_eq_mapValues {d : Dict K V} {k : K} {v₀ : V} (h : d.get? k = some v₀) (f : V → V) :
    d.set k (f v₀) = d.mapValues fun k' v => if k' = k then f v else v := by
  unfold set mapValues
  rw [dif_pos (mem_keys.2 ⟨v₀, h⟩)]
  congr 1
  refine List.map_congr_left fun e he => ?_
  dsimp only
  by_cases hk : e.1 = k
  · have hv := mem_entries.1 (show (e.1, e.2) ∈ d.entries from he)
    rw [hk, h] at hv
    rw [if_pos hk, if_pos hk, hk, Option.some.inj hv]
  · rw [if_neg hk, if_neg hk]

/-- A key that is there keeps its place. -/
theorem keys_set_mem {d : Dict K V} {k : K} (h : k ∈ d.keys) (v : V) : (d.set k v).keys = d.keys := by
  unfold set
  rw [dif_pos h]
  unfold keys
  rw [List.map_map]
  refine List.map_congr_left fun e _ => ?_
  by_cases hk : e.1 = k <;> simp [hk]

/-- A new key is the last. -/
theorem keys_set_new {d : Dict K V} {k : K} (h : k ∉ d.keys) (v : V) : (d.set k v).keys = d.keys ++ [k] := by
  unfold set
  rw [dif_neg h]
  unfold keys
  rw [List.map_append, List.map_cons, List.map_nil]

/-- The other keys keep their order. -/
theorem keys_pop (d : Dict K V) (k : K) : (d.pop k).keys.Sublist d.keys := List.filter_sublist.map _

theorem getD_set (d : Dict K V) (k k' : K) (v v₀ : V) :
    (d.set k v).getD k' v₀ = if k' = k then v else d.getD k' v₀ := by
  unfold getD
  rw [get?_set]
  split <;> rfl

/-- All keys of a list have the value. -/
theorem get?_setAll (ks : List K) (v : V) :
    ∀ (d : Dict K V) (k' : K), (d.setAll ks v).get? k' = if k' ∈ ks then some v else d.get? k' := by
  induction ks with
  | nil => intro d k'; simp [setAll]
  | cons k ks ih =>
    intro d k'
    have hs : (d.setAll (k :: ks) v) = (d.set k v).setAll ks v := rfl
    rw [hs, ih, get?_set]
    by_cases h1 : k' ∈ ks
    · simp [h1]
    · by_cases h2 : k' = k <;> simp [h1, h2]

/-! ## Agreement off a key -/

/-- Two dictionaries hold the same under every other key. -/
def AgreeOff (k : K) (d d' : Dict K V) : Prop := ∀ k', k' ≠ k → d'.get? k' = d.get? k'

namespace AgreeOff

variable {k : K} {d d' d'' : Dict K V}

theorem refl : AgreeOff k d d := fun _ _ => rfl

theorem trans (h : AgreeOff k d d') (h' : AgreeOff k d' d'') : AgreeOff k d d'' :=
  fun k' hne => (h' k' hne).trans (h k' hne)

theorem symm (h : AgreeOff k d d') : AgreeOff k d' d := fun k' hne => (h k' hne).symm

/-- A key may be set on one side. -/
theorem set_right (d : Dict K V) (k : K) (v : V) : AgreeOff k d (d.set k v) :=
  fun _ hne => get?_set_ne d hne v

/-- Any key may be set on both sides. -/
theorem set_both (h : AgreeOff k d d') (k' : K) (v : V) : AgreeOff k (d.set k' v) (d'.set k' v) := by
  intro k'' hne
  rw [get?_set, get?_set]
  split
  · rfl
  · exact h k'' hne

theorem getD (h : AgreeOff k d d') {k' : K} (hne : k' ≠ k) (v : V) : d'.getD k' v = d.getD k' v := by
  unfold Dict.getD
  rw [h k' hne]

end AgreeOff

/-! ## Counting -/

/-- Add one to the counter of a key, if there is one. -/
def bump (d : Dict K ℕ) (k : K) : Dict K ℕ :=
  match d.get? k with
  | some n => d.set k (n + 1)
  | none => d

/-- A counter goes up where it is there. -/
theorem get?_bump (d : Dict K ℕ) (k k' : K) :
    (d.bump k).get? k' = (d.get? k').map (· + if k = k' then 1 else 0) := by
  unfold bump
  cases hk : d.get? k with
  | none =>
    dsimp only
    by_cases h : k = k'
    · subst h; rw [hk]; rfl
    · simp [h]
  | some n =>
    dsimp only
    rw [get?_set]
    by_cases h : k' = k
    · subst h; simp [hk]
    · simp [h, Ne.symm h]

/-- **Counting over a list**: each counter grows by the number of its elements. -/
theorem get?_foldl_bump {α : Type*} (f : α → Option K) (k : K) : ∀ (l : List α) (d : Dict K ℕ),
    (l.foldl (fun d x => (f x).elim d d.bump) d).get? k =
      (d.get? k).map (· + l.countP fun x => f x = some k) := by
  intro l
  induction l with
  | nil => intro d; simp
  | cons x l ih =>
    intro d
    rw [List.foldl_cons, ih, List.countP_cons]
    cases hx : f x with
    | none => simp
    | some k' =>
      rw [Option.elim_some, get?_bump, Option.map_map]
      congr 1
      funext n
      simp only [Function.comp_apply, Option.some.injEq, decide_eq_true_eq]
      omega

end Dict

end Lib
