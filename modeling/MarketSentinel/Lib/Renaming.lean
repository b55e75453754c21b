import Mathlib.Data.List.Forall2
import Mathlib.Logic.Equiv.Basic

/-!
# Renamings and related lists

Two runs that differ in the names they draw are compared through a permutation of the names. Values of the
two runs are related, and so are the options and lists they come in.

* `exists_perm_map_eq`: the permutation that takes one list of names to the other.
* `rel_filter`, `forall₂_filterMap`, `rel_mapM`: what keeps options and lists related.
-/

namespace Lib

variable {α β γ δ : Type*}

/-- **Two lists of distinct names** of one length are matched by a permutation of the names. -/
theorem exists_perm_map_eq [DecidableEq α] {l l' : List α} (hl : l.Nodup) (hl' : l'.Nodup)
    (hlen : l.length = l'.length) : ∃ ρ : Equiv.Perm α, l.map ρ = l' := by
  induction l generalizing l' with
  | nil =>
    have hnil : l' = [] := List.length_eq_zero_iff.1 hlen.symm
    exact ⟨Equiv.refl α, by rw [hnil]; rfl⟩
  | cons x l ih =>
    cases l' with
    | nil => cases hlen
    | cons y l' =>
      rw [List.nodup_cons] at hl hl'
      obtain ⟨ρ, hρ⟩ := ih hl.2 hl'.2 (Nat.succ.inj hlen)
      -- Swap the image of the new name with the name it shall have; the others stay.
      refine ⟨ρ.trans (Equiv.swap (ρ x) y), ?_⟩
      rw [List.map_cons, ← hρ]
      congr 1
      · exact Equiv.swap_apply_left _ _
      · apply List.map_congr_left
        intro z hz
        refine Equiv.swap_apply_of_ne_of_ne ?_ ?_
        · intro heq
          exact hl.1 (ρ.injective heq ▸ hz)
        · intro heq
          exact hl'.1 (hρ ▸ heq ▸ List.mem_map_of_mem hz)

theorem idxOf_map_of_injective [BEq α] [LawfulBEq α] [BEq β] [LawfulBEq β] {f : α → β}
    (hf : Function.Injective f) (l : List α) (a : α) : (l.map f).idxOf (f a) = l.idxOf a := by
  induction l with
  | nil => rfl
  | cons b l ih =>
    rw [List.map_cons, List.idxOf_cons, List.idxOf_cons, ih]
    by_cases h : b = a
    · rw [h, beq_self_eq_true, beq_self_eq_true]
    · have hne : f b ≠ f a := fun heq => h (hf heq)
      rw [beq_eq_false_iff_ne.2 h, beq_eq_false_iff_ne.2 hne]

/-- Two lists of blocks of names that correspond do so block by block. -/
theorem forall₂_of_flatMap {ρ : γ → δ} {f : α → List γ} {g : β → List δ}
    (hlen : ∀ a b, (f a).length = (g b).length) : ∀ {l : List α} {l' : List β}, l.length = l'.length →
      (l.flatMap f).map ρ = l'.flatMap g → List.Forall₂ (fun a b => (f a).map ρ = g b) l l' := by
  intro l
  induction l with
  | nil =>
    intro l' hl _
    have hnil : l' = [] := List.length_eq_zero_iff.1 hl.symm
    rw [hnil]
    exact .nil
  | cons a l ih =>
    intro l' hl heq
    cases l' with
    | nil => cases hl
    | cons b l' =>
      rw [List.flatMap_cons, List.flatMap_cons, List.map_append] at heq
      obtain ⟨hblock, hrest⟩ := List.append_inj heq ((List.length_map _).trans (hlen a b))
      exact .cons hblock (ih (Nat.succ.inj hl) hrest)

/-! ## Related options and lists -/

variable {R : α → β → Prop} {S : γ → δ → Prop}

/-- Two options are related when each value on a side has a related one on the other. -/
theorem rel_iff {o : Option α} {o' : Option β} : Option.Rel R o o' ↔
    (∀ a, o = some a → ∃ b, o' = some b ∧ R a b) ∧ ∀ b, o' = some b → ∃ a, o = some a ∧ R a b := by
  cases o <;> cases o' <;> simp

theorem rel_filter {o : Option α} {o' : Option β} {p : α → Bool} {q : β → Bool} (h : Option.Rel R o o')
    (hpq : ∀ a b, R a b → p a = q b) : Option.Rel R (o.filter p) (o'.filter q) := by
  cases h with
  | none => exact .none
  | @some a b hab =>
    have hp := hpq a b hab
    cases hq : q b with
    | true => simpa [Option.filter, hp, hq] using hab
    | false => simp [Option.filter, hp, hq]

theorem forall₂_filterMap {f : γ → Option α} {g : γ → Option β} {l : List γ}
    (h : ∀ x ∈ l, Option.Rel R (f x) (g x)) : List.Forall₂ R (l.filterMap f) (l.filterMap g) := by
  induction l with
  | nil => exact .nil
  | cons x l ih =>
    rw [List.forall_mem_cons] at h
    have hl := ih h.2
    have hx := h.1
    rw [List.filterMap_cons, List.filterMap_cons]
    revert hx
    cases f x <;> cases g x <;> intro hx <;> cases hx
    · exact hl
    · rename_i hab
      exact .cons hab hl

/-- A fallible map over related lists gives related lists, or fails on both sides. -/
theorem rel_mapM {f : α → Option γ} {g : β → Option δ} (hfg : ∀ a b, R a b → Option.Rel S (f a) (g b)) :
    ∀ {l : List α} {l' : List β}, List.Forall₂ R l l' →
      Option.Rel (List.Forall₂ S) (l.mapM f) (l'.mapM g) := by
  intro l l' h
  induction h with
  | nil => exact .some .nil
  | @cons a b l l' hab _ ih =>
    have hx := hfg a b hab
    rw [List.mapM_cons, List.mapM_cons]
    generalize f a = o at hx ⊢
    generalize g b = o' at hx ⊢
    generalize l.mapM f = os at ih ⊢
    generalize l'.mapM g = os' at ih ⊢
    cases hx with
    | none => exact .none
    | some hcd =>
      cases ih with
      | none => exact .none
      | some hl => exact .some (.cons hcd hl)

end Lib
