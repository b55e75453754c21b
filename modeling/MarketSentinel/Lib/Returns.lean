import Mathlib.Data.List.Basic
import Mathlib.Data.List.Count

/-!
# Computations that may raise

When a computation in `Except` returns, read off its parts: a bind returns when both of its parts do,
and a loop whose steps raise on their element alone returns when no element raises.

* `Returns`: there is a result.
* `returns_mapM`, `returns_foldlM`: the loops.
* `foldlM_invariant`, `foldlM_countP`: what a loop that returned kept, and what it counted.
* `Refines`: one computation returns what another returns; `Refines.bind`, `Refines.foldlM_filter` and
  `Refines.filterM` build it up from the parts.
-/

namespace Lib

universe u v

variable {ε : Type u} {α β σ : Type v}

/-- A computation returns. -/
def Returns (m : Except ε α) : Prop := ∃ a, m = .ok a

@[simp] theorem returns_ok (a : α) : Returns (.ok a : Except ε α) := ⟨a, rfl⟩

@[simp] theorem returns_pure (a : α) : Returns (pure a : Except ε α) := ⟨a, rfl⟩

@[simp] theorem not_returns_error (e : ε) : ¬ Returns (.error e : Except ε α) := by
  rintro ⟨a, h⟩
  cases h

theorem ok_bind (a : α) (f : α → Except ε β) : ((.ok a : Except ε α) >>= f) = f a := rfl

theorem bind_eq_ok {m : Except ε α} {f : α → Except ε β} {b : β} :
    m >>= f = .ok b ↔ ∃ a, m = .ok a ∧ f a = .ok b := by
  cases m with
  | error e => simp [bind, Except.bind]
  | ok a => simp [bind, Except.bind]

theorem returns_bind {m : Except ε α} {f : α → Except ε β} :
    Returns (m >>= f) ↔ ∃ a, m = .ok a ∧ Returns (f a) := by
  unfold Returns
  simp only [bind_eq_ok]
  constructor
  · rintro ⟨b, a, hm, hf⟩
    exact ⟨a, hm, b, hf⟩
  · rintro ⟨a, hm, b, hf⟩
    exact ⟨b, a, hm, hf⟩

/-- A second part that returns on every result adds nothing. -/
theorem returns_bind_of {m : Except ε α} {f : α → Except ε β} (h : ∀ a, m = .ok a → Returns (f a)) :
    Returns (m >>= f) ↔ Returns m := by
  rw [returns_bind]
  exact ⟨fun ⟨a, hm, _⟩ => ⟨a, hm⟩, fun ⟨a, hm⟩ => ⟨a, hm, h a hm⟩⟩

/-! ## Loops -/

/-- **A traversal returns** when it does at every element. -/
theorem returns_mapM {f : α → Except ε β} : ∀ {l : List α}, Returns (l.mapM f) ↔ ∀ x ∈ l, Returns (f x) := by
  intro l
  induction l with
  | nil => simp
  | cons x l ih =>
    rw [List.mapM_cons, List.forall_mem_cons, ← ih, returns_bind]
    constructor
    · rintro ⟨b, hb, hl⟩
      rw [returns_bind_of fun _ _ => returns_pure _] at hl
      exact ⟨⟨b, hb⟩, hl⟩
    · rintro ⟨⟨b, hb⟩, hl⟩
      exact ⟨b, hb, (returns_bind_of fun _ _ => returns_pure _).2 hl⟩

/-- What a traversal that returned holds. -/
theorem mem_of_mapM {f : α → Except ε β} {l : List α} {ys : List β} (h : l.mapM f = .ok ys) (y : β) :
    y ∈ ys ↔ ∃ x ∈ l, f x = .ok y := by
  induction l generalizing ys with
  | nil =>
    rw [List.mapM_nil] at h
    cases h
    simp
  | cons x l ih =>
    rw [List.mapM_cons, bind_eq_ok] at h
    obtain ⟨z, hz, hl⟩ := h
    obtain ⟨zs, hzs, hpure⟩ := bind_eq_ok.1 hl
    cases hpure
    rw [List.mem_cons, List.exists_mem_cons_iff, ih hzs, hz, Except.ok.injEq, eq_comm]

/-- A traversal whose results name their elements keeps the elements in order. -/
theorem map_of_mapM {f : α → Except ε β} {g : β → α} (hg : ∀ x y, f x = .ok y → g y = x) :
    ∀ {l : List α} {ys : List β}, l.mapM f = .ok ys → ys.map g = l := by
  intro l
  induction l with
  | nil =>
    intro ys h
    cases h
    rfl
  | cons x l ih =>
    intro ys h
    rw [List.mapM_cons] at h
    obtain ⟨y, hy, h⟩ := bind_eq_ok.1 h
    obtain ⟨rest, hrest, h⟩ := bind_eq_ok.1 h
    cases h
    rw [List.map_cons, hg x y hy, ih hrest]

/-- A traversal without a raise is a map. -/
theorem mapM_eq_map {f : α → Except ε β} {g : α → β} :
    ∀ {l : List α}, (∀ x ∈ l, f x = .ok (g x)) → l.mapM f = .ok (l.map g) := by
  intro l
  induction l with
  | nil => intro _; rfl
  | cons x l ih =>
    intro h
    rw [List.mapM_cons, h x List.mem_cons_self, ok_bind, ih fun y hy => h y (List.mem_cons_of_mem _ hy)]
    rfl

/-- **A loop returns** when none of its elements raises, if its state has no say in that. -/
theorem returns_foldlM {f : σ → α → Except ε σ} {p : α → Prop} (h : ∀ s x, Returns (f s x) ↔ p x) :
    ∀ (l : List α) (s : σ), Returns (l.foldlM f s) ↔ ∀ x ∈ l, p x := by
  intro l
  induction l with
  | nil => intro s; simp
  | cons x l ih =>
    intro s
    rw [List.foldlM_cons, List.forall_mem_cons, returns_bind]
    constructor
    · rintro ⟨s', hs, hl⟩
      exact ⟨(h s x).1 ⟨s', hs⟩, (ih s').1 hl⟩
    · rintro ⟨hx, hl⟩
      obtain ⟨s', hs⟩ := (h s x).2 hx
      exact ⟨s', hs, (ih s').2 hl⟩

/-- A loop returns when its steps do at the elements of the list. -/
theorem returns_foldlM_of {f : σ → α → Except ε σ} :
    ∀ {l : List α} {s : σ}, (∀ s, ∀ x ∈ l, Returns (f s x)) → Returns (l.foldlM f s) := by
  intro l
  induction l with
  | nil => intro s _; exact returns_pure s
  | cons x l ih =>
    intro s h
    rw [List.foldlM_cons, returns_bind]
    obtain ⟨t, ht⟩ := h s x List.mem_cons_self
    exact ⟨t, ht, ih fun s y hy => h s y (List.mem_cons_of_mem _ hy)⟩

/-- A loop without a raise is a pure loop. -/
theorem foldlM_eq_foldl {f : σ → α → Except ε σ} {g : σ → α → σ} :
    ∀ {l : List α} {s : σ}, (∀ s, ∀ x ∈ l, f s x = .ok (g s x)) → l.foldlM f s = .ok (l.foldl g s) := by
  intro l
  induction l with
  | nil => intro s _; rfl
  | cons x l ih =>
    intro s h
    rw [List.foldlM_cons, h s x List.mem_cons_self, ok_bind, List.foldl_cons]
    exact ih fun s y hy => h s y (List.mem_cons_of_mem _ hy)

/-- So is one that does not raise while an invariant holds. -/
theorem foldlM_eq_foldl_of {f : σ → α → Except ε σ} {g : σ → α → σ} {P : σ → Prop} :
    ∀ {l : List α} {s : σ}, (∀ s, P s → ∀ x ∈ l, f s x = .ok (g s x) ∧ P (g s x)) → P s →
      l.foldlM f s = .ok (l.foldl g s) := by
  intro l
  induction l with
  | nil => intro s _ _; rfl
  | cons x l ih =>
    intro s h hs
    obtain ⟨hstep, hs'⟩ := h s hs x List.mem_cons_self
    rw [List.foldlM_cons, hstep, ok_bind, List.foldl_cons]
    exact ih (fun s hs y hy => h s hs y (List.mem_cons_of_mem _ hy)) hs'

/-- A loop that passes over every element. -/
theorem foldlM_skip {f : σ → α → Except ε σ} {s : σ} :
    ∀ {l : List α}, (∀ x ∈ l, f s x = .ok s) → l.foldlM f s = .ok s := by
  intro l
  induction l with
  | nil => intro _; rfl
  | cons x l ih =>
    intro h
    rw [List.foldlM_cons, h x List.mem_cons_self]
    exact ih fun y hy => h y (List.mem_cons_of_mem _ hy)

/-- What a step keeps, the loop keeps. -/
theorem foldlM_invariant {f : σ → α → Except ε σ} {P : σ → Prop} {l : List α} {s s' : σ}
    (hstep : ∀ s, ∀ x ∈ l, ∀ t, f s x = .ok t → P s → P t) (hs : P s) (h : l.foldlM f s = .ok s') :
    P s' := by
  induction l generalizing s with
  | nil =>
    rw [List.foldlM_nil] at h
    cases h
    exact hs
  | cons x l ih =>
    rw [List.foldlM_cons, bind_eq_ok] at h
    obtain ⟨t, ht, hl⟩ := h
    exact ih (fun s y hy => hstep s y (List.mem_cons_of_mem _ hy))
      (hstep s x List.mem_cons_self t ht hs) hl

/-- A loop raises what a step raises. -/
theorem foldlM_error {f : σ → α → Except ε σ} {P : ε → Prop} (h : ∀ s x e, f s x = .error e → P e) :
    ∀ {l : List α} {s : σ} {e : ε}, l.foldlM f s = .error e → P e := by
  intro l
  induction l with
  | nil =>
    intro s e he
    cases he
  | cons x l ih =>
    intro s e he
    rw [List.foldlM_cons] at he
    cases hx : f s x with
    | error e' =>
      rw [hx] at he
      cases he
      exact h s x e hx
    | ok s' =>
      rw [hx, ok_bind] at he
      exact ih he

/-- **A counter of a loop** that a step moves by one at some elements counts them. -/
theorem foldlM_countP (count : σ → ℕ) {f : σ → α → Except ε σ} {p : α → Bool}
    (hstep : ∀ s x t, f s x = .ok t → count t = count s + if p x then 1 else 0) :
    ∀ {l : List α} {s s' : σ}, l.foldlM f s = .ok s' → count s' = count s + l.countP p := by
  intro l
  induction l with
  | nil =>
    intro s s' h
    rw [List.foldlM_nil] at h
    cases h
    simp
  | cons x l ih =>
    intro s s' h
    rw [List.foldlM_cons, bind_eq_ok] at h
    obtain ⟨t, ht, hl⟩ := h
    have hrest := ih hl
    have hone := hstep s x t ht
    rw [List.countP_cons]
    omega

/-! ## Filters -/

section Filter

variable {γ δ : Type} {P : Prop} {p : γ → Except δ Bool} {r : γ → Bool}

theorem filterAuxM_ok : ∀ {l acc : List γ}, (∀ x ∈ l, p x = .ok (r x)) →
    l.filterAuxM p acc = .ok ((l.filter r).reverse ++ acc) := by
  intro l
  induction l with
  | nil => intro acc _; rfl
  | cons x l ih =>
    intro acc h
    have htail : ∀ acc, l.filterAuxM p acc = .ok ((l.filter r).reverse ++ acc) := fun acc =>
      ih fun y hy => h y (List.mem_cons_of_mem _ hy)
    unfold List.filterAuxM
    rw [h x List.mem_cons_self]
    change l.filterAuxM p (cond (r x) (x :: acc) acc) = _
    rw [htail]
    cases hr : r x <;> simp [hr]

theorem filterM_ok {l : List γ} (h : ∀ x ∈ l, p x = .ok (r x)) : l.filterM p = .ok (l.filter r) := by
  unfold List.filterM
  rw [filterAuxM_ok h]
  simp [bind, Except.bind, pure, Except.pure]

end Filter

/-! ## What is raised -/

/-- Every exception of the computation is one of `P`. -/
def RaisesOnly (P : ε → Prop) (m : Except ε α) : Prop := ∀ e, m = .error e → P e

section RaisesOnly

variable {P : ε → Prop}

theorem raisesOnly_ok (a : α) : RaisesOnly P (.ok a : Except ε α) := fun _ h => by cases h

theorem raisesOnly_error {e : ε} (h : P e) : RaisesOnly P (.error e : Except ε α) := fun _ he => by
  cases he
  exact h

theorem RaisesOnly.bind {m : Except ε α} {f : α → Except ε β} (hm : RaisesOnly P m)
    (hf : ∀ a, m = .ok a → RaisesOnly P (f a)) : RaisesOnly P (m >>= f) := by
  cases m with
  | error e => exact fun e' he => hm e' (congrArg Except.error (Except.error.inj he))
  | ok a => exact hf a rfl

end RaisesOnly

/-! ## One computation for another -/

/-- `m'` returns what `m` returns, and under `P` they are the same. -/
structure Refines (P : Prop) (m m' : Except ε α) : Prop where
  returns : ∀ {a}, m = .ok a → m' = .ok a
  eq : P → m = m'

variable {P : Prop} {m m' : Except ε α}

theorem Refines.refl (m : Except ε α) : Refines P m m := ⟨id, fun _ => rfl⟩

theorem Refines.of_eq (h : m = m') : Refines P m m' := h ▸ .refl m

/-- A raise is refined by everything, where `P` rules it out. -/
theorem Refines.of_error {e : ε} (h : m = .error e) (hP : ¬ P) : Refines P m m' :=
  ⟨fun hm => (by cases h.symm.trans hm), fun hp => absurd hp hP⟩

theorem Refines.bind {f f' : α → Except ε β} (hm : Refines P m m')
    (hf : ∀ a, m' = .ok a → Refines P (f a) (f' a)) : Refines P (m >>= f) (m' >>= f') where
  returns := by
    intro b h
    obtain ⟨a, hma, hfa⟩ := bind_eq_ok.1 h
    have hm' := hm.returns hma
    exact bind_eq_ok.2 ⟨a, hm', (hf a hm').returns hfa⟩
  eq := by
    intro hp
    rw [hm.eq hp]
    cases hm' : m' with
    | error e => rfl
    | ok a => exact (hf a hm').eq hp

/-- **A loop over the elements that count.** The others are passed over, or raise. -/
theorem Refines.foldlM_filter {f : σ → α → Except ε σ} {r : α → Bool} :
    ∀ {l : List α} {s : σ}, (∀ x ∈ l, r x = false →
      (∀ s, f s x = .ok s) ∨ ¬ P ∧ ∀ s, ∃ e, f s x = .error e) →
      Refines P (l.foldlM f s) ((l.filter r).foldlM f s) := by
  intro l
  induction l with
  | nil => exact fun _ => .refl _
  | cons x l ih =>
    intro s h
    have hrest := fun s => @ih s fun y hy => h y (List.mem_cons_of_mem _ hy)
    cases hr : r x with
    | true =>
      rw [List.filter_cons_of_pos hr, List.foldlM_cons, List.foldlM_cons]
      exact .bind (.refl _) fun s' _ => hrest s'
    | false =>
      rw [List.filter_cons_of_neg (by simp [hr]), List.foldlM_cons]
      rcases h x List.mem_cons_self hr with hskip | ⟨hP, hraise⟩
      · rw [hskip s]
        exact hrest s
      · obtain ⟨e, he⟩ := hraise s
        exact .of_error (e := e) (by rw [he]; rfl) hP

/-- A filter whose test raises at some elements. -/
theorem Refines.filterM {γ δ : Type} {p : γ → Except δ Bool} {r : γ → Bool} {l : List γ}
    (h : ∀ x ∈ l, p x = .ok (r x) ∨ ¬ P ∧ ∃ e, p x = .error e) :
    Refines P (l.filterM p) (.ok (l.filter r)) := by
  by_cases hall : ∀ x ∈ l, p x = .ok (r x)
  · exact .of_eq (filterM_ok hall)
  · have hraise : ∀ {l : List γ} {acc : List γ}, (∃ x ∈ l, ∃ e, p x = .error e) →
        ∃ e, l.filterAuxM p acc = .error e := by
      intro l
      induction l with
      | nil => rintro acc ⟨x, hx, -⟩; cases hx
      | cons y l ih =>
        rintro acc ⟨x, hx, he⟩
        unfold List.filterAuxM
        cases hy : p y with
        | error e => exact ⟨e, rfl⟩
        | ok b =>
          rcases List.mem_cons.1 hx with rfl | hx
          · obtain ⟨e, he⟩ := he
            cases hy.symm.trans he
          · exact ih ⟨x, hx, he⟩
    push Not at hall
    obtain ⟨x, hx, hne⟩ := hall
    obtain ⟨hP, he⟩ := (h x hx).resolve_left hne
    obtain ⟨e, hl⟩ := @hraise l [] ⟨x, hx, he⟩
    refine .of_error (e := e) ?_ hP
    unfold List.filterM
    rw [hl]
    rfl

end Lib
