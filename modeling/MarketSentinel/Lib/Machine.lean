import Mathlib.Data.Option.Basic
import Mathlib.Data.List.Basic
import Mathlib.Data.List.Forall2
import Mathlib.Data.List.Induction

/-!
# Machines and their runs

A machine is a partial step function `step : S → L → Option S`: the label says
which step is taken and carries every choice the environment makes in it, `none`
says that the step is not enabled. A run is a list of labels.

* `run_inv`: what every step preserves, every run preserves.
* `run_inv_of`: the same along runs all of whose steps meet a side condition
  (`Along`).
* `run_history`: the same for an invariant that speaks of the labels taken so far;
  `foldl_history` is the rule for a loop over a list, `foldl_skip` for two loops of which one skips.
* `run_sim`: a relation between two machines that every step keeps, with the
  second machine skipping some labels, is kept by runs; `run_lockstep` is the rule for two machines
  that take related labels together.
-/

namespace Lib.Machine

variable {S L : Type*}

/-- The state after a list of labels, if each of them is enabled in turn. -/
def run (step : S → L → Option S) : S → List L → Option S
  | s, [] => some s
  | s, l :: ls => (step s l).bind fun s' => run step s' ls

/-- Every step of the run meets `C`, a condition on the state before it and its label. -/
def Along (step : S → L → Option S) (C : S → L → Prop) : S → List L → Prop
  | _, [] => True
  | s, l :: ls => C s l ∧ ∀ s', step s l = some s' → Along step C s' ls

instance Along.decidable (step : S → L → Option S) (C : S → L → Prop)
    [hC : ∀ s l, Decidable (C s l)] : ∀ s ls, Decidable (Along step C s ls)
  | _, [] => isTrue trivial
  | s, l :: ls =>
    match hs : step s l with
    | none => decidable_of_iff (C s l) (by simp [Along, hs])
    | some s' =>
      have := Along.decidable step C s' ls
      decidable_of_iff (C s l ∧ Along step C s' ls) (by simp [Along, hs])

variable {step : S → L → Option S}

@[simp] theorem run_nil (s : S) : run step s [] = some s := rfl

theorem run_cons {s s' : S} {l : L} {ls : List L} :
    run step s (l :: ls) = some s' ↔ ∃ s₁, step s l = some s₁ ∧ run step s₁ ls = some s' := by
  simp only [run, Option.bind_eq_some_iff]

theorem run_append {ls ls' : List L} : ∀ {s s' : S},
    run step s (ls ++ ls') = some s' ↔ ∃ s₁, run step s ls = some s₁ ∧ run step s₁ ls' = some s' := by
  induction ls with
  | nil => intro s s'; simp
  | cons l ls ih =>
    intro s s'
    simp only [List.cons_append, run_cons, ih]
    constructor
    · rintro ⟨s₁, h1, s₂, h2, h3⟩; exact ⟨s₂, ⟨s₁, h1, h2⟩, h3⟩
    · rintro ⟨s₂, ⟨s₁, h1, h2⟩, h3⟩; exact ⟨s₁, h1, s₂, h2, h3⟩

/-- **The invariant rule, with a side condition on the steps.** -/
theorem run_inv_of {C : S → L → Prop} {I : S → Prop}
    (hstep : ∀ s l s', I s → C s l → step s l = some s' → I s') :
    ∀ {ls : List L} {s s' : S}, I s → Along step C s ls → run step s ls = some s' → I s' := by
  intro ls
  induction ls with
  | nil => intro s s' hi _ hr; simp only [run_nil, Option.some.injEq] at hr; exact hr ▸ hi
  | cons l ls ih =>
    intro s s' hi ha hr
    obtain ⟨s₁, h1, h2⟩ := run_cons.1 hr
    exact ih (hstep s l s₁ hi ha.1 h1) (ha.2 s₁ h1) h2

theorem along_of_forall {C : S → L → Prop} (h : ∀ s l, C s l) : ∀ (ls : List L) (s : S), Along step C s ls := by
  intro ls
  induction ls with
  | nil => intro _; trivial
  | cons l ls ih => intro s; exact ⟨h s l, fun s' _ => ih s'⟩

theorem along_true : ∀ (ls : List L) (s : S), Along step (fun _ _ => True) s ls :=
  along_of_forall fun _ _ => trivial

/-- **The invariant rule.** -/
theorem run_inv {I : S → Prop} (hstep : ∀ s l s', I s → step s l = some s' → I s')
    {ls : List L} {s s' : S} (hi : I s) (hr : run step s ls = some s') : I s' :=
  run_inv_of (C := fun _ _ => True) (fun s l s' h _ hs => hstep s l s' h hs) hi (along_true ls s) hr

theorem along_split {C : S → L → Prop} {pre post : List L} {l : L} : ∀ {s s₁ : S},
    Along step C s (pre ++ l :: post) → run step s pre = some s₁ → C s₁ l := by
  induction pre with
  | nil => intro s s₁ ha hr; simp only [run_nil, Option.some.injEq] at hr; exact hr ▸ ha.1
  | cons l' pre ih =>
    intro s s₁ ha hr
    obtain ⟨s₂, h1, h2⟩ := run_cons.1 hr
    exact ih (ha.2 s₂ h1) h2

theorem along_append {C : S → L → Prop} {pre post : List L} : ∀ {s : S},
    Along step C s (pre ++ post) → Along step C s pre := by
  induction pre with
  | nil => intro _ _; trivial
  | cons l pre ih => intro s ha; exact ⟨ha.1, fun s' hs => ih (ha.2 s' hs)⟩

/-- A side condition on the labels alone can be added. -/
theorem Along.and_mem {C : S → L → Prop} {D : L → Prop} : ∀ {ls : List L} {s : S},
    Along step C s ls → (∀ l ∈ ls, D l) → Along step (fun s l => C s l ∧ D l) s ls := by
  intro ls
  induction ls with
  | nil => intro _ _ _; trivial
  | cons l ls ih =>
    intro s ha hD
    rw [List.forall_mem_cons] at hD
    exact ⟨⟨ha.1, hD.1⟩, fun s' hs => ih (ha.2 s' hs) hD.2⟩

/-- **The invariant rule, with a history.** The invariant speaks of the labels taken so far; the
step may use where it stands in the run. -/
theorem run_history {C : S → L → Prop} {I : List L → S → Prop} {s : S} (h0 : I [] s) :
    ∀ {ls : List L} {s' : S},
      (∀ pre l post s₁ s₂, ls = pre ++ l :: post → I pre s₁ → C s₁ l → step s₁ l = some s₂ →
        I (pre ++ [l]) s₂) → Along step C s ls → run step s ls = some s' → I ls s' := by
  intro ls
  induction ls using List.reverseRecOn with
  | nil => intro s' _ _ hr; simp only [run_nil, Option.some.injEq] at hr; exact hr ▸ h0
  | append_singleton ls l ih =>
    intro s' hstep ha hr
    obtain ⟨s₁, h1, h2⟩ := run_append.1 hr
    have hI : I ls s₁ := by
      refine ih (fun pre l' post t₁ t₂ he => ?_) (along_append ha) h1
      exact hstep pre l' (post ++ [l]) t₁ t₂ (by rw [he]; simp)
    obtain ⟨s₂, h3, h4⟩ := run_cons.1 h2
    simp only [run_nil, Option.some.injEq] at h4
    exact h4 ▸ hstep ls l [] s₁ s₂ rfl hI (along_split ha h1) h3

/-- **The loop rule**, for an invariant that speaks of what the loop has passed. -/
theorem foldl_history {A B : Type*} {f : B → A → B} {I : List A → B → Prop} {b : B} (h0 : I [] b) :
    ∀ {l : List A}, (∀ pre x post b₁, l = pre ++ x :: post → I pre b₁ → I (pre ++ [x]) (f b₁ x)) →
      I l (l.foldl f b) := by
  intro l
  induction l using List.reverseRecOn with
  | nil => intro _; exact h0
  | append_singleton l x ih =>
    intro hstep
    rw [List.foldl_append, List.foldl_cons, List.foldl_nil]
    refine hstep l x [] _ rfl (ih fun pre y post b₁ he => ?_)
    exact hstep pre y (post ++ [x]) b₁ (by rw [he]; simp)

/-- **The loop rule for two loops**, of which the second skips the elements that fail `p`. -/
theorem foldl_skip {A B C : Type*} {f : B → A → B} {g : C → A → C} {R : B → C → Prop} {p : A → Bool}
    (hskip : ∀ x b c, p x = false → R b c → R (f b x) c)
    (hboth : ∀ x b c, p x = true → R b c → R (f b x) (g c x)) :
    ∀ {l : List A} {b : B} {c : C}, R b c → R (l.foldl f b) ((l.filter p).foldl g c) := by
  intro l
  induction l with
  | nil => intro b c h; exact h
  | cons x l ih =>
    intro b c h
    cases hp : p x with
    | false =>
      rw [List.filter_cons_of_neg (by simp [hp])]
      exact ih (hskip x b c hp h)
    | true =>
      rw [List.filter_cons_of_pos hp]
      exact ih (hboth x b c hp h)

/-- **The simulation rule.** `proj` sends a label of the first machine to a label of
the second, or skips it. A relation that every step keeps is kept by runs. -/
theorem run_sim {S' L' : Type*} {step' : S' → L' → Option S'} {proj : L → Option L'}
    {C : S → L → Prop} {R : S → S' → Prop}
    (hskip : ∀ s l s₁ t, R s t → C s l → step s l = some s₁ → proj l = none → R s₁ t)
    (hmatch : ∀ s l s₁ t l', R s t → C s l → step s l = some s₁ → proj l = some l' →
      ∃ t₁, step' t l' = some t₁ ∧ R s₁ t₁) :
    ∀ {ls : List L} {s s' : S} {t : S'}, R s t → Along step C s ls → run step s ls = some s' →
      ∃ t', run step' t (ls.filterMap proj) = some t' ∧ R s' t' := by
  intro ls
  induction ls with
  | nil =>
    intro s s' t hR _ hr
    simp only [run_nil, Option.some.injEq] at hr
    exact ⟨t, rfl, hr ▸ hR⟩
  | cons l ls ih =>
    intro s s' t hR ha hr
    obtain ⟨s₁, h1, h2⟩ := run_cons.1 hr
    cases hp : proj l with
    | none =>
      rw [List.filterMap_cons_none hp]
      exact ih (hskip s l s₁ t hR ha.1 h1 hp) (ha.2 s₁ h1) h2
    | some l' =>
      obtain ⟨t₁, ht, hR₁⟩ := hmatch s l s₁ t l' hR ha.1 h1 hp
      obtain ⟨t', hr', hR'⟩ := ih hR₁ (ha.2 s₁ h1) h2
      rw [List.filterMap_cons_some hp]
      exact ⟨t', run_cons.2 ⟨t₁, ht, hr'⟩, hR'⟩

/-- **The lockstep rule.** Two machines take related labels together. A relation that every pair of steps
keeps is kept by runs. -/
theorem run_lockstep {S' L' : Type*} {step' : S' → L' → Option S'} {C : S → L → Prop} {Q : L → L' → Prop}
    {R : S → S' → Prop}
    (hstep : ∀ s l s₁ t l', R s t → C s l → Q l l' → step s l = some s₁ → ∃ t₁, step' t l' = some t₁ ∧ R s₁ t₁) :
    ∀ {ls : List L} {ls' : List L'} {s s' : S} {t : S'}, List.Forall₂ Q ls ls' → R s t → Along step C s ls →
      run step s ls = some s' → ∃ t', run step' t ls' = some t' ∧ R s' t' := by
  intro ls ls' s s' t hQ
  induction hQ generalizing s t with
  | nil =>
    intro hR _ hr
    simp only [run_nil, Option.some.injEq] at hr
    exact ⟨t, rfl, hr ▸ hR⟩
  | @cons l l' ls ls' hl _ ih =>
    intro hR ha hr
    obtain ⟨s₁, h1, h2⟩ := run_cons.1 hr
    obtain ⟨t₁, ht, hR₁⟩ := hstep s l s₁ t l' hR ha.1 hl h1
    obtain ⟨t', hr', hR'⟩ := ih hR₁ (ha.2 s₁ h1) h2
    exact ⟨t', run_cons.2 ⟨t₁, ht, hr'⟩, hR'⟩

end Lib.Machine
