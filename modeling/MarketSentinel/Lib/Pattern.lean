import Mathlib.Data.List.DropRight
import Mathlib.Data.List.Infix

/-!
# Patterns that are searched in a text

Regular patterns that look at the symbol before and after them. Only whether a text has a match is asked, so
alternatives and repetitions have no order.

* `mem_matched`, `search_iff`: the search finds what `Matches` says.
* `search_frame`: symbols that the pattern does not look at hide no match.
* `trim_eq`: a text is its trimmed text between symbols that were trimmed.
* `replaceRuns`: each run of symbols replaced by one symbol; `dropWhile_replaceRuns` drops the first run.
-/

namespace Lib

universe u

variable {α : Type u}

inductive Pattern (α : Type u)
  | empty
  | one (p : α → Bool)
  /-- `p+`. -/
  | many (p : α → Bool)
  | seq (a b : Pattern α)
  | alt (a b : Pattern α)
  /-- `(?<!p)`. -/
  | notBehind (p : α → Bool)
  /-- `(?!p)`. -/
  | notAhead (p : α → Bool)

namespace Pattern

/-- The pattern matches `mid`, after `pre` and before `post`. -/
def Matches : Pattern α → List α → List α → List α → Prop
  | empty, _, mid, _ => mid = []
  | one p, _, mid, _ => ∃ c, p c = true ∧ mid = [c]
  | many p, _, mid, _ => mid ≠ [] ∧ ∀ c ∈ mid, p c = true
  | seq a b, pre, mid, post => ∃ m n, mid = m ++ n ∧ a.Matches pre m (n ++ post) ∧ b.Matches (pre ++ m) n post
  | alt a b, pre, mid, post => a.Matches pre mid post ∨ b.Matches pre mid post
  | notBehind p, pre, mid, _ => mid = [] ∧ ∀ c, pre.getLast? = some c → p c = false
  | notAhead p, _, mid, post => mid = [] ∧ ∀ c, post.head? = some c → p c = false

/-- The beginnings of `rest` that the pattern matches after `pre`. -/
def matched : Pattern α → List α → List α → List (List α)
  | empty, _, _ => [[]]
  | one p, _, rest => match rest with
    | c :: _ => if p c then [[c]] else []
    | [] => []
  | many p, _, rest => (rest.takeWhile p).inits.filter (· ≠ [])
  | seq a b, pre, rest =>
    (a.matched pre rest).flatMap fun m => (b.matched (pre ++ m) (rest.drop m.length)).map (m ++ ·)
  | alt a b, pre, rest => a.matched pre rest ++ b.matched pre rest
  | notBehind p, pre, _ => if pre.getLast?.any p then [] else [[]]
  | notAhead p, _, rest => if rest.head?.any p then [] else [[]]

/-- A match that starts in `rest`. -/
def searchFrom (r : Pattern α) (pre : List α) : List α → Bool
  | [] => !(r.matched pre []).isEmpty
  | c :: rest => !(r.matched pre (c :: rest)).isEmpty || r.searchFrom (pre ++ [c]) rest

/-- `search`. -/
def search (r : Pattern α) (text : List α) : Bool := r.searchFrom [] text

/-- These symbols, one after the other. -/
def literal (ps : List (α → Bool)) : Pattern α := ps.foldr (fun p r => seq (one p) r) empty

/-- One of these patterns. -/
def oneOf (r : Pattern α) (rs : List (Pattern α)) : Pattern α := rs.foldl alt r

/-- A lookaround matches nothing, where the symbol that it looks at is not one of its own. -/
theorem mem_lookaround {o : Option α} {p : α → Bool} {mid : List α} :
    mid ∈ (if o.any p then [] else [[]]) ↔ mid = [] ∧ ∀ c, o = some c → p c = false := by
  cases o with
  | none => simp
  | some c => cases hp : p c <;> simp [hp]

theorem mem_matched (r : Pattern α) : ∀ {pre rest mid : List α},
    mid ∈ r.matched pre rest ↔ ∃ post, rest = mid ++ post ∧ r.Matches pre mid post := by
  induction r with
  | empty =>
    intro pre rest mid
    unfold matched Matches
    rw [List.mem_singleton]
    constructor
    · rintro rfl
      exact ⟨rest, rfl, rfl⟩
    · rintro ⟨post, -, rfl⟩
      rfl
  | one p =>
    intro pre rest mid
    unfold matched Matches
    cases rest with
    | nil =>
      refine iff_of_false List.not_mem_nil ?_
      rintro ⟨post, hrest, c, -, rfl⟩
      cases hrest
    | cons c rest =>
      dsimp only
      constructor
      · intro h
        split at h
        · next hp =>
          rw [List.mem_singleton] at h
          exact ⟨rest, by rw [h]; rfl, c, hp, h⟩
        · cases h
      · rintro ⟨post, hrest, c', hp, rfl⟩
        cases hrest
        rw [if_pos hp]
        exact List.mem_singleton_self _
  | many p =>
    intro pre rest mid
    unfold matched Matches
    -- A greedy run may give back its end, so every start of the longest run is taken.
    rw [List.mem_filter, List.mem_inits, decide_eq_true_eq]
    constructor
    · rintro ⟨hstarts, hne⟩
      obtain ⟨post, hpost⟩ := hstarts.trans (List.takeWhile_prefix p)
      exact ⟨post, hpost.symm, hne, fun c hc => List.mem_takeWhile_imp (hstarts.subset hc)⟩
    · rintro ⟨post, rfl, hne, hall⟩
      rw [List.takeWhile_append_of_pos hall]
      exact ⟨List.prefix_append _ _, hne⟩
  | seq a b iha ihb =>
    intro pre rest mid
    unfold matched Matches
    rw [List.mem_flatMap]
    constructor
    · rintro ⟨m, hm, hmid⟩
      -- The second part is matched where the first one ends, with what it took as context.
      obtain ⟨n, hn, rfl⟩ := List.mem_map.1 hmid
      obtain ⟨after, rfl, ha⟩ := iha.1 hm
      rw [List.drop_left] at hn
      obtain ⟨post, rfl, hb⟩ := ihb.1 hn
      exact ⟨post, (List.append_assoc _ _ _).symm, m, n, rfl, ha, hb⟩
    · rintro ⟨post, rfl, m, n, rfl, ha, hb⟩
      refine ⟨m, iha.2 ⟨n ++ post, List.append_assoc _ _ _, ha⟩, List.mem_map.2 ⟨n, ?_, rfl⟩⟩
      rw [List.append_assoc, List.drop_left]
      exact ihb.2 ⟨post, rfl, hb⟩
  | alt a b iha ihb =>
    intro pre rest mid
    unfold matched Matches
    rw [List.mem_append, iha, ihb]
    constructor
    · rintro (⟨post, hrest, h⟩ | ⟨post, hrest, h⟩)
      · exact ⟨post, hrest, .inl h⟩
      · exact ⟨post, hrest, .inr h⟩
    · rintro ⟨post, hrest, h | h⟩
      · exact .inl ⟨post, hrest, h⟩
      · exact .inr ⟨post, hrest, h⟩
  | notBehind p =>
    intro pre rest mid
    unfold matched Matches
    rw [mem_lookaround]
    constructor
    · rintro ⟨rfl, hnot⟩
      exact ⟨rest, rfl, rfl, hnot⟩
    · rintro ⟨post, -, h⟩
      exact h
  | notAhead p =>
    intro pre rest mid
    unfold matched Matches
    rw [mem_lookaround]
    constructor
    · rintro ⟨rfl, hnot⟩
      exact ⟨rest, rfl, rfl, hnot⟩
    · rintro ⟨post, rfl, rfl, hnot⟩
      exact ⟨rfl, hnot⟩

/-- **The search finds the matches.** -/
theorem searchFrom_iff (r : Pattern α) : ∀ {pre rest : List α}, r.searchFrom pre rest = true ↔
    ∃ skipped mid post, rest = skipped ++ mid ++ post ∧ r.Matches (pre ++ skipped) mid post := by
  -- At one place the search tries all the texts that match there.
  have hhere : ∀ {pre rest : List α}, (!(r.matched pre rest).isEmpty) = true ↔
      ∃ mid post, rest = mid ++ post ∧ r.Matches pre mid post := by
    intro pre rest
    rw [Bool.not_eq_true', ← Bool.not_eq_true, List.isEmpty_iff, ← ne_eq]
    refine ⟨fun hne => ?_, fun ⟨mid, post, h⟩ => List.ne_nil_of_mem ((mem_matched r).2 ⟨post, h⟩)⟩
    obtain ⟨mid, hmid⟩ := List.exists_mem_of_ne_nil _ hne
    exact ⟨mid, (mem_matched r).1 hmid⟩
  intro pre rest
  induction rest generalizing pre with
  | nil =>
    unfold searchFrom
    rw [hhere]
    constructor
    · rintro ⟨mid, post, hrest, h⟩
      exact ⟨[], mid, post, hrest, by rwa [List.append_nil]⟩
    · rintro ⟨skipped, mid, post, hrest, h⟩
      obtain ⟨rfl, rfl, rfl⟩ : skipped = [] ∧ mid = [] ∧ post = [] := by simpa using hrest.symm
      exact ⟨[], [], rfl, by simpa using h⟩
  | cons c rest ih =>
    unfold searchFrom
    rw [Bool.or_eq_true, hhere, ih]
    constructor
    · rintro (⟨mid, post, hrest, h⟩ | ⟨skipped, mid, post, rfl, h⟩)
      · exact ⟨[], mid, post, hrest, by rwa [List.append_nil]⟩
      · exact ⟨c :: skipped, mid, post, rfl, by simpa using h⟩
    · rintro ⟨skipped, mid, post, hrest, h⟩
      cases skipped with
      | nil => exact .inl ⟨mid, post, hrest, by simpa using h⟩
      | cons c' skipped =>
        obtain ⟨rfl, rfl⟩ : c = c' ∧ rest = skipped ++ mid ++ post := by simpa using hrest
        exact .inr ⟨skipped, mid, post, rfl, by simpa using h⟩

theorem search_iff {r : Pattern α} {text : List α} : r.search text = true ↔
    ∃ pre mid post, text = pre ++ mid ++ post ∧ r.Matches pre mid post := by
  unfold search
  rw [searchFrom_iff]
  simp only [List.nil_append]

/-! ## Frames -/

/-- The pattern does not look at these symbols before and after it. -/
def Ignores (q : α → Prop) : Pattern α → Prop
  | seq a b | alt a b => a.Ignores q ∧ b.Ignores q
  | notBehind p | notAhead p => ∀ c, q c → p c = false
  | _ => True

variable {q : α → Prop} {l l' : List α}

theorem Matches.frame (hl : ∀ c ∈ l, q c) (hl' : ∀ c ∈ l', q c) {r : Pattern α} (hr : r.Ignores q) :
    ∀ {pre mid post : List α}, r.Matches pre mid post → r.Matches (l ++ pre) mid (post ++ l') := by
  induction r with
  | empty => exact fun h => h
  | one p => exact fun h => h
  | many p => exact fun h => h
  | seq a b iha ihb =>
    rintro pre mid post ⟨m, n, rfl, ha, hb⟩
    refine ⟨m, n, rfl, ?_, ?_⟩
    · rw [← List.append_assoc]
      exact iha hr.1 ha
    · rw [List.append_assoc]
      exact ihb hr.2 hb
  | alt a b iha ihb =>
    rintro pre mid post (h | h)
    · exact .inl (iha hr.1 h)
    · exact .inr (ihb hr.2 h)
  -- Only the assertions look outside, at one symbol, and `Ignores` says that the frame has none they refuse.
  | notBehind p =>
    rintro pre mid post ⟨hmid, hlast⟩
    refine ⟨hmid, fun c hc => ?_⟩
    rw [List.getLast?_append] at hc
    cases hpre : pre.getLast? with
    | some c' =>
      rw [hpre] at hc
      obtain rfl := Option.some.inj hc
      exact hlast _ hpre
    | none =>
      rw [hpre] at hc
      exact hr c (hl c (List.mem_of_getLast? hc))
  | notAhead p =>
    rintro pre mid post ⟨hmid, hhead⟩
    refine ⟨hmid, fun c hc => ?_⟩
    rw [List.head?_append] at hc
    cases hpost : post.head? with
    | some c' =>
      rw [hpost] at hc
      obtain rfl := Option.some.inj hc
      exact hhead _ hpost
    | none =>
      rw [hpost] at hc
      exact hr c (hl' c (List.mem_of_mem_head? hc))

/-- **Symbols that the pattern does not look at hide no match.** -/
theorem search_frame (hl : ∀ c ∈ l, q c) (hl' : ∀ c ∈ l', q c) {r : Pattern α} (hr : r.Ignores q) {text : List α}
    (h : r.search text = true) : r.search (l ++ text ++ l') = true := by
  obtain ⟨pre, mid, post, rfl, hmatches⟩ := search_iff.1 h
  exact search_iff.2 ⟨l ++ pre, mid, post ++ l', by simp, hmatches.frame hl hl' hr⟩

theorem ignores_literal (ps : List (α → Bool)) : (literal ps).Ignores q := by
  induction ps with
  | nil => exact trivial
  | cons p ps ih => exact ⟨trivial, ih⟩

theorem ignores_oneOf {r : Pattern α} {rs : List (Pattern α)} (hr : r.Ignores q) (hrs : ∀ r ∈ rs, r.Ignores q) :
    (oneOf r rs).Ignores q := by
  unfold oneOf
  induction rs generalizing r with
  | nil => exact hr
  | cons r' rs ih =>
    exact ih ⟨hr, hrs r' List.mem_cons_self⟩ fun r hmem => hrs r (List.mem_cons_of_mem _ hmem)

end Pattern

/-! ## Trimming -/

/-- The text without the symbols of `p` at its ends. -/
def trim (p : α → Bool) (text : List α) : List α := (text.dropWhile p).rdropWhile p

/-- **A text is its trimmed text** between symbols of `p`. -/
theorem trim_eq (p : α → Bool) (text : List α) : ∃ l l', text = l ++ trim p text ++ l' ∧
    (∀ c ∈ l, p c = true) ∧ ∀ c ∈ l', p c = true := by
  refine ⟨text.takeWhile p, (text.dropWhile p).rtakeWhile p, ?_, fun c hc => List.mem_takeWhile_imp hc,
    fun c hc => List.mem_rtakeWhile_imp hc⟩
  unfold trim
  rw [List.append_assoc, List.rdropWhile_append_rtakeWhile, List.takeWhile_append_dropWhile]

/-- Trimming trims all. -/
theorem trim_trim (p : α → Bool) (text : List α) : trim p (trim p text) = trim p text := by
  have hhead : (trim p text).dropWhile p = trim p text := by
    rw [List.dropWhile_eq_self_iff]
    intro hpos hp
    have hstarts : trim p text <+: text.dropWhile p := List.rdropWhile_prefix _ _
    have hlong : 0 < (text.dropWhile p).length := hpos.trans_le hstarts.length_le
    have hsame := hstarts.getElem hpos
    exact List.dropWhile_get_zero_not p text hlong (by simpa [← hsame] using hp)
  unfold trim at hhead ⊢
  rw [hhead, List.rdropWhile_idempotent]

/-- What ends in another symbol is not trimmed at its end. -/
theorem prefix_rdropWhile {p : α → Bool} {c : α} {l text : List α} (hc : p c = false) :
    l ++ [c] <+: text.rdropWhile p ↔ l ++ [c] <+: text := by
  refine ⟨fun h => h.trans (List.rdropWhile_prefix _ _), ?_⟩
  rintro ⟨rest, rfl⟩
  induction rest using List.reverseRecOn with
  | nil => rw [List.append_nil, List.rdropWhile_concat_neg _ _ _ (by rw [hc]; exact Bool.false_ne_true)]
  | append_singleton rest x ih =>
    rw [← List.append_assoc, List.rdropWhile_concat]
    split
    · exact ih
    · rw [List.append_assoc]
      exact List.prefix_append _ _

/-! ## Runs -/

/-- `text.replace(/p+/g, r)`, in a run of `p` or not. -/
def replaceRuns (p : α → Bool) (r : α) : Bool → List α → List α
  | _, [] => []
  | inRun, c :: rest =>
    if p c then if inRun then replaceRuns p r true rest else r :: replaceRuns p r true rest
    else c :: replaceRuns p r false rest

theorem dropWhile_replaceRuns_true (p : α → Bool) (r : α) (text : List α) :
    (replaceRuns p r true text).dropWhile p = replaceRuns p r true text := by
  induction text with
  | nil => rfl
  | cons c text ih =>
    unfold replaceRuns
    cases hc : p c with
    | true => exact ih
    | false => exact List.dropWhile_cons_of_neg (by rw [hc]; exact Bool.false_ne_true)

/-- **The first run** is what is trimmed at the start. -/
theorem dropWhile_replaceRuns {p : α → Bool} {r : α} (hr : p r = true) (text : List α) :
    (replaceRuns p r false text).dropWhile p = replaceRuns p r true text := by
  cases text with
  | nil => rfl
  | cons c text =>
    unfold replaceRuns
    cases hc : p c with
    | true => exact (List.dropWhile_cons_of_pos hr).trans (dropWhile_replaceRuns_true p r text)
    | false => exact List.dropWhile_cons_of_neg (by rw [hc]; exact Bool.false_ne_true)

end Lib
