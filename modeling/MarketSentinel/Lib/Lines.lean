import Mathlib.Data.List.DropRight

/-!
# Terminated lines

Items are kept as texts over some alphabet, each followed by a terminator that no text contains.

* `body_join_append`, `tail_join_append`: the lines and what follows the last terminator.
* `splitOn_join`: the lines are read back.
* `prefix_join`: the lines at the beginning of a text.
* `cut_join`: what is left of the lines when they are cut at any position.
-/

namespace Lib

namespace Lines

variable {A R : Type*} {nl : A} {xs rest : List A} {lines lines' : List (List A)} {text : R → List A}

/-- Each line with its terminator. -/
def join (nl : A) (lines : List (List A)) : List A := lines.flatMap (· ++ [nl])

@[simp] theorem join_nil : join nl [] = [] := rfl

@[simp] theorem join_cons (line : List A) : join nl (line :: lines) = line ++ nl :: join nl lines := by
  simp [join]

/-- The text of two stretches of lines. -/
@[simp] theorem join_append : join nl (lines ++ lines') = join nl lines ++ join nl lines' :=
  List.flatMap_append

/-- A text of lines ends with a line end. -/
theorem join_eq_concat (nl : A) (h : lines ≠ []) : ∃ init, join nl lines = init ++ [nl] := by
  obtain ⟨front, line, rfl⟩ := (List.eq_nil_or_concat lines).resolve_left h
  exact ⟨join nl front ++ line, by simp [join, List.concat_eq_append]⟩

/-- The items whose text lies completely before the position `k`; the first text begins at `start`. -/
def before (text : R → List A) (k : ℕ) : ℕ → List R → List R
  | _, [] => []
  | start, r :: rs =>
    (if start + (text r).length ≤ k then [r] else []) ++ before text k (start + (text r).length + 1) rs

theorem before_eq_nil {k start : ℕ} (h : k < start) (rs : List R) : before text k start rs = [] := by
  induction rs generalizing start with
  | nil => rfl
  | cons r rs ih =>
    unfold before
    rw [if_neg (by omega), ih (by omega)]
    rfl

/-- What comes before a place is part of the whole. -/
theorem before_subset {k start : ℕ} {rs : List R} {r : R} (h : r ∈ before text k start rs) : r ∈ rs := by
  induction rs generalizing start with
  | nil => exact absurd h List.not_mem_nil
  | cons r' rs ih =>
    unfold before at h
    rcases List.mem_append.1 h with h | h
    · split at h
      · exact List.mem_singleton.1 h ▸ List.mem_cons_self
      · exact absurd h List.not_mem_nil
    · exact List.mem_cons_of_mem _ (ih h)

section Read

variable [DecidableEq A]

/-- Everything up to the last terminator. -/
def body (nl : A) (xs : List A) : List A := xs.rdropWhile (· ≠ nl)

/-- What follows the last terminator. -/
def tail (nl : A) (xs : List A) : List A := xs.rtakeWhile (· ≠ nl)

/-- A text is its lines and what follows the last one. -/
theorem body_append_tail (nl : A) (xs : List A) : body nl xs ++ tail nl xs = xs := by
  unfold body tail
  induction xs using List.reverseRecOn with
  | nil => rfl
  | append_singleton xs x ih =>
    rw [List.rdropWhile_concat, List.rtakeWhile_concat]
    split
    · rw [← List.append_assoc, ih]
    · rw [List.append_nil]

/-- What follows the last line has no line end. -/
theorem notMem_tail (xs : List A) : nl ∉ tail nl xs := fun h => by
  have hne := List.mem_rtakeWhile_imp h
  simp at hne

/-- The body is empty or ends with a terminator. -/
theorem body_eq (nl : A) (xs : List A) : body nl xs = [] ∨ ∃ init, body nl xs = init ++ [nl] := by
  unfold body
  induction xs using List.reverseRecOn with
  | nil => exact .inl rfl
  | append_singleton xs x ih =>
    rw [List.rdropWhile_concat]
    split
    · exact ih
    · rename_i hx
      obtain rfl : x = nl := by simpa using hx
      exact .inr ⟨xs, rfl⟩

/-- After a line end the tail begins anew. -/
theorem tail_append (h : nl ∉ rest) (xs : List A) : tail nl (xs ++ nl :: rest) = rest := by
  unfold tail
  induction rest using List.reverseRecOn with
  | nil => exact List.rtakeWhile_concat_neg _ _ _ (by simp)
  | append_singleton rest x ih =>
    rw [List.mem_append, List.mem_singleton, not_or] at h
    rw [← List.cons_append, ← List.append_assoc, List.rtakeWhile_concat, ih h.1,
      if_pos (by simpa using Ne.symm h.2)]

theorem tail_eq_self (h : nl ∉ xs) : tail nl xs = xs := by
  unfold tail
  rw [List.rtakeWhile_eq_self_iff]
  intro x hx
  rw [decide_eq_true_eq]
  rintro rfl
  exact h hx

/-- Whole lines leave the tail alone. -/
theorem tail_join_append (lines : List (List A)) (h : nl ∉ rest) : tail nl (join nl lines ++ rest) = rest := by
  by_cases hlines : lines = []
  · subst hlines
    exact tail_eq_self h
  · obtain ⟨init, hinit⟩ := join_eq_concat nl hlines
    rw [hinit, List.append_assoc, List.singleton_append]
    exact tail_append h init

/-- Whole lines are the body, whatever follows without a line end. -/
theorem body_join_append (lines : List (List A)) (h : nl ∉ rest) :
    body nl (join nl lines ++ rest) = join nl lines := by
  have hparts := body_append_tail nl (join nl lines ++ rest)
  rw [tail_join_append lines h] at hparts
  exact List.append_cancel_right hparts

/-- A text with a line end makes all before it part of the body. -/
theorem body_append_of_mem {ys : List A} (h : nl ∈ ys) (xs : List A) : body nl (xs ++ ys) = xs ++ body nl ys := by
  have hparts := body_append_tail nl ys
  rcases body_eq nl ys with hnil | ⟨init, hinit⟩
  · rw [hnil, List.nil_append] at hparts
    rw [← hparts] at h
    exact absurd h (notMem_tail ys)
  · have hwhole : xs ++ ys = (xs ++ init) ++ nl :: tail nl ys := by
      rw [hinit] at hparts
      rw [← hparts]
      simp [tail_append (notMem_tail ys)]
    have hall := body_append_tail nl (xs ++ ys)
    have htail : tail nl (xs ++ ys) = tail nl ys := by
      rw [hwhole, tail_append (notMem_tail ys)]
    rw [htail] at hall
    conv_rhs at hall => rw [← hparts, ← List.append_assoc]
    exact List.append_cancel_right hall

/-- A text without one changes the tail only. -/
theorem body_append_of_notMem {ys : List A} (h : nl ∉ ys) (xs : List A) : body nl (xs ++ ys) = body nl xs := by
  unfold body
  induction ys using List.reverseRecOn with
  | nil => rw [List.append_nil]
  | append_singleton ys y ih =>
    rw [List.mem_append, List.mem_singleton, not_or] at h
    rw [← List.append_assoc, List.rdropWhile_concat, if_pos (by simpa using Ne.symm h.2), ih h.1]

theorem body_of_notMem (h : nl ∉ xs) : body nl xs = [] := by
  have hparts := body_append_tail nl xs
  rw [tail_eq_self h] at hparts
  exact List.append_left_eq_self.1 hparts

/-! ## Splitting -/

/-- A text is split at a line end into the parts of both sides. -/
theorem splitOn_append_cons (xs ys : List A) : (xs ++ nl :: ys).splitOn nl = xs.splitOn nl ++ ys.splitOn nl :=
  List.splitOnP_append_cons xs ys (by simp)

/-- Without a line end there is one part. -/
theorem splitOn_of_notMem (h : nl ∉ xs) : xs.splitOn nl = [xs] :=
  List.splitOnP_eq_singleton fun x hx => by
    rw [beq_eq_false_iff_ne]
    rintro rfl
    exact h hx

/-- What holds no terminator begins the first line. -/
theorem splitOn_append_of_notMem (h : nl ∉ xs) (ys : List A) :
    (xs ++ ys).splitOn nl = (ys.splitOn nl).modifyHead (xs ++ ·) := by
  induction xs with
  | nil =>
    obtain ⟨line, lines, hlines⟩ := List.exists_cons_of_ne_nil (List.splitOnP_ne_nil (· == nl) ys)
    change ys.splitOn nl = (List.splitOnP (· == nl) ys).modifyHead _
    rw [hlines]
    exact hlines
  | cons x xs ih =>
    rw [List.mem_cons, not_or] at h
    have hx : ¬(x == nl) = true := by simpa using Ne.symm h.1
    have hcons := List.splitOnP_cons_eq_if_modifyHead (p := (· == nl)) x (xs ++ ys)
    rw [if_neg hx] at hcons
    have hrest : (xs ++ ys).splitOnP (· == nl) = (ys.splitOn nl).modifyHead (xs ++ ·) := ih h.2
    rw [List.cons_append]
    change (x :: (xs ++ ys)).splitOnP (· == nl) = _
    rw [hcons, hrest, List.modifyHead_modifyHead]
    rfl

/-- **Lines are read back**, with an empty piece after the last terminator. -/
theorem splitOn_join (h : ∀ line ∈ lines, nl ∉ line) : (join nl lines).splitOn nl = lines ++ [[]] := by
  induction lines with
  | nil => exact splitOn_of_notMem List.not_mem_nil
  | cons line lines ih =>
    rw [List.forall_mem_cons] at h
    rw [join_cons, splitOn_append_cons, splitOn_of_notMem h.1, ih h.2]
    rfl

theorem splitOn_cons_self (ys : List A) : (nl :: ys).splitOn nl = [] :: ys.splitOn nl := by
  rw [← List.nil_append (nl :: ys), splitOn_append_cons, splitOn_of_notMem List.not_mem_nil]
  rfl

/-- Every list is some lines, and a rest without a terminator. -/
theorem exists_join (nl : A) (xs : List A) : ∃ lines rest, xs = join nl lines ++ rest ∧ nl ∉ rest ∧
    ∀ line ∈ lines, nl ∉ line := by
  induction xs with
  | nil => exact ⟨[], [], rfl, List.not_mem_nil, fun _ h => absurd h List.not_mem_nil⟩
  | cons x xs ih =>
    obtain ⟨lines, rest, rfl, hrest, hlines⟩ := ih
    by_cases hx : x = nl
    · subst hx
      exact ⟨[] :: lines, rest, by simp, hrest, List.forall_mem_cons.2 ⟨List.not_mem_nil, hlines⟩⟩
    · cases lines with
      | nil =>
        refine ⟨[], x :: rest, rfl, ?_, hlines⟩
        rw [List.mem_cons, not_or]
        exact ⟨Ne.symm hx, hrest⟩
      | cons line lines =>
        obtain ⟨hline, hlines⟩ := List.forall_mem_cons.1 hlines
        refine ⟨(x :: line) :: lines, rest, by simp, hrest, List.forall_mem_cons.2 ⟨?_, hlines⟩⟩
        rw [List.mem_cons, not_or]
        exact ⟨Ne.symm hx, hline⟩

/-- **Splitting what follows some lines.** -/
theorem splitOn_join_append (h : ∀ line ∈ lines, nl ∉ line) (zs : List A) :
    (join nl lines ++ zs).splitOn nl = lines ++ zs.splitOn nl := by
  induction lines with
  | nil => rfl
  | cons line lines ih =>
    rw [List.forall_mem_cons] at h
    rw [join_cons, List.append_assoc, List.cons_append, splitOn_append_cons, splitOn_of_notMem h.1, ih h.2]
    rfl

/-- The lines up to the last terminator. -/
theorem join_dropLast_splitOn (nl : A) (xs : List A) : join nl (xs.splitOn nl).dropLast = body nl xs := by
  obtain ⟨lines, rest, rfl, hrest, hlines⟩ := exists_join nl xs
  rw [splitOn_join_append hlines, splitOn_of_notMem hrest, List.dropLast_concat, body_join_append lines hrest]

/-- There are as many line ends as lines. -/
theorem count_join (h : ∀ line ∈ lines, nl ∉ line) : (join nl lines).count nl = lines.length := by
  induction lines with
  | nil => rfl
  | cons line lines ih =>
    rw [List.forall_mem_cons] at h
    rw [join_cons, List.count_append, List.count_cons_self, List.count_eq_zero.2 h.1, ih h.2, List.length_cons,
      Nat.zero_add]

/-- **What some lines begin with**: as many lines as there are terminators, and a part of the next one. -/
theorem prefix_join (h : ∀ line ∈ lines, nl ∉ line) (hxs : xs <+: join nl lines) :
    ∃ part, xs = join nl (lines.take (xs.count nl)) ++ part ∧ nl ∉ part := by
  induction lines generalizing xs with
  | nil =>
    obtain rfl := List.prefix_nil.1 hxs
    exact ⟨[], rfl, List.not_mem_nil⟩
  | cons line lines ih =>
    rw [List.forall_mem_cons] at h
    rw [join_cons] at hxs
    rcases List.prefix_or_prefix_of_prefix hxs (List.prefix_append line _) with hpart | ⟨more, rfl⟩
    · have hnot : nl ∉ xs := fun hmem => h.1 (hpart.subset hmem)
      refine ⟨xs, ?_, hnot⟩
      rw [List.count_eq_zero.2 hnot]
      rfl
    · rw [List.prefix_append_right_inj, List.prefix_cons_iff] at hxs
      have hcount := List.count_eq_zero.2 h.1
      rcases hxs with rfl | ⟨ys, rfl, hys⟩
      · refine ⟨line, ?_, h.1⟩
        rw [List.append_nil, hcount]
        rfl
      · obtain ⟨part, hpart, hnot⟩ := ih h.2 hys
        refine ⟨part, ?_, hnot⟩
        rw [List.count_append, hcount, List.count_cons_self, Nat.zero_add, List.take_succ_cons, join_cons,
          List.append_assoc, List.cons_append, ← hpart]

end Read

/-! ## Cutting -/

/-- What is left of the lines of some items. -/
inductive Cut (nl : A) (text : R → List A) (rs : List R) : List R → List A → Prop
  /-- The cut is between two lines. -/
  | clean (kept : List R) : Cut nl text rs kept (join nl (kept.map text))
  /-- The cut is just before a terminator. -/
  | bare (kept : List R) (r : R) (hr : r ∈ rs) :
    Cut nl text rs (kept ++ [r]) (join nl (kept.map text) ++ text r)
  /-- The cut is in a text. -/
  | torn (kept : List R) (r : R) (hr : r ∈ rs) (part : List A) (hpart : part <+: text r) (hne : part ≠ [])
    (hlt : part ≠ text r) : Cut nl text rs kept (join nl (kept.map text) ++ part)

/-- **Every cut is one of the three**, and keeps the items whose text lies completely before it. -/
theorem cut_join : ∀ {rs : List R}, (∀ r ∈ rs, text r ≠ []) → ∀ start k : ℕ,
    Cut nl text rs (before text (start + k) start rs) ((join nl (rs.map text)).take k) := by
  intro rs
  induction rs with
  | nil =>
    intro _ start k
    rw [List.map_nil, join_nil, List.take_nil]
    exact .clean []
  | cons r rs ih =>
    intro htext start k
    rw [List.forall_mem_cons] at htext
    have hpos : 0 < (text r).length := List.length_pos_of_ne_nil htext.1
    unfold before
    rw [List.map_cons, join_cons]
    -- The cut is in the first item, at its end, or behind its newline.
    by_cases hbefore : k < (text r).length
    · rw [if_neg (by omega), before_eq_nil (by omega), List.append_nil, List.take_append_of_le_length hbefore.le]
      by_cases hk : k = 0
      · subst hk
        exact .clean []
      · refine .torn [] r List.mem_cons_self _ (List.take_prefix ..) ?_ ?_
        · intro hnil
          rcases List.take_eq_nil_iff.1 hnil with h | h
          · exact hk h
          · exact htext.1 h
        · intro hall
          have hlength := congrArg List.length hall
          rw [List.length_take] at hlength
          omega
    · rw [if_pos (by omega), List.take_append, List.take_of_length_le (not_lt.1 hbefore)]
      by_cases hend : k = (text r).length
      · subst hend
        rw [before_eq_nil (by omega), Nat.sub_self, List.take_zero, List.append_nil, List.append_nil]
        have hcut : Cut nl text (r :: rs) ([] ++ [r]) (join nl ([].map text) ++ text r) :=
          .bare [] r List.mem_cons_self
        rwa [List.map_nil, join_nil, List.nil_append, List.nil_append] at hcut
      · obtain ⟨j, hj⟩ : ∃ j, k = (text r).length + 1 + j := ⟨k - ((text r).length + 1), by omega⟩
        have hrest := ih htext.2 (start + (text r).length + 1) j
        have hstart : start + k = start + (text r).length + 1 + j := by omega
        have htake : k - (text r).length = j + 1 := by omega
        rw [hstart, htake, List.take_succ_cons]
        generalize before text (start + (text r).length + 1 + j) (start + (text r).length + 1) rs = kept at hrest
        generalize (join nl (rs.map text)).take j = content at hrest
        cases hrest with
        | clean =>
          have hcut : Cut nl text (r :: rs) (r :: kept) (join nl ((r :: kept).map text)) := .clean _
          rwa [List.map_cons, join_cons] at hcut
        | bare kept r' hr' =>
          have hcut : Cut nl text (r :: rs) (r :: kept ++ [r']) (join nl ((r :: kept).map text) ++ text r') :=
            .bare _ r' (List.mem_cons_of_mem _ hr')
          rwa [List.map_cons, join_cons, List.append_assoc, List.cons_append] at hcut
        | torn _ r' hr' part hpart hne hlt =>
          have hcut : Cut nl text (r :: rs) (r :: kept) (join nl ((r :: kept).map text) ++ part) :=
            .torn _ r' (List.mem_cons_of_mem _ hr') part hpart hne hlt
          rwa [List.map_cons, join_cons, List.append_assoc, List.cons_append] at hcut

end Lines

end Lib
