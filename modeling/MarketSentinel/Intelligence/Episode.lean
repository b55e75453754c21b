import MarketSentinel.Intelligence.Coordinator
import MarketSentinel.Lib.Generation

/-!
# One episode of the coordinator

The coordinator's tables and registry hold a row for each signal id. `EpisodeRow` is that row,
with the transitions a single episode can make; each method of the coordinator makes one of them
on the row of its id and leaves the other rows alone (`row_invalidate`, `row_releasePending`,
`row_store`, `row_submit`).

* `RowInv`: what holds of a row and of the work outstanding for it, whatever happens.
* `RowInv.not_current`: a revoked item is never the current one.
-/

namespace MarketSentinel

open Lib

/-- What the coordinator knows of one signal id. -/
structure EpisodeRow where
  calls : Option ℕ
  lastPriority : Option SignalPriority
  generation : Option ℕ
  pending : Option ℕ
  result : Option IntelligenceResult
  deriving DecidableEq, Repr

namespace EpisodeRow

/-- An inactive episode without pending work is forgotten. -/
def maybeForget (active : Bool) (row : EpisodeRow) : EpisodeRow :=
  if active then row
  else if 0 < row.pending.getD 0 then row
  else { row with calls := none, lastPriority := none, generation := none, pending := none }

/-- `_invalidate`: a new generation without a result. -/
def invalidate (active : Bool) (row : EpisodeRow) : EpisodeRow :=
  { row with generation := some (row.generation.getD 0 + 1), result := none }.maybeForget active

/-- `_release_pending`: one call less is outstanding. -/
def releasePending (active : Bool) (row : EpisodeRow) : EpisodeRow :=
  { row with
    pending := if row.pending.getD 0 ≤ 1 then none else some (row.pending.getD 0 - 1) }.maybeForget
    active

/-- A request is queued. -/
def submit (signalId : String) (priority : SignalPriority) (row : EpisodeRow) : EpisodeRow where
  calls := some (row.calls.getD 0 + 1)
  lastPriority := some priority
  generation := some (row.generation.getD 0 + 1)
  pending := some (row.pending.getD 0 + 1)
  result := some (IntelligenceCoordinator.plainResult signalId .queued (row.calls.getD 0 + 1))

/-- The row of an id in no table. -/
def empty : EpisodeRow := ⟨none, none, none, none, none⟩

@[simp] theorem result_maybeForget (active : Bool) (row : EpisodeRow) :
    (row.maybeForget active).result = row.result := by
  unfold maybeForget
  split
  · rfl
  · split <;> rfl

@[simp] theorem result_invalidate (active : Bool) (row : EpisodeRow) :
    (row.invalidate active).result = none := result_maybeForget _ _

@[simp] theorem result_releasePending (active : Bool) (row : EpisodeRow) :
    (row.releasePending active).result = row.result := result_maybeForget _ _

/-- Nothing is left of an inactive row without work. -/
theorem invalidate_of_pending {row : EpisodeRow} (h : row.pending = none) :
    row.invalidate false = empty := by
  simp [invalidate, maybeForget, empty, h]

end EpisodeRow

namespace IntelligenceCoordinator

/-- The row of an id in the tables and the registry. -/
def row (c : IntelligenceCoordinator) (id : String) : EpisodeRow :=
  ⟨c.calls.get? id, c.lastPriority.get? id, c.generation.get? id, c.pending.get? id,
    c.registry.get? id⟩

/-- The outstanding work of an id. -/
def works (c : IntelligenceCoordinator) (id : String) : List IntelligenceWork :=
  c.outstanding.filter fun work => decide (work.signalId = id)

/-- The id is among those of the last tick. -/
def isActive (c : IntelligenceCoordinator) (id : String) : Bool := decide (id ∈ c.activeIds)

/-! ## What a method does to a row -/

section Rows

variable (c : IntelligenceCoordinator) (id id' : String)

/-- A row may be forgotten when nothing is left of its episode. -/
theorem row_maybeForget : (c.maybeForget id).row id' =
    if id' = id then (c.row id).maybeForget (c.isActive id) else c.row id' := by
  unfold maybeForget EpisodeRow.maybeForget isActive Dict.getD
  by_cases hactive : id ∈ c.activeIds
  · simp only [hactive, if_true, decide_true]
    split <;> simp_all
  · simp only [hactive, if_false, decide_false, Bool.false_eq_true, row]
    by_cases hpending : 0 < (c.pending.get? id).getD 0
    · simp only [hpending, if_true]
      split <;> simp_all
    · simp only [hpending, if_false, Dict.get?_pop]
      split <;> simp_all

@[simp] theorem row_cancelInFlight : (c.cancelInFlight id).row id' = c.row id' := by
  unfold cancelInFlight
  split <;> rfl

@[simp] theorem activeIds_maybeForget : (c.maybeForget id).activeIds = c.activeIds := by
  unfold maybeForget
  split
  · rfl
  · split <;> rfl

@[simp] theorem activeIds_cancelInFlight : (c.cancelInFlight id).activeIds = c.activeIds := by
  unfold cancelInFlight
  split <;> rfl

@[simp] theorem activeIds_invalidate : (c.invalidate id).activeIds = c.activeIds := by
  simp [invalidate, advance]

/-- One row is invalidated. -/
theorem row_invalidate : (c.invalidate id).row id' =
    if id' = id then (c.row id).invalidate (c.isActive id) else c.row id' := by
  unfold invalidate
  simp only [row_maybeForget, row_cancelInFlight, isActive, activeIds_cancelInFlight, advance]
  by_cases h : id' = id
  · simp only [h, if_true, EpisodeRow.invalidate]
    simp [row, Dict.getD]
  · simp [h, row, Dict.get?_set, Dict.get?_pop]

/-- One row is released. -/
theorem row_releasePending : (c.releasePending id).row id' =
    if id' = id then (c.row id).releasePending (c.isActive id) else c.row id' := by
  unfold releasePending
  simp only [row_maybeForget, discharge]
  by_cases h : id' = id
  · have hle : ((c.pending.getD id 0 : ℤ) - 1 ≤ 0) ↔ (c.pending.getD id 0 ≤ 1) := by omega
    have hnat : ((c.pending.getD id 0 : ℤ) - 1).toNat = c.pending.getD id 0 - 1 := by omega
    simp only [h, if_true, EpisodeRow.releasePending, hle, hnat]
    congr 1
    simp only [row, Dict.getD]
    by_cases hn : (c.pending.get? id).getD 0 ≤ 1 <;> simp [hn]
  · simp only [h, if_false, row]
    by_cases hn : (c.pending.getD id 0 : ℤ) - 1 ≤ 0 <;>
      simp [hn, Dict.get?_set, Dict.get?_pop, h]

/-- A result is stored in the row of its episode, if the work is still live. -/
theorem row_store (work : IntelligenceWork) (result : IntelligenceResult) :
    (c.store work result).row id' =
      if c.workIsLive work ∧ id' = result.signalId then { c.row id' with result := some result }
      else c.row id' := by
  unfold store put
  by_cases hlive : c.workIsLive work = true
  · by_cases h : id' = result.signalId
    · simp [hlive, h, row]
    · simp [hlive, h, row, Dict.get?_set]
  · simp [hlive]

/-- Submitted work begins a generation in its row. -/
theorem row_submit {queue : List IntelligenceWork} {work : IntelligenceWork}
    (hgen : work.generation = c.generation.getD work.signalId 0 + 1) :
    (c.submit queue work).row id' =
      if id' = work.signalId then (c.row id').submit id' work.payload.priority else c.row id' := by
  unfold submit
  by_cases hid : id' = work.signalId
  · simp [hid, row, EpisodeRow.submit, hgen, Dict.getD]
  · simp [hid, row, Dict.get?_set]

end Rows

/-- A fold of methods that each touch one row. -/
theorem row_foldl_invalidate {active : List String} : ∀ (ids : List String)
    (c : IntelligenceCoordinator), c.activeIds = active → ids.Nodup → (∀ id ∈ ids, id ∉ active) →
      ∀ id', (ids.foldl invalidate c).row id' =
        if id' ∈ ids then (c.row id').invalidate false else c.row id' := by
  intro ids
  induction ids with
  | nil => intro c _ _ _ id'; simp
  | cons id ids ih =>
    intro c hc hnd hids id'
    rw [List.nodup_cons] at hnd
    rw [List.forall_mem_cons] at hids
    have hrow := row_invalidate c id
    have hactive : c.isActive id = false := by simp [isActive, hc, hids.1]
    rw [List.foldl_cons, ih _ (by rw [activeIds_invalidate, hc]) hnd.2 hids.2, hrow, hactive]
    by_cases h : id' = id
    · simp [h, hnd.1]
    · simp [h]

end IntelligenceCoordinator

/-! ## The invariant of a row -/

/-- The row of an episode and the work outstanding for it. -/
structure RowInv (active : Bool) (row : EpisodeRow) (works : List IntelligenceWork)
    (retired : List ℕ) : Prop where
  pending : row.pending = if works = [] then none else some works.length
  covers : Generation.Covers (·.generation) row.generation works (·.serial ∈ retired)
  shown : row.result ≠ none → active = true
  kept : active = false → works = [] → row = EpisodeRow.empty

section RowInv

variable {active : Bool} {row : EpisodeRow} {works works' : List IntelligenceWork}
  {retired retired' : List ℕ} {work : IntelligenceWork}

/-- The empty row has no work. -/
theorem rowInv_empty : RowInv active EpisodeRow.empty [] retired :=
  ⟨rfl, Generation.covers_nil, fun h => absurd rfl h, fun _ _ => rfl⟩

/-- The order of the work does not matter. -/
theorem RowInv.perm (h : RowInv active row works retired) (hp : works.Perm works') :
    RowInv active row works' retired := by
  have hnil : works = [] ↔ works' = [] := by
    constructor <;> rintro rfl
    · exact List.nil_perm.1 hp
    · exact List.perm_nil.1 hp
  refine ⟨?_, h.covers.sublist fun t ht => hp.mem_iff.2 ht, h.shown, fun ha hw => ?_⟩
  · rw [h.pending, hp.length_eq]
    simp only [hnil]
  · exact h.kept ha (hnil.2 hw)

/-- **A revoked item is never the current one.** -/
theorem RowInv.not_current (h : RowInv active row works retired) (hw : work ∈ works)
    (hr : work.serial ∈ retired) : row.generation ≠ some work.generation :=
  h.covers.not_current hw hr

/-- An episode that is active keeps its row. -/
theorem RowInv.stay (h : RowInv active row works retired)
    (hr : ∀ w ∈ works, w.serial ∈ retired' → w.serial ∈ retired) :
    RowInv true row works retired' :=
  ⟨h.pending, h.covers.congr hr, fun _ => rfl, fun ha => absurd ha (by decide)⟩

/-- An episode that is not active loses its row, up to what its outstanding work needs. -/
theorem RowInv.retire (h : RowInv active row works retired) :
    RowInv false (row.invalidate false) works retired' := by
  unfold EpisodeRow.invalidate EpisodeRow.maybeForget
  simp only [Bool.false_eq_true, if_false, h.pending]
  cases works with
  | nil => exact rowInv_empty
  | cons w ws =>
    simp only [reduceCtorEq, if_false, Option.getD_some, List.length_pos_iff, ne_eq, not_false_eq_true,
      if_true]
    exact ⟨by simp, h.covers.revoke, fun hn => absurd rfl hn,
      fun _ hn => absurd hn (by simp)⟩

/-- The newest work has the generation of its row. -/
theorem RowInv.submit (h : RowInv true row works retired) (id : String) (priority : SignalPriority)
    (hgen : work.generation = row.generation.getD 0 + 1) (hwork : work.serial ∉ retired) :
    RowInv true (row.submit id priority) (works ++ [work]) retired := by
  refine ⟨?_, ?_, fun _ => rfl, fun ha => absurd ha (by decide)⟩
  · simp only [EpisodeRow.submit, h.pending]
    cases works <;> simp
  · have := h.covers.issue hgen hwork
    rwa [hgen] at this

/-- A result changes nothing about the work. -/
theorem RowInv.put (h : RowInv true row works retired) (result : IntelligenceResult) :
    RowInv true { row with result := some result } works retired :=
  ⟨h.pending, h.covers, fun _ => rfl, fun ha => absurd ha (by decide)⟩

/-- Work that is done is released from its row. -/
theorem RowInv.release (h : RowInv active row (work :: works) retired) :
    RowInv active (row.releasePending active) works retired := by
  have hcov := h.covers.sublist fun t => List.mem_cons_of_mem work
  unfold EpisodeRow.releasePending EpisodeRow.maybeForget
  simp only [h.pending, List.cons_ne_nil, if_false, Option.getD_some, List.length_cons,
    Nat.add_sub_cancel]
  cases active with
  | true =>
    refine ⟨?_, hcov, fun _ => rfl, fun ha => absurd ha (by decide)⟩
    cases works <;> simp
  | false =>
    have hnone : row.result = none := by
      by_contra hn
      exact absurd (h.shown hn) (by decide)
    cases works with
    | nil => simpa [hnone, EpisodeRow.empty] using rowInv_empty
    | cons w ws =>
      refine ⟨by simp, ?_, by simp [hnone], fun _ hn => absurd hn (by simp)⟩
      simpa using hcov

end RowInv

end MarketSentinel
