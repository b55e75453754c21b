import MarketSentinel.Intelligence.Episode
import MarketSentinel.Lib.Machine

/-!
# Retired work stays retired

* `Coordinated`: what holds of the coordinator after any steps, an episode invariant for each id
  and the distinctness of work items.
* `Coordinated.of_step`, `coordinated_of_run`: every step keeps it, so every run does.
* `no_stale_resurrection`: an item whose signal was retired never writes the registry again, and
  the registry holds active ids only.
-/

namespace MarketSentinel

open Lib Machine

namespace IntelligenceCoordinator

/-- A coordinator as it is constructed. -/
def new (queueSize : ℤ) (concurrency : ℕ) (budget : EpisodeCallBudget) (policy : RouterPolicy)
    (telemetry : Option TelemetryRuntime) : IntelligenceCoordinator :=
  { queueSize := queueSize, concurrency := concurrency, budget := budget, policy := policy,
    telemetry := telemetry }

/-- What every step keeps. -/
structure Coordinated (c : IntelligenceCoordinator) : Prop where
  rows : ∀ id, RowInv (c.isActive id) (c.row id) (c.works id) c.history.retired
  distinct : (c.outstanding.map (·.serial)).Nodup
  fresh : ∀ work ∈ c.outstanding, work.serial < c.history.nextSerial
  past : ∀ s ∈ c.history.retired, s < c.history.nextSerial
  tasks : ∀ id s, c.inFlightTasks.get? id = some s → s < c.history.nextSerial ∧
    ∀ work ∈ c.outstanding, work.serial = s → work.signalId = id
  cancelled : ∀ call ∈ c.busy, call.cancelled = true → call.work.serial ∈ c.history.retired

section Basic

variable {c : IntelligenceCoordinator}

theorem mem_works {id : String} {work : IntelligenceWork} :
    work ∈ c.works id ↔ work ∈ c.outstanding ∧ work.signalId = id := by
  simp [works]

theorem busy_outstanding {call : ModelCall} (h : call ∈ c.busy) : call.work ∈ c.outstanding :=
  List.mem_append_right _ (List.mem_map_of_mem h)

/-- Other telemetry and counters, which no invariant speaks of. -/
def quiet (c : IntelligenceCoordinator) (t : Option TelemetryRuntime)
    (d : IntelligenceDiagnostics) : IntelligenceCoordinator :=
  { c with telemetry := t, diagnostics := d }

theorem Coordinated.quiet (h : c.Coordinated) (t : Option TelemetryRuntime)
    (d : IntelligenceDiagnostics) : (c.quiet t d).Coordinated :=
  ⟨h.rows, h.distinct, h.fresh, h.past, h.tasks, h.cancelled⟩

/-- Two items of one serial are one item. -/
theorem Coordinated.eq_of_serial (h : c.Coordinated) {w w' : IntelligenceWork}
    (hw : w ∈ c.outstanding) (hw' : w' ∈ c.outstanding) (hs : w.serial = w'.serial) : w = w' :=
  List.inj_on_of_nodup_map h.distinct hw hw' hs

/-- **A retired item is not live.** -/
theorem Coordinated.not_live (h : c.Coordinated) {work : IntelligenceWork}
    (hw : work ∈ c.outstanding) (hr : work.serial ∈ c.history.retired) :
    c.workIsLive work = false := by
  have hne := (h.rows work.signalId).not_current (mem_works.2 ⟨hw, rfl⟩) hr
  simp only [workIsLive, Bool.and_eq_false_iff, decide_eq_false_iff_not]
  exact .inr hne

theorem Coordinated.registry_active (h : c.Coordinated) :
    ∀ id ∈ c.registry.keys, id ∈ c.activeIds := by
  intro id hid
  obtain ⟨r, hr⟩ := Dict.mem_keys.1 hid
  have := (h.rows id).shown (by simp [row, hr])
  simpa [isActive] using this

theorem coordinated_start (queueSize : ℤ) (concurrency : ℕ) (budget : EpisodeCallBudget)
    (policy : RouterPolicy) (telemetry : Option TelemetryRuntime) :
    (new queueSize concurrency budget policy telemetry).start.Coordinated where
  rows _ := rowInv_empty
  distinct := List.nodup_nil
  fresh _ h := absurd h List.not_mem_nil
  past _ h := absurd h List.not_mem_nil
  tasks _ _ h := by cases h
  cancelled _ h := absurd h List.not_mem_nil

end Basic

/-! ## Retirement -/

/-- The queue, the calls and the history are as they were. -/
structure SameWork (c c' : IntelligenceCoordinator) : Prop where
  queue : c'.queue = c.queue
  busy : c'.busy = c.busy
  tasks : c'.inFlightTasks = c.inFlightTasks
  activeIds : c'.activeIds = c.activeIds
  history : c'.history = c.history

section SameWork

variable {c c' c'' : IntelligenceCoordinator}

theorem SameWork.trans (h : SameWork c c') (h' : SameWork c' c'') : SameWork c c'' :=
  ⟨h'.queue.trans h.queue, h'.busy.trans h.busy, h'.tasks.trans h.tasks,
    h'.activeIds.trans h.activeIds, h'.history.trans h.history⟩

theorem SameWork.outstanding (h : SameWork c c') : c'.outstanding = c.outstanding := by
  simp only [IntelligenceCoordinator.outstanding, h.queue, h.busy]

theorem sameWork_maybeForget (c : IntelligenceCoordinator) (id : String) :
    SameWork c (c.maybeForget id) := by
  unfold maybeForget
  split
  · exact ⟨rfl, rfl, rfl, rfl, rfl⟩
  · split <;> exact ⟨rfl, rfl, rfl, rfl, rfl⟩

theorem sameWork_releasePending (c : IntelligenceCoordinator) (id : String) :
    SameWork c (c.releasePending id) := by
  have hdischarge : SameWork c (c.discharge id) := ⟨rfl, rfl, rfl, rfl, rfl⟩
  exact hdischarge.trans (sameWork_maybeForget _ id)

theorem store_of_live {work : IntelligenceWork} {result : IntelligenceResult}
    (h : c.workIsLive work = true) : c.store work result = c.put result :=
  if_pos h

theorem sameWork_store (c : IntelligenceCoordinator) (work : IntelligenceWork)
    (result : IntelligenceResult) : SameWork c (c.store work result) := by
  unfold store
  split <;> exact ⟨rfl, rfl, rfl, rfl, rfl⟩

end SameWork

/-- What the retirement loop leaves as it was, and whom it asks to cancel. -/
structure Retiring (c₀ c : IntelligenceCoordinator) : Prop where
  outstanding : c.outstanding = c₀.outstanding
  history : c.history = c₀.history
  activeIds : c.activeIds = c₀.activeIds
  tasks : c.inFlightTasks = c₀.inFlightTasks
  queue : c.queue = c₀.queue
  cancelled : ∀ call ∈ c.busy, call.cancelled = true → call.work.serial ∈ c₀.history.retired

section Retire

variable {c c₀ : IntelligenceCoordinator} {activeIds : List String}

/-- The items of the ids that are no longer active are retired. -/
theorem mem_retired_prune {work : IntelligenceWork} (hw : work ∈ c.outstanding)
    (hid : work.signalId ∉ activeIds) : work.serial ∈ (c.prune activeIds).history.retired :=
  List.mem_append_right _
    (List.mem_map_of_mem (List.mem_filter.2 ⟨hw, decide_eq_true hid⟩))

/-- Only the call under the id is asked to cancel. -/
theorem cancelled_cancelInFlight {id : String} {call : ModelCall}
    (hcall : call ∈ (c.cancelInFlight id).busy) (hc : call.cancelled = true) :
    call ∈ c.busy ∨ c.inFlightTasks.get? id = some call.work.serial := by
  unfold cancelInFlight at hcall
  cases ht : c.inFlightTasks.get? id with
  | none => simp only [ht] at hcall; exact .inl hcall
  | some task =>
    simp only [ht] at hcall
    obtain ⟨call₀, h₀, rfl⟩ := List.mem_map.1 hcall
    split
    · next hs => exact .inr (by rw [← hs])
    · exact .inl h₀

theorem outstanding_cancelInFlight (c : IntelligenceCoordinator) (id : String) :
    (c.cancelInFlight id).outstanding = c.outstanding := by
  unfold cancelInFlight
  split
  · rfl
  · simp only [outstanding, List.map_map]
    congr 1
    refine List.map_congr_left fun call _ => ?_
    simp only [Function.comp_apply]
    split <;> rfl

theorem retiring_cancelInFlight (h : c₀.Coordinated) (hr : Retiring (c₀.prune activeIds) c)
    {id : String} (hid : id ∉ activeIds) :
    Retiring (c₀.prune activeIds) (c.cancelInFlight id) := by
  have hout := (outstanding_cancelInFlight c id).trans hr.outstanding
  have hrest : (c.cancelInFlight id).history = c.history ∧
      (c.cancelInFlight id).activeIds = c.activeIds ∧
      (c.cancelInFlight id).inFlightTasks = c.inFlightTasks ∧
      (c.cancelInFlight id).queue = c.queue := by
    unfold cancelInFlight
    split <;> exact ⟨rfl, rfl, rfl, rfl⟩
  refine ⟨hout, hrest.1.trans hr.history, hrest.2.1.trans hr.activeIds,
    hrest.2.2.1.trans hr.tasks, hrest.2.2.2.trans hr.queue, fun call hcall hc => ?_⟩
  rcases cancelled_cancelInFlight hcall hc with hold | htask
  · exact hr.cancelled call hold hc
  · -- The task under an id is a call for that id, and its item is retired with it.
    have hmem : call.work ∈ c₀.outstanding :=
      (hout ▸ busy_outstanding hcall : call.work ∈ (c₀.prune activeIds).outstanding)
    have hsignal := (h.tasks id _ (hr.tasks ▸ htask)).2 call.work hmem rfl
    exact mem_retired_prune hmem (hsignal ▸ hid)

theorem Retiring.sameWork {c' : IntelligenceCoordinator} (hr : Retiring c₀ c)
    (h : SameWork c c') : Retiring c₀ c' :=
  ⟨h.outstanding.trans hr.outstanding, h.history.trans hr.history,
    h.activeIds.trans hr.activeIds, h.tasks.trans hr.tasks, h.queue.trans hr.queue,
    fun call hcall => hr.cancelled call (h.busy ▸ hcall)⟩

theorem Retiring.invalidate (h : c₀.Coordinated) (hr : Retiring (c₀.prune activeIds) c)
    {id : String} (hid : id ∉ activeIds) : Retiring (c₀.prune activeIds) (c.invalidate id) := by
  have hadvance : SameWork c (c.advance id) := ⟨rfl, rfl, rfl, rfl, rfl⟩
  have hcancel := retiring_cancelInFlight h (hr.sameWork hadvance) hid
  exact hcancel.sameWork (sameWork_maybeForget _ id)

theorem Retiring.foldl (h : c₀.Coordinated) : ∀ (ids : List String) (c : IntelligenceCoordinator),
    Retiring (c₀.prune activeIds) c → (∀ id ∈ ids, id ∉ activeIds) →
      Retiring (c₀.prune activeIds) (ids.foldl IntelligenceCoordinator.invalidate c) := by
  intro ids
  induction ids with
  | nil => intro c hr _; exact hr
  | cons id ids ih =>
    intro c hr hids
    rw [List.forall_mem_cons] at hids
    exact ih _ (hr.invalidate h hids.1) hids.2

theorem retiring_retireInactive (h : c.Coordinated) (activeIds : List String) :
    Retiring (c.prune activeIds) (c.retireInactive activeIds) := by
  refine Retiring.foldl h _ _ ⟨rfl, rfl, rfl, rfl, rfl, fun call hcall hc => ?_⟩ fun id hid => ?_
  · exact List.mem_append_left _ (h.cancelled call hcall hc)
  · exact of_decide_eq_true (List.mem_filter.1 hid).2

/-- **The row of an id after retirement.** -/
theorem row_retireInactive (activeIds : List String) (id : String) :
    (c.retireInactive activeIds).row id =
      if id ∈ activeIds then c.row id else (c.row id).invalidate false := by
  have hprune : ∀ id, id ∈ activeIds → (c.prune activeIds).row id = c.row id := by
    intro id hid
    simp only [row, prune, hid, decide_true, Dict.get?_filter]
    cases c.registry.get? id <;> rfl
  have hnodup : ((c.prune activeIds).tracked.filter fun id => decide (id ∉ activeIds)).Nodup :=
    (List.nodup_dedup _).filter _
  unfold retireInactive
  dsimp only
  rw [row_foldl_invalidate _ _ rfl hnodup fun id hid => of_decide_eq_true (List.mem_filter.1 hid).2]
  by_cases hid : id ∈ activeIds
  · rw [if_neg (by simp [hid]), if_pos hid, hprune id hid]
  · rw [if_neg hid]
    have hresult : ((c.prune activeIds).row id) = { c.row id with result := none } := by
      simp [row, prune, hid]
    rw [hresult]
    split
    · rfl
    · next htracked =>
      -- An id in no table has an empty row, which invalidating leaves empty.
      have hnone : ∀ {V : Type} {d : Dict String V}, id ∉ d.keys → d.get? id = none :=
        fun {V d} hk => Option.eq_none_iff_forall_not_mem.2 fun v hv => hk (Dict.mem_keys.2 ⟨v, hv⟩)
      simp only [List.mem_filter, tracked, List.mem_dedup, List.mem_append, hid, not_false_eq_true,
        decide_true, and_true, not_or] at htracked
      obtain ⟨⟨⟨⟨hcalls, hgen⟩, hlast⟩, hpending⟩, -⟩ := htracked
      rw [EpisodeRow.invalidate_of_pending (hnone hpending)]
      simp only [EpisodeRow.empty, row, EpisodeRow.mk.injEq]
      exact ⟨hnone hcalls, hnone hlast, hnone hgen, hnone hpending, trivial⟩

end Retire

/-! ## Every step keeps the invariant -/

section Steps

variable {c c₁ : IntelligenceCoordinator}

theorem Coordinated.retireInactive (h : c.Coordinated) (activeIds : List String) :
    (c.retireInactive activeIds).Coordinated := by
  have hr := retiring_retireInactive h activeIds
  have hout : (c.retireInactive activeIds).outstanding = c.outstanding := hr.outstanding
  have hpast : ∀ s ∈ (c.prune activeIds).history.retired, s < c.history.nextSerial := by
    intro s hs
    rcases List.mem_append.1 hs with hs | hs
    · exact h.past s hs
    · obtain ⟨w, hw, rfl⟩ := List.mem_map.1 hs
      exact h.fresh w (List.mem_filter.1 hw).1
  refine ⟨fun id => ?_, hout ▸ h.distinct, ?_, ?_, ?_, ?_⟩
  · have hworks : (c.retireInactive activeIds).works id = c.works id := by
      simp only [works, hout]
    have hactive : (c.retireInactive activeIds).isActive id = decide (id ∈ activeIds) := by
      simp only [isActive, hr.activeIds, prune]
    rw [hworks, hactive, row_retireInactive, hr.history]
    by_cases hid : id ∈ activeIds
    · rw [if_pos hid, decide_eq_true hid]
      refine (h.rows id).stay fun w hw hret => ?_
      rw [mem_works] at hw
      -- What this call retires is work of other ids.
      rcases List.mem_append.1 hret with hret | hret
      · exact hret
      · obtain ⟨w', hw', hs⟩ := List.mem_map.1 hret
        obtain ⟨hw', hout'⟩ := List.mem_filter.1 hw'
        obtain rfl := h.eq_of_serial hw' hw.1 hs
        exact absurd (hw.2 ▸ hid) (of_decide_eq_true hout')
    · rw [if_neg hid, decide_eq_false hid]
      exact (h.rows id).retire
  · rw [hout, hr.history]; exact h.fresh
  · rw [hr.history]; exact hpast
  · rw [hout, hr.history, hr.tasks]; exact h.tasks
  · rw [hr.history]; exact hr.cancelled

/-- A new item of an active episode. -/
theorem Coordinated.submit (h : c.Coordinated) {queue : List IntelligenceWork}
    (hq : c.queue = some queue) {payload : IntelligenceInput} (signal : Signal)
    (hactive : payload.signalId ∈ c.activeIds) :
    (c.submit queue (c.workFor payload signal)).Coordinated := by
  set work := c.workFor payload signal with hwork
  -- The item comes last in the queue, before what the workers hold.
  have hout : (c.submit queue work).outstanding.Perm (c.outstanding ++ [work]) := by
    simp only [outstanding, IntelligenceCoordinator.submit, hq, Option.getD_some, List.append_assoc]
    exact List.Perm.append_left _ List.perm_append_comm
  have hmem : ∀ {w}, w ∈ (c.submit queue work).outstanding ↔ w ∈ c.outstanding ∨ w = work := by
    intro w
    rw [hout.mem_iff, List.mem_append, List.mem_singleton]
  refine ⟨fun id => ?_, ?_, fun w hw => ?_, fun s hs => ?_, fun id s hs => ?_, h.cancelled⟩
  · have hworks : ((c.submit queue work).works id).Perm
        (c.works id ++ [work].filter fun w => decide (w.signalId = id)) := by
      rw [works, works, ← List.filter_append]
      exact hout.filter _
    rw [row_submit _ _ rfl]
    refine RowInv.perm ?_ hworks.symm
    by_cases hid : id = work.signalId
    · rw [if_pos hid]
      have htrue : c.isActive id = true := by
        rw [hid]; exact decide_eq_true hactive
      have hrow := h.rows id
      rw [htrue] at hrow
      have hgen : work.generation = (c.row id).generation.getD 0 + 1 := by rw [hid]; rfl
      have hsubmit := hrow.submit id work.payload.priority hgen fun hr => lt_irrefl _ (h.past _ hr)
      simpa [isActive, IntelligenceCoordinator.submit, hid, hwork, workFor, hactive] using hsubmit
    · rw [if_neg hid]
      change RowInv (c.isActive id) (c.row id) _ c.history.retired
      simpa [Ne.symm hid] using h.rows id
  · refine ((hout.map _).nodup_iff).2 ?_
    rw [List.map_append, List.nodup_append]
    refine ⟨h.distinct, List.nodup_singleton _, ?_⟩
    rintro s hs _ hs' rfl
    obtain ⟨w, hw, rfl⟩ := List.mem_map.1 hs
    exact absurd (List.mem_singleton.1 hs') (h.fresh w hw).ne
  · rcases hmem.1 hw with hw | rfl
    · exact (h.fresh w hw).trans (Nat.lt_succ_self _)
    · exact Nat.lt_succ_self _
  · exact (h.past s hs).trans (Nat.lt_succ_self _)
  · obtain ⟨hlt, htask⟩ := h.tasks id s hs
    refine ⟨hlt.trans (Nat.lt_succ_self _), fun w hw heq => ?_⟩
    rcases hmem.1 hw with hw | rfl
    · exact htask w hw heq
    · exact absurd heq.symm hlt.ne

theorem mem_activeIds_of_live {work : IntelligenceWork} (h : c.workIsLive work = true) :
    work.signalId ∈ c.activeIds ∧ c.generation.get? work.signalId = some work.generation := by
  simpa [workIsLive] using h

/-- Live work writes its row. -/
theorem Coordinated.store (h : c.Coordinated) (work : IntelligenceWork) {r : IntelligenceResult}
    (hr : r.signalId = work.signalId) : (c.store work r).Coordinated := by
  have hs := sameWork_store c work r
  refine ⟨fun id => ?_, hs.outstanding ▸ h.distinct, ?_, ?_, ?_, ?_⟩
  · have hworks : (c.store work r).works id = c.works id := by simp only [works, hs.outstanding]
    have hactive : (c.store work r).isActive id = c.isActive id := by
      simp only [isActive, hs.activeIds]
    rw [hworks, hactive, hs.history, row_store]
    split
    · next hw =>
      obtain ⟨hlive, rfl⟩ := hw
      have htrue : c.isActive r.signalId = true := by
        rw [hr]; exact decide_eq_true (mem_activeIds_of_live hlive).1
      have hrow := h.rows r.signalId
      rw [htrue] at hrow ⊢
      exact hrow.put r
    · exact h.rows id
  · rw [hs.outstanding, hs.history]; exact h.fresh
  · rw [hs.history]; exact h.past
  · rw [hs.outstanding, hs.history, hs.tasks]; exact h.tasks
  · rw [hs.busy, hs.history]; exact h.cancelled

/-- An item leaves the queue or its worker, and is released. -/
theorem Coordinated.release (h : c.Coordinated) {work : IntelligenceWork}
    (hout : c.outstanding.Perm (work :: c₁.outstanding)) (hrow : ∀ id, c₁.row id = c.row id)
    (hactive : c₁.activeIds = c.activeIds) (hhist : c₁.history = c.history)
    (htasks : ∀ id s, c₁.inFlightTasks.get? id = some s → c.inFlightTasks.get? id = some s)
    (hbusy : ∀ call ∈ c₁.busy, call ∈ c.busy) : (c₁.release work).Coordinated := by
  have hs : SameWork c₁ (c₁.release work) :=
    (sameWork_releasePending c₁ work.signalId).trans ⟨rfl, rfl, rfl, rfl, rfl⟩
  have hsub : ∀ w ∈ c₁.outstanding, w ∈ c.outstanding := fun w hw =>
    hout.mem_iff.2 (List.mem_cons_of_mem _ hw)
  have hnodup : (c.outstanding.map (·.serial)).Perm
      (work.serial :: c₁.outstanding.map (·.serial)) := hout.map _
  refine ⟨fun id => ?_, ?_, fun w hw => ?_, ?_, fun id s ht => ?_, fun call hcall hc => ?_⟩
  · have hworks : (c₁.release work).works id = c₁.works id := by
      simp only [works, hs.outstanding]
    have hact : (c₁.release work).isActive id = c.isActive id := by
      simp only [isActive, hs.activeIds, hactive]
    have hact₁ : c₁.isActive work.signalId = c.isActive work.signalId := by
      simp only [isActive, hactive]
    -- The rows lose the item that is released, and those of other ids lose nothing.
    have hperm : (c.works id).Perm ((work :: c₁.outstanding).filter fun w =>
        decide (w.signalId = id)) := hout.filter _
    have hinv := (h.rows id).perm hperm
    change RowInv _ ((c₁.releasePending work.signalId).row id) _ _
    rw [hworks, hact, hs.history, hhist, row_releasePending, hrow, hrow, hact₁]
    by_cases hid : id = work.signalId
    · subst hid
      rw [List.filter_cons_of_pos (by simp)] at hinv
      rw [if_pos rfl]
      exact hinv.release
    · rw [List.filter_cons_of_neg (by simpa using Ne.symm hid)] at hinv
      rw [if_neg hid]
      exact hinv
  · rw [hs.outstanding]
    exact (List.nodup_cons.1 (hnodup.nodup_iff.1 h.distinct)).2
  · rw [hs.history, hhist]
    exact h.fresh w (hsub w (hs.outstanding ▸ hw))
  · rw [hs.history, hhist]; exact h.past
  · rw [hs.tasks] at ht
    obtain ⟨hlt, htask⟩ := h.tasks id s (htasks id s ht)
    rw [hs.history, hhist]
    exact ⟨hlt, fun w hw => htask w (hsub w (hs.outstanding ▸ hw))⟩
  · rw [hs.history, hhist]
    exact h.cancelled call (hbusy call (hs.busy ▸ hcall)) hc

/-- An item goes from the queue to a worker. -/
theorem Coordinated.call (h : c.Coordinated) {work : IntelligenceWork}
    {queue : List IntelligenceWork} (hq : c.queue = some (work :: queue)) (waiting : ℕ) :
    ((c.dequeue queue waiting).call work).Coordinated := by
  set c' := (c.dequeue queue waiting).call work with hc'
  -- The item only moves, so what is outstanding stays the same.
  have hout : c.outstanding.Perm c'.outstanding := by
    simp only [outstanding, hc', IntelligenceCoordinator.call, dequeue, hq, Option.getD_some, List.map_append,
      List.map_cons, List.map_nil, ← List.append_assoc]
    exact (List.perm_append_singleton work _).symm
  have hwork : work ∈ c.outstanding := by simp [outstanding, hq]
  refine ⟨fun id => ?_, ?_, fun w hw => ?_, h.past, fun id s ht => ?_, fun call hcall hc => ?_⟩
  · exact (h.rows id).perm (hout.filter _)
  · exact ((hout.map _).nodup_iff).1 h.distinct
  · exact h.fresh w (hout.mem_iff.2 hw)
  · simp only [hc', IntelligenceCoordinator.call, dequeue, Dict.get?_set] at ht
    split at ht
    · next hid =>
      obtain rfl : work.serial = s := Option.some.inj ht
      refine ⟨h.fresh work hwork, fun w hw heq => ?_⟩
      rw [h.eq_of_serial (hout.mem_iff.2 hw) hwork heq, hid]
    · obtain ⟨hlt, htask⟩ := h.tasks id s ht
      exact ⟨hlt, fun w hw => htask w (hout.mem_iff.2 hw)⟩
  · rcases List.mem_append.1 hcall with hcall | hcall
    · exact h.cancelled call hcall hc
    · rw [List.mem_singleton] at hcall
      subst hcall
      cases hc

/-- What `take` does: it calls the provider for live work, and discards the rest. -/
theorem take_cases (h : c.take = some c₁) : ∃ work queue waiting,
    c.queue = some (work :: queue) ∧ c.waiting = waiting + 1 ∧
      ((c.workIsLive work = true ∧
          c₁ = ((c.dequeue queue waiting).call work).store work
            (plainResult work.signalId .running (c.calls.getD work.signalId 0))) ∨
        (c.workIsLive work = false ∧ c₁ = (c.dequeue queue waiting).discard.release work)) := by
  unfold IntelligenceCoordinator.take at h
  split at h
  · next work queue waiting hq hwait =>
    have hsame : (c.dequeue queue waiting).workIsLive work = c.workIsLive work := rfl
    refine ⟨work, queue, waiting, hq, hwait, ?_⟩
    dsimp only at h
    rw [hsame] at h
    split at h
    · next hlive => exact .inl ⟨hlive, (Option.some.inj h).symm⟩
    · next hlive => exact .inr ⟨by simpa using hlive, (Option.some.inj h).symm⟩
  · cases h

theorem Coordinated.take (h : c.Coordinated) (ht : c.take = some c₁) : c₁.Coordinated := by
  obtain ⟨work, queue, waiting, hq, -, ⟨-, rfl⟩ | ⟨-, rfl⟩⟩ := take_cases ht
  · exact (h.call hq waiting).store work rfl
  · refine h.release ?_ (fun _ => rfl) rfl rfl (fun _ _ hs => hs) (fun _ hcall => hcall)
    simp only [outstanding, hq, discard, dequeue, Option.getD_some, List.cons_append]
    exact List.Perm.refl _

/-- What the rest of `_execute` does: live work that was answered writes a final row. -/
theorem conclude_cases (c : IntelligenceCoordinator) (work : IntelligenceWork)
    (outcome : CallOutcome) (wall elapsed : ℚ) :
    ∃ t d, (c.conclude work outcome wall elapsed = c.quiet t d ∧
        (outcome = .cancelled ∨ c.workIsLive work = false)) ∨
      ∃ r, c.conclude work outcome wall elapsed = (c.put r).quiet t d ∧
        c.workIsLive work = true ∧ r.signalId = work.signalId ∧
          (r.status = .enriched ∨ r.status = .fallback) := by
  unfold conclude
  cases outcome with
  | cancelled => exact ⟨_, _, .inl ⟨rfl, .inl rfl⟩⟩
  | returned completion parseS =>
    dsimp only
    split
    · next hlive =>
      rw [store_of_live hlive]
      unfold emitSucceeded
      dsimp only
      split <;> exact ⟨_, _, .inr ⟨_, rfl, hlive, rfl, .inl rfl⟩⟩
    · next hlive => exact ⟨_, _, .inl ⟨rfl, .inr (by simpa using hlive)⟩⟩
  | raised error =>
    have hsame : (c.countFallback error).workIsLive work = c.workIsLive work := rfl
    dsimp only
    rw [hsame]
    split
    · next hlive =>
      rw [store_of_live (hsame.trans hlive)]
      exact ⟨_, _, .inr ⟨_, rfl, hlive, rfl, .inr rfl⟩⟩
    · next hlive => exact ⟨_, _, .inl ⟨rfl, .inr (by simpa using hlive)⟩⟩

/-- What `settle` does. -/
theorem settle_cases {i : ℕ} {outcome : CallOutcome} {wall elapsed : ℚ}
    (h : c.settle i outcome wall elapsed = some c₁) : ∃ call, c.busy[i]? = some call ∧
      c₁ = ((c.conclude call.work outcome wall elapsed).hangUp i call.work).release call.work := by
  unfold settle at h
  split at h
  · cases h
  · next call hcall => exact ⟨call, hcall, (Option.some.inj h).symm⟩

theorem Coordinated.conclude (h : c.Coordinated) (work : IntelligenceWork)
    (outcome : CallOutcome) (wall elapsed : ℚ) :
    (c.conclude work outcome wall elapsed).Coordinated := by
  obtain ⟨t, d, ⟨heq, -⟩ | ⟨r, heq, hlive, hr, -⟩⟩ := conclude_cases c work outcome wall elapsed
  · rw [heq]; exact h.quiet t d
  · have hstore := h.store work hr
    rw [store_of_live hlive] at hstore
    rw [heq]; exact hstore.quiet t d

theorem sameWork_conclude (c : IntelligenceCoordinator) (work : IntelligenceWork)
    (outcome : CallOutcome) (wall elapsed : ℚ) :
    SameWork c (c.conclude work outcome wall elapsed) := by
  obtain ⟨t, d, ⟨heq, -⟩ | ⟨r, heq, -⟩⟩ := conclude_cases c work outcome wall elapsed <;>
    rw [heq] <;> exact ⟨rfl, rfl, rfl, rfl, rfl⟩

/-- The item of a call leaves with its worker. -/
theorem outstanding_hangUp {i : ℕ} {call : ModelCall} (h : c.busy[i]? = some call) :
    c.outstanding.Perm (call.work :: (c.hangUp i call.work).outstanding) := by
  obtain ⟨hi, rfl⟩ := List.getElem?_eq_some_iff.1 h
  have hbusy : (c.busy.map (·.work)).Perm
      (c.busy[i].work :: (c.busy.eraseIdx i).map (·.work)) :=
    (List.getElem_cons_eraseIdx_perm hi).symm.map _
  refine (hbusy.append_left _).trans ?_
  exact List.perm_middle

theorem Coordinated.settle (h : c.Coordinated) {i : ℕ} {outcome : CallOutcome} {wall elapsed : ℚ}
    (hs : c.settle i outcome wall elapsed = some c₁) : c₁.Coordinated := by
  obtain ⟨call, hcall, rfl⟩ := settle_cases hs
  have hsame := sameWork_conclude c call.work outcome wall elapsed
  refine (h.conclude call.work outcome wall elapsed).release
    (outstanding_hangUp (hsame.busy ▸ hcall)) (fun _ => rfl) rfl rfl (fun id s ht => ?_)
    fun _ hmem => List.mem_of_mem_eraseIdx hmem
  simp only [hangUp, Dict.get?_pop] at ht
  split at ht
  · cases ht
  · exact ht

/-! ## Observation -/

/-- What one signal does: nothing but telemetry, or it submits work for an active id within its
budget. -/
theorem observeSignal_cases (env : ObserveEnv) (row : SymbolTickResult)
    (c : IntelligenceCoordinator) (signal : Signal) :
    ∃ t d, observeSignal env row c signal = c.quiet t d ∨
      ∃ d' queue payload, observeSignal env row c signal =
          ((c.quiet c.telemetry d').submit queue ((c.quiet c.telemetry d').workFor payload signal)).quiet
            t d ∧
        c.queue = some queue ∧ c.queueFull queue = false ∧ payload.signalId = signal.id ∧
          signal.id ∈ c.activeIds ∧
          budgetAllowsCall c.budget (c.calls.getD signal.id 0) signal.priority
            (c.lastPriority.get? signal.id) = true := by
  unfold observeSignal
  split
  · exact ⟨c.telemetry, c.diagnostics, .inl rfl⟩
  · next trace _ =>
    dsimp only
    split
    · split <;> exact ⟨_, _, .inl rfl⟩
    · next hreq =>
      obtain ⟨hexp, hbudget⟩ := needIntelligence_requested (by simpa using hreq)
      -- A payload is requested only for a signal that is active, within the budget.
      have hactive : signal.id ∈ c.activeIds := by
        simpa [payloadFor, compressIntelligenceInput] using hexp
      have hq : c.countDecision.queue = c.queue := rfl
      have hfull : c.countDecision.queueFull = c.queueFull := rfl
      unfold enqueue
      rw [hq, hfull]
      cases hqueue : c.queue with
      | none => exact ⟨_, _, .inl rfl⟩
      | some queue =>
        dsimp only
        split
        · exact ⟨_, _, .inl rfl⟩
        · next hnot =>
          exact ⟨_, _, .inr ⟨_, queue, _, rfl, rfl, by simpa using hnot, rfl, hactive, hbudget⟩⟩

/-- **A rule for what `observe_tick` keeps.** It retires, and it submits work for the active ids of
the tick's signals, within their budget. -/
theorem observeTick_rule {P : IntelligenceCoordinator → Prop} {env : ObserveEnv}
    {tick : EngineTickResult} {activeIds : Option (List String)}
    (hquiet : ∀ c t d, P c → P (c.quiet t d))
    (hsubmit : ∀ c queue payload signal, P c → c.queue = some queue →
      payload.signalId = signal.id → (∃ row ∈ tick.symbolResults, signal ∈ row.signalUpdates) →
      signal.id ∈ c.activeIds →
      budgetAllowsCall c.budget (c.calls.getD signal.id 0) signal.priority
        (c.lastPriority.get? signal.id) = true →
      P (c.submit queue (c.workFor payload signal)))
    (hc : P (c.retireInactive (currentActive env.now tick activeIds))) :
    P (c.observeTick env tick activeIds) := by
  have hsignal : ∀ row ∈ tick.symbolResults, ∀ signal ∈ row.signalUpdates, ∀ c, P c →
      P (observeSignal env row c signal) := by
    intro row hrow signal hsig c hc
    obtain ⟨t, d, heq | ⟨d', queue, payload, heq, hq, -, hid, hactive, hbudget⟩⟩ :=
      observeSignal_cases env row c signal
    · rw [heq]; exact hquiet c t d hc
    · rw [heq]
      exact hquiet _ t d
        (hsubmit _ queue payload signal (hquiet c _ d' hc) hq hid ⟨row, hrow, hsig⟩ hactive hbudget)
  have hfold : P (tick.symbolResults.foldl (observeRow env)
      (c.retireInactive (currentActive env.now tick activeIds))) :=
    List.foldlRecOn (motive := P) _ _ hc fun c hc row hrow =>
      List.foldlRecOn (motive := P) _ _ hc fun c hc signal hsig => hsignal row hrow signal hsig c hc
  unfold observeTick measureDepth
  split
  · exact hfold
  · exact hquiet _ _ _ hfold

theorem Coordinated.observeTick (h : c.Coordinated) (env : ObserveEnv) (tick : EngineTickResult)
    (activeIds : Option (List String)) : (c.observeTick env tick activeIds).Coordinated := by
  refine observeTick_rule (P := Coordinated) (fun c t d hc => hc.quiet t d) ?_
    (h.retireInactive _)
  intro c queue payload signal hc hq hid _ hactive _
  exact hc.submit hq signal (hid ▸ hactive)

/-- **Every step keeps the invariant.** -/
theorem Coordinated.of_step (h : c.Coordinated) {l : CoordinatorStep} (hs : c.step l = some c₁) :
    c₁.Coordinated := by
  cases l with
  | observe env tick activeIds =>
    obtain rfl := Option.some.inj hs
    exact h.observeTick env tick activeIds
  | take => exact h.take hs
  | settle i outcome wall elapsed => exact h.settle hs

end Steps

/-- **Every run keeps the invariant.** -/
theorem coordinated_of_run {queueSize : ℤ} {concurrency : ℕ} {budget : EpisodeCallBudget}
    {policy : RouterPolicy} {telemetry : Option TelemetryRuntime} {c : IntelligenceCoordinator}
    {steps : List CoordinatorStep}
    (hrun : run step (new queueSize concurrency budget policy telemetry).start steps = some c) :
    c.Coordinated :=
  run_inv (I := Coordinated) (fun _ _ _ h hs => h.of_step hs)
    (coordinated_start queueSize concurrency budget policy telemetry) hrun

/-- The work item that a step handles. -/
def handled (c : IntelligenceCoordinator) : CoordinatorStep → Option IntelligenceWork
  | .observe .. => none
  | .take => (c.queue.getD []).head?
  | .settle i .. => (c.busy[i]?).map (·.work)

theorem registry_release (c : IntelligenceCoordinator) (work : IntelligenceWork) :
    (c.release work).registry = c.registry := by
  unfold release releasePending maybeForget
  split
  · rfl
  · split <;> rfl

/-- What is retired stays retired. -/
theorem retired_of_step {c c' : IntelligenceCoordinator} {l : CoordinatorStep} (h : c.Coordinated)
    (hs : c.step l = some c') : ∀ s ∈ c.history.retired, s ∈ c'.history.retired := by
  have hrelease : ∀ (c : IntelligenceCoordinator) (work : IntelligenceWork),
      (c.release work).history = c.history := fun c work =>
    (sameWork_releasePending c work.signalId).history
  cases l with
  | observe env tick activeIds =>
    obtain rfl := Option.some.inj hs
    refine observeTick_rule (P := fun c' => ∀ s ∈ c.history.retired, s ∈ c'.history.retired)
      (fun c t d hc => hc) (fun c queue payload signal hc _ _ _ _ _ => hc) fun s hr => ?_
    rw [(retiring_retireInactive h _).history]
    exact List.mem_append_left _ hr
  | take =>
    obtain ⟨work, queue, waiting, -, -, ⟨-, rfl⟩ | ⟨-, rfl⟩⟩ := take_cases hs
    · rw [(sameWork_store _ _ _).history]; exact fun s hr => hr
    · rw [hrelease]; exact fun s hr => hr
  | settle i outcome wall elapsed =>
    obtain ⟨call, -, rfl⟩ := settle_cases hs
    rw [hrelease]
    change ∀ s ∈ c.history.retired, s ∈ (c.conclude call.work outcome wall elapsed).history.retired
    rw [(sameWork_conclude c call.work outcome wall elapsed).history]
    exact fun s hr => hr

/-- **No stale resurrection.** After any run, whatever the number of workers and the budget: every
id in the registry is active, and a step that handles an item whose signal was retired after the
item was queued does not write the registry; what is retired stays retired. -/
theorem no_stale_resurrection {queueSize : ℤ} {concurrency : ℕ} {budget : EpisodeCallBudget}
    {policy : RouterPolicy} {telemetry : Option TelemetryRuntime} {c : IntelligenceCoordinator}
    {steps : List CoordinatorStep}
    (hrun : run step (new queueSize concurrency budget policy telemetry).start steps = some c) :
    (∀ id ∈ c.registry.keys, id ∈ c.activeIds) ∧
      (∀ l c' work, c.step l = some c' → c.handled l = some work →
        work.serial ∈ c.history.retired → c'.registry = c.registry) ∧
      ∀ l c', c.step l = some c' → ∀ s ∈ c.history.retired, s ∈ c'.history.retired := by
  have h := coordinated_of_run hrun
  refine ⟨h.registry_active, fun l c' work hs hwork hret => ?_, fun l c' hs => retired_of_step h hs⟩
  cases l with
  | observe env tick activeIds => cases hwork
  | take =>
    obtain ⟨work', queue, waiting, hq, -, htake⟩ := take_cases hs
    obtain rfl : work' = work := by simpa [handled, hq] using hwork
    -- A retired item is no longer live, so nothing is stored for it.
    have hdead := h.not_live (by simp [outstanding, hq]) hret
    rcases htake with ⟨hlive, -⟩ | ⟨-, rfl⟩
    · rw [hdead] at hlive; cases hlive
    · rw [registry_release]; rfl
  | settle i outcome wall elapsed =>
    obtain ⟨call, hcall, rfl⟩ := settle_cases hs
    obtain rfl : call.work = work := by simpa [handled, hcall] using hwork
    have hdead := h.not_live (busy_outstanding (List.mem_of_getElem? hcall)) hret
    obtain ⟨t, d, ⟨heq, -⟩ | ⟨r, -, hlive, -⟩⟩ := conclude_cases c call.work outcome wall elapsed
    · rw [registry_release, heq]; rfl
    · rw [hdead] at hlive; cases hlive

/-! ## A retired call that answers late -/

/-- A signal of symbol A at priority important. -/
def importantSignal (id : String) : Signal where
  id := id
  eventIds := ["e"]
  symbol := "A"
  family := "price"
  direction := .up
  priority := .important
  title := ""
  summary := ""
  generatedBy := .rule
  marketTimestamp := 1
  receivedTimestamp := 1
  detectedTimestamp := 1
  signalCreatedTimestamp := 1

/-- Its trace, with a one-minute change. -/
def importantTrace (id : String) : SignalTrace where
  signalId := id
  eventIds := ["e"]
  ruleNames := ["rapid_move"]
  features :=
    { symbol := "A", marketTimestamp := 1, receivedTimestamp := 1, change1m := some (1 / 100)
      change5m := none, change15m := none, changeDay := none, dayRangePosition := none
      volume1m := none, volume5m := none, volumeRatio1m := none, volumeRatio5m := none
      vwap := none, aboveVwap := none, ema5 := none, ema20 := none, rsi14 := none
      sessionHighRef := none, sessionLowRef := none, sessionHighObs := 0, sessionLowObs := 0 }
  family := "price"
  direction := .up
  priority := .important
  priorityReason := ""
  detectedTimestamp := 1
  signalCreatedTimestamp := 1

/-- A tick that alerts on a signal. -/
def alertTick (id : String) : EngineTickResult where
  symbolResults :=
    [{ symbol := "A", features := none, acceptedEvents := [], signalUpdates := [importantSignal id]
       traces := [importantTrace id], alertCandidates := [importantSignal id]
       levelBefore := .hot, levelAfter := .hot }]

def liveEnv : ObserveEnv where
  now := 1
  feedStatusFor _ := .live
  routerS _ := 0

/-- The signal is queued and called for, retired, and active again with a second request. -/
def reactivatedRun : List CoordinatorStep :=
  [.observe liveEnv (alertTick "s") none, .take, .observe liveEnv ⟨[]⟩ none,
    .observe liveEnv (alertTick "s") none]

theorem no_stale_resurrection_reactivated :
    ∃ c, run step (new 8 1 { maxCalls := 2 } {} none).start reactivatedRun = some c ∧
      (∀ id ∈ c.registry.keys, id ∈ c.activeIds) ∧
        (∀ l c' work, c.step l = some c' → c.handled l = some work →
          work.serial ∈ c.history.retired → c'.registry = c.registry) ∧
        ∀ l c', c.step l = some c' → ∀ s ∈ c.history.retired, s ∈ c'.history.retired := by
  obtain ⟨c, hc⟩ : ∃ c, run step (new 8 1 { maxCalls := 2 } {} none).start reactivatedRun = some c :=
    Option.isSome_iff_exists.1 (by decide +kernel)
  exact ⟨c, hc, no_stale_resurrection hc⟩

end IntelligenceCoordinator

end MarketSentinel
