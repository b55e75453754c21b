import MarketSentinel.Intelligence.Liveness

/-!
# The coordinator at rest

Provided each provider call returns or raises an `Exception`, a row that still shows a request as
queued or running belongs to the current work of its episode (`RowOpen`). With no work
outstanding there is no such row, nothing is pending and no table holds an inactive id.

* `Settling.of_step`: every step keeps this.
* `quiescent`: the state between bursts of work, and an enqueue on a full queue.
-/

namespace MarketSentinel

open Lib Machine

/-- The row shows a request that is neither enriched nor failed. -/
def EpisodeRow.Showing (row : EpisodeRow) : Prop :=
  ∃ r, row.result = some r ∧ r.status ≠ .enriched ∧ r.status ≠ .fallback

/-- A row that shows a request belongs to current work. -/
def RowOpen (row : EpisodeRow) (works : List IntelligenceWork) : Prop :=
  row.Showing → ∃ work ∈ works, row.generation = some work.generation

section RowOpen

variable {active : Bool} {row : EpisodeRow} {works works' : List IntelligenceWork}
  {retired : List ℕ} {work : IntelligenceWork}

theorem RowOpen.mono (h : RowOpen row works) (hs : ∀ w ∈ works, w ∈ works') : RowOpen row works' :=
  fun hshow => (h hshow).imp fun w hw => ⟨hs w hw.1, hw.2⟩

/-- A row without a result shows nothing. -/
theorem rowOpen_of_none (h : row.result = none) : RowOpen row works := by
  rintro ⟨r, hr, -⟩
  rw [h] at hr
  cases hr

/-- An item may go once its row shows nothing, or shows other work. -/
theorem RowOpen.release (h : RowOpen row (work :: works))
    (hinv : RowInv active row (work :: works) retired)
    (hother : row.Showing → row.generation ≠ some work.generation) :
    RowOpen (row.releasePending active) works := by
  cases active with
  | false =>
    have hnone : row.result = none := by
      by_contra hn
      exact absurd (hinv.shown hn) (by decide)
    exact rowOpen_of_none (by simpa using hnone)
  | true =>
    rintro ⟨r, hr, hstatus⟩
    have hshow : row.Showing := ⟨r, hr, hstatus⟩
    obtain ⟨w, hw, hgen⟩ := h hshow
    rcases List.mem_cons.1 hw with rfl | hw
    · exact absurd hgen (hother hshow)
    · exact ⟨w, hw, hgen⟩

end RowOpen

namespace IntelligenceCoordinator

/-- Rows that show a request belong to current work, besides what every run keeps. -/
structure Settling (c : IntelligenceCoordinator) : Prop extends Coordinated c where
  shown : ∀ id, RowOpen (c.row id) (c.works id)

/-- A provider call returns or raises an `Exception`; it is cancelled only on request. -/
def CallsAnswer (c : IntelligenceCoordinator) : CoordinatorStep → Prop
  | .settle i .cancelled _ _ => ∀ call ∈ c.busy[i]?, call.cancelled = true
  | _ => True

instance (c : IntelligenceCoordinator) : ∀ l, Decidable (c.CallsAnswer l)
  | .settle i .cancelled _ _ =>
    inferInstanceAs (Decidable (∀ call ∈ c.busy[i]?, call.cancelled = true))
  | .settle _ (.returned ..) _ _ => isTrue trivial
  | .settle _ (.raised ..) _ _ => isTrue trivial
  | .observe .. => isTrue trivial
  | .take => isTrue trivial

section Steps

variable {c c₁ : IntelligenceCoordinator}

theorem Settling.quiet (h : c.Settling) (t : Option TelemetryRuntime)
    (d : IntelligenceDiagnostics) : (c.quiet t d).Settling :=
  ⟨h.toCoordinated.quiet t d, h.shown⟩

theorem Settling.retireInactive (h : c.Settling) (activeIds : List String) :
    (c.retireInactive activeIds).Settling := by
  refine ⟨h.toCoordinated.retireInactive activeIds, fun id => ?_⟩
  have hworks : (c.retireInactive activeIds).works id = c.works id := by
    have hout := (retiring_retireInactive h.toCoordinated activeIds).outstanding
    simp only [works, hout]
    rfl
  rw [row_retireInactive, hworks]
  split
  · exact h.shown id
  · exact rowOpen_of_none (by simp)

theorem Settling.submit (h : c.Settling) {queue : List IntelligenceWork}
    (hq : c.queue = some queue) {payload : IntelligenceInput} (signal : Signal)
    (hactive : payload.signalId ∈ c.activeIds) :
    (c.submit queue (c.workFor payload signal)).Settling := by
  refine ⟨h.toCoordinated.submit hq signal hactive, fun id => ?_⟩
  have hmem : ∀ {w}, w ∈ (c.submit queue (c.workFor payload signal)).outstanding ↔
      w ∈ c.outstanding ∨ w = c.workFor payload signal := by
    intro w
    simp only [outstanding, IntelligenceCoordinator.submit, hq, Option.getD_some, List.mem_append,
      List.mem_singleton]
    exact or_right_comm
  rw [row_submit _ _ rfl]
  split
  · next hid =>
    exact fun _ => ⟨c.workFor payload signal, mem_works.2 ⟨hmem.2 (.inr rfl), hid.symm⟩, by
      rw [hid]; rfl⟩
  · refine (h.shown id).mono fun w hw => ?_
    rw [mem_works] at hw ⊢
    exact ⟨hmem.2 (.inl hw.1), hw.2⟩

theorem Settling.observeTick (h : c.Settling) (env : ObserveEnv) (tick : EngineTickResult)
    (activeIds : Option (List String)) : (c.observeTick env tick activeIds).Settling := by
  refine observeTick_rule (P := Settling) (fun c t d hc => hc.quiet t d) ?_ (h.retireInactive _)
  intro c queue payload signal hc hq hid _ hactive _
  exact hc.submit hq signal (hid ▸ hactive)

/-- Live work that is called for shows as running. -/
theorem Settling.call (h : c.Settling) {work : IntelligenceWork} {queue : List IntelligenceWork}
    (hq : c.queue = some (work :: queue)) (waiting : ℕ) (hlive : c.workIsLive work = true)
    {r : IntelligenceResult} (hr : r.signalId = work.signalId) :
    (((c.dequeue queue waiting).call work).store work r).Settling := by
  have hcall := h.toCoordinated.call hq waiting
  refine ⟨hcall.store work hr, fun id => ?_⟩
  have hsame := sameWork_store ((c.dequeue queue waiting).call work) work r
  have hworks : ∀ {w}, w ∈ c.works id →
      w ∈ (((c.dequeue queue waiting).call work).store work r).works id := by
    intro w hw
    rw [mem_works] at hw ⊢
    refine ⟨?_, hw.2⟩
    rw [hsame.outstanding]
    simp only [outstanding, hq, Option.getD_some, List.cons_append, List.mem_cons,
      List.mem_append] at hw
    simp only [outstanding, dequeue, IntelligenceCoordinator.call, Option.getD_some, List.map_append,
      List.mem_append, List.map_cons, List.map_nil, List.mem_singleton]
    tauto
  have hrow : ∀ id, ((c.dequeue queue waiting).call work).row id = c.row id := fun _ => rfl
  rw [row_store, hrow]
  split
  · next hid =>
    have hwork : work ∈ c.works id := mem_works.2 ⟨by simp [outstanding, hq], by rw [hid.2, hr]⟩
    -- The work itself is what the row shows.
    refine fun _ => ⟨work, hworks hwork, ?_⟩
    rw [hid.2, hr]
    exact (mem_activeIds_of_live hlive).2
  · exact (h.shown id).mono fun w hw => hworks hw

/-- The other items of an episode than the one that goes. -/
theorem Settling.release {work : IntelligenceWork} (h : c.Settling)
    (hreleased : (c₁.release work).Coordinated)
    (hout : c.outstanding.Perm (work :: c₁.outstanding)) (hrow : ∀ id, c₁.row id = c.row id)
    (hactive : c₁.activeIds = c.activeIds)
    (hother : (c.row work.signalId).Showing →
      (c.row work.signalId).generation ≠ some work.generation) :
    (c₁.release work).Settling := by
  refine ⟨hreleased, fun id => ?_⟩
  have hs : SameWork c₁ (c₁.release work) :=
    (sameWork_releasePending c₁ work.signalId).trans ⟨rfl, rfl, rfl, rfl, rfl⟩
  have hworks : (c₁.release work).works id = c₁.works id := by simp only [works, hs.outstanding]
  have hperm : (c.works id).Perm ((work :: c₁.outstanding).filter fun w =>
      decide (w.signalId = id)) := hout.filter _
  have hact : c₁.isActive work.signalId = c.isActive work.signalId := by
    simp only [isActive, hactive]
  have hinv := (h.rows id).perm hperm
  have hopen := (h.shown id).mono fun w hw => hperm.mem_iff.1 hw
  change RowOpen ((c₁.releasePending work.signalId).row id) _
  rw [hworks, row_releasePending, hrow, hrow, hact]
  -- Only the row of the item's own signal loses work.
  by_cases hid : id = work.signalId
  · subst hid
    rw [List.filter_cons_of_pos (by simp)] at hinv hopen
    rw [if_pos rfl]
    exact hopen.release hinv hother
  · rw [List.filter_cons_of_neg (by simpa using Ne.symm hid)] at hopen
    rw [if_neg hid]
    exact hopen

/-- Dead work does not own what its row shows. -/
theorem Settling.other_of_dead (h : c.Settling) {work : IntelligenceWork}
    (hdead : c.workIsLive work = false) :
    (c.row work.signalId).Showing → (c.row work.signalId).generation ≠ some work.generation := by
  rintro ⟨r, hr, -⟩ hgen
  have hactive : work.signalId ∈ c.activeIds := by
    have := (h.rows work.signalId).shown (by rw [hr]; exact Option.some_ne_none r)
    simpa [isActive] using this
  have hlive : c.workIsLive work = true := by
    simp only [workIsLive, Bool.and_eq_true, decide_eq_true_eq]
    exact ⟨hactive, hgen⟩
  rw [hdead] at hlive
  cases hlive

theorem Settling.take (h : c.Settling) (ht : c.take = some c₁) : c₁.Settling := by
  have hcoord := h.toCoordinated.take ht
  obtain ⟨work, queue, waiting, hq, -, ⟨hlive, rfl⟩ | ⟨hdead, rfl⟩⟩ := take_cases ht
  · exact h.call hq waiting hlive rfl
  · refine h.release hcoord ?_ (fun _ => rfl) rfl (h.other_of_dead hdead)
    simp only [outstanding, hq, discard, dequeue, Option.getD_some, List.cons_append]
    exact List.Perm.refl _

theorem Settling.settle (h : c.Settling) {i : ℕ} {outcome : CallOutcome} {wall elapsed : ℚ}
    (hs : c.settle i outcome wall elapsed = some c₁)
    (hanswer : c.CallsAnswer (.settle i outcome wall elapsed)) : c₁.Settling := by
  have hcoord := h.toCoordinated.settle hs
  obtain ⟨call, hcall, rfl⟩ := settle_cases hs
  obtain ⟨t, d, ⟨heq, hwhy⟩ | ⟨r, heq, hlive, hr, hfinal⟩⟩ :=
    conclude_cases c call.work outcome wall elapsed
  · rw [heq] at hcoord ⊢
    have hdead : c.workIsLive call.work = false := by
      rcases hwhy with rfl | hdead
      · -- A call that was asked to cancel is for an item that was retired.
        have hmem := List.mem_of_getElem? hcall
        exact h.toCoordinated.not_live (busy_outstanding hmem)
          (h.cancelled call hmem (hanswer call hcall))
      · exact hdead
    exact (h.quiet t d).release hcoord (outstanding_hangUp hcall) (fun _ => rfl) rfl
      (h.other_of_dead hdead)
  · -- The outcome is stored for a live item, and it is final.
    have hput : (c.put r).Settling := by
      have hstore := h.toCoordinated.store call.work hr
      rw [store_of_live hlive] at hstore
      refine ⟨hstore, fun id => ?_⟩
      -- Storing a result changes its own row only.
      have hrow : (c.put r).row id =
          if id = r.signalId then { c.row id with result := some r } else c.row id := by
        have := row_store c id call.work r
        rw [store_of_live hlive] at this
        simpa [hlive] using this
      rw [hrow]
      split
      · rintro ⟨r', hr', hne⟩
        obtain rfl := Option.some.inj hr'
        rcases hfinal with hf | hf
        · exact absurd hf hne.1
        · exact absurd hf hne.2
      · exact h.shown id
    rw [heq] at hcoord ⊢
    refine (hput.quiet t d).release hcoord (outstanding_hangUp hcall) (fun _ => rfl) rfl ?_
    rintro ⟨r', hr', hne⟩
    have hself : ((c.put r).row call.work.signalId).result = some r := by
      rw [← hr]; simp [row, put]
    obtain rfl := Option.some.inj (hself.symm.trans hr')
    rcases hfinal with hf | hf
    · exact absurd hf hne.1
    · exact absurd hf hne.2

/-- **Every step whose call answers keeps the invariant.** -/
theorem Settling.of_step (h : c.Settling) {l : CoordinatorStep} (hl : c.CallsAnswer l)
    (hs : c.step l = some c₁) : c₁.Settling := by
  cases l with
  | observe env tick activeIds =>
    obtain rfl := Option.some.inj hs
    exact h.observeTick env tick activeIds
  | take => exact h.take hs
  | settle i outcome wall elapsed => exact h.settle hs hl

end Steps

/-- No enqueue, no table: a full queue refuses the work and counts it. -/
theorem enqueue_full {c : IntelligenceCoordinator} {queue : List IntelligenceWork}
    (hq : c.queue = some queue) (hfull : c.queueFull queue = true) (payload : IntelligenceInput)
    (signal : Signal) : c.enqueue payload signal = (false, c.dropWork) := by
  unfold enqueue
  rw [hq]
  exact if_pos hfull

/-- The tables and the registry. -/
def tables (c : IntelligenceCoordinator) : Dict String ℕ × Dict String SignalPriority ×
    Dict String ℕ × Dict String ℕ × Dict String IntelligenceResult :=
  (c.calls, c.lastPriority, c.generation, c.pending, c.registry)

/-- **The coordinator at rest.** After any run whose provider calls return or raise, whatever the
number of workers and the budget: with an empty queue and no busy worker every row of the registry
is enriched or a fallback, nothing is pending, and the tables hold active ids only; and an enqueue
that finds the queue full changes no table and no row. -/
theorem quiescent {queueSize : ℤ} {concurrency : ℕ} {budget : EpisodeCallBudget}
    {policy : RouterPolicy} {telemetry : Option TelemetryRuntime} {c : IntelligenceCoordinator}
    {steps : List CoordinatorStep}
    (hrun : run step (new queueSize concurrency budget policy telemetry).start steps = some c)
    (hcalls : Along step CallsAnswer (new queueSize concurrency budget policy telemetry).start
      steps) :
    (c.queue.getD [] = [] → c.busy = [] →
      (∀ id r, c.registry.get? id = some r → r.status = .enriched ∨ r.status = .fallback) ∧
        c.pending.keys = [] ∧
        ∀ id, id ∈ c.calls.keys ∨ id ∈ c.generation.keys ∨ id ∈ c.lastPriority.keys →
          id ∈ c.activeIds) ∧
      ∀ queue payload signal, c.queue = some queue → c.queueFull queue = true →
        (c.enqueue payload signal).1 = false ∧ (c.enqueue payload signal).2.tables = c.tables := by
  have hstart : (new queueSize concurrency budget policy telemetry).start.Settling :=
    ⟨coordinated_start queueSize concurrency budget policy telemetry,
      fun _ => rowOpen_of_none rfl⟩
  have h : c.Settling := run_inv_of (fun _ _ _ h hl hs => h.of_step hl hs) hstart hcalls hrun
  refine ⟨fun hqueue hbusy => ?_, fun queue payload signal hq hfull => ?_⟩
  · -- Without a queue and a busy worker no work is outstanding for any signal.
    have hworks : ∀ id, c.works id = [] := by
      intro id
      simp [works, outstanding, hqueue, hbusy]
    refine ⟨fun id r hr => ?_, ?_, fun id hid => ?_⟩
    · by_contra hopen
      rw [not_or] at hopen
      obtain ⟨w, hw, -⟩ := h.shown id ⟨r, hr, hopen⟩
      rw [hworks] at hw
      cases hw
    · refine List.eq_nil_iff_forall_not_mem.2 fun id hid => ?_
      obtain ⟨n, hn⟩ := Dict.mem_keys.1 hid
      have hnone := (h.rows id).pending
      rw [hworks, if_pos rfl] at hnone
      exact Option.some_ne_none n (hn.symm.trans hnone)
    · by_contra hout
      have hempty := (h.rows id).kept (by simpa [isActive] using hout) (hworks id)
      simp only [row, EpisodeRow.empty, EpisodeRow.mk.injEq] at hempty
      obtain ⟨hc, hl, hg, -, -⟩ := hempty
      simp only [Dict.mem_keys, hc, hg, hl] at hid
      simp at hid
  · rw [enqueue_full hq hfull]
    exact ⟨rfl, rfl⟩

theorem quiescent_failed :
    ∃ c, run step (new 8 1 {} {} none).start
        [.observe liveEnv (alertTick "s") none, .take, .settle 0 (.raised .timeout) 2 1] = some c ∧
      (c.queue.getD [] = [] → c.busy = [] →
        (∀ id r, c.registry.get? id = some r → r.status = .enriched ∨ r.status = .fallback) ∧
          c.pending.keys = [] ∧
          ∀ id, id ∈ c.calls.keys ∨ id ∈ c.generation.keys ∨ id ∈ c.lastPriority.keys →
            id ∈ c.activeIds) ∧
      ∀ queue payload signal, c.queue = some queue → c.queueFull queue = true →
        (c.enqueue payload signal).1 = false ∧ (c.enqueue payload signal).2.tables = c.tables := by
  obtain ⟨c, hc⟩ : ∃ c, run step (new 8 1 {} {} none).start
      [.observe liveEnv (alertTick "s") none, .take, .settle 0 (.raised .timeout) 2 1] = some c :=
    Option.isSome_iff_exists.1 (by decide +kernel)
  exact ⟨c, hc, quiescent hc ⟨trivial, fun _ _ => ⟨trivial, fun _ _ => ⟨trivial, fun _ _ => trivial⟩⟩⟩⟩

end IntelligenceCoordinator

end MarketSentinel
