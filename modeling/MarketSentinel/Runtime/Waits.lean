import MarketSentinel.Runtime.Coherence
import MarketSentinel.Scheduler.Due

/-!
# The sleeps between two ticks

The tick loop sleeps for `next_wait_s` of the enabled symbols. Whatever its fetch returns or raises, a tick has
fetched every symbol that was due, so on a clock that stands still it leaves no symbol due, and the loop sleeps.

* `beginTick_wakes`: the tick after a sleep has a due symbol, and an earlier one has none.
* `endTick_waits`, `endIdleTick_waits`: after a tick the wait is positive.
-/

namespace MarketSentinel

open Lib

/-! ## Levels that move -/

/-- The levels of some symbols may move, and nothing else that a wait depends on. -/
structure Relevelled (due : List String) (s s' : AdaptiveScheduler) : Prop where
  policy : s'.policy = s.policy
  lastFetch : s'.lastFetchMono = s.lastFetchMono
  levels : ∀ symbol, symbol ∉ due → s'.getLevel symbol = s.getLevel symbol

namespace Relevelled

variable {due : List String} {s s' s'' : AdaptiveScheduler} {symbol : String}

theorem refl : Relevelled due s s := ⟨rfl, rfl, fun _ _ => rfl⟩

theorem trans (h : Relevelled due s s') (h' : Relevelled due s' s'') : Relevelled due s s'' :=
  ⟨h'.policy.trans h.policy, h'.lastFetch.trans h.lastFetch,
    fun symbol hout => (h'.levels symbol hout).trans (h.levels symbol hout)⟩

/-- The level of a due symbol may move. -/
theorem setLevel (hmem : symbol ∈ due) (now : ℚ) (level : SchedulerLevel) :
    Relevelled due s (s.setLevel now symbol level).2 where
  policy := by
    unfold AdaptiveScheduler.setLevel
    dsimp only
    split
    · rfl
    · split <;> rfl
  lastFetch := ClockedScheduler.lastFetchMono_setLevel s now symbol level false
  levels := by
    intro symbol' hout
    have hne : symbol' ≠ symbol := by
      rintro rfl
      exact hout hmem
    exact MarketEngine.getLevel_setLevel_ne s now level hne

end Relevelled

namespace MarketEngine

variable {env : TickEnv} {due : List String} {symbol : String}

/-- **Processing a due symbol.** -/
theorem relevelled_processSymbol (e : MarketEngine) (env : TickEnv) (hmem : symbol ∈ due) :
    Relevelled due e.scheduler (e.processSymbol env symbol).2.scheduler := by
  unfold processSymbol
  dsimp only
  split
  · exact .refl
  · split
    · exact .refl
    · unfold processBuffer
      split
      · exact .refl
      · exact .setLevel hmem _ _
      · split
        · exact .refl
        · exact .setLevel hmem _ _

/-- A tick moves the levels of due symbols only. -/
theorem relevelled_finishTick (e : MarketEngine) (env : TickEnv) (plan : TickPlan) :
    Relevelled plan.due e.scheduler (e.finishTick env plan).2.scheduler := by
  have hloop : Relevelled plan.due e.scheduler (plan.due.foldl (processNext env) ([], e)).2.scheduler := by
    refine List.foldlRecOn plan.due (processNext env)
      (motive := fun r => Relevelled plan.due e.scheduler r.2.scheduler) ?_ fun r h symbol hmem => ?_
    · exact Relevelled.refl
    exact h.trans (relevelled_processSymbol r.2 env hmem)
  unfold finishTick
  generalize plan.due.foldl (processNext env) ([], e) = r at hloop
  obtain ⟨rows, e₁⟩ := r
  dsimp only
  rwa [(observeTick_writes _ env ⟨rows⟩).2.2, (projectOthers_writes e₁ env plan).2.2.1]

/-! ## Symbols that were fetched -/

/-- The marks of a tick. -/
def markDue (env : TickEnv) (s : AdaptiveScheduler) (symbol : String) : AdaptiveScheduler :=
  s.markFetched (env.mono .markFetched symbol) symbol

/-- A loop over the due symbols marks each as fetched. -/
theorem scheduler_foldl {f : MarketEngine → String → MarketEngine}
    (hf : ∀ e symbol, (f e symbol).scheduler = markDue env e.scheduler symbol) (e : MarketEngine) :
    (due.foldl f e).scheduler = due.foldl (markDue env) e.scheduler :=
  (List.foldl_hom MarketEngine.scheduler fun e symbol => (hf e symbol).symm).symm

theorem scheduler_bookSymbol (snapshots : List MarketSnapshot) (e : MarketEngine) (symbol : String) :
    (bookSymbol env snapshots e symbol).scheduler = markDue env e.scheduler symbol := by
  unfold bookSymbol
  split
  · rfl
  · next snapshot _ =>
    obtain ⟨-, d, heq⟩ | ⟨-, d, heq⟩ := ingestSnapshot_cases e env symbol snapshot <;> rw [heq] <;> rfl

/-- Whatever a fetch brings, the due symbols are marked. -/
theorem scheduler_bookFetch (e : MarketEngine) (env : TickEnv) (due : List String) (outcome : FetchOutcome) :
    (e.bookFetch env due outcome).scheduler = due.foldl (markDue env) e.scheduler := by
  unfold bookFetch
  split
  · exact scheduler_foldl (fun _ _ => rfl) _
  · exact scheduler_foldl (scheduler_bookSymbol _) _

/-- So they are without one. -/
theorem scheduler_bookExhausted (e : MarketEngine) (env : TickEnv) (due : List String) :
    (e.bookExhausted env due).scheduler = due.foldl (markDue env) e.scheduler :=
  scheduler_foldl (fun _ _ => rfl) e

/-- **What the marks leave.** -/
theorem foldl_markDue (env : TickEnv) (due : List String) (s : AdaptiveScheduler) :
    (due.foldl (markDue env) s).policy = s.policy ∧ (due.foldl (markDue env) s).levels = s.levels ∧
      ∀ symbol, (due.foldl (markDue env) s).lastFetchMono.get? symbol =
        if symbol ∈ due then some (env.mono .markFetched symbol) else s.lastFetchMono.get? symbol := by
  induction due generalizing s with
  | nil => exact ⟨rfl, rfl, fun _ => rfl⟩
  | cons first due ih =>
    obtain ⟨hpolicy, hlevels, hfetch⟩ := ih (markDue env s first)
    refine ⟨hpolicy, hlevels, fun symbol => ?_⟩
    rw [List.foldl_cons, hfetch]
    change (if symbol ∈ due then _ else (s.lastFetchMono.set first _).get? symbol) = _
    rw [Dict.get?_set]
    by_cases hmem : symbol ∈ due
    · simp [hmem]
    · by_cases heq : symbol = first <;> simp [hmem, heq]

/-! ## The tick loop -/

/-- **No symbol is due after a tick** on a clock that stands still. -/
theorem none_due {s s' : AdaptiveScheduler} {now : ℚ} {enabled : List String}
    (h : Relevelled (s.dueSymbols now enabled) ((s.dueSymbols now enabled).foldl (markDue env) s) s')
    (hstill : ∀ symbol, env.mono .markFetched symbol = now) (hpositive : ∀ level, 0 < s.interval level) :
    s'.dueSymbols now enabled = [] := by
  obtain ⟨hpolicy, hlevels, hfetch⟩ := foldl_markDue env (s.dueSymbols now enabled) s
  have hinterval : ∀ level, s'.interval level = s.interval level := by
    intro level
    unfold AdaptiveScheduler.interval
    rw [h.policy, hpolicy]
  rw [List.eq_nil_iff_forall_not_mem]
  intro symbol hmem
  obtain ⟨henabled, hdue⟩ := AdaptiveScheduler.mem_dueSymbols.1 hmem
  unfold AdaptiveScheduler.IsDue at hdue
  rw [h.lastFetch, hfetch] at hdue
  by_cases hbefore : symbol ∈ s.dueSymbols now enabled
  · -- It has just been fetched, and an interval is positive.
    rw [if_pos hbefore, hstill, hinterval] at hdue
    have helapsed := hdue now rfl
    rw [sub_self] at helapsed
    exact absurd helapsed (not_le.2 (hpositive _))
  · -- Neither its fetch nor its level has moved.
    rw [if_neg hbefore, hinterval, h.levels symbol hbefore] at hdue
    refine hbefore (AdaptiveScheduler.mem_dueSymbols.2 ⟨henabled, ?_⟩)
    unfold AdaptiveScheduler.getLevel at hdue
    rw [hlevels] at hdue
    exact hdue

/-- A list of which no symbol is due is waited for. -/
theorem wait_pos {s : AdaptiveScheduler} {now : ℚ} {symbols : List String} (h : s.dueSymbols now symbols = []) :
    0 < s.nextWaitS now symbols := by
  by_cases hne : symbols = []
  · rw [hne]
    exact zero_lt_one
  · refine lt_of_le_of_ne (s.nextWaitS_nonneg now symbols) fun hzero => ?_
    have hwait : s.nextWaitS now symbols ≤ 0 ↔ s.dueSymbols (now + 0) symbols ≠ [] :=
      AdaptiveScheduler.nextWaitS_le_iff hne le_rfl
    rw [add_zero, h] at hwait
    exact hwait.1 hzero.ge rfl

variable {e : MarketEngine} {now : ℚ}

/-- **After a tick the loop sleeps**, whatever the fetch returned or raised. -/
theorem endTick_waits (hstill : ∀ symbol, env.mono .markFetched symbol = now)
    (hpositive : ∀ level, 0 < e.scheduler.interval level) (outcome : FetchOutcome) :
    0 < ((e.beginTick now).2.endTick env (e.beginTick now).1 outcome).2.scheduler.nextWaitS now
      e.watchlist.enabledSymbols := by
  have hfinish := relevelled_finishTick ((e.beginTick now).2.bookFetch env (e.beginTick now).1.due outcome) env
    (e.beginTick now).1
  rw [scheduler_bookFetch] at hfinish
  exact wait_pos (none_due hfinish hstill hpositive)

/-- After an idle tick the loop waits. -/
theorem endIdleTick_waits (hstill : ∀ symbol, env.mono .markFetched symbol = now)
    (hpositive : ∀ level, 0 < e.scheduler.interval level) :
    0 < ((e.beginTick now).2.endIdleTick env (e.beginTick now).1).2.scheduler.nextWaitS now
      e.watchlist.enabledSymbols := by
  have hfinish := relevelled_finishTick ((e.beginTick now).2.bookExhausted env (e.beginTick now).1.due) env
    (e.beginTick now).1
  rw [scheduler_bookExhausted] at hfinish
  exact wait_pos (none_due hfinish hstill hpositive)

/-- **A sleep ends when a symbol is due**, and no sooner. -/
theorem beginTick_wakes (hne : e.watchlist.enabledSymbols ≠ []) {d : ℚ} (hd : 0 ≤ d) :
    (e.beginTick (now + d)).1.due ≠ [] ↔ e.scheduler.nextWaitS now e.watchlist.enabledSymbols ≤ d :=
  (AdaptiveScheduler.nextWaitS_le_iff hne hd).symm

end MarketEngine

end MarketSentinel
