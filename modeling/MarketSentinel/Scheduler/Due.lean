import MarketSentinel.Lib.Machine
import MarketSentinel.Scheduler.Scheduler
import Mathlib.Tactic.Linarith

/-!
# Due symbols and the wait for them

`due_symbols` and `next_wait_s` go over the same records in two loops. A wait is the earliest time at which the
other loop finds a symbol, so a loop that ticks and then sleeps for `next_wait_s` wakes when a symbol becomes due.

* `remaining_le_iff`: a symbol is due after a time just when that is at least its remaining time.
* `nextWaitS_le_iff`: the same for a list of symbols and the wait.
* `due_wait_agree`: what a sleep of any length leaves due.
* `nextWaitS_le_interval`: in a run of the scheduler no sleep is longer than an interval.
-/

namespace MarketSentinel

open Lib Machine

namespace AdaptiveScheduler

variable {s : AdaptiveScheduler} {now : ℚ} {symbol : String} {symbols : List String}

/-- A symbol is due. -/
def IsDue (s : AdaptiveScheduler) (now : ℚ) (symbol : String) : Prop :=
  ∀ lastFetch ∈ s.lastFetchMono.get? symbol, s.interval (s.getLevel symbol) ≤ now - lastFetch

/-- The due symbols are those of the list that are due. -/
theorem mem_dueSymbols : symbol ∈ s.dueSymbols now symbols ↔ symbol ∈ symbols ∧ s.IsDue now symbol := by
  unfold dueSymbols IsDue
  rw [List.mem_filter]
  refine and_congr_right fun _ => ?_
  cases s.lastFetchMono.get? symbol <;> simp

theorem dueSymbols_ne_nil : s.dueSymbols now symbols ≠ [] ↔ ∃ symbol ∈ symbols, s.IsDue now symbol := by
  rw [ne_eq, List.eq_nil_iff_forall_not_mem]
  simp only [mem_dueSymbols, not_forall, not_not]

/-! ## One symbol -/

/-- No wait is negative. -/
theorem remaining_nonneg (s : AdaptiveScheduler) (now : ℚ) (symbol : String) : 0 ≤ s.remaining now symbol := by
  unfold remaining
  split
  · exact le_rfl
  · exact le_max_left _ _

/-- **A symbol is due after a time** just when that is at least its remaining time. -/
theorem remaining_le_iff {d : ℚ} (hd : 0 ≤ d) : s.remaining now symbol ≤ d ↔ s.IsDue (now + d) symbol := by
  unfold remaining IsDue
  cases s.lastFetchMono.get? symbol with
  | none => simp [hd]
  | some lastFetch =>
    simp only [Option.mem_some_iff, forall_eq', max_le_iff, and_iff_right hd]
    constructor <;> intro h <;> linarith

/-! ## The wait -/

/-- A minimum is at most a bound when one of its values is. -/
theorem foldl_min_le_iff {α : Type} (f : α → ℚ) (l : List α) (r d : ℚ) :
    l.foldl (fun r x => min r (f x)) r ≤ d ↔ r ≤ d ∨ ∃ x ∈ l, f x ≤ d := by
  induction l generalizing r with
  | nil => simp
  | cons x l ih => rw [List.foldl_cons, ih, min_le_iff, List.exists_mem_cons_iff, or_assoc]

/-- **A wait is over** just when a symbol is due. -/
theorem nextWaitS_le_iff (hne : symbols ≠ []) {d : ℚ} (hd : 0 ≤ d) :
    s.nextWaitS now symbols ≤ d ↔ s.dueSymbols (now + d) symbols ≠ [] := by
  cases symbols with
  | nil => exact absurd rfl hne
  | cons symbol symbols =>
    unfold nextWaitS
    rw [foldl_min_le_iff, dueSymbols_ne_nil, List.exists_mem_cons_iff]
    simp only [remaining_le_iff hd]

/-- Nor is the wait for all of them. -/
theorem nextWaitS_nonneg (s : AdaptiveScheduler) (now : ℚ) (symbols : List String) :
    0 ≤ s.nextWaitS now symbols := by
  cases symbols with
  | nil => exact zero_le_one
  | cons symbol symbols =>
    unfold nextWaitS
    obtain hfirst | ⟨symbol', -, hrest⟩ := (foldl_min_le_iff (s.remaining now) symbols _ _).1 le_rfl
    · exact (s.remaining_nonneg now symbol).trans hfirst
    · exact (s.remaining_nonneg now symbol').trans hrest

/-- **Due and wait agree**: less than the wait makes no symbol due, the wait makes one due, and it is zero just
when one is due now. -/
theorem due_wait_agree (s : AdaptiveScheduler) (now : ℚ) {symbols : List String} (hne : symbols ≠ []) :
    (∀ d, 0 ≤ d → d < s.nextWaitS now symbols → s.dueSymbols (now + d) symbols = []) ∧
      s.dueSymbols (now + s.nextWaitS now symbols) symbols ≠ [] ∧
        (s.nextWaitS now symbols = 0 ↔ s.dueSymbols now symbols ≠ []) := by
  refine ⟨fun d hd hlt => ?_, ?_, ?_⟩
  · by_contra hdue
    exact absurd ((nextWaitS_le_iff hne hd).2 hdue) (not_le.2 hlt)
  · exact (nextWaitS_le_iff hne (s.nextWaitS_nonneg now symbols)).1 le_rfl
  · have hnow : s.nextWaitS now symbols ≤ 0 ↔ s.dueSymbols (now + 0) symbols ≠ [] := nextWaitS_le_iff hne le_rfl
    rw [add_zero] at hnow
    rw [← hnow]
    exact (s.nextWaitS_nonneg now symbols).ge_iff_eq'.symm

/-- One symbol was fetched at 5. -/
def fetchedOnce : AdaptiveScheduler := markFetched {} 5 "600519.SH"

theorem due_wait_agree_once :
    fetchedOnce.nextWaitS 7 ["600519.SH"] = 8 ∧ fetchedOnce.dueSymbols (7 + 4) ["600519.SH"] = [] ∧
      fetchedOnce.nextWaitS 7 ["600519.SH", "000001.SZ"] = 0 := by
  have hwait : fetchedOnce.nextWaitS 7 ["600519.SH"] = 8 := by decide +kernel
  refine ⟨hwait, (due_wait_agree fetchedOnce 7 (List.cons_ne_nil _ _)).1 4 (by decide) ?_, ?_⟩
  · rw [hwait]
    decide
  · exact (due_wait_agree fetchedOnce 7 (List.cons_ne_nil _ _)).2.2.2 (by decide +kernel)

end AdaptiveScheduler

/-! ## Runs -/

/-- A scheduler and its clock. -/
structure ClockedScheduler where
  now : ℚ
  scheduler : AdaptiveScheduler

/-- What the engine asks of its scheduler. -/
inductive SchedulerEvent
  | setLevel (symbol : String) (level : SchedulerLevel) (force : Bool)
  | markFetched (symbol : String)
  | advance (seconds : ℚ)

namespace ClockedScheduler

/-- One call, or some time; the clock does not go back. -/
def step (c : ClockedScheduler) : SchedulerEvent → Option ClockedScheduler
  | .setLevel symbol level force =>
    some { c with scheduler := (c.scheduler.setLevel c.now symbol level force).2 }
  | .markFetched symbol => some { c with scheduler := c.scheduler.markFetched c.now symbol }
  | .advance seconds => if 0 ≤ seconds then some { c with now := c.now + seconds } else none

/-- No symbol was fetched in the future. -/
def FetchedBefore (c : ClockedScheduler) : Prop :=
  ∀ symbol, ∀ lastFetch ∈ c.scheduler.lastFetchMono.get? symbol, lastFetch ≤ c.now

variable {c c' : ClockedScheduler}

/-- A level says nothing about fetches. -/
theorem lastFetchMono_setLevel (s : AdaptiveScheduler) (now : ℚ) (symbol : String) (level : SchedulerLevel)
    (force : Bool) : (s.setLevel now symbol level force).2.lastFetchMono = s.lastFetchMono := by
  unfold AdaptiveScheduler.setLevel
  dsimp only
  split
  · rfl
  · split <;> rfl

/-- No fetch lies in the future after a step. -/
theorem FetchedBefore.of_step {event : SchedulerEvent} (h : c.FetchedBefore) (hs : c.step event = some c') :
    c'.FetchedBefore := by
  intro symbol' lastFetch hfetch
  cases event with
  | setLevel symbol level force =>
    obtain rfl := Option.some.inj hs
    rw [lastFetchMono_setLevel] at hfetch
    exact h symbol' lastFetch hfetch
  | markFetched symbol =>
    obtain rfl := Option.some.inj hs
    change lastFetch ∈ (c.scheduler.lastFetchMono.set symbol c.now).get? symbol' at hfetch
    rw [Dict.get?_set] at hfetch
    split at hfetch
    · exact (Option.some.inj hfetch).ge
    · exact h symbol' lastFetch hfetch
  | advance seconds =>
    change (if 0 ≤ seconds then some { c with now := c.now + seconds } else none) = some c' at hs
    split at hs
    · next hseconds =>
      obtain rfl := Option.some.inj hs
      have hbefore : lastFetch ≤ c.now := h symbol' lastFetch hfetch
      exact hbefore.trans (le_add_of_nonneg_right hseconds)
    · cases hs

/-- Nor does one after a run. -/
theorem FetchedBefore.of_run {events : List SchedulerEvent} (h : c.FetchedBefore)
    (hrun : run step c events = some c') : c'.FetchedBefore :=
  run_inv (fun _ _ _ hi hs => hi.of_step hs) h hrun

/-- **No sleep is longer than an interval** of a symbol that it waits for. -/
theorem nextWaitS_le_interval {policy : SchedulerPolicy} {start : ℚ} {events : List SchedulerEvent}
    (hrun : run step ⟨start, { policy := policy }⟩ events = some c) {symbols : List String} {symbol : String}
    (hmem : symbol ∈ symbols) :
    c.scheduler.nextWaitS c.now symbols ≤ max 0 (c.scheduler.interval (c.scheduler.getLevel symbol)) := by
  have hbefore : c.FetchedBefore := by
    refine FetchedBefore.of_run ?_ hrun
    intro symbol' lastFetch hfetch
    cases hfetch
  rw [AdaptiveScheduler.nextWaitS_le_iff (List.ne_nil_of_mem hmem) (le_max_left _ _),
    AdaptiveScheduler.dueSymbols_ne_nil]
  refine ⟨symbol, hmem, fun lastFetch hfetch => ?_⟩
  have hpast := hbefore symbol lastFetch hfetch
  have hinterval := le_max_right 0 (c.scheduler.interval (c.scheduler.getLevel symbol))
  linarith

end ClockedScheduler

end MarketSentinel
