import MarketSentinel.Lib.Dwell
import MarketSentinel.Runtime.CallBudget
import MarketSentinel.Runtime.Waits

/-!
# The attention a symbol gets, along a run

The engine asks the scheduler for the level that `WarmingPolicy.request` reads off the features and accepted events
of a tick, and `set_level` lets it through or not. `movesOf` lists the moves of the level of one symbol along a run.

* `rowTracks_processSymbol`, `tracks_step`, `tracks_run`: the moves of a row, a step and a run account for the level
  and for the time of the last change that the scheduler keeps.
* `levels_dwell`: along a run no move comes sooner than its dwell, each goes where the evidence of its own row asks
  it to go, and in a span of time a level moves only so often.
-/

namespace MarketSentinel

open Lib Machine Dwell

/-- The dwell that a policy requires of a move. -/
def SchedulerPolicy.dwell (policy : SchedulerPolicy) (current target : SchedulerLevel) : ℚ :=
  if levelRank current < levelRank target then policy.upgradeDwellS
  else if current = .hot then policy.hotDowngradeDwellS
  else policy.warmDowngradeDwellS

abbrev LevelMove := Move SchedulerLevel ℚ

/-- The levels have different ranks. -/
theorem levelRank_injective : Function.Injective levelRank := by
  intro a b h
  cases a <;> cases b <;> first | rfl | cases h

theorem levelRank_le (level : SchedulerLevel) : levelRank level ≤ 2 := by cases level <;> decide

/-! ## The moves of a scheduler -/

/-- The moves of the level of `x` from one scheduler to another. -/
structure Tracks (x : String) (s : AdaptiveScheduler) (moves : List LevelMove) (s' : AdaptiveScheduler) : Prop where
  policy : s'.policy = s.policy
  dwells : Dwells s.policy.dwell (s.lastChangeMono.get? x) (s.getLevel x) moves
  last : s'.lastChangeMono.get? x = lastTime (s.lastChangeMono.get? x) moves
  level : s'.getLevel x = endLevel (s.getLevel x) moves

namespace Tracks

variable {x symbol : String} {s s' s'' : AdaptiveScheduler} {moves moves' : List LevelMove}

theorem refl : Tracks x s [] s := ⟨rfl, trivial, rfl, rfl⟩

/-- What leaves the levels and their last changes makes no move. -/
theorem still (hpolicy : s'.policy = s.policy) (hlevels : s'.levels = s.levels)
    (hlast : s'.lastChangeMono = s.lastChangeMono) : Tracks x s [] s' := by
  refine ⟨hpolicy, trivial, by rw [hlast]; rfl, ?_⟩
  unfold AdaptiveScheduler.getLevel
  rw [hlevels]
  rfl

theorem trans (h : Tracks x s moves s') (h' : Tracks x s' moves' s'') : Tracks x s (moves ++ moves') s'' := by
  refine ⟨h'.policy.trans h.policy, dwells_append.2 ⟨h.dwells, ?_⟩, ?_, ?_⟩
  · rw [← h.last, ← h.level, ← h.policy]
    exact h'.dwells
  · rw [h'.last, h.last, lastTime, lastTime, lastTime, List.foldl_append]
  · rw [h'.level, h.level, endLevel, endLevel, endLevel, List.foldl_append]

/-- **What `set_level` does.** The level stays, or it moves after its dwell. -/
theorem setLevel (s : AdaptiveScheduler) (now : ℚ) (symbol : String) (level : SchedulerLevel) (x : String) :
    Tracks x s (if x = symbol ∧ s.getLevel x ≠ (s.setLevel now symbol level).2.getLevel x then
        [⟨now, s.getLevel x, (s.setLevel now symbol level).2.getLevel x⟩] else [])
      (s.setLevel now symbol level).2 := by
  unfold AdaptiveScheduler.setLevel
  dsimp only
  split
  · -- The level is the current one, and is written again.
    have hget : ({ s with levels := s.levels.set symbol (s.getLevel symbol) } : AdaptiveScheduler).getLevel x =
        s.getLevel x := by
      unfold AdaptiveScheduler.getLevel
      rw [Dict.getD_set]
      split
      · next heq => rw [heq]
      · rfl
    rw [hget, if_neg (by simp)]
    exact ⟨rfl, trivial, rfl, hget⟩
  · next hne =>
    split
    · rw [if_neg (by simp)]
      exact refl
    · next hdwell =>
      have hget : ({ s with
            levels := s.levels.set symbol level
            lastChangeMono := s.lastChangeMono.set symbol now } : AdaptiveScheduler).getLevel x =
          if x = symbol then level else s.getLevel x := by
        unfold AdaptiveScheduler.getLevel
        rw [Dict.getD_set]
      rw [hget]
      by_cases hx : x = symbol
      · subst hx
        rw [if_pos rfl, if_pos ⟨rfl, Ne.symm hne⟩]
        have hlate : ∀ t ∈ s.lastChangeMono.get? x, s.policy.dwell (s.getLevel x) level ≤ now - t := by
          intro t ht
          simp only [Bool.not_false, Bool.true_and, Bool.not_eq_true', Bool.not_eq_false,
            AdaptiveScheduler.dwellElapsed, Option.mem_def.1 ht, decide_eq_true_eq] at hdwell
          exact hdwell
        refine ⟨rfl, ⟨rfl, hne, hlate, trivial⟩, ?_, ?_⟩
        · simp [lastTime]
        · rw [hget, if_pos rfl]
          rfl
      · rw [if_neg hx, if_neg (by simp)]
        refine ⟨rfl, trivial, ?_, ?_⟩
        · simp [lastTime, Dict.get?_set, hx]
        · rw [hget, if_neg hx]
          rfl

end Tracks

/-! ## The moves of a tick -/

/-- The moves of a symbol in the rows of a tick. -/
def movesIn (x : String) (env : TickEnv) (rows : List SymbolTickResult) : List LevelMove :=
  (rows.filter fun row => decide (row.symbol = x ∧ row.levelBefore ≠ row.levelAfter)).map fun row =>
    ⟨env.mono .setLevel x, row.levelBefore, row.levelAfter⟩

/-- The moves of the rows in two stretches. -/
theorem movesIn_append (x : String) (env : TickEnv) (rows rows' : List SymbolTickResult) :
    movesIn x env (rows ++ rows') = movesIn x env rows ++ movesIn x env rows' := by
  simp [movesIn]

/-- A row is a move when its levels differ. -/
theorem movesIn_singleton (x : String) (env : TickEnv) (row : SymbolTickResult) :
    movesIn x env [row] = if row.symbol = x ∧ row.levelBefore ≠ row.levelAfter then
      [⟨env.mono .setLevel x, row.levelBefore, row.levelAfter⟩] else [] := by
  unfold movesIn
  split
  · next hmove => simp [hmove]
  · next hstay => simp [hstay]

/-- A row whose level moved shows the evidence that asked for the new level. -/
def Asked (cfg : WarmingConfig) (row : SymbolTickResult) : Prop :=
  row.levelBefore ≠ row.levelAfter → row.levelAfter = (cfg.request row.symbol row.features row.acceptedEvents).level

namespace MarketEngine

variable {e : MarketEngine} {env : TickEnv} {symbol x : String}

/-- A level stays, or is the one that was asked for. -/
theorem setLevel_level (s : AdaptiveScheduler) (now : ℚ) (symbol : String) (level : SchedulerLevel) :
    (s.setLevel now symbol level).2.getLevel symbol = s.getLevel symbol ∨
      (s.setLevel now symbol level).2.getLevel symbol = level := by
  unfold AdaptiveScheduler.setLevel
  dsimp only
  split
  · next heq =>
    right
    rw [heq]
    simp [AdaptiveScheduler.getLevel, Dict.getD_set]
  · split
    · exact .inl rfl
    · right
      simp [AdaptiveScheduler.getLevel, Dict.getD_set]

/-- A row of a symbol, and the scheduler that processing the symbol leaves. -/
structure RowTracks (x : String) (env : TickEnv) (e : MarketEngine) (r : SymbolTickResult × MarketEngine) : Prop where
  tracks : Tracks x e.scheduler (movesIn x env [r.1]) r.2.scheduler
  asked : Asked e.warming r.1
  warming : r.2.warming = e.warming

/-- A symbol without a quote or features does not move. -/
theorem rowTracks_processNothing {e₁ : MarketEngine} (hs : e₁.scheduler = e.scheduler) (hw : e₁.warming = e.warming)
    (env : TickEnv) (symbol : String) (withFeatures : Bool) :
    RowTracks x env e (e₁.processNothing env symbol (e.scheduler.getLevel symbol) withFeatures) := by
  have hlevel : (e₁.processNothing env symbol (e.scheduler.getLevel symbol) withFeatures).1.levelBefore =
      (e₁.processNothing env symbol (e.scheduler.getLevel symbol) withFeatures).1.levelAfter := by
    change e.scheduler.getLevel symbol = e₁.scheduler.getLevel symbol
    rw [hs]
  refine ⟨?_, fun hmove => absurd hlevel hmove, hw⟩
  rw [movesIn_singleton, if_neg fun hmove => hmove.2 hlevel]
  exact .still (congrArg (·.policy) hs) (congrArg (·.levels) hs) (congrArg (·.lastChangeMono) hs)

/-- A result asks for the level of its features and events. -/
theorem rowTracks_processResult {e₁ : MarketEngine} (hs : e₁.scheduler = e.scheduler) (hw : e₁.warming = e.warming)
    (env : TickEnv) (symbol : String) (features : Option MarketFeatures) (r : SignalPipelineResult) :
    RowTracks x env e (e₁.processResult env symbol (e.scheduler.getLevel symbol) features r) := by
  set level := (e₁.warming.request symbol features r.acceptedEvents).level with hlevel
  set s' := (e₁.scheduler.setLevel (env.mono .setLevel symbol) symbol level).2 with hs'
  have hscheduler : (e₁.processResult env symbol (e.scheduler.getLevel symbol) features r).2.scheduler = s' := rfl
  have hafter : (e₁.processResult env symbol (e.scheduler.getLevel symbol) features r).1.levelAfter =
      s'.getLevel symbol := rfl
  have hsymbol : (e₁.processResult env symbol (e.scheduler.getLevel symbol) features r).1.symbol = symbol := rfl
  have hbefore : (e₁.processResult env symbol (e.scheduler.getLevel symbol) features r).1.levelBefore =
      e.scheduler.getLevel symbol := rfl
  refine ⟨?_, fun hmove => ?_, hw⟩
  · have htracks := Tracks.setLevel e.scheduler (env.mono .setLevel symbol) symbol level x
    rw [← hs, ← hs', hs] at htracks
    rw [movesIn_singleton, hafter, hbefore, hsymbol, hscheduler]
    by_cases hx : x = symbol
    · subst hx
      simpa using htracks
    · rw [if_neg fun hmove => hx hmove.1.symm]
      rwa [if_neg fun hmove => hx hmove.1] at htracks
  · rw [hafter, hbefore] at hmove
    rw [hafter, hsymbol, ← hw]
    have hset := setLevel_level e₁.scheduler (env.mono .setLevel symbol) symbol level
    rw [← hs', hs] at hset
    rcases hset with hstay | hset
    · exact absurd hstay.symm hmove
    · rw [hset]
      rfl

/-- **Processing a symbol** moves its level only. -/
theorem rowTracks_processSymbol (e : MarketEngine) (env : TickEnv) (symbol x : String) :
    RowTracks x env e (e.processSymbol env symbol) := by
  unfold processSymbol
  dsimp only
  split
  · exact rowTracks_processNothing rfl rfl env symbol true
  · split
    · exact rowTracks_processNothing rfl rfl env symbol false
    · unfold processBuffer
      split
      · exact rowTracks_processNothing rfl rfl env symbol true
      · exact rowTracks_processResult rfl rfl env symbol none _
      · split
        · next p _ =>
          have hkept : (e.setPipeline p).scheduler = e.scheduler := rfl
          exact rowTracks_processNothing hkept rfl env symbol true
        · next p _ =>
          have hkept : (e.setPipeline p).scheduler = e.scheduler := rfl
          exact rowTracks_processResult hkept rfl env symbol _ _

theorem warming_projectOthers (e : MarketEngine) (env : TickEnv) (plan : TickPlan) :
    (e.projectOthers env plan).warming = e.warming := by
  unfold projectOthers
  exact List.foldlRecOn (motive := fun e' : MarketEngine => e'.warming = e.warming) _ _ rfl fun _ h _ _ => h

/-- The sidecar does not change the policy. -/
theorem warming_observeTick (e : MarketEngine) (env : TickEnv) (tick : EngineTickResult) :
    (e.observeTick env tick).warming = e.warming := by
  unfold observeTick
  split
  · rfl
  · exact List.foldlRecOn (motive := fun e' : MarketEngine => e'.warming = e.warming) _ _ rfl fun _ h _ _ => h

/-- What a tick, or a part of it, does to the level of `x`. -/
structure TickTracks (x : String) (env : TickEnv) (e : MarketEngine) (rows : List SymbolTickResult)
    (e' : MarketEngine) : Prop where
  tracks : Tracks x e.scheduler (movesIn x env rows) e'.scheduler
  asked : ∀ row ∈ rows, Asked e.warming row
  warming : e'.warming = e.warming

/-- The rows of a tick account for its moves. -/
theorem tickTracks_finishTick (e : MarketEngine) (env : TickEnv) (plan : TickPlan) (x : String) :
    TickTracks x env e (e.finishTick env plan).1.symbolResults (e.finishTick env plan).2 := by
  have hloop : TickTracks x env e (plan.due.foldl (processNext env) ([], e)).1
      (plan.due.foldl (processNext env) ([], e)).2 := by
    refine List.foldlRecOn (motive := fun r : List SymbolTickResult × MarketEngine =>
      TickTracks x env e r.1 r.2) _ _ ⟨.refl, fun _ h => absurd h List.not_mem_nil, rfl⟩ fun r h symbol _ => ?_
    have hrow := rowTracks_processSymbol r.2 env symbol x
    refine ⟨?_, fun row hmem => ?_, hrow.warming.trans h.warming⟩
    · change Tracks x e.scheduler (movesIn x env (r.1 ++ [(r.2.processSymbol env symbol).1])) _
      rw [movesIn_append]
      exact h.tracks.trans hrow.tracks
    · rcases List.mem_append.1 hmem with hmem | hmem
      · exact h.asked row hmem
      · obtain rfl := List.mem_singleton.1 hmem
        rw [← h.warming]
        exact hrow.asked
  unfold finishTick
  generalize plan.due.foldl (processNext env) ([], e) = r at hloop
  obtain ⟨rows, e₁⟩ := r
  dsimp only at hloop ⊢
  refine ⟨?_, hloop.asked, ?_⟩
  · rw [(observeTick_writes _ env ⟨rows⟩).2.2, (projectOthers_writes e₁ env plan).2.2.1]
    exact hloop.tracks
  · rw [warming_observeTick, warming_projectOthers]
    exact hloop.warming

/-- The marks of a fetch move no level. -/
theorem tracks_markDue (env : TickEnv) (due : List String) (s : AdaptiveScheduler) (x : String) :
    Tracks x s [] (due.foldl (markDue env) s) :=
  List.foldlRecOn (motive := fun s' => Tracks x s [] s') _ _ .refl fun _ h _ _ => h.trans (.still rfl rfl rfl)

theorem warming_foldl {f : MarketEngine → String → MarketEngine} (hf : ∀ e symbol, (f e symbol).warming = e.warming)
    (due : List String) (e : MarketEngine) : (due.foldl f e).warming = e.warming :=
  List.foldlRecOn (motive := fun e' : MarketEngine => e'.warming = e.warming) _ _ rfl fun e' h symbol _ =>
    (hf e' symbol).trans h

/-- Nor does a fetch. -/
theorem warming_bookFetch (e : MarketEngine) (env : TickEnv) (due : List String) (outcome : FetchOutcome) :
    (e.bookFetch env due outcome).warming = e.warming := by
  unfold bookFetch
  split
  · exact warming_foldl (f := fun e symbol => (e.observeError env symbol).markFetched env symbol)
      (fun _ _ => rfl) due _
  · refine warming_foldl (fun e symbol => ?_) due _
    unfold bookSymbol
    split
    · rfl
    · next snapshot _ =>
      obtain ⟨-, d, heq⟩ | ⟨-, d, heq⟩ := ingestSnapshot_cases e env symbol snapshot <;> rw [heq] <;> rfl

/-- Before the rows are processed nothing happens to a level. -/
theorem TickTracks.booked {e₁ e' : MarketEngine} {rows : List SymbolTickResult} (h : TickTracks x env e₁ rows e')
    (hs : Tracks x e.scheduler [] e₁.scheduler) (hw : e₁.warming = e.warming) : TickTracks x env e rows e' :=
  ⟨hs.trans h.tracks, fun row hrow => hw ▸ h.asked row hrow, h.warming.trans hw⟩

theorem tickTracks_endTick (e : MarketEngine) (env : TickEnv) (plan : TickPlan) (outcome : FetchOutcome)
    (x : String) : TickTracks x env e (e.endTick env plan outcome).1.symbolResults (e.endTick env plan outcome).2 := by
  refine (tickTracks_finishTick _ env plan x).booked ?_ (warming_bookFetch e env plan.due outcome)
  rw [scheduler_bookFetch]
  exact tracks_markDue env plan.due e.scheduler x

theorem tickTracks_endIdleTick (e : MarketEngine) (env : TickEnv) (plan : TickPlan) (x : String) :
    TickTracks x env e (e.endIdleTick env plan).1.symbolResults (e.endIdleTick env plan).2 := by
  have hwarming : (e.bookExhausted env plan.due).warming = e.warming :=
    warming_foldl (f := fun e symbol => (e.keepAlive env symbol).markFetched env symbol) (fun _ _ => rfl) plan.due e
  refine (tickTracks_finishTick _ env plan x).booked ?_ hwarming
  rw [scheduler_bookExhausted]
  exact tracks_markDue env plan.due e.scheduler x

end MarketEngine

/-! ## Runs -/

namespace EngineSession

variable {s s' : EngineSession} {x : String}

/-- The moves of the level of a symbol along a run. -/
def movesOf (x : String) (s : EngineSession) : List EngineStep → List LevelMove
  | [] => []
  | l :: ls =>
    match s.step l with
    | none => []
    | some s' =>
      (match envOf l, s.tickOf l with
        | some env, some tick => movesIn x env tick.symbolResults
        | _, _ => []) ++ s'.movesOf x ls

/-- What a step does to the level of a symbol. -/
structure StepTracks (x : String) (s : EngineSession) (l : EngineStep) (s' : EngineSession) : Prop where
  tracks : Tracks x s.engine.scheduler
    (match envOf l, s.tickOf l with
      | some env, some tick => movesIn x env tick.symbolResults
      | _, _ => []) s'.engine.scheduler
  asked : ∀ tick ∈ s.tickOf l, ∀ row ∈ tick.symbolResults, Asked s.engine.warming row
  warming : s'.engine.warming = s.engine.warming

/-- A step accounts for the moves in it. -/
theorem tracks_step {l : EngineStep} (hs : s.step l = some s') (x : String) : StepTracks x s l s' := by
  cases l with
  | begin due =>
    simp only [step] at hs
    split at hs
    · obtain rfl := Option.some.inj hs
      exact ⟨.refl, fun _ h => (by cases h), rfl⟩
    · cases hs
  | finish env outcome =>
    simp only [step] at hs
    cases hflight : s.inFlight with
    | none =>
      rw [hflight] at hs
      cases hs
    | some plan =>
      rw [hflight] at hs
      obtain rfl := Option.some.inj hs
      have htick := MarketEngine.tickTracks_endTick s.engine env plan outcome x
      have hof : s.tickOf (.finish env outcome) = some (s.engine.endTick env plan outcome).1 := by
        simp only [tickOf, hflight, Option.map_some]
      refine ⟨?_, fun tick ht => ?_, htick.warming⟩
      · rw [hof]
        exact htick.tracks
      · rw [hof] at ht
        obtain rfl := Option.some.inj ht
        exact htick.asked
  | idle due env =>
    simp only [step] at hs
    split at hs
    · obtain rfl := Option.some.inj hs
      have htick := MarketEngine.tickTracks_endIdleTick (s.engine.beginTick due).2 env (s.engine.beginTick due).1 x
      refine ⟨htick.tracks, fun tick ht => ?_, htick.warming⟩
      obtain rfl := Option.some.inj ht
      exact htick.asked
    · cases hs
  | replace items =>
    simp only [step] at hs
    split at hs
    · obtain rfl := Option.some.inj hs
      rcases replaceWatchlist_cases s.engine items with heq | ⟨watchlist, heq⟩ <;> rw [heq] <;>
        exact ⟨.refl, fun _ h => (by cases h), rfl⟩
    · cases hs
  | worker w =>
    obtain ⟨engine, hwork, rfl⟩ := Option.map_eq_some_iff.1 hs
    obtain ⟨c, c', -, -, rfl⟩ := work_cases hwork
    exact ⟨.refl, fun _ h => (by cases h), rfl⟩

/-- **Along a run** the moves account for the level, and every row whose level moved asked for it. -/
theorem tracks_run (x : String) : ∀ {steps : List EngineStep} {s : EngineSession}, run step s steps = some s' →
    Tracks x s.engine.scheduler (s.movesOf x steps) s'.engine.scheduler ∧
      ∀ tick ∈ s.ticks steps, ∀ row ∈ tick.symbolResults, Asked s.engine.warming row := by
  intro steps
  induction steps with
  | nil =>
    intro s hrun
    obtain rfl := Option.some.inj hrun
    exact ⟨.refl, fun _ h => absurd h List.not_mem_nil⟩
  | cons l steps ih =>
    intro s hrun
    obtain ⟨s₁, hs, hrest⟩ := run_cons.1 hrun
    have hone := tracks_step hs x
    obtain ⟨htracks, hasked⟩ := ih hrest
    refine ⟨?_, fun tick ht => ?_⟩
    · rw [movesOf, hs]
      exact hone.tracks.trans htracks
    · rw [ticks, hs] at ht
      rcases List.mem_append.1 ht with ht | ht
      · exact hone.asked tick (Option.mem_toList.1 ht)
      · exact fun row hrow => hone.warming ▸ hasked tick ht row hrow

/-- **Levels dwell.** Along any run of ticks, replacements of the watchlist and worker steps, whatever the clock
reads: a symbol's moves lead from the level it has to the level it ends with; a move comes no sooner after the last
one than its dwell; the row of a move carries the evidence that asks for the new level; and when downgrades must
dwell at least `d`, after any move at most `2 + 3 t / d` more fit into a time `t`. -/
theorem levels_dwell {steps : List EngineStep} (hrun : run step s steps = some s') (x : String) {d : ℚ} (hd : 0 ≤ d)
    (hup : 0 ≤ s.engine.scheduler.policy.upgradeDwellS) (hhot : d ≤ s.engine.scheduler.policy.hotDowngradeDwellS)
    (hwarm : d ≤ s.engine.scheduler.policy.warmDowngradeDwellS) :
    Dwells s.engine.scheduler.policy.dwell (s.engine.scheduler.lastChangeMono.get? x)
        (s.engine.scheduler.getLevel x) (s.movesOf x steps) ∧
      s'.engine.scheduler.getLevel x = endLevel (s.engine.scheduler.getLevel x) (s.movesOf x steps) ∧
      (∀ tick ∈ s.ticks steps, ∀ row ∈ tick.symbolResults, row.levelBefore ≠ row.levelAfter →
        row.levelAfter = (s.engine.warming.request row.symbol row.features row.acceptedEvents).level) ∧
      ∀ before m after rest, s.movesOf x steps = before ++ m :: (after ++ rest) →
        (after.length : ℚ) * d ≤ 3 * (endTime m.time after - m.time) + 2 * d := by
  obtain ⟨htracks, hasked⟩ := tracks_run x hrun
  refine ⟨htracks.dwells, htracks.level, hasked, fun before m after rest heq => ?_⟩
  have hdwells := htracks.dwells
  rw [heq, dwells_append] at hdwells
  obtain ⟨-, -, hafter⟩ := hdwells.2.2
  have hmid := (dwells_append.1 hafter).1
  have hnonneg : ∀ a b, 0 ≤ s.engine.scheduler.policy.dwell a b := by
    intro a b
    unfold SchedulerPolicy.dwell
    split
    · exact hup
    · split
      · exact hd.trans hhot
      · exact hd.trans hwarm
  have hfall : ∀ a b, levelRank b < levelRank a → d ≤ s.engine.scheduler.policy.dwell a b := by
    intro a b hlt
    unfold SchedulerPolicy.dwell
    rw [if_neg (by omega)]
    split
    · exact hhot
    · exact hwarm
  have hbound := hmid.flapping (n := 2) hd hnonneg hfall levelRank_le levelRank_injective
  norm_num at hbound
  exact hbound

/-- A symbol that warms up twice, under the default policy. -/
theorem levels_dwell_listed : ∃ s', run step freshSession removedRun = some s' ∧
    s'.engine.scheduler.getLevel "A" = endLevel .cold (freshSession.movesOf "A" removedRun) ∧
    ∀ before m after rest, freshSession.movesOf "A" removedRun = before ++ m :: (after ++ rest) →
      (after.length : ℚ) * 30 ≤ 3 * (endTime m.time after - m.time) + 2 * 30 := by
  obtain ⟨s', hrun⟩ : ∃ s', run step freshSession removedRun = some s' :=
    Option.isSome_iff_exists.1 (by decide +kernel)
  have hlevels := levels_dwell hrun "A" (d := 30) (by decide) (by decide) (by decide) (by decide)
  exact ⟨s', hrun, hlevels.2.1, hlevels.2.2.2⟩

end EngineSession

end MarketSentinel
