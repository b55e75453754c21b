import MarketSentinel.Intelligence.Liveness
import MarketSentinel.Runtime.Tick

/-!
# Runs of the engine

A session is an engine with at most one tick under way. Its steps are the two halves of a tick, a
tick that fetches nothing and so does not await, a replacement of the watchlist between ticks, and
the steps of the coordinator's workers, which may come at any time.

* `SessionInv`: the symbols of the tick under way are on the watchlist.
-/

namespace MarketSentinel

open Lib Machine

/-- What a worker of the coordinator can do. -/
inductive WorkerStep
  | take
  | settle (i : ℕ) (outcome : CallOutcome) (wall elapsed : ℚ)

def WorkerStep.toStep : WorkerStep → CoordinatorStep
  | .take => .take
  | .settle i outcome wall elapsed => .settle i outcome wall elapsed

namespace MarketEngine

/-- A step of a worker, when there is a coordinator. -/
def work (e : MarketEngine) (w : WorkerStep) : Option MarketEngine :=
  e.intelligence.bind fun c => (c.step w.toStep).map e.setIntelligence

/-- `watchlist.replace`; a list that is refused changes nothing. -/
def replaceWatchlist (e : MarketEngine) (items : List WatchItem) : MarketEngine :=
  match e.watchlist.replace items with
  | .error _ => e
  | .ok watchlist => { e with watchlist := watchlist }

/-- The ids offered to the new episodes of a tick. -/
def drawIds (env : TickEnv) (due : List String) : List String :=
  due.flatMap fun symbol => (keysOf symbol).map fun k => ((env.pipeline symbol).draws k).1

theorem mem_drawIds {due : List String} {env : TickEnv} {symbol id : String}
    (h : DrawnIn env due symbol id) : id ∈ drawIds env due := by
  obtain ⟨hs, k, hk, hid⟩ := h
  exact List.mem_flatMap.2 ⟨symbol, hs, List.mem_map.2 ⟨k, mem_keysOf.2 hk, hid⟩⟩

end MarketEngine

structure EngineSession where
  engine : MarketEngine
  /-- The tick that awaits its quotes. -/
  inFlight : Option TickPlan := none
  /-- Ghost: the ids offered to new episodes so far. -/
  drawn : List String := []

inductive EngineStep
  /-- A tick with a due symbol, up to `fetch_quotes`. -/
  | begin (due : ℚ)
  /-- The rest of that tick. -/
  | finish (env : TickEnv) (outcome : FetchOutcome)
  /-- A tick with no due symbol, or with an exhausted source. -/
  | idle (due : ℚ) (env : TickEnv)
  | replace (items : List WatchItem)
  | worker (w : WorkerStep)

namespace EngineSession

def step (s : EngineSession) : EngineStep → Option EngineSession
  | .begin due =>
    let (plan, engine) := s.engine.beginTick due
    if s.inFlight = none ∧ plan.due ≠ [] then
      some { s with engine := engine, inFlight := some plan }
    else none
  | .finish env outcome =>
    match s.inFlight with
    | none => none
    | some plan =>
      some
        { engine := (s.engine.endTick env plan outcome).2
          inFlight := none
          drawn := s.drawn ++ MarketEngine.drawIds env plan.due }
  -- A tick without a fetch awaits nothing, so it is one step.
  | .idle due env =>
    let (plan, engine) := s.engine.beginTick due
    if s.inFlight = none then
      some
        { engine := (engine.endIdleTick env plan).2
          inFlight := none
          drawn := s.drawn ++ MarketEngine.drawIds env plan.due }
    else none
  | .replace items =>
    if s.inFlight = none then some { s with engine := s.engine.replaceWatchlist items } else none
  | .worker w => (s.engine.work w).map fun engine => { s with engine := engine }

/-- The tick that a step ends, with the engine and the plan it runs on. -/
def ending (s : EngineSession) : EngineStep → Option (TickEnv × TickPlan)
  | .finish env _ => s.inFlight.map fun plan => (env, plan)
  | .idle due env => some (env, (s.engine.beginTick due).1)
  | _ => none

/-- The result of the tick that a step ends. -/
def tickOf (s : EngineSession) : EngineStep → Option EngineTickResult
  | .finish env outcome => s.inFlight.map fun plan => (s.engine.endTick env plan outcome).1
  | .idle due env => some ((s.engine.beginTick due).2.endIdleTick env (s.engine.beginTick due).1).1
  | _ => none

/-- The results of the ticks of a run, in order. -/
def ticks (s : EngineSession) : List EngineStep → List EngineTickResult
  | [] => []
  | l :: ls =>
    match s.step l with
    | none => []
    | some s' => (s.tickOf l).toList ++ s'.ticks ls

/-- The environment of the tick that a step ends, if it ends one. -/
def envOf : EngineStep → Option TickEnv
  | .finish env _ => some env
  | .idle _ env => some env
  | _ => none

/-- The ids that `uuid4` offers in a tick are new. -/
def DrawsFresh (s : EngineSession) (l : EngineStep) : Prop :=
  ∀ t ∈ s.ending l, ∀ id ∈ MarketEngine.drawIds t.1 t.2.due, id ∉ s.drawn

instance (s : EngineSession) (l : EngineStep) : Decidable (s.DrawsFresh l) :=
  inferInstanceAs (Decidable (∀ t ∈ s.ending l, _))

/-- What holds of the engine, whatever the coordinator does: the due symbols of the tick under way are
distinct and on the watchlist, and the id of an active episode was offered before. -/
structure SessionInv (s : EngineSession) : Prop where
  plan : ∀ plan ∈ s.inFlight, plan.due.Nodup ∧
    ∀ symbol ∈ plan.due, symbol ∈ s.engine.watchlist.list.map (·.symbol)
  live : ∀ symbol id, s.engine.Live symbol id → id ∈ s.drawn

variable {s s' : EngineSession}

theorem work_cases {e e' : MarketEngine} {w : WorkerStep} (h : e.work w = some e') :
    ∃ c c', e.intelligence = some c ∧ c.step w.toStep = some c' ∧ e' = e.setIntelligence c' := by
  unfold MarketEngine.work at h
  obtain ⟨c, hc, h⟩ := Option.bind_eq_some_iff.1 h
  obtain ⟨c', hc', rfl⟩ := Option.map_eq_some_iff.1 h
  exact ⟨c, c', hc, hc', rfl⟩

theorem replaceWatchlist_cases (e : MarketEngine) (items : List WatchItem) :
    e.replaceWatchlist items = e ∨
      ∃ watchlist, e.replaceWatchlist items = { e with watchlist := watchlist } := by
  unfold MarketEngine.replaceWatchlist
  split
  · exact .inl rfl
  · exact .inr ⟨_, rfl⟩

/-- **What a step does to a session.** -/
theorem step_cases {l : EngineStep} (h : s.step l = some s') :
    (∃ due, l = .begin due ∧ s' = { s with
        engine := (s.engine.beginTick due).2, inFlight := some (s.engine.beginTick due).1 }) ∨
    (∃ env outcome plan, l = .finish env outcome ∧ s.inFlight = some plan ∧
      s' = ⟨(s.engine.endTick env plan outcome).2, none,
        s.drawn ++ MarketEngine.drawIds env plan.due⟩) ∨
    (∃ due env, l = .idle due env ∧ s.inFlight = none ∧
      s' = ⟨((s.engine.beginTick due).2.endIdleTick env (s.engine.beginTick due).1).2, none,
        s.drawn ++ MarketEngine.drawIds env (s.engine.beginTick due).1.due⟩) ∨
    (∃ items, l = .replace items ∧ s.inFlight = none ∧
      s' = { s with engine := s.engine.replaceWatchlist items }) ∨
    ∃ w c c', l = .worker w ∧ s.engine.intelligence = some c ∧ c.step w.toStep = some c' ∧
      s' = { s with engine := s.engine.setIntelligence c' } := by
  cases l with
  | begin due =>
    simp only [step] at h
    split at h
    · exact .inl ⟨due, rfl, (Option.some.inj h).symm⟩
    · cases h
  | finish env outcome =>
    simp only [step] at h
    split at h
    · cases h
    · next plan hplan => exact .inr (.inl ⟨env, outcome, plan, rfl, hplan, (Option.some.inj h).symm⟩)
  | idle due env =>
    simp only [step] at h
    split at h
    · next hidle => exact .inr (.inr (.inl ⟨due, env, rfl, hidle, (Option.some.inj h).symm⟩))
    · cases h
  | replace items =>
    simp only [step] at h
    split at h
    · next hidle => exact .inr (.inr (.inr (.inl ⟨items, rfl, hidle, (Option.some.inj h).symm⟩)))
    · cases h
  | worker w =>
    simp only [step] at h
    obtain ⟨e', he', rfl⟩ := Option.map_eq_some_iff.1 h
    obtain ⟨c, c', hc, hc', rfl⟩ := work_cases he'
    exact .inr (.inr (.inr (.inr ⟨w, c, c', rfl, hc, hc', rfl⟩)))

/-- A tick that ended offers the ids of the episodes it leaves. -/
theorem SessionInv.end_tick {e e' : MarketEngine} {env : TickEnv} {plan : TickPlan}
    {fetched : List String} {tick : EngineTickResult} (h : s.SessionInv)
    (hlive : ∀ symbol id, e.Live symbol id → s.engine.Live symbol id)
    (ht : MarketEngine.TickEffect e env plan fetched tick e') :
    SessionInv ⟨e', none, s.drawn ++ MarketEngine.drawIds env plan.due⟩ where
  plan := fun _ hp => by cases hp
  live := by
    intro symbol id hl
    rcases ht.origin symbol id hl with hl | hd
    · exact List.mem_append_left _ (h.live symbol id (hlive symbol id hl))
    · exact List.mem_append_right _ (MarketEngine.mem_drawIds hd)

theorem SessionInv.of_step {l : EngineStep} (h : s.SessionInv) (hs : s.step l = some s') :
    s'.SessionInv := by
  rcases step_cases hs with ⟨due, -, rfl⟩ | ⟨env, outcome, plan, -, hplan, rfl⟩ | ⟨due, env, -, -, rfl⟩ |
    ⟨items, -, hidle, rfl⟩ | ⟨w, c, c', -, -, -, rfl⟩
  · obtain ⟨hsub, hnodup⟩ := s.engine.beginTick_due due
    refine ⟨fun plan hp => ?_, h.live⟩
    obtain rfl := Option.some.inj hp
    exact ⟨hnodup, fun symbol hs => s.engine.watchlist.mem_list_of_enabled (hsub.subset hs)⟩
  · exact h.end_tick (fun _ _ hl => hl)
      (MarketEngine.endTick_effect s.engine env (h.plan plan hplan).1 outcome)
  · exact h.end_tick (e := (s.engine.beginTick due).2) (fun _ _ hl => hl)
      (MarketEngine.endIdleTick_effect _ env (s.engine.beginTick_due due).2)
  · refine ⟨fun plan hp => ?_, fun symbol id hl => h.live symbol id ?_⟩
    · exact absurd (hidle.symm.trans hp) (by simp)
    · rcases replaceWatchlist_cases s.engine items with heq | ⟨watchlist, heq⟩ <;>
        simp only [heq] at hl <;> exact hl
  · exact ⟨h.plan, h.live⟩

end EngineSession

end MarketSentinel
