import MarketSentinel.Domain.Model
import MarketSentinel.Lib.Dict

/-!
# The adaptive scheduler

`scheduler/policy.py`, `scheduler/scheduler.py`, and `orchestration/warming.py`, which says at what
level a symbol should be polled. Each method takes the monotonic time at which it reads the clock.
-/

namespace MarketSentinel

open Lib

structure SchedulerPolicy where
  coldIntervalS : ℚ := 10
  warmIntervalS : ℚ := 3
  hotIntervalS : ℚ := 1
  upgradeDwellS : ℚ := 0
  hotDowngradeDwellS : ℚ := 30
  warmDowngradeDwellS : ℚ := 60
  deriving DecidableEq, Repr

def levelRank : SchedulerLevel → ℕ
  | .cold => 0
  | .warm => 1
  | .hot => 2

structure AdaptiveScheduler where
  policy : SchedulerPolicy := {}
  levels : Dict String SchedulerLevel := Dict.empty
  lastChangeMono : Dict String ℚ := Dict.empty
  lastFetchMono : Dict String ℚ := Dict.empty

namespace AdaptiveScheduler

def getLevel (s : AdaptiveScheduler) (symbol : String) : SchedulerLevel :=
  s.levels.getD symbol .cold

/-- `_interval`. -/
def interval (s : AdaptiveScheduler) : SchedulerLevel → ℚ
  | .hot => s.policy.hotIntervalS
  | .warm => s.policy.warmIntervalS
  | .cold => s.policy.coldIntervalS

/-- `_required_dwell`. -/
def requiredDwell (s : AdaptiveScheduler) (current target : SchedulerLevel) : ℚ :=
  if levelRank current < levelRank target then s.policy.upgradeDwellS
  else if current = .hot then s.policy.hotDowngradeDwellS
  else s.policy.warmDowngradeDwellS

/-- `_dwell_elapsed`. -/
def dwellElapsed (s : AdaptiveScheduler) (now : ℚ) (symbol : String)
    (current target : SchedulerLevel) : Bool :=
  match s.lastChangeMono.get? symbol with
  | none => true
  | some lastChange => s.requiredDwell current target ≤ now - lastChange

/-- `set_level`: whether the level is now the requested one, and the state after. -/
def setLevel (s : AdaptiveScheduler) (now : ℚ) (symbol : String) (level : SchedulerLevel)
    (force : Bool := false) : Bool × AdaptiveScheduler :=
  let current := s.getLevel symbol
  if level = current then (true, { s with levels := s.levels.set symbol current })
  else if !force && !s.dwellElapsed now symbol current level then (false, s)
  else
    (true,
      { s with
        levels := s.levels.set symbol level
        lastChangeMono := s.lastChangeMono.set symbol now })

/-- `due_symbols`. -/
def dueSymbols (s : AdaptiveScheduler) (now : ℚ) (symbols : List String) : List String :=
  symbols.filter fun symbol =>
    match s.lastFetchMono.get? symbol with
    | none => true
    | some lastFetch => s.interval (s.getLevel symbol) ≤ now - lastFetch

/-- `mark_fetched`. -/
def markFetched (s : AdaptiveScheduler) (now : ℚ) (symbol : String) : AdaptiveScheduler :=
  { s with lastFetchMono := s.lastFetchMono.set symbol now }

/-- The seconds until a symbol is due. -/
def remaining (s : AdaptiveScheduler) (now : ℚ) (symbol : String) : ℚ :=
  match s.lastFetchMono.get? symbol with
  | none => 0
  | some lastFetch => max 0 (s.interval (s.getLevel symbol) - (now - lastFetch))

/-- `next_wait_s`. -/
def nextWaitS (s : AdaptiveScheduler) (now : ℚ) : List String → ℚ
  | [] => 1
  | symbol :: symbols =>
    symbols.foldl (fun r symbol => min r (s.remaining now symbol)) (s.remaining now symbol)

end AdaptiveScheduler

/-! ## Warming -/

structure WarmingConfig where
  hotEventSeverity : ℤ := 3
  hotVolumeRatio5m : ℚ := 2
  hotChange5m : ℚ := 12 / 1000
  warmChange1m : ℚ := 4 / 1000
  warmChange5m : ℚ := 8 / 1000
  warmVolumeRatio : ℚ := 15 / 10
  deriving DecidableEq, Repr

structure LevelRequest where
  symbol : String
  level : SchedulerLevel
  reason : String
  deriving DecidableEq, Repr

namespace WarmingConfig

/-- `value is not None and value >= bound`. -/
def reaches (bound : ℚ) : Option ℚ → Bool
  | none => false
  | some x => bound ≤ x

/-- `_is_hot`. -/
def isHot (cfg : WarmingConfig) (features : Option MarketFeatures) (events : List MarketEvent) :
    Bool :=
  if events.any fun e => cfg.hotEventSeverity ≤ e.severity then true
  else if events.any fun e => e.type = .dayHighBreakout ∨ e.type = .dayLowBreakdown then true
  else
    match features with
    | none => false
    | some f =>
      reaches cfg.hotVolumeRatio5m f.volumeRatio5m ||
        reaches cfg.hotChange5m (f.change5m.map abs) ||
        decide (∃ ref ∈ f.sessionHighRef, ref < f.sessionHighObs) ||
        decide (∃ ref ∈ f.sessionLowRef, f.sessionLowObs < ref)

/-- `_is_warm`. -/
def isWarm (cfg : WarmingConfig) : Option MarketFeatures → Bool
  | none => false
  | some f =>
    reaches cfg.warmChange1m (f.change1m.map abs) || reaches cfg.warmChange5m (f.change5m.map abs) ||
      reaches cfg.warmVolumeRatio f.volumeRatio1m || reaches cfg.warmVolumeRatio f.volumeRatio5m

/-- `request`. -/
def request (cfg : WarmingConfig) (symbol : String) (features : Option MarketFeatures)
    (events : List MarketEvent) : LevelRequest :=
  if cfg.isHot features events then ⟨symbol, .hot, "strong"⟩
  else if cfg.isWarm features then ⟨symbol, .warm, "precursor"⟩
  else ⟨symbol, .cold, "quiet"⟩

end WarmingConfig

end MarketSentinel
