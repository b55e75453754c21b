import Mathlib.Data.List.Sort
import MarketSentinel.Domain.Model

/-!
# The intelligence contract and its router

`intelligence/contract.py`, `intelligence/compress.py` and `intelligence/router.py`: the
compressed input, the result rows, the call budget, and the pure decision whether an episode is
worth a model call.

* `budgetAllowsCall_default`: the default budget is one call for an episode.
* `needIntelligence_requested`: what a granted request says about its input.
-/

namespace MarketSentinel

inductive IntelligenceStatus
  | notRequested | queued | running | enriched | fallback
  deriving DecidableEq, Repr

inductive FallbackReason
  | none | notCandidate | staleFeed | insufficientFeatures | suppressedEdge | episodeBudget
  | expiredEpisode | timeout | transport | malformed | rateLimited | unavailable | cancelled
  | staleWork | policy
  deriving DecidableEq, Repr

def IntelligenceStatus.value : IntelligenceStatus → String
  | .notRequested => "not_requested"
  | .queued => "queued"
  | .running => "running"
  | .enriched => "enriched"
  | .fallback => "fallback"

def FallbackReason.value : FallbackReason → String
  | .none => "none"
  | .notCandidate => "not_candidate"
  | .staleFeed => "stale_feed"
  | .insufficientFeatures => "insufficient_features"
  | .suppressedEdge => "suppressed_edge"
  | .episodeBudget => "episode_budget"
  | .expiredEpisode => "expired_episode"
  | .timeout => "timeout"
  | .transport => "transport"
  | .malformed => "malformed"
  | .rateLimited => "rate_limited"
  | .unavailable => "unavailable"
  | .cancelled => "cancelled"
  | .staleWork => "stale_work"
  | .policy => "policy"

/-- Compressed structured facts for the router and the model. -/
structure IntelligenceInput where
  signalId : String
  symbol : String
  family : String
  direction : EventDirection
  priority : SignalPriority
  eventTypes : List String
  change1m : Option ℚ
  change5m : Option ℚ
  volumeRatio5m : Option ℚ
  aboveVwap : Option Bool
  rsi14 : Option ℚ
  dayRangePosition : Option ℚ
  feedStatus : FeedStatus
  alertEdge : Bool
  episodeCallCount : ℕ
  lastRequestedPriority : Option SignalPriority
  expired : Bool
  deriving DecidableEq, Repr

structure IntelligenceAnnotation where
  signalId : String
  worthHighlight : Bool
  reason : String
  confidence : ℚ
  summary : String
  createdTimestamp : ℚ
  deriving DecidableEq, Repr

structure IntelligenceResult where
  signalId : String
  status : IntelligenceStatus
  requested : Bool
  annotation : Option IntelligenceAnnotation
  fallbackReason : FallbackReason
  modelCalls : ℕ
  modelLatencyS : Option ℚ := none
  deriving DecidableEq, Repr

structure EpisodeCallBudget where
  maxCalls : ℤ := 1
  allowEscalationRecall : Bool := false
  deriving DecidableEq, Repr

def budgetAllowsCall (budget : EpisodeCallBudget) (callsMade : ℕ) (current : SignalPriority)
    (lastPriority : Option SignalPriority) : Bool :=
  if (callsMade : ℤ) < budget.maxCalls then true
  else if !budget.allowEscalationRecall then false
  else
    match lastPriority with
    | none => false
    | some last =>
      if budget.maxCalls + 1 ≤ callsMade then false else priorityRank last < priorityRank current

/-- **The default budget is one call for an episode.** -/
theorem budgetAllowsCall_default {callsMade : ℕ} {current : SignalPriority}
    {lastPriority : Option SignalPriority} :
    budgetAllowsCall {} callsMade current lastPriority = true ↔ callsMade = 0 := by
  unfold budgetAllowsCall
  dsimp only
  split
  · next h => exact ⟨fun _ => by omega, fun _ => rfl⟩
  · next h => simp only [Bool.not_false, if_true, Bool.false_eq_true, false_iff]; omega

/-- `compress_intelligence_input`. -/
def compressIntelligenceInput (signal : Signal) (trace : SignalTrace) (feedStatus : FeedStatus)
    (alertEdge : Bool) (episodeCallCount : ℕ) (lastRequestedPriority : Option SignalPriority)
    (expired : Bool) : IntelligenceInput where
  signalId := signal.id
  symbol := signal.symbol
  family := signal.family
  direction := signal.direction
  priority := signal.priority
  eventTypes := trace.ruleNames.eraseDups.mergeSort
  change1m := trace.features.change1m
  change5m := trace.features.change5m
  volumeRatio5m := trace.features.volumeRatio5m
  aboveVwap := trace.features.aboveVwap
  rsi14 := trace.features.rsi14
  dayRangePosition := trace.features.dayRangePosition
  feedStatus := feedStatus
  alertEdge := alertEdge
  episodeCallCount := episodeCallCount
  lastRequestedPriority := lastRequestedPriority
  expired := expired

/-! ## The router -/

structure RouterPolicy where
  minPriority : SignalPriority := .important
  requireAlertEdge : Bool := true
  minConvergenceTypes : ℕ := 3
  deriving DecidableEq, Repr

structure RouterDecision where
  requested : Bool
  reason : FallbackReason
  candidate : Bool
  deriving DecidableEq, Repr

/-- `_PRICE`, `_VOLUME` and `_BREAKOUT`. -/
def priceTypes : List String := ["rapid_move", "price_volume_expansion"]
def volumeTypes : List String := ["volume_spike", "price_volume_expansion"]
def breakoutTypes : List String := ["day_high_breakout", "day_low_breakdown"]

/-- `bool(types & group)`. -/
def meets (types group : List String) : Bool := types.any (· ∈ group)

def isRouterCandidate (row : IntelligenceInput) (policy : RouterPolicy) : Bool :=
  if priorityRank policy.minPriority ≤ priorityRank row.priority then true
  else
    let types := row.eventTypes.eraseDups
    if meets types priceTypes && meets types volumeTypes && meets types breakoutTypes then true
    else
      decide (policy.minConvergenceTypes ≤ types.length) && meets types priceTypes &&
        meets types volumeTypes

def insufficientFeatures (row : IntelligenceInput) : Bool :=
  row.change1m.isNone && row.change5m.isNone && row.volumeRatio5m.isNone

def needIntelligence (row : IntelligenceInput) (policy : RouterPolicy) (budget : EpisodeCallBudget) :
    RouterDecision :=
  let candidate := isRouterCandidate row policy
  if row.expired then ⟨false, .expiredEpisode, candidate⟩
  else if policy.requireAlertEdge && !row.alertEdge then ⟨false, .suppressedEdge, candidate⟩
  else if row.feedStatus = .stale ∨ row.feedStatus = .disconnected then
    ⟨false, .staleFeed, candidate⟩
  else if insufficientFeatures row then ⟨false, .insufficientFeatures, candidate⟩
  else if !candidate then ⟨false, .notCandidate, false⟩
  else if !budgetAllowsCall budget row.episodeCallCount row.priority row.lastRequestedPriority then
    ⟨false, .episodeBudget, true⟩
  else ⟨true, .none, true⟩

/-- **A granted request is for an active episode within its budget.** -/
theorem needIntelligence_requested {row : IntelligenceInput} {policy : RouterPolicy}
    {budget : EpisodeCallBudget} (h : (needIntelligence row policy budget).requested = true) :
    row.expired = false ∧
      budgetAllowsCall budget row.episodeCallCount row.priority row.lastRequestedPriority = true := by
  unfold needIntelligence at h
  dsimp only at h
  split at h
  · cases h
  · next hexp =>
    refine ⟨by simpa using hexp, ?_⟩
    by_contra hbudget
    simp only [Bool.not_eq_true] at hbudget
    simp only [hbudget] at h
    split at h <;> try cases h
    split at h <;> try cases h
    split at h <;> try cases h
    split at h <;> cases h

end MarketSentinel
