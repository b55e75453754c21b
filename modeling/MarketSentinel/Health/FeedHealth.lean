import MarketSentinel.Domain.Model
import MarketSentinel.Lib.Dict

/-!
# Feed health

`health/policy.py` and `health/feed_health.py`. Each method takes the monotonic time at which it
reads the clock.
-/

namespace MarketSentinel

open Lib

structure HealthPolicy where
  delayedS : ℚ := 3
  staleS : ℚ := 30
  disconnectS : ℚ := 60
  disconnectFailures : ℕ := 3
  deriving DecidableEq, Repr

structure SymbolHealth where
  lastSuccessMono : Option ℚ := none
  consecutiveFailures : ℕ := 0
  marketTimestamp : Option ℚ := none
  receivedTimestamp : Option ℚ := none
  lastStatus : Option FeedStatus := none
  deriving DecidableEq, Repr

structure FeedHealthTracker where
  policy : HealthPolicy := {}
  symbols : Dict String SymbolHealth := Dict.empty

/-- `_WORST`. -/
def worst : FeedStatus → ℕ
  | .live => 0
  | .delayed => 1
  | .stale => 2
  | .disconnected => 3

namespace FeedHealthTracker

/-- `_latency`. -/
def latency (record : SymbolHealth) : ℚ :=
  match record.receivedTimestamp, record.marketTimestamp with
  | some received, some market => max 0 (received - market)
  | _, _ => 0

/-- `_compute`. -/
def compute (h : FeedHealthTracker) (now : ℚ) : Option SymbolHealth → FeedStatus
  | none => .disconnected
  | some record =>
    match record.lastSuccessMono with
    | none =>
      -- Before its first success a symbol is stale while it fails, and disconnected otherwise.
      if h.policy.disconnectFailures ≤ record.consecutiveFailures then .disconnected
      else if 0 < record.consecutiveFailures then .stale
      else .disconnected
    | some lastSuccess =>
      let age := now - lastSuccess
      if h.policy.disconnectFailures ≤ record.consecutiveFailures ∨ h.policy.disconnectS ≤ age then
        .disconnected
      else if h.policy.staleS ≤ age then .stale
      else if h.policy.delayedS ≤ latency record then .delayed
      else .live

/-- `peek_status`. -/
def peekStatus (h : FeedHealthTracker) (now : ℚ) (symbol : String) : FeedStatus :=
  h.compute now (h.symbols.get? symbol)

/-- `status`: the status, which is also remembered for the log. -/
def status (h : FeedHealthTracker) (now : ℚ) (symbol : String) : FeedStatus × FeedHealthTracker :=
  let status := h.peekStatus now symbol
  match h.symbols.get? symbol with
  | none => (status, h)
  | some record =>
    (status, { h with symbols := h.symbols.set symbol { record with lastStatus := some status } })

/-- `observe`, with a snapshot or with an error. -/
def observe (h : FeedHealthTracker) (now : ℚ) (symbol : String) (snapshot : Option MarketSnapshot) :
    FeedHealthTracker :=
  let record := h.symbols.getD symbol {}
  let record :=
    match snapshot with
    | some snapshot =>
      { record with
        lastSuccessMono := some now
        consecutiveFailures := 0
        marketTimestamp := some snapshot.marketTimestamp
        receivedTimestamp := some snapshot.receivedTimestamp }
    | none => { record with consecutiveFailures := record.consecutiveFailures + 1 }
  ({ h with symbols := h.symbols.set symbol record }.status now symbol).2

/-- `keep_alive`. -/
def keepAlive (h : FeedHealthTracker) (now : ℚ) (symbol : String) : FeedHealthTracker :=
  match h.symbols.get? symbol with
  | none => h
  | some record =>
    if record.lastSuccessMono.isNone ∨ 0 < record.consecutiveFailures then h
    else { h with symbols := h.symbols.set symbol { record with lastSuccessMono := some now } }

/-- `aggregate_status`: the first of the worst statuses. -/
def aggregateStatus (h : FeedHealthTracker) (now : ℚ) : List String → FeedStatus × FeedHealthTracker
  | [] => (.disconnected, h)
  | symbol :: symbols =>
    let (first, h) := h.status now symbol
    symbols.foldl
      (fun (r : FeedStatus × FeedHealthTracker) symbol =>
        let (status, h) := r.2.status now symbol
        (if worst r.1 < worst status then status else r.1, h))
      (first, h)

/-- `feed_latency`. -/
def feedLatency (h : FeedHealthTracker) (symbol : String) : Option ℚ :=
  (h.symbols.get? symbol).bind fun record =>
    match record.receivedTimestamp, record.marketTimestamp with
    | some received, some market => some (max 0 (received - market))
    | _, _ => none

/-- `last_update_age`. -/
def lastUpdateAge (h : FeedHealthTracker) (now : ℚ) (symbol : String) : Option ℚ :=
  (h.symbols.get? symbol).bind fun record => record.lastSuccessMono.map (now - ·)

end FeedHealthTracker

end MarketSentinel
