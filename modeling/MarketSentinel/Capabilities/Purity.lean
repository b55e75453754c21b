import MarketSentinel.Capabilities.Api
import MarketSentinel.Watchlist.Persistence

/-!
# What the capability reads leave

Five of the six reads leave everything. `get_market_state` goes through `aggregate_status`, which remembers in
each health record the status that it computes.

* `aggregateStatusAt_snd`: what `aggregate_status` leaves, as one rewriting of the records.
* `performAll_eq`: what a sequence of reads leaves is decided by its last market-state read.
* `reads_pure_iff`: the reads leave the engine as it was exactly when that read finds each status remembered.
-/

namespace MarketSentinel

open Lib

namespace FeedHealthTracker

variable (h : FeedHealthTracker) (now now' : String → ℚ)

/-- The records of some symbols, with their statuses remembered. -/
def remember (symbols : List String) : FeedHealthTracker :=
  { h with
    symbols := h.symbols.mapValues fun symbol record =>
      if symbol ∈ symbols then { record with lastStatus := some (h.compute (now symbol) (some record)) } else record }

/-- Each status is the one that is remembered. -/
def Remembered (symbols : List String) : Prop :=
  ∀ symbol ∈ symbols, ∀ record, h.symbols.get? symbol = some record →
    record.lastStatus = some (h.compute (now symbol) (some record))

theorem remember_eq_iff {symbols : List String} {h' : FeedHealthTracker} (hpolicy : h'.policy = h.policy) :
    h.remember now symbols = h' ↔ (h.remember now symbols).symbols = h'.symbols := by
  constructor
  · exact congrArg FeedHealthTracker.symbols
  · intro hsymbols
    obtain ⟨policy, symbols'⟩ := h'
    obtain rfl : policy = h.policy := hpolicy
    obtain rfl : _ = symbols' := hsymbols
    rfl

/-- **Nothing is written** exactly when each status is the one that is remembered. -/
theorem remember_eq_self (symbols : List String) : h.remember now symbols = h ↔ h.Remembered now symbols := by
  rw [remember_eq_iff h now rfl]
  unfold remember
  rw [Dict.mapValues_eq_self]
  constructor
  · intro hall symbol hmem record hget
    have hrecord := hall symbol record hget
    rw [if_pos hmem] at hrecord
    exact (congrArg SymbolHealth.lastStatus hrecord).symm
  · intro hall symbol record hget
    split
    · next hmem => rw [← hall symbol hmem record hget]
    · rfl

/-- What `status` leaves. -/
theorem status_snd (symbol : String) : (h.status (now symbol) symbol).2 = h.remember now [symbol] := by
  unfold status
  cases hget : h.symbols.get? symbol with
  | none =>
    have hself : h.Remembered now [symbol] := by
      intro symbol' hmem record hrecord
      rw [List.mem_singleton.1 hmem, hget] at hrecord
      cases hrecord
    exact ((remember_eq_self h now [symbol]).2 hself).symm
  | some record =>
    have hset := Dict.set_eq_mapValues hget fun record =>
      { record with lastStatus := some (h.compute (now symbol) (some record)) }
    have hpeek : h.peekStatus (now symbol) symbol = h.compute (now symbol) (some record) := by
      unfold peekStatus
      rw [hget]
    unfold remember
    dsimp only
    rw [hpeek, hset]
    congr 1
    refine Dict.mapValues_congr fun symbol' record' _ => ?_
    by_cases hs : symbol' = symbol
    · rw [if_pos hs, if_pos (List.mem_singleton.2 hs), hs]
    · rw [if_neg hs, if_neg (fun hmem => hs (List.mem_singleton.1 hmem))]

theorem remember_append (xs ys : List String) :
    (h.remember now xs).remember now ys = h.remember now (xs ++ ys) := by
  unfold remember
  dsimp only
  rw [Dict.mapValues_mapValues]
  congr 1
  refine Dict.mapValues_congr fun symbol record _ => ?_
  by_cases hx : symbol ∈ xs <;> by_cases hy : symbol ∈ ys <;> simp [hx, hy] <;> rfl

/-- What is remembered later replaces what was. -/
theorem remember_remember (symbols : List String) :
    (h.remember now symbols).remember now' symbols = h.remember now' symbols := by
  unfold remember
  dsimp only
  rw [Dict.mapValues_mapValues]
  congr 1
  refine Dict.mapValues_congr fun symbol record _ => ?_
  by_cases hx : symbol ∈ symbols
  · simp only [hx, if_true]
    rfl
  · simp only [hx, if_false]

theorem remember_nil : h.remember now [] = h :=
  (remember_eq_self h now []).2 fun _ hmem => absurd hmem List.not_mem_nil

/-- **What `aggregate_status` leaves.** -/
theorem aggregateStatusAt_snd (symbols : List String) :
    (h.aggregateStatusAt now symbols).2 = h.remember now symbols := by
  have hfold : ∀ (rest done : List String) (status : FeedStatus),
      (rest.foldl (worseStatus now) (status, h.remember now done)).2 = h.remember now (done ++ rest) := by
    intro rest
    induction rest with
    | nil => intro done status; rw [List.append_nil]; rfl
    | cons symbol rest ih =>
      intro done status
      have hnext := status_snd (h.remember now done) now symbol
      rw [remember_append] at hnext
      rw [List.foldl_cons, worseStatus]
      dsimp only
      rw [hnext, ih, List.append_assoc]
      rfl
  cases symbols with
  | nil => exact (remember_nil h now).symm
  | cons symbol symbols =>
    have hfirst := status_snd h now symbol
    have hrest := hfold symbols [symbol] (h.status (now symbol) symbol).1
    rw [← hfirst] at hrest
    exact hrest

end FeedHealthTracker

namespace MarketCapabilities

variable (c : MarketCapabilities)

/-- What a market-state read leaves. -/
def observed (env : ReadEnv) : MarketCapabilities :=
  { c with
    engine :=
      { c.engine with health := c.engine.health.remember env.status c.engine.watchlist.enabledSymbols } }

/-- The read is a market-state read, and it is not refused. -/
def opens (read : CapabilityRead × ReadEnv) : Bool :=
  match read.1 with
  | .marketState => decide (read.2.gate ≠ some false)
  | _ => false

/-- The last market-state read that is not refused. -/
def lastMarketRead : List (CapabilityRead × ReadEnv) → Option ReadEnv
  | [] => none
  | read :: reads => (lastMarketRead reads).or (if opens read then some read.2 else none)

/-- **One read** leaves everything, or is a market-state read. -/
theorem perform_snd (read : CapabilityRead × ReadEnv) :
    (c.perform read.2 read.1).2 = if opens read then c.observed read.2 else c := by
  obtain ⟨read, env⟩ := read
  cases read with
  | marketState =>
    unfold perform getMarketState requireStarted opens
    by_cases hgate : env.gate = some false
    · simp [hgate]
    · have haggregate := c.engine.health.aggregateStatusAt_snd env.status c.engine.watchlist.enabledSymbols
      simp only [hgate, if_false, ne_eq, not_false_eq_true, decide_true, if_true]
      unfold mapEngineStateAt observed
      rw [← haggregate]
  | symbolState symbol => rfl
  | activeSignals => rfl
  | signal signalId => rfl
  | feedHealth => rfl
  | recentEvents symbol limit => rfl

theorem observed_observed (env env' : ReadEnv) : (c.observed env).observed env' = c.observed env' := by
  have hlast := c.engine.health.remember_remember env.status env'.status c.engine.watchlist.enabledSymbols
  unfold observed
  dsimp only
  rw [hlast]

/-- **A sequence of reads** leaves what its last market-state read does. -/
theorem performAll_eq : ∀ (reads : List (CapabilityRead × ReadEnv)) (c : MarketCapabilities),
    c.performAll reads = ((lastMarketRead reads).map c.observed).getD c := by
  intro reads
  induction reads with
  | nil => intro c; rfl
  | cons read reads ih =>
    intro c
    have hstep : c.performAll (read :: reads) = (c.perform read.2 read.1).2.performAll reads := rfl
    rw [hstep, ih, perform_snd, lastMarketRead]
    by_cases hopens : opens read = true
    · rw [if_pos hopens, if_pos hopens]
      cases lastMarketRead reads with
      | none => rfl
      | some env => exact observed_observed c read.2 env
    · rw [if_neg hopens, if_neg hopens]
      cases lastMarketRead reads with
      | none => rfl
      | some env => rfl

theorem observed_eq_self (env : ReadEnv) :
    c.observed env = c ↔ c.engine.health.Remembered env.status c.engine.watchlist.enabledSymbols := by
  rw [← FeedHealthTracker.remember_eq_self]
  constructor
  · intro h
    exact congrArg (fun c : MarketCapabilities => c.engine.health) h
  · intro h
    unfold observed
    rw [h]

/-- The statuses that `peek_status` shows are as they were, at every time. -/
theorem peekStatus_performAll (reads : List (CapabilityRead × ReadEnv)) (t : ℚ) (symbol : String) :
    (c.performAll reads).engine.health.peekStatus t symbol = c.engine.health.peekStatus t symbol := by
  rw [performAll_eq]
  cases lastMarketRead reads with
  | none => rfl
  | some env =>
    have hget : (c.observed env).engine.health.symbols.get? symbol =
        (c.engine.health.symbols.get? symbol).map fun record =>
          if symbol ∈ c.engine.watchlist.enabledSymbols then
            { record with lastStatus := some (c.engine.health.compute (env.status symbol) (some record)) }
          else record := Dict.get?_mapValues _ _ _
    rw [Option.map_some, Option.getD_some, FeedHealthTracker.peekStatus, FeedHealthTracker.peekStatus, hget]
    cases c.engine.health.symbols.get? symbol with
    | none => rfl
    | some record =>
      rw [Option.map_some]
      split <;> rfl

/-- **Reads that change nothing.** A sequence of capability reads, with any arguments and clocks, leaves the
engine and the events as they were exactly when it has no market-state read that is served, or when at the clock
of the last one the health record of each enabled symbol already holds the status that is computed there. -/
theorem reads_pure_iff (reads : List (CapabilityRead × ReadEnv)) :
    c.performAll reads = c ↔
      ∀ env ∈ lastMarketRead reads,
        c.engine.health.Remembered env.status c.engine.watchlist.enabledSymbols := by
  rw [performAll_eq]
  cases lastMarketRead reads with
  | none => simp
  | some env =>
    rw [Option.map_some, Option.getD_some, observed_eq_self]
    simp

/-- A quote at market time 0. -/
def firstQuote : MarketSnapshot where
  symbol := "600519.SH"
  price := 1
  openPrice := 1
  high := 1
  low := 1
  prevClose := 1
  volume := 0
  turnover := none
  marketTimestamp := 0
  receivedTimestamp := 0

/-- An engine that has seen one quote, at the monotonic time 0. -/
def quotedEngine : MarketCapabilities where
  engine :=
    { watchlist := Watchlist.put {} { symbol := "600519.SH" }
      health := ({} : FeedHealthTracker).observe 0 "600519.SH" (some firstQuote) }

/-- Its state is read 31 seconds later, when the quote is stale. -/
theorem market_state_read_writes :
    let read : CapabilityRead × ReadEnv := (.marketState, { status := fun _ => 31, age := fun _ => 31 })
    (quotedEngine.engine.health.symbols.get? "600519.SH").map (·.lastStatus) = some (some .live) ∧
      ((quotedEngine.performAll [read]).engine.health.symbols.get? "600519.SH").map (·.lastStatus) =
        some (some .stale) ∧
      quotedEngine.performAll [read] ≠ quotedEngine := by
  intro read
  have hbefore : (quotedEngine.engine.health.symbols.get? "600519.SH").map (·.lastStatus) = some (some .live) := by
    decide +kernel
  have hafter : ((quotedEngine.performAll [read]).engine.health.symbols.get? "600519.SH").map (·.lastStatus) =
      some (some .stale) := by decide +kernel
  refine ⟨hbefore, hafter, fun h => ?_⟩
  rw [h, hbefore] at hafter
  cases hafter

end MarketCapabilities

end MarketSentinel
