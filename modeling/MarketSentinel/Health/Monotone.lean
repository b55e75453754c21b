import MarketSentinel.Health.FeedHealth
import MarketSentinel.Lib.Machine
import Mathlib.Tactic.Linarith
import Mathlib.Tactic.NormNum

/-!
# A feed only gets worse between successes

A run of the tracker observes quotes and errors, asks for statuses, keeps feeds alive and lets time pass. Between
two successes of a symbol its record keeps the time and the latency of its last quote and only gains failures,
unless it is kept alive before it fails.

* `compute_mono`: a record that has aged has no better status.
* `Ages.of_step`, `Ages.of_run`: what ages a record.
* `health_monotone`: the status never improves after a failure, nor between two keep-alives.
-/

namespace MarketSentinel

open Lib Machine

/-! ## Records that age -/

/-- A record with the same last quote and no fewer failures. -/
structure SymbolHealth.Ages (r r' : SymbolHealth) : Prop where
  lastSuccess : r'.lastSuccessMono = r.lastSuccessMono
  failures : r.consecutiveFailures ≤ r'.consecutiveFailures
  market : r'.marketTimestamp = r.marketTimestamp
  received : r'.receivedTimestamp = r.receivedTimestamp

namespace SymbolHealth

theorem Ages.refl (r : SymbolHealth) : r.Ages r := ⟨rfl, le_rfl, rfl, rfl⟩

theorem Ages.trans {r r' r'' : SymbolHealth} (h : r.Ages r') (h' : r'.Ages r'') : r.Ages r'' :=
  ⟨h'.lastSuccess.trans h.lastSuccess, h.failures.trans h'.failures, h'.market.trans h.market,
    h'.received.trans h.received⟩

end SymbolHealth

namespace FeedHealthTracker

variable {h h' h'' : FeedHealthTracker} {now now' : ℚ} {symbol x : String}

theorem worst_le (status : FeedStatus) : worst status ≤ 3 := by cases status <;> decide

/-- **A record that has aged has no better status**, once it has had a success. -/
theorem compute_mono (hpolicy : h'.policy = h.policy) (hnow : now ≤ now') {r r' : SymbolHealth} (hages : r.Ages r')
    (hsuccess : r.lastSuccessMono.isSome) :
    worst (h.compute now (some r)) ≤ worst (h'.compute now' (some r')) := by
  obtain ⟨last, hlast⟩ := Option.isSome_iff_exists.1 hsuccess
  have hlatency : latency r' = latency r := by
    unfold latency
    rw [hages.market, hages.received]
  have hage : now - last ≤ now' - last := by linarith
  have hfailures := hages.failures
  unfold compute
  simp only [hages.lastSuccess, hlast, hpolicy, hlatency]
  -- The branches in the order of the source: each is taken no later by a record that has aged.
  by_cases hdown' : h.policy.disconnectFailures ≤ r'.consecutiveFailures ∨ h.policy.disconnectS ≤ now' - last
  · rw [if_pos hdown']
    exact worst_le _
  have hdown : ¬(h.policy.disconnectFailures ≤ r.consecutiveFailures ∨ h.policy.disconnectS ≤ now - last) :=
    fun hd => hdown' (hd.imp hfailures.trans' hage.trans')
  rw [if_neg hdown, if_neg hdown']
  by_cases hstale' : h.policy.staleS ≤ now' - last
  · rw [if_pos hstale']
    split
    · exact le_rfl
    · split <;> decide
  · -- Neither is stale, and the latency and the rest are the same.
    have hstale : ¬h.policy.staleS ≤ now - last := fun hs => hstale' (hs.trans hage)
    rw [if_neg hstale, if_neg hstale']

/-! ## What ages a record -/

/-- A record of a symbol has aged, and the policy is the same. -/
structure Ages (x : String) (h h' : FeedHealthTracker) : Prop where
  policy : h'.policy = h.policy
  record : ∀ r ∈ h.symbols.get? x, ∃ r' ∈ h'.symbols.get? x, r.Ages r'

theorem Ages.refl : Ages x h h := ⟨rfl, fun r hr => ⟨r, hr, .refl r⟩⟩

theorem Ages.trans (a : Ages x h h') (a' : Ages x h' h'') : Ages x h h'' := by
  refine ⟨a'.policy.trans a.policy, fun r hr => ?_⟩
  obtain ⟨r', hr', hages⟩ := a.record r hr
  obtain ⟨r'', hr'', hages'⟩ := a'.record r' hr'
  exact ⟨r'', hr'', hages.trans hages'⟩

/-- A record is written that ages the one before, or the record of another symbol is. -/
theorem Ages.set {record : SymbolHealth}
    (hrecord : symbol = x → ∀ r ∈ h.symbols.get? x, r.Ages record) :
    Ages x h { h with symbols := h.symbols.set symbol record } := by
  refine ⟨rfl, fun r hr => ?_⟩
  dsimp only
  rw [Dict.get?_set]
  split
  · next heq => exact ⟨record, rfl, hrecord heq.symm r hr⟩
  · exact ⟨r, hr, .refl r⟩

theorem ages_status (h : FeedHealthTracker) (now : ℚ) (symbol x : String) : Ages x h (h.status now symbol).2 := by
  unfold status
  dsimp only
  split
  · exact .refl
  · next record hrecord =>
    refine .set ?_
    rintro rfl r hr
    obtain rfl := Option.some.inj (hrecord.symm.trans hr)
    exact ⟨rfl, le_rfl, rfl, rfl⟩

theorem ages_error (h : FeedHealthTracker) (now : ℚ) (symbol x : String) : Ages x h (h.observe now symbol none) := by
  refine Ages.trans (.set ?_) (ages_status _ now symbol x)
  rintro rfl r hr
  have hget : h.symbols.getD symbol {} = r := by
    unfold Dict.getD
    rw [hr]
    rfl
  rw [hget]
  exact ⟨rfl, Nat.le_succ _, rfl, rfl⟩

/-- The success of another symbol. -/
theorem ages_success (h : FeedHealthTracker) (now : ℚ) (hne : symbol ≠ x) (snapshot : MarketSnapshot) :
    Ages x h (h.observe now symbol (some snapshot)) :=
  .trans (.set fun heq => absurd heq hne) (ages_status _ now symbol x)

/-- A success is recorded. -/
theorem observe_success (h : FeedHealthTracker) (now : ℚ) (x : String) (snapshot : MarketSnapshot) :
    ∃ r ∈ (h.observe now x (some snapshot)).symbols.get? x, r.lastSuccessMono = some now := by
  have hrecord : ∃ r ∈ (h.observe now x (some snapshot)).symbols.get? x, SymbolHealth.Ages
      { h.symbols.getD x {} with
        lastSuccessMono := some now
        consecutiveFailures := 0
        marketTimestamp := some snapshot.marketTimestamp
        receivedTimestamp := some snapshot.receivedTimestamp } r :=
    (ages_status _ now x x).record _ (Dict.get?_set_self _ x _)
  obtain ⟨r, hr, hages⟩ := hrecord
  exact ⟨r, hr, hages.lastSuccess⟩

/-- `consecutive_failures`. -/
def consecutiveFailures (h : FeedHealthTracker) (symbol : String) : ℕ :=
  match h.symbols.get? symbol with
  | none => 0
  | some record => record.consecutiveFailures

/-- **A keep-alive that follows a failure** changes nothing. -/
theorem keepAlive_of_failure (hfailed : 0 < h.consecutiveFailures x) (now : ℚ) : h.keepAlive now x = h := by
  unfold consecutiveFailures at hfailed
  unfold keepAlive
  split
  · rfl
  · next record hrecord =>
    rw [hrecord] at hfailed
    exact if_pos (.inr hfailed)

theorem ages_keepAlive (h : FeedHealthTracker) (now : ℚ) (hfailed : symbol = x → 0 < h.consecutiveFailures x) :
    Ages x h (h.keepAlive now symbol) := by
  by_cases heq : symbol = x
  · subst heq
    rw [keepAlive_of_failure (hfailed rfl)]
    exact .refl
  · unfold keepAlive
    split
    · exact .refl
    · split
      · exact .refl
      · exact .set fun h => absurd h heq

/-- A failure that was recorded stays. -/
theorem Ages.failures (a : Ages x h h') (hfailed : 0 < h.consecutiveFailures x) : 0 < h'.consecutiveFailures x := by
  unfold consecutiveFailures at hfailed ⊢
  cases hrecord : h.symbols.get? x with
  | none => simp [hrecord] at hfailed
  | some r =>
    rw [hrecord] at hfailed
    obtain ⟨r', hr', hages⟩ := a.record r hrecord
    rw [Option.mem_def.1 hr']
    exact hfailed.trans_le hages.failures

end FeedHealthTracker

/-! ## Runs -/

/-- A tracker and its clock. -/
structure FeedClock where
  now : ℚ
  tracker : FeedHealthTracker

inductive FeedEvent
  /-- `observe` of a quote. -/
  | success (symbol : String) (snapshot : MarketSnapshot)
  /-- `observe` of an error. -/
  | error (symbol : String)
  | status (symbol : String)
  | keepAlive (symbol : String)
  | advance (seconds : ℚ)
  deriving DecidableEq

namespace FeedClock

/-- One call, or some time; the clock does not go back. -/
def step (c : FeedClock) : FeedEvent → Option FeedClock
  | .success symbol snapshot => some { c with tracker := c.tracker.observe c.now symbol (some snapshot) }
  | .error symbol => some { c with tracker := c.tracker.observe c.now symbol none }
  | .status symbol => some { c with tracker := (c.tracker.status c.now symbol).2 }
  | .keepAlive symbol => some { c with tracker := c.tracker.keepAlive c.now symbol }
  | .advance seconds => if 0 ≤ seconds then some { c with now := c.now + seconds } else none

/-- The status that is reported of a symbol. -/
def reported (c : FeedClock) (symbol : String) : FeedStatus := (c.tracker.status c.now symbol).1

/-- The symbol has no success, and is kept alive only after a failure. -/
def Quiet (x : String) (c : FeedClock) : FeedEvent → Prop
  | .success symbol _ => symbol ≠ x
  | .keepAlive symbol => symbol = x → 0 < c.tracker.consecutiveFailures x
  | _ => True

/-- Time passes, and the record of a symbol ages. -/
structure Ages (x : String) (c c' : FeedClock) : Prop where
  now : c.now ≤ c'.now
  tracker : c.tracker.Ages x c'.tracker

variable {c c' : FeedClock} {x : String} {event : FeedEvent} {events : List FeedEvent}

theorem Ages.refl : Ages x c c := ⟨le_rfl, .refl⟩

theorem Ages.trans {c'' : FeedClock} (a : Ages x c c') (a' : Ages x c' c'') : Ages x c c'' :=
  ⟨a.now.trans a'.now, a.tracker.trans a'.tracker⟩

/-- **One step ages the record.** -/
theorem Ages.of_step (hquiet : c.Quiet x event) (hs : c.step event = some c') : Ages x c c' := by
  cases event with
  | success symbol snapshot =>
    obtain rfl := Option.some.inj hs
    exact ⟨le_rfl, FeedHealthTracker.ages_success _ _ hquiet _⟩
  | error symbol =>
    obtain rfl := Option.some.inj hs
    exact ⟨le_rfl, FeedHealthTracker.ages_error _ _ _ _⟩
  | status symbol =>
    obtain rfl := Option.some.inj hs
    exact ⟨le_rfl, FeedHealthTracker.ages_status _ _ _ _⟩
  | keepAlive symbol =>
    obtain rfl := Option.some.inj hs
    exact ⟨le_rfl, FeedHealthTracker.ages_keepAlive _ _ hquiet⟩
  | advance seconds =>
    change (if 0 ≤ seconds then some { c with now := c.now + seconds } else none) = some c' at hs
    split at hs
    · next hseconds =>
      obtain rfl := Option.some.inj hs
      exact ⟨le_add_of_nonneg_right hseconds, .refl⟩
    · cases hs

theorem Ages.of_run (hquiet : Along step (Quiet x) c events) (hrun : run step c events = some c') : Ages x c c' :=
  run_inv_of (I := Ages x c) (fun _ _ _ a hq hs => a.trans (.of_step hq hs)) .refl hquiet hrun

/-- A run without a success of the symbol is quiet when its keep-alives are. -/
theorem along_quiet (hsuccess : ∀ snapshot, .success x snapshot ∉ events)
    (halive : .keepAlive x ∈ events → 0 < c.tracker.consecutiveFailures x) : Along step (Quiet x) c events := by
  induction events generalizing c with
  | nil => exact trivial
  | cons event events ih =>
    have hquiet : c.Quiet x event := by
      cases event with
      | success symbol snapshot =>
        rintro rfl
        exact hsuccess snapshot List.mem_cons_self
      | keepAlive symbol =>
        rintro rfl
        exact halive List.mem_cons_self
      | error | status | advance => exact trivial
    -- A failure stays recorded, so a later keep-alive follows one too.
    refine ⟨hquiet, fun c₁ hs => ih (fun snapshot hmem => hsuccess snapshot (List.mem_cons_of_mem _ hmem)) ?_⟩
    exact fun hmem => (Ages.of_step hquiet hs).tracker.failures (halive (List.mem_cons_of_mem _ hmem))

/-! ## Symbols with a success -/

/-- A symbol has had a success. -/
def Succeeded (c : FeedClock) (x : String) : Prop :=
  ∃ r ∈ c.tracker.symbols.get? x, r.lastSuccessMono.isSome

theorem Ages.succeeded (a : Ages x c c') (h : c.Succeeded x) : c'.Succeeded x := by
  obtain ⟨r, hr, hlast⟩ := h
  obtain ⟨r', hr', hages⟩ := a.tracker.record r hr
  exact ⟨r', hr', by rwa [hages.lastSuccess]⟩

theorem succeeded_of_success {snapshot : MarketSnapshot} (hs : c.step (.success x snapshot) = some c') :
    c'.Succeeded x := by
  obtain rfl := Option.some.inj hs
  obtain ⟨r, hr, hlast⟩ := FeedHealthTracker.observe_success c.tracker c.now x snapshot
  exact ⟨r, hr, by rw [hlast]; rfl⟩

/-- A success that was observed stays one. -/
theorem Succeeded.of_step (h : c.Succeeded x) (hs : c.step event = some c') : c'.Succeeded x := by
  by_cases hquiet : c.Quiet x event
  · exact (Ages.of_step hquiet hs).succeeded h
  cases event with
  | success symbol snapshot =>
    obtain rfl : symbol = x := not_not.1 hquiet
    exact succeeded_of_success hs
  | keepAlive symbol =>
    -- The symbol has no failure, so its last success becomes now.
    obtain rfl : symbol = x := (Classical.not_imp.1 hquiet).1
    obtain ⟨r, hr, hlast⟩ := h
    obtain rfl := Option.some.inj hs
    unfold Succeeded FeedHealthTracker.keepAlive
    rw [Option.mem_def.1 hr]
    dsimp only
    split
    · exact ⟨r, hr, hlast⟩
    · exact ⟨_, Dict.get?_set_self _ _ _, rfl⟩
  | error | status | advance => exact absurd trivial hquiet

/-- A run in which a symbol succeeds. -/
theorem succeeded_of_run {snapshot : MarketSnapshot} (hmem : .success x snapshot ∈ events)
    (hrun : run step c events = some c') : c'.Succeeded x := by
  obtain ⟨pre, post, rfl⟩ := List.append_of_mem hmem
  obtain ⟨c₁, -, hrun⟩ := run_append.1 hrun
  obtain ⟨c₂, hsuccess, hpost⟩ := run_cons.1 hrun
  exact run_inv (I := (Succeeded · x)) (fun _ _ _ h hs => Succeeded.of_step h hs) (succeeded_of_success hsuccess) hpost

/-! ## The status -/

theorem reported_eq (c : FeedClock) (x : String) :
    c.reported x = c.tracker.compute c.now (c.tracker.symbols.get? x) := by
  unfold reported FeedHealthTracker.status
  dsimp only
  split <;> rfl

/-- **A record that has aged** has no better status. -/
theorem Ages.worst_le (a : Ages x c c') (hsuccess : c.Succeeded x) : worst (c.reported x) ≤ worst (c'.reported x) := by
  obtain ⟨r, hr, hlast⟩ := hsuccess
  obtain ⟨r', hr', hages⟩ := a.tracker.record r hr
  rw [reported_eq, reported_eq, Option.mem_def.1 hr, Option.mem_def.1 hr']
  exact FeedHealthTracker.compute_mono a.tracker.policy a.now hages hlast

/-- **Feed health is monotone between successes**: after a failure no run without a success improves the status,
and a keep-alive changes nothing; otherwise no run without a keep-alive does. -/
theorem health_monotone {policy : HealthPolicy} {start : ℚ} {before after : List FeedEvent} {c c' : FeedClock}
    {x : String} {snapshot : MarketSnapshot} (hsuccess : .success x snapshot ∈ before)
    (hbefore : run step ⟨start, { policy := policy }⟩ before = some c)
    (hnone : ∀ snapshot, .success x snapshot ∉ after) (hafter : run step c after = some c') :
    (0 < c.tracker.consecutiveFailures x →
        worst (c.reported x) ≤ worst (c'.reported x) ∧ c'.step (.keepAlive x) = some c') ∧
      (.keepAlive x ∉ after → worst (c.reported x) ≤ worst (c'.reported x)) := by
  have hsucceeded := succeeded_of_run hsuccess hbefore
  constructor
  · intro hfailed
    have hages := Ages.of_run (along_quiet hnone fun _ => hfailed) hafter
    refine ⟨hages.worst_le hsucceeded, ?_⟩
    change some { c' with tracker := c'.tracker.keepAlive c'.now x } = some c'
    rw [FeedHealthTracker.keepAlive_of_failure (hages.tracker.failures hfailed)]
  · intro halive
    exact (Ages.of_run (along_quiet hnone fun hmem => absurd hmem halive) hafter).worst_le hsucceeded

def freshQuote : MarketSnapshot where
  symbol := "600519.SH"
  price := 100
  openPrice := 100
  high := 100
  low := 100
  prevClose := 100
  volume := 0
  turnover := none
  marketTimestamp := 36000
  receivedTimestamp := 36000

/-- A quote and a failure. -/
def failedFeed : FeedClock :=
  ⟨0, (FeedHealthTracker.observe {} 0 "600519.SH" (some freshQuote)).observe 0 "600519.SH" none⟩

/-- A keep-alive that follows the failure does not keep the feed from being stale. -/
theorem health_monotone_failed :
    worst (failedFeed.reported "600519.SH") ≤ worst (reported ⟨40, failedFeed.tracker⟩ "600519.SH") ∧
      reported ⟨40, failedFeed.tracker⟩ "600519.SH" = .stale ∧
      step ⟨40, failedFeed.tracker⟩ (.keepAlive "600519.SH") = some ⟨40, failedFeed.tracker⟩ := by
  have hbefore : run step ⟨0, { policy := {} }⟩ [.success "600519.SH" freshQuote, .error "600519.SH"] =
      some failedFeed := rfl
  have hafter : run step failedFeed [.advance 20, .keepAlive "600519.SH", .advance 20] =
      some ⟨40, failedFeed.tracker⟩ := by
    have hkeep : failedFeed.tracker.keepAlive 20 "600519.SH" = failedFeed.tracker :=
      FeedHealthTracker.keepAlive_of_failure (by decide +kernel) 20
    have hstart : failedFeed.now = 0 := rfl
    norm_num [run, step, hstart, hkeep]
  obtain ⟨hworse, hsame⟩ := (health_monotone (.head _) hbefore (by simp) hafter).1 (by decide +kernel)
  exact ⟨hworse, by decide +kernel, hsame⟩

end FeedClock

end MarketSentinel
