import MarketSentinel.Runtime.Session

/-!
# The call budget of an episode

Under the default budget the coordinator queues a signal id while the count of its calls is zero.
The count is forgotten when an id is inactive and nothing is pending for it, and an id is inactive
when its symbol is off the watchlist, although the engine keeps the episode.

* `call_budget`: the budget is kept in every run in which no tick finds an episode alive whose count
  was forgotten.
* `called_twice`: a symbol that is taken off the watchlist and put back gets a second call.
-/

namespace MarketSentinel

open Lib Machine

namespace IntelligenceCoordinator

/-- The items of an id in the queue. -/
def queued (c : IntelligenceCoordinator) (id : String) : ℕ :=
  (c.queue.getD []).countP fun work => decide (work.signalId = id)

/-- Every id was queued once at most, and is called for when it leaves the queue at most. -/
structure Budgeted (c : IntelligenceCoordinator) : Prop where
  budget : c.budget = {}
  once : ∀ id, c.history.submitted.count id ≤ 1
  called : ∀ id, c.history.called.count id + c.queued id ≤ c.history.submitted.count id

/-- The count of an id that was queued before was forgotten. -/
def Forgotten (c : IntelligenceCoordinator) (id : String) : Prop :=
  id ∈ c.history.submitted ∧ c.calls.getD id 0 = 0

instance (c : IntelligenceCoordinator) (id : String) : Decidable (c.Forgotten id) :=
  inferInstanceAs (Decidable (_ ∧ _))

variable {c c' : IntelligenceCoordinator}

theorem Budgeted.called_le (h : c.Budgeted) (id : String) : c.history.called.count id ≤ 1 :=
  le_trans (Nat.le_add_right _ _) ((h.called id).trans (h.once id))

/-- What leaves the budget, the queue and the ids alone. -/
theorem Budgeted.congr (h : c.Budgeted) (hb : c'.budget = c.budget) (hq : c'.queue = c.queue)
    (hs : c'.history.submitted = c.history.submitted) (hc : c'.history.called = c.history.called) :
    c'.Budgeted := by
  refine ⟨hb.trans h.budget, fun id => hs ▸ h.once id, fun id => ?_⟩
  have := h.called id
  unfold queued at this ⊢
  rwa [hs, hc, hq]

/-- An id that was not queued before is queued. -/
theorem Budgeted.submit (h : c.Budgeted) {queue : List IntelligenceWork} {work : IntelligenceWork}
    (hq : c.queue = some queue) (hnew : work.signalId ∉ c.history.submitted) :
    (c.submit queue work).Budgeted := by
  have hcount : ∀ id, (c.submit queue work).history.submitted.count id =
      c.history.submitted.count id + if work.signalId = id then 1 else 0 := by
    intro id
    simp [IntelligenceCoordinator.submit, List.count_append, List.count_singleton]
  have hqueued : ∀ id, (c.submit queue work).queued id =
      c.queued id + if work.signalId = id then 1 else 0 := by
    intro id
    simp [queued, IntelligenceCoordinator.submit, hq, List.countP_append, List.countP_singleton]
  refine ⟨h.budget, fun id => ?_, fun id => ?_⟩
  · rw [hcount]
    split
    · next heq => rw [← heq, List.count_eq_zero_of_not_mem hnew]
    · exact h.once id
  · have := h.called id
    rw [hcount, hqueued]
    simp only [IntelligenceCoordinator.submit]
    omega

/-- The head of the queue is called for. -/
theorem Budgeted.take (h : c.Budgeted) (ht : c.take = some c') : c'.Budgeted := by
  obtain ⟨work, queue, waiting, hq, -, hcase⟩ := take_cases ht
  have hqueued : ∀ id, c.queued id =
      queue.countP (fun work => decide (work.signalId = id)) + if work.signalId = id then 1 else 0 := by
    intro id
    simp [queued, hq, List.countP_cons]
  rcases hcase with ⟨-, rfl⟩ | ⟨-, rfl⟩
  · have hsame := sameWork_store ((c.dequeue queue waiting).call work) work
      (plainResult work.signalId .running (c.calls.getD work.signalId 0))
    -- What the queue loses the calls gain, so their sum is the same.
    have hcall : ((c.dequeue queue waiting).call work).Budgeted := by
      refine ⟨h.budget, h.once, fun id => ?_⟩
      have := h.called id
      rw [hqueued] at this
      simp only [call, dequeue, queued, Option.getD_some, List.count_append, List.count_singleton,
        beq_iff_eq]
      omega
    refine hcall.congr ?_ hsame.queue (by rw [hsame.history]) (by rw [hsame.history])
    unfold IntelligenceCoordinator.store
    split <;> rfl
  · have hsame := sameWork_releasePending ((c.dequeue queue waiting).discard) work.signalId
    have hdrop : (c.dequeue queue waiting).discard.Budgeted := by
      refine ⟨h.budget, h.once, fun id => ?_⟩
      have := h.called id
      rw [hqueued] at this
      simp only [discard, dequeue, queued, Option.getD_some]
      omega
    refine hdrop.congr ?_ hsame.queue (by rw [← hsame.history]; rfl) (by rw [← hsame.history]; rfl)
    unfold release releasePending maybeForget
    split
    · rfl
    · split <;> rfl

theorem Budgeted.settle (h : c.Budgeted) {i : ℕ} {outcome : CallOutcome} {wall elapsed : ℚ}
    (hs : c.settle i outcome wall elapsed = some c') : c'.Budgeted := by
  obtain ⟨call, -, rfl⟩ := settle_cases hs
  set c₁ := c.conclude call.work outcome wall elapsed with hc₁
  have hsame : SameWork c c₁ := sameWork_conclude c call.work outcome wall elapsed
  have hbudget : c₁.budget = c.budget := by
    obtain ⟨t, d, ⟨heq, -⟩ | ⟨r, heq, -⟩⟩ := conclude_cases c call.work outcome wall elapsed <;>
      rw [hc₁, heq] <;> rfl
  have hrel := sameWork_releasePending (c₁.hangUp i call.work) call.work.signalId
  have hhang : (c₁.hangUp i call.work).Budgeted :=
    h.congr hbudget hsame.queue (congrArg (·.submitted) hsame.history)
      (congrArg (·.called) hsame.history)
  refine hhang.congr ?_ hrel.queue (congrArg (·.submitted) hrel.history)
    (congrArg (·.called) hrel.history)
  unfold release releasePending maybeForget
  split
  · rfl
  · split <;> rfl

/-- **A tick keeps the budget** when none of its signals was queued before and forgotten. -/
theorem Budgeted.observeTick (h : c.Budgeted) (hc : c.Coordinated) (env : ObserveEnv)
    (tick : EngineTickResult) (activeIds : Option (List String))
    (hkept : ∀ row ∈ tick.symbolResults, ∀ signal ∈ row.signalUpdates, ¬ c.Forgotten signal.id) :
    (c.observeTick env tick activeIds).Budgeted := by
  set A := currentActive env.now tick activeIds with hA
  have hr := retiring_retireInactive hc A
  have hbudget : (c.retireInactive A).budget = c.budget := by
    unfold IntelligenceCoordinator.retireInactive
    refine List.foldlRecOn _ _ (motive := fun c' : IntelligenceCoordinator => c'.budget = c.budget) rfl
      fun c' h' id _ => ?_
    refine Eq.trans ?_ h'
    unfold IntelligenceCoordinator.invalidate maybeForget cancelInFlight
    split <;> split <;> try split
    all_goals rfl
  -- An id that the loop can queue is active, so that its count is what it was.
  let P : IntelligenceCoordinator → Prop := fun c' => c'.Budgeted ∧ c'.activeIds = A ∧
    ∀ row ∈ tick.symbolResults, ∀ signal ∈ row.signalUpdates, signal.id ∈ A → ¬ c'.Forgotten signal.id
  refine (observeTick_rule (P := P) ?_ ?_ ?_).1
  · rintro c' t d ⟨hb, ha, hk⟩
    exact ⟨hb.congr rfl rfl rfl rfl, ha, hk⟩
  · rintro c' queue payload signal ⟨hb, ha, hk⟩ hq hid ⟨row, hrow, hsig⟩ hactive hallow
    rw [hb.budget, budgetAllowsCall_default] at hallow
    have hnew : signal.id ∉ c'.history.submitted := fun hmem =>
      hk row hrow signal hsig (ha ▸ hactive) ⟨hmem, hallow⟩
    have hwork : (c'.workFor payload signal).signalId = signal.id := hid
    refine ⟨hb.submit hq (hwork ▸ hnew), ha, fun row' hrow' signal' hsig' hin hforgot => ?_⟩
    obtain ⟨hmem, hzero⟩ := hforgot
    simp only [IntelligenceCoordinator.submit, hwork, Dict.getD_set] at hmem hzero
    split at hzero
    · omega
    · next hne =>
      rcases List.mem_append.1 hmem with hmem | hmem
      · exact hk row' hrow' signal' hsig' hin ⟨hmem, hzero⟩
      · exact hne (List.mem_singleton.1 hmem)
  · have hhist : (c.retireInactive A).history.submitted = c.history.submitted :=
      congrArg (·.submitted) hr.history
    refine ⟨h.congr hbudget hr.queue hhist (congrArg (·.called) hr.history), hr.activeIds,
      fun row hrow signal hsig hin hforgot => hkept row hrow signal hsig ?_⟩
    have hrow := row_retireInactive (c := c) A signal.id
    rw [if_pos hin] at hrow
    have hcalls : (c.retireInactive A).calls.get? signal.id = c.calls.get? signal.id :=
      congrArg (·.calls) hrow
    obtain ⟨hmem, hzero⟩ := hforgot
    unfold Dict.getD at hzero
    exact ⟨hhist ▸ hmem, by unfold Dict.getD; rwa [← hcalls]⟩

/-- What a tick queues are ids of its signals. -/
theorem submitted_observeTick (h : c.Coordinated) (env : ObserveEnv) (tick : EngineTickResult)
    (activeIds : Option (List String)) :
    ∀ id ∈ (c.observeTick env tick activeIds).history.submitted, id ∈ c.history.submitted ∨
      ∃ row ∈ tick.symbolResults, ∃ signal ∈ row.signalUpdates, signal.id = id := by
  have hhist : (c.retireInactive (currentActive env.now tick activeIds)).history.submitted =
      c.history.submitted :=
    congrArg (·.submitted) (retiring_retireInactive h _).history
  refine observeTick_rule (P := fun c' => ∀ id ∈ c'.history.submitted, id ∈ c.history.submitted ∨
    ∃ row ∈ tick.symbolResults, ∃ signal ∈ row.signalUpdates, signal.id = id)
    (fun _ _ _ hp => hp) ?_ fun id hid => .inl (hhist ▸ hid)
  rintro c' queue payload signal hp - hpayload ⟨row, hrow, hsig⟩ - - id hid
  rcases List.mem_append.1 hid with hid | hid
  · exact hp id hid
  · exact .inr ⟨row, hrow, signal, hsig, (List.mem_singleton.1 hid).symm ▸ hpayload.symm⟩

/-- A worker queues nothing. -/
theorem submitted_worker {w : WorkerStep} (hs : c.step w.toStep = some c') :
    c'.history.submitted = c.history.submitted := by
  have hrelease : ∀ (c : IntelligenceCoordinator) (work : IntelligenceWork),
      (c.release work).history = c.history := fun c work =>
    (sameWork_releasePending c work.signalId).history
  cases w with
  | take =>
    obtain ⟨work, queue, waiting, -, -, ⟨-, rfl⟩ | ⟨-, rfl⟩⟩ := take_cases hs
    · rw [(sameWork_store _ work _).history]; rfl
    · rw [hrelease]; rfl
  | settle i outcome wall elapsed =>
    obtain ⟨call, -, rfl⟩ := settle_cases hs
    rw [hrelease]
    exact congrArg (·.submitted) (sameWork_conclude c call.work outcome wall elapsed).history

theorem Budgeted.worker (h : c.Budgeted) {w : WorkerStep} (hs : c.step w.toStep = some c') :
    c'.Budgeted := by
  cases w with
  | take => exact h.take hs
  | settle i outcome wall elapsed => exact h.settle hs

end IntelligenceCoordinator

namespace EngineSession

variable {s s' : EngineSession}

/-- The tick that a step ends finds no episode of a due symbol alive whose count was forgotten. -/
def CountsKept (s : EngineSession) : EngineStep → Prop
  | .finish _ _ => ∀ plan ∈ s.inFlight, ∀ c ∈ s.engine.intelligence, ∀ symbol ∈ plan.due,
      ∀ signal ∈ s.engine.pipeline.composer.activeSignals symbol, ¬ c.Forgotten signal.id
  | _ => True

instance (s : EngineSession) : ∀ l, Decidable (s.CountsKept l)
  | .finish _ _ => inferInstanceAs (Decidable (∀ plan ∈ s.inFlight, _))
  | .begin _ | .idle _ _ | .replace _ | .worker _ => isTrue trivial

/-- The invariant of a run that keeps the counts. -/
structure BudgetInv (s : EngineSession) : Prop extends SessionInv s where
  coordinator : ∀ c ∈ s.engine.intelligence, c.Coordinated ∧ c.Budgeted ∧
    ∀ id ∈ c.history.submitted, id ∈ s.drawn

/-- A tick ends, and none of its signals was queued before and forgotten. -/
theorem BudgetInv.end_tick {e e' : MarketEngine} {env : TickEnv} {plan : TickPlan}
    {fetched : List String} {tick : EngineTickResult} (h : s.BudgetInv)
    (hlive : ∀ symbol id, e.Live symbol id → s.engine.Live symbol id)
    (hi : e.intelligence = s.engine.intelligence)
    (ht : MarketEngine.TickEffect e env plan fetched tick e')
    (hkept : ∀ c ∈ s.engine.intelligence, ∀ row ∈ tick.symbolResults,
      ∀ signal ∈ row.signalUpdates, ¬ c.Forgotten signal.id) :
    BudgetInv ⟨e', none, s.drawn ++ MarketEngine.drawIds env plan.due⟩ where
  toSessionInv := h.toSessionInv.end_tick hlive ht
  coordinator := by
    intro c' hc'
    obtain ⟨observeEnv, hmap⟩ := ht.intelligence
    rw [hmap, hi] at hc'
    obtain ⟨c, hc, rfl⟩ := Option.map_eq_some_iff.1 hc'
    obtain ⟨hcoord, hbudget, hdrawn⟩ := h.coordinator c hc
    refine ⟨hcoord.observeTick _ _ _, hbudget.observeTick hcoord _ _ _ (hkept c hc), fun id hid => ?_⟩
    rcases IntelligenceCoordinator.submitted_observeTick hcoord _ _ _ id hid with
      hid | ⟨row, hrow, signal, hsig, rfl⟩
    · exact List.mem_append_left _ (hdrawn id hid)
    · rcases (ht.updates row hrow signal hsig).2.1 with hl | hd
      · exact List.mem_append_left _ (h.live _ _ (hlive _ _ hl))
      · exact List.mem_append_right _ (MarketEngine.mem_drawIds hd)

/-- **Every step that keeps the counts keeps the budget.** -/
theorem BudgetInv.of_step {l : EngineStep} (h : s.BudgetInv) (hfresh : s.DrawsFresh l)
    (hkept : s.CountsKept l) (hs : s.step l = some s') : s'.BudgetInv := by
  have hinv := h.toSessionInv.of_step hs
  rcases step_cases hs with ⟨due, -, rfl⟩ | ⟨env, outcome, plan, rfl, hplan, rfl⟩ |
    ⟨due, env, rfl, -, rfl⟩ | ⟨items, -, -, rfl⟩ | ⟨w, c, c', -, hc, hc', rfl⟩
  · exact ⟨hinv, h.coordinator⟩
  · have ht := MarketEngine.endTick_effect s.engine env (h.plan plan hplan).1 outcome
    refine h.end_tick (fun _ _ hl => hl) rfl ht fun c hc row hrow signal hsig => ?_
    have hdue : row.symbol ∈ plan.due := ht.symbols ▸ List.mem_map_of_mem hrow
    rcases (ht.updates row hrow signal hsig).2.1 with ⟨signal', hsig', hid⟩ | hd
    · exact hid ▸ hkept plan hplan c hc row.symbol hdue signal' hsig'
    · -- An id that was just drawn was never queued.
      intro hforgot
      have hends : (env, plan) ∈ s.ending (.finish env outcome) := by
        simp [ending, show s.inFlight = some plan from hplan]
      exact hfresh (env, plan) hends signal.id (MarketEngine.mem_drawIds hd)
        ((h.coordinator c hc).2.2 signal.id hforgot.1)
  · have ht := MarketEngine.endIdleTick_effect (s.engine.beginTick due).2 env
      (s.engine.beginTick_due due).2
    refine h.end_tick (e := (s.engine.beginTick due).2) (fun _ _ hl => hl) rfl ht ?_
    intro c hc row hrow signal hsig
    exact absurd (ht.updates row hrow signal hsig).1 List.not_mem_nil
  · refine ⟨hinv, fun c hc => h.coordinator c ?_⟩
    rcases replaceWatchlist_cases s.engine items with heq | ⟨watchlist, heq⟩ <;>
      simp only [heq] at hc <;> exact hc
  · refine ⟨hinv, fun c₁ hc₁ => ?_⟩
    obtain rfl := Option.some.inj hc₁
    obtain ⟨hcoord, hbudget, hdrawn⟩ := h.coordinator c hc
    exact ⟨hcoord.of_step hc', hbudget.worker hc',
      IntelligenceCoordinator.submitted_worker hc' ▸ hdrawn⟩

/-- An engine with a coordinator that was just started, before its first tick. -/
structure Started (s : EngineSession) : Prop where
  idle : s.inFlight = none
  composer : ∃ lookbackS hl, s.engine.pipeline.composer = SignalComposer.new lookbackS hl
  coordinator : ∃ queueSize concurrency policy telemetry, s.engine.intelligence =
    some (IntelligenceCoordinator.new queueSize concurrency {} policy telemetry).start

theorem Started.budgetInv (h : s.Started) : s.BudgetInv where
  plan := fun plan hp => absurd (h.idle.symm.trans hp) (by simp)
  live := by
    rintro symbol id ⟨signal, hsig, -⟩
    obtain ⟨lookbackS, hl, hcomp⟩ := h.composer
    rw [hcomp] at hsig
    obtain ⟨k, -, ha⟩ := mem_activeSignals.1 hsig
    cases ha
  coordinator := by
    intro c hc
    obtain ⟨queueSize, concurrency, policy, telemetry, hnew⟩ := h.coordinator
    obtain rfl := Option.some.inj (hnew.symm.trans hc)
    refine ⟨IntelligenceCoordinator.coordinated_start .., ⟨rfl, fun _ => Nat.zero_le _, fun _ => ?_⟩,
      fun id hid => absurd hid List.not_mem_nil⟩
    exact le_rfl

/-- **The call budget.** In every run of ticks, watchlist replacements and worker steps under the
default budget in which no tick finds an episode of a due symbol alive whose count was forgotten,
`provider.complete` is called at most once for each signal id. -/
theorem call_budget {s₀ : EngineSession} {steps : List EngineStep} (h₀ : s₀.Started)
    (hrun : run step s₀ steps = some s)
    (hok : Along step (fun s l => s.DrawsFresh l ∧ s.CountsKept l) s₀ steps) :
    ∀ c ∈ s.engine.intelligence, ∀ id, c.history.called.count id ≤ 1 := by
  have h : s.BudgetInv :=
    run_inv_of (fun _ _ _ h hl hs => h.of_step hl.1 hl.2 hs) h₀.budgetInv hok hrun
  exact fun c hc id => (h.coordinator c hc).2.1.called_le id

/-- A quote of symbol "A". -/
def quoteAt (price high ts : ℚ) : MarketSnapshot where
  symbol := "A"
  price := price
  openPrice := 100
  high := high
  low := 100
  prevClose := 100
  volume := 0
  turnover := none
  marketTimestamp := ts
  receivedTimestamp := ts

/-- A tick at one instant, with the ids of a prefix. -/
def tickAt (pre : String) (t : ℚ) : TickEnv where
  mono _ _ := t
  pipeline _ :=
    { detectedAt := t
      eventId := fun type => pre ++ type.value
      draws := prefixDraws pre t
      monotonic := fun _ => t }
  now := t
  routerS _ := 0

/-- A session of an empty watchlist. -/
def freshSession : EngineSession where
  engine := { intelligence := some (IntelligenceCoordinator.new 8 1 {} {} none).start }

theorem freshSession_started : freshSession.Started :=
  ⟨rfl, ⟨_, clusterLookbackS_nonneg, rfl⟩, ⟨8, 1, {}, none, rfl⟩⟩

/-- "A" rises by 2% in a minute and its signal is called for. Then "A" is off the watchlist for one
tick, comes back, and makes a new high a minute after the first rise. -/
def removedRun : List EngineStep :=
  [.replace [{ symbol := "A" }],
    .begin 0, .finish (tickAt "a" 0) (.quotes [quoteAt 100 200 100000]),
    .begin 60, .finish (tickAt "b" 60) (.quotes [quoteAt 102 200 100060]),
    .worker .take, .worker (.settle 0 (.raised .timeout) 61 1),
    .replace [], .idle 61 (tickAt "c" 61), .replace [{ symbol := "A" }],
    .begin 121, .finish (tickAt "d" 121) (.quotes [quoteAt 105 300 100121]),
    .worker .take]

/-- **A second call**: the count of the signal is forgotten while "A" is off the watchlist, and the
episode goes on when it is back. -/
theorem called_twice : ∃ s c, run step freshSession removedRun = some s ∧
    s.engine.intelligence = some c ∧ c.history.called.count "btuA" = 2 ∧
      Along step DrawsFresh freshSession removedRun := by
  have hcount : ((run step freshSession removedRun).bind (·.engine.intelligence)).map
      (fun c => c.history.called.count "btuA") = some 2 := by decide +kernel
  obtain ⟨c, hc, hn⟩ := Option.map_eq_some_iff.1 hcount
  obtain ⟨s, hs, hi⟩ := Option.bind_eq_some_iff.1 hc
  exact ⟨s, c, hs, hi, hn, by decide +kernel⟩

/-- The run up to the removal keeps the budget. -/
theorem call_budget_listed : ∃ s, run step freshSession (removedRun.take 7) = some s ∧
    ∀ c ∈ s.engine.intelligence, ∀ id, c.history.called.count id ≤ 1 := by
  obtain ⟨s, hs⟩ : ∃ s, run step freshSession (removedRun.take 7) = some s :=
    Option.isSome_iff_exists.1 (by decide +kernel)
  exact ⟨s, hs, call_budget freshSession_started hs (by decide +kernel)⟩

end EngineSession

end MarketSentinel
