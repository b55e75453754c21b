import MarketSentinel.Lib.Gate
import MarketSentinel.Signals.Gates
import Mathlib.Data.List.Perm.Subperm
import Mathlib.Tactic.Linarith

/-!
# Runs of the two gates

Both gates of the pipeline are `Lib.Gate`s: the deduper by the key of an event, the cooldown by the
id of a signal.

* `dedupe_law` (any order of events): the accepted events of a key are in time order, and two in a
  row are the earlier one's TTL apart or escalate; what is rejected was too early or inside the TTL
  of the last accepted one, and can be left out.
* `cooldown_rate` (a clock that never goes back): the alerts of an id are a cooldown apart or
  escalate, so a window shorter than the cooldown has at most four of them.
-/

namespace MarketSentinel

open Lib

/-! ## Dedupe -/

namespace EventDeduper

/-- The deduper after a sequence of events. -/
def after (d : EventDeduper) (events : List MarketEvent) : EventDeduper :=
  events.foldl (fun d e => (d.accept e).2) d

/-- The events of a sequence that are accepted. -/
def accepted (d : EventDeduper) : List MarketEvent → List MarketEvent
  | [] => []
  | e :: es => (if (d.accept e).1 then [e] else []) ++ accepted (d.accept e).2 es

/-- The gate of a deduper. -/
def gate : Gate String DedupeRecord MarketEvent where
  key := MarketEvent.dedupeKey
  note e := ⟨e.marketTimestamp, e.severity, e.ttlS⟩
  passes := admits

variable {d : EventDeduper} {event : MarketEvent} {events : List MarketEvent}

theorem accept_eq_offer : d.accept event =
    ((gate.offer d.records event).1, ⟨(gate.offer d.records event).2⟩) := by
  unfold accept Gate.offer gate store
  split <;> rfl

theorem records_after : ∀ (events : List MarketEvent) (d : EventDeduper),
    (d.after events).records = gate.after d.records events := by
  intro events
  induction events with
  | nil => intro d; rfl
  | cons e es ih =>
    intro d
    unfold after Gate.after
    rw [List.foldl_cons, List.foldl_cons, accept_eq_offer]
    exact ih _

theorem accepted_eq_passed : ∀ (events : List MarketEvent) (d : EventDeduper),
    d.accepted events = gate.passed d.records events := by
  intro events
  induction events with
  | nil => intro d; rfl
  | cons e es ih =>
    intro d
    rw [accepted, Gate.passed, accept_eq_offer, ih]

/-- The two ways to be accepted after an event of the same key. -/
def Follows (a b : MarketEvent) : Prop :=
  a.marketTimestamp ≤ b.marketTimestamp ∧
    (a.marketTimestamp + a.ttlS ≤ b.marketTimestamp ∨ a.severity < b.severity)

theorem admits_note {a b : MarketEvent} : admits b (some (gate.note a)) = true ↔ Follows a b := by
  unfold admits Follows gate
  dsimp only
  by_cases hearly : b.marketTimestamp - a.marketTimestamp < 0
  · rw [if_pos hearly]
    have hnot : ¬ a.marketTimestamp ≤ b.marketTimestamp := by linarith
    simp [hnot]
  · have hle : a.marketTimestamp ≤ b.marketTimestamp := by linarith
    rw [if_neg hearly]
    by_cases hinside : b.marketTimestamp - a.marketTimestamp < a.ttlS
    · have hnot : ¬ a.marketTimestamp + a.ttlS ≤ b.marketTimestamp := by linarith
      simp [hinside, hle, hnot]
    · have hapart : a.marketTimestamp + a.ttlS ≤ b.marketTimestamp := by linarith
      simp [hinside, hle, hapart]

end EventDeduper

open EventDeduper in
/-- **The dedupe law.** -/
theorem dedupe_law (events : List MarketEvent) :
    let accepted := EventDeduper.accepted {}
    (∀ key, ((accepted events).filter fun e => e.dedupeKey = key).Pairwise
        (fun a b => a.marketTimestamp ≤ b.marketTimestamp) ∧
      ((accepted events).filter fun e => e.dedupeKey = key).IsChain
        (fun a b => a.marketTimestamp + a.ttlS ≤ b.marketTimestamp ∨ a.severity < b.severity)) ∧
    (∀ before event after, events = before ++ event :: after →
      ((EventDeduper.after {} before).accept event).1 = false →
      ∃ last ∈ ((accepted before).filter fun e => e.dedupeKey = event.dedupeKey).getLast?,
        event.marketTimestamp < last.marketTimestamp ∨
          (event.marketTimestamp < last.marketTimestamp + last.ttlS ∧ event.severity ≤ last.severity)) ∧
    accepted (accepted events) = accepted events := by
  intro accepted
  have haccepted : ∀ events, accepted events = gate.passed Dict.empty events := fun events =>
    accepted_eq_passed events {}
  refine ⟨fun key => ?_, fun before event after _ hrejected => ?_, ?_⟩
  · rw [haccepted]
    have hchain : (gate.lane events key).IsChain Follows :=
      Gate.isChain_passed (fun a b => admits_note.1) events key
    have hsorted : (gate.lane events key).IsChain fun a b => a.marketTimestamp ≤ b.marketTimestamp :=
      hchain.imp fun _ _ h => h.1
    -- The times of neighbours are in order, and so are all of them; the other half holds of neighbours only.
    have : Trans (fun a b : MarketEvent => a.marketTimestamp ≤ b.marketTimestamp)
        (fun a b : MarketEvent => a.marketTimestamp ≤ b.marketTimestamp)
        (fun a b : MarketEvent => a.marketTimestamp ≤ b.marketTimestamp) := ⟨fun h h' => le_trans h h'⟩
    exact ⟨hsorted.pairwise, hchain.imp fun _ _ h => h.2⟩
  · rw [haccepted]
    have hrefused : gate.passes event ((gate.after Dict.empty before).get? (gate.key event)) = false := by
      rw [accept_eq_offer, records_after] at hrejected
      exact Gate.offer_fst.symm.trans hrejected
    obtain ⟨last, hlast, hnot⟩ := Gate.refused rfl hrefused
    refine ⟨last, hlast, ?_⟩
    have hfollows : ¬ Follows last event := fun h => by
      cases (admits_note.2 h).symm.trans hnot
    unfold Follows at hfollows
    push Not at hfollows
    rcases lt_or_ge event.marketTimestamp last.marketTimestamp with hearly | hle
    · exact .inl hearly
    · exact .inr (hfollows hle)
  · rw [haccepted, haccepted]
    exact Gate.passed_passed events Dict.empty

/-! ## Cooldown -/

/-- One call of `allow`, with what the monotonic clock reads. -/
structure AllowCall where
  now : ℚ
  signalId : String
  priority : SignalPriority
  deriving DecidableEq, Repr

namespace CooldownGate

/-- The gate after a sequence of calls. -/
def after (g : CooldownGate) (calls : List AllowCall) : CooldownGate :=
  calls.foldl (fun g c => (g.allow c.now c.signalId c.priority).2) g

/-- The calls of a sequence that are allowed. -/
def allowed (g : CooldownGate) : List AllowCall → List AllowCall
  | [] => []
  | c :: cs =>
    (if (g.allow c.now c.signalId c.priority).1 then [c] else []) ++
      allowed (g.allow c.now c.signalId c.priority).2 cs

/-- The gate of a cooldown. -/
def gate (cooldownS : ℚ) : Gate String (ℚ × SignalPriority) AllowCall where
  key := AllowCall.signalId
  note c := (c.now, c.priority)
  passes c := passes { cooldownS := cooldownS } c.now c.priority

variable {g : CooldownGate} {c : AllowCall} {cooldownS : ℚ}

theorem allow_eq_offer : g.allow c.now c.signalId c.priority =
    (((gate g.cooldownS).offer g.last c).1, { g with last := ((gate g.cooldownS).offer g.last c).2 }) := by
  unfold allow Gate.offer
  rw [show (gate g.cooldownS).passes c (g.last.get? ((gate g.cooldownS).key c)) =
    g.passes c.now c.priority (g.last.get? c.signalId) from rfl]
  split <;> rfl

theorem after_eq : ∀ (calls : List AllowCall) (g : CooldownGate),
    g.after calls = { g with last := (gate g.cooldownS).after g.last calls } := by
  intro calls
  induction calls with
  | nil => intro g; rfl
  | cons c cs ih =>
    intro g
    unfold after Gate.after
    rw [List.foldl_cons, List.foldl_cons, allow_eq_offer]
    exact ih _

theorem allowed_eq_passed : ∀ (calls : List AllowCall) (g : CooldownGate),
    g.allowed calls = (gate g.cooldownS).passed g.last calls := by
  intro calls
  induction calls with
  | nil => intro g; rfl
  | cons c cs ih =>
    intro g
    rw [allowed, Gate.passed, allow_eq_offer, ih]

/-- The two ways to be allowed after a call of the same id. -/
def Spaced (cooldownS : ℚ) (a b : AllowCall) : Prop :=
  cooldownS ≤ b.now - a.now ∨ priorityRank a.priority < priorityRank b.priority

theorem passes_note {a b : AllowCall} :
    (gate cooldownS).passes b (some ((gate cooldownS).note a)) = true ↔ Spaced cooldownS a b := by
  unfold gate passes Spaced
  dsimp only
  split
  · next hlong => exact iff_of_true rfl (.inl hlong)
  · next hshort => rw [decide_eq_true_eq, or_iff_right hshort]

/-- With the clock, being spaced is transitive: each escalation restarts the window at a higher
priority. -/
theorem Spaced.trans {a b c : AllowCall} (h : a.now ≤ b.now ∧ Spaced cooldownS a b)
    (h' : b.now ≤ c.now ∧ Spaced cooldownS b c) : a.now ≤ c.now ∧ Spaced cooldownS a c := by
  refine ⟨h.1.trans h'.1, ?_⟩
  rcases h.2 with hlong | hup
  · have := h'.1
    exact .inl (by linarith)
  rcases h'.2 with hlong | hup'
  · have := h.1
    exact .inl (by linarith)
  · exact .inr (hup.trans hup')

/-- Strictly increasing priorities are at most four. -/
theorem length_le_four {alerts : List AllowCall}
    (h : alerts.Pairwise fun a b => priorityRank a.priority < priorityRank b.priority) : alerts.length ≤ 4 := by
  have hnodup : (alerts.map (·.priority)).Nodup := by
    refine List.pairwise_map.2 (h.imp fun hlt heq => ?_)
    rw [heq] at hlt
    exact lt_irrefl _ hlt
  have hsub : alerts.map (·.priority) ⊆ [.info, .notice, .important, .critical] := by
    intro p _
    cases p <;> decide
  have hlength := (hnodup.subperm hsub).length_le
  rwa [List.length_map] at hlength

end CooldownGate

open CooldownGate in
/-- **The rate bound of the cooldown.** -/
theorem cooldown_rate (cooldownS : ℚ) {calls : List AllowCall}
    (hclock : calls.Pairwise fun a b => a.now ≤ b.now) :
    let gate : CooldownGate := { cooldownS := cooldownS }
    (∀ id, ((gate.allowed calls).filter fun a => a.signalId = id).IsChain
      (fun a b => cooldownS ≤ b.now - a.now ∨ priorityRank a.priority < priorityRank b.priority)) ∧
    (∀ id since until_, until_ - since < cooldownS →
      let alerts := (gate.allowed calls).filter fun a =>
        a.signalId = id ∧ since ≤ a.now ∧ a.now ≤ until_
      alerts.length ≤ 4 ∧
        alerts.Pairwise fun a b => priorityRank a.priority < priorityRank b.priority) ∧
    ∀ before call after, calls = before ++ call :: after →
      ((gate.after before).allow call.now call.signalId call.priority).1 = false →
      ∃ a ∈ gate.allowed before, a.signalId = call.signalId ∧
        priorityRank call.priority ≤ priorityRank a.priority ∧
        a.now ≤ call.now ∧ call.now - a.now < cooldownS := by
  intro g
  have hallowed : ∀ calls, g.allowed calls = (gate cooldownS).passed Dict.empty calls := fun calls =>
    allowed_eq_passed calls g
  refine ⟨fun id => ?_, fun id since until_ hshort => ?_, fun before call after hcalls hrefused => ?_⟩
  · rw [hallowed]
    exact Gate.isChain_passed (fun a b => passes_note.1) calls id
  · have hchain : ((gate cooldownS).lane calls id).IsChain (Spaced cooldownS) :=
      Gate.isChain_passed (fun a b => passes_note.1) calls id
    have hsorted : ((gate cooldownS).lane calls id).Pairwise fun a b => a.now ≤ b.now :=
      (hclock.sublist (Gate.passed_sublist calls Dict.empty)).filter _
    have hboth : ((gate cooldownS).lane calls id).IsChain
        fun a b => a.now ≤ b.now ∧ Spaced cooldownS a b := by
      rw [List.isChain_iff_forall_rel_of_append_cons_cons] at hchain ⊢
      intro a b front back heq
      rw [heq] at hsorted
      have hab := (List.pairwise_append.1 hsorted).2.1
      exact ⟨List.rel_of_pairwise_cons hab List.mem_cons_self, hchain heq⟩
    have : Trans (fun a b : AllowCall => a.now ≤ b.now ∧ Spaced cooldownS a b)
        (fun a b : AllowCall => a.now ≤ b.now ∧ Spaced cooldownS a b)
        (fun a b : AllowCall => a.now ≤ b.now ∧ Spaced cooldownS a b) := ⟨Spaced.trans⟩
    have hspaced := hboth.pairwise
    have hwindow : ((g.allowed calls).filter fun a => a.signalId = id ∧ since ≤ a.now ∧ a.now ≤ until_).Pairwise
        fun a b => priorityRank a.priority < priorityRank b.priority := by
      have hfilter : ((g.allowed calls).filter fun a => a.signalId = id ∧ since ≤ a.now ∧ a.now ≤ until_) =
          ((gate cooldownS).lane calls id).filter fun a => since ≤ a.now ∧ a.now ≤ until_ := by
        rw [hallowed, Gate.lane, List.filter_filter]
        refine List.filter_congr fun a _ => ?_
        rw [← Bool.decide_and, decide_eq_decide]
        exact and_comm
      rw [hfilter]
      refine (hspaced.filter _).imp_of_mem fun {a b} ha hb hab => ?_
      have ha := of_decide_eq_true (List.mem_filter.1 ha).2
      have hb := of_decide_eq_true (List.mem_filter.1 hb).2
      -- Inside the window two alerts are not a cooldown apart.
      refine hab.2.resolve_left fun hlong => ?_
      linarith [ha.1, hb.2]
    exact ⟨length_le_four hwindow, hwindow⟩
  · rw [hallowed]
    have hrefused : (gate cooldownS).passes call
        (((gate cooldownS).after Dict.empty before).get? ((gate cooldownS).key call)) = false := by
      rw [after_eq, allow_eq_offer] at hrefused
      exact Gate.offer_fst.symm.trans hrefused
    obtain ⟨last, hlast, hnot⟩ := Gate.refused rfl hrefused
    have hmem := List.mem_filter.1 (List.mem_of_getLast? hlast)
    have hspaced : ¬ Spaced cooldownS last call := fun h => by
      cases (passes_note.2 h).symm.trans hnot
    unfold Spaced at hspaced
    push Not at hspaced
    refine ⟨last, hmem.1, of_decide_eq_true hmem.2, hspaced.2, ?_, hspaced.1⟩
    rw [hcalls] at hclock
    have hbefore := (List.pairwise_append.1 hclock).2.2
    exact hbefore last ((Gate.passed_sublist before Dict.empty).subset hmem.1) call List.mem_cons_self

/-- Three alerts of one id inside a cooldown, between those of another. -/
def escalatingCalls : List AllowCall :=
  [⟨0, "s1", .notice⟩, ⟨10, "s2", .info⟩, ⟨20, "s1", .notice⟩, ⟨30, "s1", .important⟩, ⟨40, "s1", .critical⟩]

theorem cooldown_rate_escalating :
    escalatingCalls.Pairwise (fun a b => a.now ≤ b.now) ∧
      ((({ cooldownS := 300 } : CooldownGate).allowed escalatingCalls).filter fun a => a.signalId = "s1").map
        (·.now) = [0, 30, 40] ∧
      ((({ cooldownS := 300 } : CooldownGate).allowed escalatingCalls).filter fun a => a.signalId = "s1").IsChain
        (fun a b => 300 ≤ b.now - a.now ∨ priorityRank a.priority < priorityRank b.priority) := by
  have hclock : escalatingCalls.Pairwise (fun a b => a.now ≤ b.now) := by decide +kernel
  exact ⟨hclock, by decide +kernel, (cooldown_rate 300 hclock).1 "s1"⟩

end MarketSentinel
