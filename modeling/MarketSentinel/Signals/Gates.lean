import MarketSentinel.Lib.Dict
import MarketSentinel.Domain.Model

/-!
# The two gates of the pipeline

`signals/dedupe.py`, in market time and by the event's key, and `signals/cooldown.py`, on the
monotonic clock and by the signal's id.
-/

namespace MarketSentinel

open Lib

/-- The last accepted event of a key. -/
structure DedupeRecord where
  marketTimestamp : ℚ
  severity : ℤ
  ttlS : ℚ
  deriving DecidableEq, Repr

structure EventDeduper where
  records : Dict String DedupeRecord := Dict.empty

namespace EventDeduper

def store (d : EventDeduper) (event : MarketEvent) : EventDeduper :=
  let record : DedupeRecord := ⟨event.marketTimestamp, event.severity, event.ttlS⟩
  { records := d.records.set event.dedupeKey record }

/-- Whether `accept` keeps an event after the last accepted one of its key. -/
def admits (event : MarketEvent) : Option DedupeRecord → Bool
  | none => true
  | some previous =>
    let elapsed := event.marketTimestamp - previous.marketTimestamp
    if elapsed < 0 then false
    else if elapsed < previous.ttlS then previous.severity < event.severity
    else true

/-- `accept`: whether the event is kept, and the state after. -/
def accept (d : EventDeduper) (event : MarketEvent) : Bool × EventDeduper :=
  if admits event (d.records.get? event.dedupeKey) then (true, d.store event) else (false, d)

end EventDeduper

def defaultCooldownS : ℚ := 300

structure CooldownGate where
  cooldownS : ℚ := defaultCooldownS
  last : Dict String (ℚ × SignalPriority) := Dict.empty

namespace CooldownGate

/-- Whether `allow` passes a signal after the last passed one of its id. -/
def passes (g : CooldownGate) (now : ℚ) (priority : SignalPriority) :
    Option (ℚ × SignalPriority) → Bool
  | none => true
  | some (lastMono, lastPriority) =>
    if g.cooldownS ≤ now - lastMono then true
    else priorityRank lastPriority < priorityRank priority

/-- `allow`, at the monotonic time `now`. -/
def allow (g : CooldownGate) (now : ℚ) (signalId : String) (priority : SignalPriority) :
    Bool × CooldownGate :=
  if g.passes now priority (g.last.get? signalId) then
    (true, { g with last := g.last.set signalId (now, priority) })
  else (false, g)

end CooldownGate

end MarketSentinel
