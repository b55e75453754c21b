import Mathlib.Data.List.Basic

/-!
# Tickets of a generation counter

A counter hands out tickets, each with the next generation. A ticket is current while the
counter still stands at its generation; revoking moves the counter on. The counter may be
forgotten, and starts again at zero, once no ticket is outstanding.

`Covers counter out revoked` is what keeps this sound: the counter is at or above every
outstanding ticket, and above every revoked one.

* `Covers.not_current`: a revoked ticket is never current again.
* `Covers.issue`, `Covers.revoke`, `Covers.sublist`, `covers_nil`: the operations.
-/

namespace Lib.Generation

variable {T : Type*} {gen : T → ℕ}

/-- The counter is at or above every outstanding ticket, and above every revoked one. -/
structure Covers (gen : T → ℕ) (counter : Option ℕ) (out : List T) (revoked : T → Prop) : Prop where
  le : ∀ t ∈ out, ∃ n, counter = some n ∧ gen t ≤ n
  lt : ∀ t ∈ out, revoked t → ∀ n, counter = some n → gen t < n

variable {counter : Option ℕ} {out out' : List T} {revoked revoked' : T → Prop} {t : T}

/-- With no ticket outstanding the counter may be anything, and so may be forgotten. -/
theorem covers_nil : Covers gen counter [] revoked :=
  ⟨fun _ h => absurd h List.not_mem_nil, fun _ h => absurd h List.not_mem_nil⟩

/-- **A revoked ticket is never current.** -/
theorem Covers.not_current (h : Covers gen counter out revoked) (ht : t ∈ out) (hr : revoked t) :
    counter ≠ some (gen t) :=
  fun hc => Nat.lt_irrefl _ (h.lt t ht hr _ hc)

theorem Covers.sublist (h : Covers gen counter out revoked) (hs : ∀ t ∈ out', t ∈ out) :
    Covers gen counter out' revoked :=
  ⟨fun t ht => h.le t (hs t ht), fun t ht => h.lt t (hs t ht)⟩

/-- Only what is revoked among the outstanding tickets matters. -/
theorem Covers.congr (h : Covers gen counter out revoked)
    (hr : ∀ t ∈ out, revoked' t → revoked t) : Covers gen counter out revoked' :=
  ⟨h.le, fun t ht htr => h.lt t ht (hr t ht htr)⟩

/-- The counter moves on, and every outstanding ticket is revoked. -/
theorem Covers.revoke (h : Covers gen counter out revoked) :
    Covers gen (some (counter.getD 0 + 1)) out revoked' := by
  have hlt : ∀ t ∈ out, gen t < counter.getD 0 + 1 := by
    intro t ht
    obtain ⟨n, rfl, hn⟩ := h.le t ht
    exact Nat.lt_succ_of_le hn
  refine ⟨fun t ht => ⟨_, rfl, Nat.le_of_lt (hlt t ht)⟩, fun t ht _ n hn => ?_⟩
  obtain rfl : counter.getD 0 + 1 = n := Option.some.inj hn
  exact hlt t ht

/-- A new ticket takes the next generation. -/
theorem Covers.issue (h : Covers gen counter out revoked) (hgen : gen t = counter.getD 0 + 1)
    (ht : ¬ revoked t) : Covers gen (some (gen t)) (out ++ [t]) revoked := by
  have hold : Covers gen (some (gen t)) out revoked := hgen ▸ h.revoke
  refine ⟨fun u hu => ?_, fun u hu hr n hn => ?_⟩ <;>
    rcases List.mem_append.1 hu with hu | hu
  · exact hold.le u hu
  · exact ⟨_, rfl, Nat.le_of_eq (congrArg gen (List.mem_singleton.1 hu))⟩
  · exact hold.lt u hu hr n hn
  · exact absurd hr (List.mem_singleton.1 hu ▸ ht)

end Lib.Generation
