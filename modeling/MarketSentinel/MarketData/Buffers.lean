import Mathlib.Data.List.Pairwise
import Mathlib.Data.List.TakeWhile
import Mathlib.Tactic.Linarith
import MarketSentinel.Domain.Model
import MarketSentinel.Lib.Dict

/-!
# Quote buffers

`market_data/ring_buffer.py` and `market_data/buffers.py`. The items of a buffer are in strictly
ascending order of their timestamps by a field of the structure, which is what the two bisections
of the source rest on.

* `append_latest`: a quote that is not older than the latest one becomes the latest.
* `mem_append`: an append brings in no other quote.
-/

namespace MarketSentinel

open Lib

def Older (a b : MarketSnapshot) : Prop := a.marketTimestamp < b.marketTimestamp

structure RingBuffer where
  retentionS : ℚ
  maxSize : ℕ
  items : List MarketSnapshot := []
  retention_pos : 0 < retentionS
  size_pos : 0 < maxSize
  sorted : items.Pairwise Older := by exact List.Pairwise.nil

namespace RingBuffer

/-- The items before `bisect_left`, and those from it on. -/
def older (items : List MarketSnapshot) (ts : ℚ) : List MarketSnapshot :=
  items.takeWhile fun item => decide (item.marketTimestamp < ts)

def newer (items : List MarketSnapshot) (ts : ℚ) : List MarketSnapshot :=
  items.dropWhile fun item => decide (item.marketTimestamp < ts)

/-- Insert a quote, or replace the one with its timestamp. -/
def place (snapshot : MarketSnapshot) (items : List MarketSnapshot) : List MarketSnapshot :=
  older items snapshot.marketTimestamp ++
    match newer items snapshot.marketTimestamp with
    | [] => [snapshot]
    | item :: rest =>
      if item.marketTimestamp = snapshot.marketTimestamp then snapshot :: rest
      else snapshot :: item :: rest

/-- `_evict`. -/
def evict (retentionS : ℚ) (maxSize : ℕ) (items : List MarketSnapshot) : List MarketSnapshot :=
  match items.getLast? with
  | none => items
  | some newest =>
    let kept := items.dropWhile fun item =>
      decide (item.marketTimestamp < newest.marketTimestamp - retentionS)
    kept.drop (kept.length - maxSize)

theorem older_lt {items : List MarketSnapshot} {ts : ℚ} :
    ∀ item ∈ older items ts, item.marketTimestamp < ts := by
  intro item h
  unfold older at h
  simpa using List.mem_takeWhile_imp h

theorem older_append_newer (items : List MarketSnapshot) (ts : ℚ) :
    older items ts ++ newer items ts = items :=
  List.takeWhile_append_dropWhile

theorem newer_ge {items : List MarketSnapshot} (h : items.Pairwise Older) {ts : ℚ} :
    ∀ item ∈ newer items ts, ts ≤ item.marketTimestamp := by
  have hsorted : (newer items ts).Pairwise Older := h.sublist (List.dropWhile_sublist _)
  cases hn : newer items ts with
  | nil => intro item hitem; cases hitem
  | cons head rest =>
    have hhead : ts ≤ head.marketTimestamp := by
      have := List.head_dropWhile_not (fun item => decide (item.marketTimestamp < ts))
        (l := items) (by unfold newer at hn; rw [hn]; exact List.cons_ne_nil _ _)
      unfold newer at hn
      simpa [hn] using this
    rw [hn] at hsorted
    intro item hitem
    rcases List.mem_cons.1 hitem with rfl | hitem
    · exact hhead
    · exact hhead.trans (List.rel_of_pairwise_cons hsorted hitem).le

theorem place_sorted {items : List MarketSnapshot} (h : items.Pairwise Older)
    (snapshot : MarketSnapshot) : (place snapshot items).Pairwise Older := by
  have hold : (older items snapshot.marketTimestamp).Pairwise Older :=
    h.sublist (List.takeWhile_sublist _)
  have hnew : (newer items snapshot.marketTimestamp).Pairwise Older :=
    h.sublist (List.dropWhile_sublist _)
  have hge : ∀ item ∈ newer items snapshot.marketTimestamp,
      snapshot.marketTimestamp ≤ item.marketTimestamp := newer_ge h
  unfold place
  rw [List.pairwise_append]
  refine ⟨hold, ?_, fun a ha b hb => ?_⟩
  · cases hn : newer items snapshot.marketTimestamp with
    | nil => exact List.pairwise_singleton _ _
    | cons item rest =>
      rw [hn] at hnew hge
      have hrest := List.pairwise_cons.1 hnew
      dsimp only
      split
      · -- A quote of the same time is replaced, and the others were after it.
        next heq =>
        refine List.pairwise_cons.2 ⟨fun b hb => ?_, hrest.2⟩
        have hlt : item.marketTimestamp < b.marketTimestamp := hrest.1 b hb
        rwa [heq] at hlt
      · next hne =>
        have hlt : Older snapshot item :=
          lt_of_le_of_ne (hge item List.mem_cons_self) (Ne.symm hne)
        refine List.pairwise_cons.2 ⟨fun b hb => ?_, hnew⟩
        rcases List.mem_cons.1 hb with rfl | hb
        · exact hlt
        · exact lt_trans hlt (hrest.1 b hb)
  · refine lt_of_lt_of_le (older_lt a ha) ?_
    revert hb
    cases hn : newer items snapshot.marketTimestamp with
    | nil => intro hb; rw [List.mem_singleton.1 hb]
    | cons item rest =>
      rw [hn] at hge
      dsimp only
      split <;> intro hb <;> rcases List.mem_cons.1 hb with rfl | hb
      · exact le_rfl
      · exact hge b (List.mem_cons_of_mem _ hb)
      · exact le_rfl
      · exact hge b hb

theorem evict_sublist (retentionS : ℚ) (maxSize : ℕ) (items : List MarketSnapshot) :
    (evict retentionS maxSize items).Sublist items := by
  unfold evict
  split
  · exact List.Sublist.refl _
  · exact (List.drop_sublist _ _).trans (List.dropWhile_sublist _)

/-- `append`. -/
def append (b : RingBuffer) (snapshot : MarketSnapshot) : RingBuffer where
  retentionS := b.retentionS
  maxSize := b.maxSize
  items := evict b.retentionS b.maxSize (place snapshot b.items)
  retention_pos := b.retention_pos
  size_pos := b.size_pos
  sorted := (place_sorted b.sorted snapshot).sublist (evict_sublist _ _ _)

/-- `latest`. -/
def latest (b : RingBuffer) : Option MarketSnapshot := b.items.getLast?

/-- `since`. -/
def since (b : RingBuffer) (ts : ℚ) : List MarketSnapshot :=
  b.items.filter fun item => decide (ts ≤ item.marketTimestamp)

/-- `window`. -/
def window (b : RingBuffer) (durationS : ℚ) : List MarketSnapshot :=
  match b.latest with
  | none => []
  | some latest => b.since (latest.marketTimestamp - durationS)

/-- `at_or_before`. -/
def atOrBefore (b : RingBuffer) (ts : ℚ) : Option MarketSnapshot :=
  (b.items.takeWhile fun item => decide (item.marketTimestamp ≤ ts)).getLast?

/-! ## Appending -/

theorem mem_place {snapshot item : MarketSnapshot} {items : List MarketSnapshot}
    (h : item ∈ place snapshot items) : item = snapshot ∨ item ∈ items := by
  rw [← older_append_newer items snapshot.marketTimestamp]
  unfold place at h
  rcases List.mem_append.1 h with h | h
  · exact .inr (List.mem_append_left _ h)
  · revert h
    cases newer items snapshot.marketTimestamp with
    | nil => intro h; exact .inl (List.mem_singleton.1 h)
    | cons head rest =>
      dsimp only
      split <;> intro h <;> rcases List.mem_cons.1 h with rfl | h
      · exact .inl rfl
      · exact .inr (List.mem_append_right _ (List.mem_cons_of_mem _ h))
      · exact .inl rfl
      · exact .inr (List.mem_append_right _ h)

/-- An append brings in no other quote. -/
theorem mem_append {b : RingBuffer} {snapshot item : MarketSnapshot}
    (h : item ∈ (b.append snapshot).items) : item = snapshot ∨ item ∈ b.items :=
  mem_place ((evict_sublist _ _ _).subset h)

theorem latest_mem {b : RingBuffer} {item : MarketSnapshot} (h : b.latest = some item) :
    item ∈ b.items :=
  List.mem_of_getLast? h

/-- The latest item is the newest. -/
theorem le_latest {items : List MarketSnapshot} (h : items.Pairwise Older)
    {last : MarketSnapshot} (hlast : items.getLast? = some last) :
    ∀ item ∈ items, item.marketTimestamp ≤ last.marketTimestamp := by
  obtain ⟨init, rfl⟩ := List.getLast?_eq_some_iff.1 hlast
  intro item hitem
  rcases List.mem_append.1 hitem with hitem | hitem
  · exact ((List.pairwise_append.1 h).2.2 item hitem last (List.mem_singleton_self _)).le
  · rw [List.mem_singleton.1 hitem]

/-- A quote that is not older than the latest one comes last. -/
theorem place_getLast? {items : List MarketSnapshot} (h : items.Pairwise Older)
    {snapshot : MarketSnapshot}
    (hlate : ∀ last ∈ items.getLast?, last.marketTimestamp ≤ snapshot.marketTimestamp) :
    (place snapshot items).getLast? = some snapshot := by
  have hle : ∀ item ∈ items, item.marketTimestamp ≤ snapshot.marketTimestamp := by
    intro item hitem
    cases hlast : items.getLast? with
    | none => rw [List.getLast?_eq_none_iff.1 hlast] at hitem; cases hitem
    | some last => exact (le_latest h hlast item hitem).trans (hlate last hlast)
  have hge : ∀ item ∈ newer items snapshot.marketTimestamp,
      snapshot.marketTimestamp ≤ item.marketTimestamp := newer_ge h
  have hnew : (newer items snapshot.marketTimestamp).Pairwise Older :=
    h.sublist (List.dropWhile_sublist _)
  have hsub : ∀ item ∈ newer items snapshot.marketTimestamp, item ∈ items := fun item hitem =>
    (List.dropWhile_sublist _).subset hitem
  unfold place
  cases hn : newer items snapshot.marketTimestamp with
  | nil => simp
  | cons item rest =>
    rw [hn] at hge hnew hsub
    have heq : item.marketTimestamp = snapshot.marketTimestamp :=
      le_antisymm (hle item (hsub item List.mem_cons_self)) (hge item List.mem_cons_self)
    -- A second item at or after the quote would be newer than it.
    have hrest : rest = [] := by
      refine List.eq_nil_iff_forall_not_mem.2 fun b hb => ?_
      have hlt : item.marketTimestamp < b.marketTimestamp := List.rel_of_pairwise_cons hnew hb
      have := hle b (hsub b (List.mem_cons_of_mem _ hb))
      rw [heq] at hlt
      exact absurd this (not_le.2 hlt)
    simp [heq, hrest]

/-- Eviction keeps the newest item. -/
theorem evict_getLast? {retentionS : ℚ} {maxSize : ℕ} (hr : 0 < retentionS) (hm : 0 < maxSize)
    {items : List MarketSnapshot} {last : MarketSnapshot} (hlast : items.getLast? = some last) :
    (evict retentionS maxSize items).getLast? = some last := by
  obtain ⟨init, rfl⟩ := List.getLast?_eq_some_iff.1 hlast
  unfold evict
  rw [hlast]
  dsimp only
  have hkept : ∃ front, ((init ++ [last]).dropWhile fun item =>
      decide (item.marketTimestamp < last.marketTimestamp - retentionS)) = front ++ [last] := by
    have hstay : ¬ last.marketTimestamp < last.marketTimestamp - retentionS := by linarith
    rw [List.dropWhile_append]
    split
    · exact ⟨[], by simp [hstay]⟩
    · exact ⟨_, rfl⟩
  obtain ⟨front, hfront⟩ := hkept
  rw [hfront, List.length_append, List.length_singleton,
    List.drop_append_of_le_length (by omega)]
  simp

/-- **A quote that is not older than the latest one becomes the latest.** -/
theorem append_latest {b : RingBuffer} {snapshot : MarketSnapshot}
    (h : ∀ last ∈ b.latest, last.marketTimestamp ≤ snapshot.marketTimestamp) :
    (b.append snapshot).latest = some snapshot :=
  evict_getLast? b.retention_pos b.size_pos (place_getLast? b.sorted h)

end RingBuffer

theorem buffers_keyed_empty : ∀ symbol b, (Dict.empty : Dict String RingBuffer).get? symbol = some b →
    ∀ item ∈ b.items, item.symbol = symbol := by
  intro symbol b h
  cases h

theorem default_retention_pos : (0 : ℚ) < 3600 := by norm_num

theorem default_size_pos : 0 < 4096 := by decide

/-- The buffers by symbol; a buffer is created at its first quote. A buffer holds quotes of its own
symbol only, by a field of the structure. -/
structure SymbolBuffers where
  retentionS : ℚ := 3600
  maxSize : ℕ := 4096
  retention_pos : 0 < retentionS := by exact default_retention_pos
  size_pos : 0 < maxSize := by exact default_size_pos
  buffers : Dict String RingBuffer := Dict.empty
  keyed : ∀ symbol b, buffers.get? symbol = some b → ∀ item ∈ b.items, item.symbol = symbol := by
    exact buffers_keyed_empty

namespace SymbolBuffers

/-- `buffer`. -/
def buffer (b : SymbolBuffers) (symbol : String) : Option RingBuffer := b.buffers.get? symbol

/-- `_buffer_for`, without writing the new buffer. -/
def bufferFor (b : SymbolBuffers) (symbol : String) : RingBuffer :=
  (b.buffer symbol).getD
    { retentionS := b.retentionS
      maxSize := b.maxSize
      retention_pos := b.retention_pos
      size_pos := b.size_pos }

theorem mem_bufferFor {b : SymbolBuffers} {symbol : String} {item : MarketSnapshot}
    (h : item ∈ (b.bufferFor symbol).items) : item.symbol = symbol := by
  unfold bufferFor at h
  cases hb : b.buffer symbol with
  | none => rw [hb] at h; cases h
  | some buffer => rw [hb] at h; exact b.keyed symbol buffer hb item h

def append (b : SymbolBuffers) (snapshot : MarketSnapshot) : SymbolBuffers where
  retentionS := b.retentionS
  maxSize := b.maxSize
  retention_pos := b.retention_pos
  size_pos := b.size_pos
  buffers := b.buffers.set snapshot.symbol ((b.bufferFor snapshot.symbol).append snapshot)
  keyed := by
    intro symbol buffer hb item hitem
    rw [Dict.get?_set] at hb
    split at hb
    · next hs =>
      obtain rfl := Option.some.inj hb
      rcases RingBuffer.mem_append hitem with rfl | hitem
      · exact hs.symm
      · exact (mem_bufferFor hitem).trans hs.symm
    · exact b.keyed symbol buffer hb item hitem

def latest (b : SymbolBuffers) (symbol : String) : Option MarketSnapshot :=
  (b.buffer symbol).bind (·.latest)

variable {b : SymbolBuffers} {symbol : String}

theorem latest_bufferFor : (b.bufferFor symbol).latest = b.latest symbol := by
  unfold bufferFor latest
  cases b.buffer symbol <;> rfl

/-- The latest quote of a buffer is one of its symbol. -/
theorem latest_symbol {buffer : RingBuffer} {item : MarketSnapshot}
    (hb : b.buffer symbol = some buffer) (h : buffer.latest = some item) : item.symbol = symbol :=
  b.keyed symbol buffer hb item (RingBuffer.latest_mem h)

theorem buffer_append (snapshot : MarketSnapshot) : (b.append snapshot).buffer symbol =
    if symbol = snapshot.symbol then some ((b.bufferFor symbol).append snapshot)
    else b.buffer symbol := by
  unfold append buffer
  dsimp only
  rw [Dict.get?_set]
  split
  · next h => rw [h]
  · rfl

end SymbolBuffers

end MarketSentinel
