import Mathlib.Data.List.Dedup
import Mathlib.Data.List.DropRight
import Mathlib.Data.List.Sort
import MarketSentinel.Lib.Bisect
import MarketSentinel.MarketData.Buffers

/-!
# What a buffer holds

The abstract buffer is the list of all quotes that were ever appended. `retained` says what is kept
of it: the last write of each timestamp, within the retention of the newest, the newest `maxSize`.

* `place_eq_bisect`, `atOrBefore_eq_bisect`: the model is what the source's bisections compute.
* `evict_place_evict`: evicting early loses nothing that a later eviction would keep.
* `ring_buffer_denotation`: a buffer holds what is retained of its history.
-/

namespace MarketSentinel

open Lib

instance : Std.Irrefl Older := ⟨fun _ => lt_irrefl _⟩

instance : Std.Antisymm Older := ⟨fun _ _ h h' => absurd (lt_trans h h') (lt_irrefl _)⟩

/-! ## The bisections of the source -/

namespace RingBuffer

variable {items : List MarketSnapshot}

theorem sorted_timestamps (h : items.Pairwise Older) :
    (items.map (·.marketTimestamp)).Pairwise (· < ·) :=
  List.pairwise_map.2 h

theorem bisectLeft_timestamps (h : items.Pairwise Older) (ts : ℚ) :
    bisectLeft (items.map (·.marketTimestamp)) ts = (older items ts).length := by
  rw [bisectLeft_eq (sorted_timestamps h), List.takeWhile_map, List.length_map]
  rfl

/-- `append` before its eviction, as the source writes it. -/
theorem place_eq_bisect (h : items.Pairwise Older) (snapshot : MarketSnapshot) :
    place snapshot items =
      (let index := bisectLeft (items.map (·.marketTimestamp)) snapshot.marketTimestamp
       match items[index]? with
       | none => items.insertIdx index snapshot
       | some item =>
         if item.marketTimestamp = snapshot.marketTimestamp then items.set index snapshot
         else items.insertIdx index snapshot) := by
  rw [bisectLeft_timestamps h]
  have hsplit := older_append_newer items snapshot.marketTimestamp
  have hinsert : ∀ front back : List MarketSnapshot,
      (front ++ back).insertIdx front.length snapshot = front ++ snapshot :: back := by
    intro front back
    induction front with
    | nil => rfl
    | cons p front ih => simp [ih]
  unfold place
  generalize older items snapshot.marketTimestamp = front at hsplit ⊢
  generalize newer items snapshot.marketTimestamp = back at hsplit ⊢
  subst hsplit
  cases back with
  | nil => simp
  | cons item rest =>
    have hget : (front ++ item :: rest)[front.length]? = some item := by simp
    simp only [hget]
    split
    · simp
    · exact (hinsert front _).symm

/-- `at_or_before`, as the source writes it. -/
theorem atOrBefore_eq_bisect (b : RingBuffer) (ts : ℚ) :
    b.atOrBefore ts =
      (match bisectRight (b.items.map (·.marketTimestamp)) ts with
       | 0 => none
       | index + 1 => b.items[index]?) := by
  rw [bisectRight_eq (sorted_timestamps b.sorted), List.takeWhile_map, List.length_map]
  unfold atOrBefore
  have hprefix := List.takeWhile_prefix (fun item : MarketSnapshot => decide (item.marketTimestamp ≤ ts))
    (l := b.items)
  show (b.items.takeWhile fun item => decide (item.marketTimestamp ≤ ts)).getLast? =
    match (b.items.takeWhile fun item => decide (item.marketTimestamp ≤ ts)).length with
    | 0 => none
    | index + 1 => b.items[index]?
  generalize b.items.takeWhile (fun item => decide (item.marketTimestamp ≤ ts)) = front at hprefix ⊢
  obtain ⟨back, heq⟩ := hprefix
  rw [List.getLast?_eq_getElem?, ← heq]
  cases front with
  | nil => rfl
  | cons p front =>
    have hlt : front.length < (p :: front).length := by simp
    show (p :: front)[front.length]? = (p :: front ++ back)[front.length]?
    rw [List.getElem?_append_left hlt]

end RingBuffer

/-! ## The abstract buffer -/

/-- The last write of a timestamp. -/
def lastWrite (writes : List MarketSnapshot) (ts : ℚ) : Option MarketSnapshot :=
  writes.reverse.find? fun item => decide (item.marketTimestamp = ts)

/-- The last writes, in ascending order of their timestamps. -/
def lastWrites (writes : List MarketSnapshot) : List MarketSnapshot :=
  ((writes.map (·.marketTimestamp)).dedup.insertionSort (· ≤ ·)).filterMap (lastWrite writes)

/-- No quote is more than the retention newer. -/
def Within (retentionS : ℚ) (writes : List MarketSnapshot) (item : MarketSnapshot) : Prop :=
  ∀ w ∈ writes, w.marketTimestamp - retentionS ≤ item.marketTimestamp

instance (retentionS : ℚ) (writes : List MarketSnapshot) (item : MarketSnapshot) :
    Decidable (Within retentionS writes item) :=
  inferInstanceAs (Decidable (∀ w ∈ writes, _))

/-- What is kept of a history. -/
def retained (retentionS : ℚ) (maxSize : ℕ) (writes : List MarketSnapshot) : List MarketSnapshot :=
  ((lastWrites writes).filter fun item => decide (Within retentionS writes item)).rtake maxSize

theorem lastWrite_ts {writes : List MarketSnapshot} {ts : ℚ} {item : MarketSnapshot}
    (h : lastWrite writes ts = some item) : item ∈ writes ∧ item.marketTimestamp = ts := by
  have hmem := List.mem_of_find?_eq_some h
  have hts := List.find?_some h
  exact ⟨List.mem_reverse.1 hmem, of_decide_eq_true hts⟩

theorem lastWrite_snoc (writes : List MarketSnapshot) (w : MarketSnapshot) (ts : ℚ) :
    lastWrite (writes ++ [w]) ts = if w.marketTimestamp = ts then some w else lastWrite writes ts := by
  unfold lastWrite
  rw [List.reverse_append, List.reverse_singleton, List.singleton_append, List.find?_cons]
  by_cases h : w.marketTimestamp = ts <;> simp [h]

theorem lastWrite_isSome {writes : List MarketSnapshot} {item : MarketSnapshot} (h : item ∈ writes) :
    (lastWrite writes item.marketTimestamp).isSome := by
  unfold lastWrite
  rw [List.find?_isSome]
  exact ⟨item, List.mem_reverse.2 h, by simp⟩

theorem mem_lastWrites {writes : List MarketSnapshot} {item : MarketSnapshot} :
    item ∈ lastWrites writes ↔ lastWrite writes item.marketTimestamp = some item := by
  unfold lastWrites
  simp only [List.mem_filterMap, List.mem_insertionSort, List.mem_dedup, List.mem_map]
  constructor
  · rintro ⟨ts, -, h⟩
    rw [(lastWrite_ts h).2]
    exact h
  · intro h
    exact ⟨item.marketTimestamp, ⟨item, (lastWrite_ts h).1, rfl⟩, h⟩

theorem lastWrites_sorted (writes : List MarketSnapshot) : (lastWrites writes).Pairwise Older := by
  have hsorted := List.pairwise_insertionSort (· ≤ ·) (writes.map (·.marketTimestamp)).dedup
  have hnodup : ((writes.map (·.marketTimestamp)).dedup.insertionSort (· ≤ ·)).Nodup :=
    (List.perm_insertionSort (· ≤ ·) _).nodup_iff.2 (List.nodup_dedup _)
  have hlt : ((writes.map (·.marketTimestamp)).dedup.insertionSort (· ≤ ·)).Pairwise (· < ·) :=
    (hsorted.and hnodup).imp fun h => lt_of_le_of_ne h.1 h.2
  refine List.Pairwise.filterMap _ (fun ts ts' hts a ha b hb => ?_) hlt
  have ha' := (lastWrite_ts ha).2
  have hb' := (lastWrite_ts hb).2
  unfold Older
  rw [ha', hb']
  exact hts

/-! ## Placing -/

section Placing

variable {items front back : List MarketSnapshot} {w : MarketSnapshot}

/-- A quote that is newer than the front is placed behind it. -/
theorem place_append_of_lt (h : ∀ p ∈ front, p.marketTimestamp < w.marketTimestamp) :
    RingBuffer.place w (front ++ back) = front ++ RingBuffer.place w back := by
  have hall : ∀ p ∈ front, decide (p.marketTimestamp < w.marketTimestamp) = true :=
    fun p hp => decide_eq_true (h p hp)
  unfold RingBuffer.place RingBuffer.older RingBuffer.newer
  rw [List.takeWhile_append_of_pos hall, List.dropWhile_append_of_pos hall, List.append_assoc]

/-- A quote that is older than the back is placed before it. -/
theorem place_append_of_gt (h : ∀ d ∈ back, w.marketTimestamp < d.marketTimestamp) :
    RingBuffer.place w (front ++ back) = RingBuffer.place w front ++ back := by
  induction front with
  | nil =>
    cases back with
    | nil => simp [RingBuffer.place, RingBuffer.older, RingBuffer.newer]
    | cons d back =>
      have hd := h d List.mem_cons_self
      have hnot : ¬ d.marketTimestamp < w.marketTimestamp := not_lt.2 hd.le
      simp [RingBuffer.place, RingBuffer.older, RingBuffer.newer, hnot, hd.ne']
  | cons p front ih =>
    by_cases hp : p.marketTimestamp < w.marketTimestamp
    · have hone : ∀ q ∈ [p], q.marketTimestamp < w.marketTimestamp := by simpa using hp
      have hback := @place_append_of_lt [p] (front ++ back) w hone
      have hfront := @place_append_of_lt [p] front w hone
      rw [List.cons_append, ← List.singleton_append, hback, ih,
        ← List.singleton_append (l := front), hfront, List.append_assoc]
    · -- The quote is placed at the head, whatever follows.
      by_cases heq : p.marketTimestamp = w.marketTimestamp <;>
        simp [RingBuffer.place, RingBuffer.older, RingBuffer.newer, hp, heq]

theorem mem_place_iff (h : items.Pairwise Older) {item : MarketSnapshot} :
    item ∈ RingBuffer.place w items ↔
      item = w ∨ item ∈ items ∧ item.marketTimestamp ≠ w.marketTimestamp := by
  induction items with
  | nil => simp [RingBuffer.place, RingBuffer.older, RingBuffer.newer]
  | cons p items ih =>
    obtain ⟨hp, hrest⟩ := List.pairwise_cons.1 h
    rcases lt_trichotomy p.marketTimestamp w.marketTimestamp with hlt | heq | hgt
    · have hone : ∀ q ∈ [p], q.marketTimestamp < w.marketTimestamp := by simpa using hlt
      have hplace := @place_append_of_lt [p] items w hone
      rw [List.singleton_append] at hplace
      rw [hplace, List.singleton_append, List.mem_cons, ih hrest, List.mem_cons]
      have hne : item = p → item.marketTimestamp ≠ w.marketTimestamp := by
        rintro rfl; exact hlt.ne
      tauto
    · -- The quote replaces `p`; the others are newer.
      have hplace : RingBuffer.place w (p :: items) = w :: items := by
        simp [RingBuffer.place, RingBuffer.older, RingBuffer.newer, heq]
      rw [hplace, List.mem_cons, List.mem_cons]
      have hnewer : item ∈ items → item.marketTimestamp ≠ w.marketTimestamp := by
        intro hitem
        rw [← heq]
        exact (hp item hitem).ne'
      have hsame : item = p → item.marketTimestamp = w.marketTimestamp := by
        rintro rfl; exact heq
      tauto
    · -- Everything is newer than the quote, which is put in front.
      have hback : ∀ d ∈ p :: items, w.marketTimestamp < d.marketTimestamp := by
        intro d hd
        rcases List.mem_cons.1 hd with rfl | hd
        · exact hgt
        · exact lt_trans hgt (hp d hd)
      have hplace := @place_append_of_gt [] _ w hback
      rw [List.nil_append] at hplace
      have hnil : RingBuffer.place w [] = [w] := by
        simp [RingBuffer.place, RingBuffer.older, RingBuffer.newer]
      rw [hplace, hnil, List.singleton_append, List.mem_cons]
      have hne : item ∈ p :: items → item.marketTimestamp ≠ w.marketTimestamp :=
        fun hitem => (hback item hitem).ne'
      tauto

theorem length_le_place (items : List MarketSnapshot) (w : MarketSnapshot) :
    items.length ≤ (RingBuffer.place w items).length := by
  have hlength := congrArg List.length (RingBuffer.older_append_newer items w.marketTimestamp)
  rw [List.length_append] at hlength
  unfold RingBuffer.place
  rw [List.length_append, ← hlength]
  cases RingBuffer.newer items w.marketTimestamp with
  | nil => simp
  | cons item rest =>
    dsimp only
    split <;> simp

/-- The newest item is not older after placing. -/
theorem place_newest (h : items.Pairwise Older) {last : MarketSnapshot}
    (hlast : items.getLast? = some last) :
    ∃ last', (RingBuffer.place w items).getLast? = some last' ∧
      last.marketTimestamp ≤ last'.marketTimestamp := by
  have hw : w ∈ RingBuffer.place w items := (mem_place_iff h).2 (.inl rfl)
  obtain ⟨last', hlast'⟩ : ∃ last', (RingBuffer.place w items).getLast? = some last' := by
    cases heq : (RingBuffer.place w items).getLast? with
    | none =>
      rw [List.getLast?_eq_none_iff.1 heq] at hw
      cases hw
    | some last' => exact ⟨last', rfl⟩
  have hnewest := RingBuffer.le_latest (RingBuffer.place_sorted h w) hlast'
  refine ⟨last', hlast', ?_⟩
  by_cases heq : last.marketTimestamp = w.marketTimestamp
  · rw [heq]
    exact hnewest w hw
  · exact hnewest last ((mem_place_iff h).2 (.inr ⟨List.mem_of_getLast? hlast, heq⟩))

/-- One write more. -/
theorem lastWrites_snoc (writes : List MarketSnapshot) (w : MarketSnapshot) :
    lastWrites (writes ++ [w]) = RingBuffer.place w (lastWrites writes) := by
  refine List.Pairwise.eq_of_mem_iff (lastWrites_sorted _)
    (RingBuffer.place_sorted (lastWrites_sorted writes) w) fun item => ?_
  rw [mem_place_iff (lastWrites_sorted writes), mem_lastWrites, mem_lastWrites, lastWrite_snoc]
  by_cases h : w.marketTimestamp = item.marketTimestamp
  · simp [h, eq_comm]
  · have hne : item ≠ w := by rintro rfl; exact h rfl
    simp [h, hne, Ne.symm h]

end Placing

/-! ## Evicting -/

section Evicting

variable {items front back : List MarketSnapshot} {retentionS : ℚ} {maxSize : ℕ}
  {last w : MarketSnapshot}

/-- Inside the retention of the last item. -/
def fresh (retentionS : ℚ) (last : MarketSnapshot) (items : List MarketSnapshot) :
    List MarketSnapshot :=
  items.filter fun item => decide (last.marketTimestamp - retentionS ≤ item.marketTimestamp)

/-- From the first item that is not before a time on, all are not before it. -/
theorem dropWhile_eq_filter (h : items.Pairwise Older) (ts : ℚ) :
    (items.dropWhile fun item => decide (item.marketTimestamp < ts)) =
      items.filter fun item => decide (ts ≤ item.marketTimestamp) := by
  induction items with
  | nil => rfl
  | cons item items ih =>
    obtain ⟨hitem, hrest⟩ := List.pairwise_cons.1 h
    by_cases hlt : item.marketTimestamp < ts
    · rw [List.dropWhile_cons_of_pos (by simpa using hlt), ih hrest,
        List.filter_cons_of_neg (by simpa using hlt)]
    · have hle : ts ≤ item.marketTimestamp := not_lt.1 hlt
      have hall : ∀ a ∈ items, decide (ts ≤ a.marketTimestamp) = true :=
        fun a ha => decide_eq_true (hle.trans (hitem a ha).le)
      rw [List.dropWhile_cons_of_neg (by simpa using hle), List.filter_cons_of_pos (by simpa using hle),
        List.filter_eq_self.2 hall]

/-- What eviction keeps of a sorted list. -/
theorem evict_eq (h : items.Pairwise Older) (hlast : items.getLast? = some last) :
    RingBuffer.evict retentionS maxSize items = (fresh retentionS last items).rtake maxSize := by
  unfold RingBuffer.evict fresh
  rw [hlast]
  dsimp only
  rw [dropWhile_eq_filter h]
  rfl

theorem rtake_append_of_le (h : maxSize ≤ back.length) :
    (front ++ back).rtake maxSize = back.rtake maxSize := by
  unfold List.rtake
  rw [List.length_append, Nat.add_sub_assoc h, List.drop_append, List.drop_eq_nil_of_le (by omega),
    List.nil_append]
  congr 1
  omega

theorem getLast?_append_ne_nil (h : back ≠ []) : (front ++ back).getLast? = back.getLast? := by
  rw [List.getLast?_append]
  cases hb : back.getLast? with
  | none => exact absurd (List.getLast?_eq_none_iff.1 hb) h
  | some _ => rfl

/-- What is evicted anyway makes no difference: it is outside the retention, or there is enough
behind it. -/
theorem evict_append (h : (front ++ back).Pairwise Older) (hlast : back.getLast? = some last)
    (hout : (∀ p ∈ front, p.marketTimestamp < last.marketTimestamp - retentionS) ∨
      maxSize ≤ back.length) :
    RingBuffer.evict retentionS maxSize (front ++ back) = RingBuffer.evict retentionS maxSize back := by
  obtain ⟨-, hback, hcross⟩ := List.pairwise_append.1 h
  have hne : back ≠ [] := by rintro rfl; cases hlast
  rw [evict_eq h ((getLast?_append_ne_nil hne).trans hlast), evict_eq hback hlast]
  have happend : fresh retentionS last (front ++ back) =
      fresh retentionS last front ++ fresh retentionS last back := List.filter_append ..
  rw [happend]
  by_cases hnil : fresh retentionS last front = []
  · rw [hnil, List.nil_append]
  · -- Something in front is fresh, and then all that is behind it is.
    obtain ⟨p, hp⟩ := List.exists_mem_of_ne_nil _ hnil
    obtain ⟨hpfront, hpfresh⟩ := List.mem_filter.1 hp
    have hple := of_decide_eq_true hpfresh
    have hfull : maxSize ≤ back.length :=
      hout.resolve_left fun hall => absurd (hall p hpfront) (not_lt.2 hple)
    have hself : fresh retentionS last back = back :=
      List.filter_eq_self.2 fun d hd => decide_eq_true (hple.trans (hcross p hpfront d hd).le)
    rw [hself]
    exact rtake_append_of_le hfull

/-- **What eviction removes** is outside the retention, or what is left is full. -/
theorem evict_split (hr : 0 < retentionS) (hm : 0 < maxSize) (h : items.Pairwise Older)
    (hlast : items.getLast? = some last) :
    ∃ front, items = front ++ RingBuffer.evict retentionS maxSize items ∧
      (RingBuffer.evict retentionS maxSize items).getLast? = some last ∧
      ((∀ p ∈ front, p.marketTimestamp < last.marketTimestamp - retentionS) ∨
        maxSize ≤ (RingBuffer.evict retentionS maxSize items).length) := by
  have hkeep := RingBuffer.evict_getLast? hr hm hlast
  rw [evict_eq h hlast] at hkeep ⊢
  have hkept := dropWhile_eq_filter h (last.marketTimestamp - retentionS)
  set kept := fresh retentionS last items with hkeptdef
  set out := items.takeWhile fun item => decide (item.marketTimestamp < last.marketTimestamp - retentionS)
    with hout
  have hitems : items = out ++ kept := by
    rw [hkeptdef]
    unfold fresh
    rw [← hkept]
    exact List.takeWhile_append_dropWhile.symm
  have hold : ∀ p ∈ out, p.marketTimestamp < last.marketTimestamp - retentionS := by
    intro p hp
    rw [hout] at hp
    simpa using List.mem_takeWhile_imp hp
  refine ⟨out ++ kept.take (kept.length - maxSize), ?_, hkeep, ?_⟩
  · rw [List.append_assoc]
    unfold List.rtake
    rw [List.take_append_drop]
    exact hitems
  · -- Eviction by size removes nothing more, or leaves as many as may be kept.
    by_cases hsize : kept.length ≤ maxSize
    · left
      have hzero : kept.length - maxSize = 0 := by omega
      rw [hzero, List.take_zero, List.append_nil]
      exact hold
    · right
      unfold List.rtake
      rw [List.length_drop]
      omega

/-- **Evicting early loses nothing.** -/
theorem evict_place_evict (hr : 0 < retentionS) (hm : 0 < maxSize) (h : items.Pairwise Older)
    (w : MarketSnapshot) :
    RingBuffer.evict retentionS maxSize (RingBuffer.place w (RingBuffer.evict retentionS maxSize items)) =
      RingBuffer.evict retentionS maxSize (RingBuffer.place w items) := by
  cases hlast : items.getLast? with
  | none =>
    rw [List.getLast?_eq_none_iff.1 hlast]
    rfl
  | some last =>
    obtain ⟨front, hitems, hkeep, hout⟩ := evict_split hr hm h hlast
    set back := RingBuffer.evict retentionS maxSize items with hback
    clear_value back
    subst hitems
    have hsorted := RingBuffer.place_sorted h w
    obtain ⟨hfront, hbacksorted, hcross⟩ := List.pairwise_append.1 h
    by_cases hw : ∀ p ∈ front, p.marketTimestamp < w.marketTimestamp
    · -- The quote comes behind what was evicted.
      rw [place_append_of_lt hw] at hsorted ⊢
      obtain ⟨last', hlast', hle⟩ := place_newest (w := w) hbacksorted hkeep
      symm
      refine evict_append hsorted hlast' (hout.imp (fun hall p hp => ?_) fun hfull => ?_)
      · have hpout := hall p hp
        linarith
      · exact hfull.trans (length_le_place back w)
    · -- The quote is older than something that was evicted, and so than all that was kept.
      push Not at hw
      obtain ⟨p, hp, hwp⟩ := hw
      have hgt : ∀ d ∈ back, w.marketTimestamp < d.marketTimestamp :=
        fun d hd => lt_of_le_of_lt hwp (hcross p hp d hd)
      have hplace := @place_append_of_gt [] _ w hgt
      have hnil : RingBuffer.place w [] = [w] := by
        simp [RingBuffer.place, RingBuffer.older, RingBuffer.newer]
      rw [List.nil_append, hnil] at hplace
      have hone : ([w] ++ back).Pairwise Older := hplace ▸ RingBuffer.place_sorted hbacksorted w
      rw [place_append_of_gt hgt] at hsorted ⊢
      rw [hplace]
      -- So it is evicted at once, with or without what was evicted before.
      rw [evict_append hone hkeep ?_, evict_append hsorted hkeep ?_]
      · refine hout.imp_left fun hall q hq => ?_
        rcases (mem_place_iff hfront).1 hq with rfl | ⟨hq, -⟩
        · exact lt_of_le_of_lt hwp (hall p hp)
        · exact hall q hq
      · refine hout.imp_left fun hall q hq => ?_
        rw [List.mem_singleton.1 hq]
        exact lt_of_le_of_lt hwp (hall p hp)

end Evicting

/-! ## The denotation -/

namespace RingBuffer

/-- An empty buffer. -/
def new (retentionS : ℚ) (maxSize : ℕ) (retention_pos : 0 < retentionS) (size_pos : 0 < maxSize) :
    RingBuffer where
  retentionS := retentionS
  maxSize := maxSize
  retention_pos := retention_pos
  size_pos := size_pos

end RingBuffer

/-- The last of the last writes is the newest write. -/
theorem within_iff {writes : List MarketSnapshot} {retentionS : ℚ} {last item : MarketSnapshot}
    (hlast : (lastWrites writes).getLast? = some last) :
    Within retentionS writes item ↔ last.marketTimestamp - retentionS ≤ item.marketTimestamp := by
  have hmem := mem_lastWrites.1 (List.mem_of_getLast? hlast)
  constructor
  · intro h
    exact h last (lastWrite_ts hmem).1
  · intro h w hw
    obtain ⟨w', hw'⟩ := Option.isSome_iff_exists.1 (lastWrite_isSome hw)
    have hts := (lastWrite_ts hw').2
    have hlisted : w' ∈ lastWrites writes := mem_lastWrites.2 (by rw [hts]; exact hw')
    have hle := RingBuffer.le_latest (lastWrites_sorted writes) hlast w' hlisted
    linarith

/-- What is retained is what one eviction keeps of the last writes. -/
theorem retained_eq_evict (retentionS : ℚ) (maxSize : ℕ) (writes : List MarketSnapshot) :
    retained retentionS maxSize writes = RingBuffer.evict retentionS maxSize (lastWrites writes) := by
  unfold retained
  cases hlast : (lastWrites writes).getLast? with
  | none =>
    rw [List.getLast?_eq_none_iff.1 hlast, List.filter_nil, List.rtake_nil]
    rfl
  | some last =>
    rw [evict_eq (lastWrites_sorted writes) hlast]
    unfold fresh
    congr 1
    refine List.filter_congr fun item _ => ?_
    rw [decide_eq_decide]
    exact within_iff hlast

/-- One append to a buffer that holds what is retained. -/
theorem retained_snoc {retentionS : ℚ} {maxSize : ℕ} (hr : 0 < retentionS) (hm : 0 < maxSize)
    (writes : List MarketSnapshot) (w : MarketSnapshot) :
    RingBuffer.evict retentionS maxSize (RingBuffer.place w (retained retentionS maxSize writes)) =
      retained retentionS maxSize (writes ++ [w]) := by
  rw [retained_eq_evict, retained_eq_evict, lastWrites_snoc]
  exact evict_place_evict hr hm (lastWrites_sorted writes) w

theorem items_foldl_append {retentionS : ℚ} {maxSize : ℕ} (hr : 0 < retentionS) (hm : 0 < maxSize)
    (writes : List MarketSnapshot) :
    (writes.foldl RingBuffer.append (.new retentionS maxSize hr hm)).items =
        retained retentionS maxSize writes ∧
      (writes.foldl RingBuffer.append (.new retentionS maxSize hr hm)).retentionS = retentionS ∧
      (writes.foldl RingBuffer.append (.new retentionS maxSize hr hm)).maxSize = maxSize := by
  induction writes using List.reverseRecOn with
  | nil => exact ⟨by simp [RingBuffer.new, retained, lastWrites], rfl, rfl⟩
  | append_singleton writes w ih =>
    rw [List.foldl_append, List.foldl_cons, List.foldl_nil]
    generalize writes.foldl RingBuffer.append (.new retentionS maxSize hr hm) = b at ih ⊢
    obtain ⟨hitems, rfl, rfl⟩ := ih
    refine ⟨?_, rfl, rfl⟩
    show RingBuffer.evict b.retentionS b.maxSize (RingBuffer.place w b.items) = _
    rw [hitems]
    exact retained_snoc hr hm writes w

/-! ### Linear scans -/

/-- The item that no other is newer than. -/
def scanLatest (items : List MarketSnapshot) : Option MarketSnapshot :=
  items.find? fun item => items.all fun other => decide (other.marketTimestamp ≤ item.marketTimestamp)

/-- The last item that is not after a time. -/
def scanAtOrBefore (items : List MarketSnapshot) (ts : ℚ) : Option MarketSnapshot :=
  (items.filter fun item => decide (item.marketTimestamp ≤ ts)).getLast?

/-- The items that are not before a time. -/
def scanSince (items : List MarketSnapshot) (ts : ℚ) : List MarketSnapshot :=
  items.filter fun item => decide (ts ≤ item.marketTimestamp)

/-- The items that no item is more than a duration newer than. -/
def scanWindow (items : List MarketSnapshot) (durationS : ℚ) : List MarketSnapshot :=
  items.filter fun item =>
    items.all fun other => decide (other.marketTimestamp - durationS ≤ item.marketTimestamp)

section Scans

variable {items : List MarketSnapshot}

theorem latest_eq_scan (h : items.Pairwise Older) : items.getLast? = scanLatest items := by
  unfold scanLatest
  cases hlast : items.getLast? with
  | none =>
    rw [List.getLast?_eq_none_iff.1 hlast]
    rfl
  | some last =>
    obtain ⟨init, rfl⟩ := List.getLast?_eq_some_iff.1 hlast
    have hle := RingBuffer.le_latest h hlast
    symm
    rw [List.find?_append, List.find?_eq_none.2, Option.none_or, List.find?_singleton, if_pos]
    · rw [List.all_eq_true]
      exact fun other hother => decide_eq_true (hle other hother)
    · -- Every item before the last is older than it.
      intro item hitem hall
      have hlt := (List.pairwise_append.1 h).2.2 item hitem last (List.mem_singleton_self _)
      have hge : last.marketTimestamp ≤ item.marketTimestamp := by
        have := List.all_eq_true.1 hall last (by simp)
        exact of_decide_eq_true this
      exact absurd hlt (not_lt.2 hge)

theorem atOrBefore_eq_scan (h : items.Pairwise Older) (ts : ℚ) :
    (items.takeWhile fun item => decide (item.marketTimestamp ≤ ts)).getLast? = scanAtOrBefore items ts := by
  unfold scanAtOrBefore
  congr 1
  induction items with
  | nil => rfl
  | cons item items ih =>
    obtain ⟨hitem, hrest⟩ := List.pairwise_cons.1 h
    by_cases hle : item.marketTimestamp ≤ ts
    · rw [List.takeWhile_cons_of_pos (by simpa using hle), List.filter_cons_of_pos (by simpa using hle),
        ih hrest]
    · have hnone : ∀ a ∈ items, ¬ decide (a.marketTimestamp ≤ ts) = true := by
        intro a ha hdec
        exact hle ((hitem a ha).le.trans (of_decide_eq_true hdec))
      rw [List.takeWhile_cons_of_neg (by simpa using hle), List.filter_cons_of_neg (by simpa using hle),
        List.filter_eq_nil_iff.2 hnone]

theorem window_eq_scan {b : RingBuffer} (durationS : ℚ) :
    b.window durationS = scanWindow b.items durationS := by
  unfold RingBuffer.window RingBuffer.latest scanWindow RingBuffer.since
  cases hlast : b.items.getLast? with
  | none =>
    rw [List.getLast?_eq_none_iff.1 hlast]
    rfl
  | some last =>
    have hle := RingBuffer.le_latest b.sorted hlast
    have hmem := List.mem_of_getLast? hlast
    refine List.filter_congr fun item _ => ?_
    rw [Bool.eq_iff_iff, List.all_eq_true]
    simp only [decide_eq_true_eq]
    constructor
    · intro h other hother
      have := hle other hother
      linarith
    · intro h
      exact h last hmem

end Scans

/-- **A buffer holds what is retained of its history**, and its lookups are scans of that. -/
theorem ring_buffer_denotation {retentionS : ℚ} {maxSize : ℕ} (hr : 0 < retentionS)
    (hm : 0 < maxSize) (writes : List MarketSnapshot) :
    let b := writes.foldl RingBuffer.append (.new retentionS maxSize hr hm)
    let kept := retained retentionS maxSize writes
    b.items = kept ∧ kept.Pairwise Older ∧ b.latest = scanLatest kept ∧
      (∀ ts, b.atOrBefore ts = scanAtOrBefore kept ts) ∧ (∀ ts, b.since ts = scanSince kept ts) ∧
        ∀ durationS, b.window durationS = scanWindow kept durationS := by
  intro b kept
  have hitems : b.items = kept := (items_foldl_append hr hm writes).1
  rw [← hitems]
  exact ⟨rfl, b.sorted, latest_eq_scan b.sorted, atOrBefore_eq_scan b.sorted, fun _ => rfl,
    fun durationS => window_eq_scan durationS⟩

/-- A quote at a time. -/
def quoteAtTime (price ts : ℚ) : MarketSnapshot where
  symbol := "A"
  price := price
  openPrice := price
  high := price
  low := price
  prevClose := price
  volume := 0
  turnover := none
  marketTimestamp := ts
  receivedTimestamp := ts

/-- A buffer of two within 10 seconds: a late quote below a full buffer, a quote outside the
retention, and a second write of a timestamp. -/
theorem ring_buffer_denotation_late :
    let writes := [quoteAtTime 1 100, quoteAtTime 2 95, quoteAtTime 3 92, quoteAtTime 4 50, quoteAtTime 5 95]
    let b := writes.foldl RingBuffer.append (.new 10 2 (by decide) (by decide))
    b.items = retained 10 2 writes ∧ retained 10 2 writes = [quoteAtTime 5 95, quoteAtTime 1 100] := by
  intro writes b
  exact ⟨And.left <| ring_buffer_denotation (by decide) (by decide) writes, by decide +kernel⟩

end MarketSentinel
