import MarketSentinel.Lib.Machine
import MarketSentinel.Ipc.Daemon

/-!
# The watchlist on both sides

`syncWatchlist` and `sendWatchlistAfter` of `host/controller.ts`, `setWatchlist` of `ipc/process.ts`, and
the daemon's `set_watchlist`, while one core stays connected. A promise is its place in the order of the
calls of `sendWatchlistAfter`; what is called before it settles waits in a line.

* `setWatchlist_items`: what the core does here is what the daemon's handler does.
* `watchlist_agrees`: the two sides agree once nothing is on its way, if no target is skipped as equal
  while a request that timed out may have changed the core.
-/

namespace MarketSentinel.Extension

open Lib Lib.Machine

/-! ## The core -/

/-- An item as it is written on the wire. -/
def itemJson (item : WatchItem) : Json :=
  .obj [("symbol", .str item.symbol), ("enabled", .bool item.enabled)]

/-- `set_watchlist` at the core: whether it is acknowledged, and the watchlist after it. -/
def applyItems (w : Watchlist) (items : List WatchItem) : Bool × Watchlist :=
  if ∃ item ∈ items, item.symbol = "" then (false, w)
  else
    match w.replace items with
    | .ok w' => (true, w')
    | .error _ => (false, w)

theorem parseItem_itemJson (item : WatchItem) :
    MarketSentinel.parseItem (itemJson item) =
      if item.symbol = "" then .inl "each item needs a non-empty symbol" else .inr item := by
  have hsymbol : Json.field [("symbol", .str item.symbol), ("enabled", .bool item.enabled)] "symbol" =
      .str item.symbol := rfl
  have henabled : ([("symbol", Json.str item.symbol), ("enabled", .bool item.enabled)].lookup "enabled").getD
      (.bool true) = .bool item.enabled := rfl
  unfold MarketSentinel.parseItem itemJson
  simp only [hsymbol, henabled]

theorem parseItems_itemJson (items : List WatchItem) :
    MarketSentinel.parseItems (items.map itemJson) =
      if ∃ item ∈ items, item.symbol = "" then .inl "each item needs a non-empty symbol" else .inr items := by
  induction items with
  | nil => simp [MarketSentinel.parseItems]
  | cons item items ih =>
    rw [List.map_cons, MarketSentinel.parseItems, parseItem_itemJson, ih]
    by_cases h : item.symbol = ""
    · simp [h]
    · by_cases h' : ∃ i ∈ items, i.symbol = ""
      · have : ∃ i ∈ item :: items, i.symbol = "" := by
          obtain ⟨i, hi, he⟩ := h'
          exact ⟨i, List.mem_cons_of_mem _ hi, he⟩
        rw [if_neg h, if_pos h', if_pos this]
      · have : ¬ ∃ i ∈ item :: items, i.symbol = "" := by
          rintro ⟨i, hi, he⟩
          rcases List.mem_cons.1 hi with rfl | hi
          · exact h he
          · exact h' ⟨i, hi, he⟩
        rw [if_neg h, if_neg h', if_neg this]

/-- What answers the message: an acknowledgement, or a refusal. -/
def Answers (id : String) (answer : Message) (ok : Bool) : Prop :=
  if ok then ∃ count, answer = encodeMessage "ack" (some id) [("watchlist_count", .int count)]
  else ∃ code message, answer = encodeError code message (some id)

/-- **What the daemon does with the message.** -/
theorem setWatchlist_items (d : Daemon) (id : String) (command : Message) (items : List WatchItem)
    (hready : d.phase ≠ .awaitingHello) (hitems : Json.field command "items" = .list (items.map itemJson)) :
    ∃ answer, Answers id answer (applyItems d.engine.watchlist items).1 ∧
      d.setWatchlist id command =
        { d with
          engine := { d.engine with watchlist := (applyItems d.engine.watchlist items).2 }
          written := d.written ++ [answer] } := by
  unfold Daemon.setWatchlist Daemon.ifReady applyItems
  rw [if_neg hready, hitems]
  simp only [parseItems_itemJson]
  by_cases h : ∃ item ∈ items, item.symbol = ""
  · simp only [if_pos h]
    exact ⟨_, ⟨_, _, rfl⟩, rfl⟩
  · simp only [if_neg h, Daemon.replaceItems]
    cases d.engine.watchlist.replace items with
    | error e => exact ⟨_, ⟨_, _, rfl⟩, rfl⟩
    | ok w => exact ⟨_, ⟨_, rfl⟩, rfl⟩

/-- The dictionary that `replace` builds has the items in their order. -/
theorem collect_values : ∀ (items : List WatchItem) (seen d : Dict String WatchItem),
    Watchlist.collect seen items = .ok d → d.values = seen.values ++ items := by
  intro items
  induction items with
  | nil =>
    intro seen d h
    obtain rfl := Except.ok.inj h
    rw [List.append_nil]
  | cons item items ih =>
    intro seen d h
    unfold Watchlist.collect at h
    split at h
    · cases h
    · next hnew => rw [ih _ _ h, Dict.values_set_new hnew, List.append_assoc, List.singleton_append]

theorem replace_list {w w' : Watchlist} {items : List WatchItem} (h : w.replace items = .ok w') :
    w'.list = items := by
  unfold Watchlist.replace at h
  split at h
  · cases h
  · next seen hseen =>
    split at h
    · cases h
    · obtain rfl := Except.ok.inj h
      have := collect_values items _ seen hseen
      rwa [show (Dict.empty : Dict String WatchItem).values = [] from rfl, List.nil_append] at this

/-- An acknowledged watchlist is the one that was sent. -/
theorem applyItems_list {w : Watchlist} {items : List WatchItem} (h : (applyItems w items).1 = true) :
    (applyItems w items).2.list = items := by
  unfold applyItems at h ⊢
  split at h
  · cases h
  · next hsymbol =>
    rw [if_neg hsymbol]
    cases hr : w.replace items with
    | error e => rw [hr] at h; cases h
    | ok w' => exact replace_list hr

theorem applyItems_refused {w : Watchlist} {items : List WatchItem} (h : (applyItems w items).1 = false) :
    (applyItems w items).2 = w := by
  unfold applyItems at h ⊢
  split
  · rfl
  · next hsymbol =>
    rw [if_neg hsymbol] at h
    split at h
    · cases h
    · rfl

/-! ## The controller -/

/-- A call of `sendWatchlistAfter` that has not settled. -/
structure WatchlistSend where
  promise : ℕ
  snapshot : List WatchItem
  deriving DecidableEq

/-- A call of `syncWatchlist`: its target, and the promise that it awaits, if any. -/
structure SyncCall where
  target : List WatchItem
  awaits : Option ℕ
  deriving DecidableEq

/-- `watchlistsEqual`: item by item, by symbol and `enabled`. -/
def watchlistsEqual (left right : List WatchItem) : Bool :=
  left.length = right.length &&
    (left.zip right).all fun (item, other) => item.symbol = other.symbol && item.enabled = other.enabled

/-- An item has no other fields. -/
theorem watchlistsEqual_iff {left right : List WatchItem} : watchlistsEqual left right = true ↔ left = right := by
  induction left generalizing right with
  | nil => cases right <;> simp [watchlistsEqual]
  | cons item left ih =>
    cases right with
    | nil => simp [watchlistsEqual]
    | cons other right =>
      have hitem : item = other ↔ item.symbol = other.symbol ∧ item.enabled = other.enabled := by
        cases item
        cases other
        rw [WatchItem.mk.injEq]
      rw [List.cons.injEq, ← ih, hitem]
      simp only [watchlistsEqual, List.length_cons, List.zip_cons_cons, List.all_cons, Bool.and_eq_true,
        decide_eq_true_eq, Nat.add_right_cancel_iff]
      tauto

structure WatchlistSync where
  lastAcked : List WatchItem
  /-- `inFlightWatchlistPromise` and `inFlightWatchlist`. -/
  inFlight : Option WatchlistSend := none
  /-- The first one awaits an answer, the others the one before them. -/
  sends : List WatchlistSend := []
  promises : ℕ := 0
  settled : List (ℕ × Bool) := []
  calls : List SyncCall := []
  /-- The manager's `ackedWatchlist`. -/
  ackedWatchlist : List WatchItem
  /-- The requests on their way to the core, and the answers on their way back. -/
  inbox : List WatchlistSend := []
  outbox : List (ℕ × Bool) := []
  core : Watchlist
  /-- Ghost: a request timed out, and none was acknowledged after it. -/
  doubtful : Bool := false

namespace WatchlistSync

/-- The handshake has set the watchlist. -/
def connected (w : Watchlist) : WatchlistSync where
  lastAcked := w.list
  ackedWatchlist := w.list
  core := w

/-- The promise settles; the `finally` of `syncWatchlist` clears it. -/
def settle (s : WatchlistSync) (promise : ℕ) (ok : Bool) : WatchlistSync :=
  { s with
    settled := s.settled ++ [(promise, ok)]
    inFlight := s.inFlight.filter fun send => send.promise ≠ promise }

/-- `sendWatchlistAfter` from where the promise before it has settled: a target that equals `lastAcked` is
skipped, and its promise releases the next one. -/
def proceed (s : WatchlistSync) : List WatchlistSend → WatchlistSync
  | [] => { s with sends := [] }
  | send :: rest =>
    if watchlistsEqual send.snapshot s.lastAcked then (s.settle send.promise true).proceed rest
    else { s with sends := send :: rest, inbox := s.inbox ++ [send] }

/-- The part of `syncWatchlist` that starts a new send. -/
def startSend (s : WatchlistSync) (target : List WatchItem) : WatchlistSync :=
  let send : WatchlistSend := ⟨s.promises, target⟩
  let s' := { s with
    promises := s.promises + 1
    inFlight := some send
    calls := s.calls ++ [SyncCall.mk target (some s.promises)] }
  match s.inFlight with
  | none => s'.proceed [send]
  | some _ => { s' with sends := s.sends ++ [send] }

def syncWatchlist (s : WatchlistSync) (target : List WatchItem) : WatchlistSync :=
  match s.inFlight with
  | none =>
    if watchlistsEqual target s.lastAcked then { s with calls := s.calls ++ [⟨target, none⟩] } else s.startSend target
  | some flight =>
    if watchlistsEqual target flight.snapshot then { s with calls := s.calls ++ [⟨target, some flight.promise⟩] }
    else s.startSend target

/-- `setWatchlist` is acknowledged, and `sendWatchlistAfter` goes on. -/
def acknowledge (s : WatchlistSync) (send : WatchlistSend) (rest : List WatchlistSend) : WatchlistSync :=
  ({ s with
    ackedWatchlist := send.snapshot
    lastAcked := send.snapshot
    doubtful := false }.settle send.promise true).proceed rest

/-- An answer is read. Nobody waits for the answer to a request that timed out. -/
def answer (s : WatchlistSync) (promise : ℕ) (ok : Bool) : WatchlistSync :=
  match s.sends with
  | [] => s
  | send :: rest =>
    if send.promise ≠ promise then s
    else if ok then s.acknowledge send rest
    else (s.settle promise false).proceed rest

end WatchlistSync

inductive SyncEvent
  | sync (target : List WatchItem)
  /-- The request that is awaited times out. -/
  | timeout
  /-- The core takes the oldest request. -/
  | work
  /-- The oldest answer is read. -/
  | answer
  deriving DecidableEq

namespace WatchlistSync

def step (s : WatchlistSync) : SyncEvent → Option WatchlistSync
  | .sync target => some (s.syncWatchlist target)
  -- What has timed out may still be applied by the core.
  | .timeout =>
    match s.sends with
    | [] => none
    | send :: rest => some (({ s with doubtful := true }.settle send.promise false).proceed rest)
  | .work =>
    match s.inbox with
    | [] => none
    | send :: inbox =>
      let (ok, core) := applyItems s.core send.snapshot
      some { s with inbox := inbox, core := core, outbox := s.outbox ++ [(send.promise, ok)] }
  | .answer =>
    match s.outbox with
    | [] => none
    | (promise, ok) :: outbox => some ({ s with outbox := outbox }.answer promise ok)

/-- No sync is outstanding, and no message is in flight. -/
def Quiet (s : WatchlistSync) : Prop := s.sends = [] ∧ s.inbox = [] ∧ s.outbox = []

/-- The call has resolved. -/
def Resolved (s : WatchlistSync) (call : SyncCall) : Prop :=
  ∀ promise, call.awaits = some promise → (promise, true) ∈ s.settled

/-- The target of the send that is released next equals `lastAcked`. -/
def SkipsNext (s : WatchlistSync) : Prop :=
  s.sends.tail.head?.map WatchlistSend.snapshot = some s.lastAcked

instance (s : WatchlistSync) : Decidable s.SkipsNext :=
  inferInstanceAs (Decidable (_ = _))

/-- No target is skipped as equal to `lastAcked` while a request that timed out has not been followed by one
that was acknowledged. -/
def Sure (s : WatchlistSync) : SyncEvent → Prop
  | .sync target => s.inFlight = none → target = s.lastAcked → s.doubtful = false
  | .timeout => ¬ s.SkipsNext
  | .work => True
  | .answer =>
    s.doubtful = true → s.SkipsNext → s.outbox.head? ≠ s.sends.head?.map fun send => (send.promise, false)

instance (s : WatchlistSync) : (e : SyncEvent) → Decidable (s.Sure e)
  | .sync _ => inferInstanceAs (Decidable (_ → _ → _))
  | .timeout => inferInstanceAs (Decidable (¬ _))
  | .work => isTrue trivial
  | .answer => inferInstanceAs (Decidable (_ → _ → _ ≠ _))

/-- Watchlist agreement: when the last call has resolved and nothing is outstanding or in flight, the core
has its target. -/
def Agrees (s : WatchlistSync) : Prop :=
  ∀ call, s.calls.getLast? = some call → s.Resolved call → s.Quiet → s.core.list = call.target

/-! ## The invariant -/

/-- What is known of the send that awaits an answer: its request is the last one on the way to the core, or
its answer the last one on the way back. Without doubt it is the only one. -/
inductive Awaits (s : WatchlistSync) (send : WatchlistSend) : Prop
  | asked (before : List WatchlistSend) (hin : s.inbox = before ++ [send])
      (hout : ∀ a ∈ s.outbox, a.1 < send.promise) (hbefore : ∀ r ∈ before, r.promise < send.promise)
      (hsure : s.doubtful = false → before = [] ∧ s.outbox = [] ∧ s.core.list = s.lastAcked)
  | answered (before : List (ℕ × Bool)) (ok : Bool) (hin : s.inbox = [])
      (hout : s.outbox = before ++ [(send.promise, ok)]) (hbefore : ∀ a ∈ before, a.1 < send.promise)
      (hok : ok = true → s.core.list = send.snapshot)
      (hsure : s.doubtful = false → before = [] ∧ (ok = false → s.core.list = s.lastAcked))

/-- Nothing is awaited: without doubt nothing is on its way, and the two sides agree. -/
def Idle (s : WatchlistSync) : Prop :=
  s.doubtful = false → s.inbox = [] ∧ s.outbox = [] ∧ s.core.list = s.lastAcked

/-- The promises that were given out before a send was started. -/
structure Older (s : WatchlistSync) (promise : ℕ) : Prop where
  inbox : ∀ r ∈ s.inbox, r.promise < promise
  outbox : ∀ a ∈ s.outbox, a.1 < promise
  settled : ∀ a ∈ s.settled, a.1 < promise

/-- The last call awaits the last of the sends, or its target is the acknowledged one. -/
def LastCall (s : WatchlistSync) (sends : List WatchlistSend) : Prop :=
  ∀ call, s.calls.getLast? = some call →
    match sends.getLast? with
    | some send => call = ⟨send.snapshot, some send.promise⟩
    | none => s.Resolved call → call.target = s.lastAcked ∧ s.doubtful = false

structure Inv (s : WatchlistSync) : Prop where
  flight : s.inFlight = s.sends.getLast?
  idle : s.sends = [] → s.Idle
  awaits : ∀ send rest, s.sends = send :: rest → s.Awaits send
  sorted : (s.sends.map WatchlistSend.promise).Pairwise (· < ·)
  issued : ∀ r ∈ s.sends, r.promise < s.promises
  settled : ∀ a ∈ s.settled, ∀ r ∈ s.sends, a.1 < r.promise
  older : s.Older s.promises
  last : s.LastCall s.sends

/-- The send that was awaited has settled, and `rest` waited for it. -/
structure Released (s : WatchlistSync) (rest : List WatchlistSend) : Prop where
  flight : s.inFlight = rest.getLast?
  idle : s.Idle
  sorted : (rest.map WatchlistSend.promise).Pairwise (· < ·)
  issued : ∀ r ∈ rest, r.promise < s.promises
  waiting : ∀ r ∈ rest, s.Older r.promise
  older : s.Older s.promises
  last : s.LastCall rest
  sure : ∀ next, rest.head? = some next → next.snapshot = s.lastAcked → s.doubtful = false

variable {s : WatchlistSync} {send : WatchlistSend} {rest : List WatchlistSend}

theorem Older.settle {n promise : ℕ} {ok : Bool} (h : s.Older n) (hlt : promise < n) :
    (s.settle promise ok).Older n where
  inbox := h.inbox
  outbox := h.outbox
  settled a ha := by
    rcases List.mem_append.1 ha with ha | ha
    · exact h.settled a ha
    · obtain rfl := List.mem_singleton.1 ha
      exact hlt

/-- The promise of the first send is not in flight any more, that of a later one still is. -/
theorem flight_filter (hsorted : ((send :: rest).map WatchlistSend.promise).Pairwise (· < ·)) :
    ((send :: rest).getLast?.filter fun r => r.promise ≠ send.promise) = rest.getLast? := by
  rw [List.map_cons, List.pairwise_cons] at hsorted
  cases rest with
  | nil => simp
  | cons next rest =>
    rw [List.getLast?_cons_cons]
    obtain ⟨r, hr⟩ : ∃ r, (next :: rest).getLast? = some r :=
      ⟨_, List.getLast?_eq_some_getLast (List.cons_ne_nil next rest)⟩
    have hlt := hsorted.1 r.promise (List.mem_map_of_mem (List.mem_of_getLast? hr))
    rw [hr, Option.filter_some, if_pos (by simpa using hlt.ne')]

/-- A send that settles as skipped releases the next one. -/
theorem Released.skip (h : s.Released (send :: rest)) (heq : send.snapshot = s.lastAcked) :
    (s.settle send.promise true).Released rest := by
  have hsure := h.sure send rfl heq
  have hsorted := h.sorted
  rw [List.map_cons, List.pairwise_cons] at hsorted
  have hlt : ∀ r ∈ rest, send.promise < r.promise := fun r hr => hsorted.1 _ (List.mem_map_of_mem hr)
  refine ⟨?_, h.idle, hsorted.2, fun r hr => h.issued r (List.mem_cons_of_mem _ hr),
    fun r hr => (h.waiting r (List.mem_cons_of_mem _ hr)).settle (hlt r hr),
    h.older.settle (h.issued send List.mem_cons_self), fun call hcall => ?_, fun _ _ _ => hsure⟩
  · show s.inFlight.filter _ = _
    rw [h.flight]
    exact flight_filter h.sorted
  · have hlast := h.last call hcall
    cases rest with
    | nil =>
      -- The last send was skipped: its target is `lastAcked`.
      simp only [List.getLast?_singleton] at hlast
      intro _
      exact ⟨hlast ▸ heq, hsure⟩
    | cons next rest =>
      rw [List.getLast?_cons_cons] at hlast
      exact hlast

theorem Released.proceed : ∀ {rest : List WatchlistSend} {s : WatchlistSync}, s.Released rest →
    (s.proceed rest).Inv := by
  intro rest
  induction rest with
  | nil =>
    intro s h
    show ({ s with sends := [] } : WatchlistSync).Inv
    exact ⟨h.flight, fun _ => h.idle, nofun, List.Pairwise.nil, nofun, fun _ _ => nofun,
      ⟨h.older.inbox, h.older.outbox, h.older.settled⟩, h.last⟩
  | cons send rest ih =>
    intro s h
    unfold WatchlistSync.proceed
    split
    · next heq => exact ih (h.skip (watchlistsEqual_iff.1 heq))
    · have hold := h.waiting send List.mem_cons_self
      have hissued := h.issued send List.mem_cons_self
      refine ⟨h.flight, nofun, fun send' rest' he => ?_, h.sorted, h.issued,
        fun a ha r hr => (h.waiting r hr).settled a ha, ⟨fun r hr => ?_, h.older.outbox, h.older.settled⟩, h.last⟩
      · obtain ⟨rfl, rfl⟩ := List.cons.inj he
        exact .asked s.inbox rfl hold.outbox hold.inbox h.idle
      · rcases List.mem_append.1 hr with hr | hr
        · exact h.older.inbox r hr
        · obtain rfl := List.mem_singleton.1 hr
          exact hissued

/-! ## Steps -/

theorem Awaits.older (h : s.Awaits send) {n : ℕ} (hlt : send.promise < n)
    (hsettled : ∀ a ∈ s.settled, a.1 < n) : s.Older n := by
  cases h with
  | asked before hin hout hbefore _ =>
    refine ⟨fun r hr => ?_, fun a ha => (hout a ha).trans hlt, hsettled⟩
    rw [hin] at hr
    rcases List.mem_append.1 hr with hr | hr
    · exact (hbefore r hr).trans hlt
    · obtain rfl := List.mem_singleton.1 hr
      exact hlt
  | answered before ok hin hout hbefore _ _ =>
    refine ⟨by rw [hin]; nofun, fun a ha => ?_, hsettled⟩
    rw [hout] at ha
    rcases List.mem_append.1 ha with ha | ha
    · exact (hbefore a ha).trans hlt
    · obtain rfl := List.mem_singleton.1 ha
      exact hlt

/-- The sends that wait are later than all that is on its way or has settled. -/
theorem Inv.waiting (h : s.Inv) (hs : s.sends = send :: rest) : ∀ r ∈ rest, s.Older r.promise := by
  intro r hr
  have hsorted := h.sorted
  rw [hs, List.map_cons, List.pairwise_cons] at hsorted
  exact (h.awaits send rest hs).older (hsorted.1 _ (List.mem_map_of_mem hr))
    fun a ha => h.settled a ha r (hs ▸ List.mem_cons_of_mem _ hr)

/-- The send that is awaited settles with `ok`. `s'` is the state just before, without the answer. -/
theorem Inv.settle (s' : WatchlistSync) (ok : Bool) (h : s.Inv) (hs : s.sends = send :: rest)
    (hflight : s'.inFlight = s.inFlight) (hpromises : s'.promises = s.promises)
    (hsettled : s'.settled = s.settled) (hcalls : s'.calls = s.calls)
    (hin : s'.inbox = s.inbox) (hout : ∀ a ∈ s'.outbox, a ∈ s.outbox) (hidle : s'.Idle)
    (hok : ok = true → send.snapshot = s'.lastAcked ∧ s'.doubtful = false)
    (hsure : ∀ next, rest.head? = some next → next.snapshot = s'.lastAcked → s'.doubtful = false) :
    (s'.settle send.promise ok).Released rest := by
  have hsorted := h.sorted
  rw [hs] at hsorted
  have hlater := hsorted
  rw [List.map_cons, List.pairwise_cons] at hlater
  have hlt : ∀ r ∈ rest, send.promise < r.promise := fun r hr => hlater.1 _ (List.mem_map_of_mem hr)
  have holder : ∀ {n}, s.Older n → s'.Older n := fun ho =>
    ⟨hin ▸ ho.inbox, fun a ha => ho.outbox a (hout a ha), hsettled ▸ ho.settled⟩
  have hissued : ∀ r ∈ send :: rest, r.promise < s.promises := hs ▸ h.issued
  refine ⟨?_, hidle, hlater.2, fun r hr => ?_, fun r hr => (holder (h.waiting hs r hr)).settle (hlt r hr), ?_,
    fun call hcall => ?_, hsure⟩
  · show s'.inFlight.filter _ = _
    rw [hflight, h.flight, hs]
    exact flight_filter hsorted
  · exact hpromises ▸ hissued r (List.mem_cons_of_mem _ hr)
  · show (s'.settle send.promise ok).Older s'.promises
    rw [hpromises]
    exact (holder h.older).settle (hissued send List.mem_cons_self)
  · have hlast := h.last call (hcalls ▸ hcall)
    rw [hs] at hlast
    cases rest with
    | cons next rest =>
      rw [List.getLast?_cons_cons] at hlast
      exact hlast
    | nil =>
      simp only [List.getLast?_singleton] at hlast
      intro hresolved
      -- The last call awaits the promise that settles now.
      have hmem := hresolved send.promise (by rw [hlast])
      rcases List.mem_append.1 hmem with hmem | hmem
      · exact absurd (h.settled _ (hsettled ▸ hmem) send (hs ▸ List.mem_cons_self)) (lt_irrefl _)
      · obtain ⟨-, htrue⟩ := Prod.mk.inj (List.mem_singleton.1 hmem)
        obtain ⟨heq, hsure⟩ := hok htrue.symm
        exact ⟨hlast ▸ heq, hsure⟩

theorem Inv.timeout (h : s.Inv) (hs : s.sends = send :: rest) (hsure : ¬ s.SkipsNext) :
    (({ s with doubtful := true }.settle send.promise false).proceed rest).Inv := by
  have hdoubt : ({ s with doubtful := true } : WatchlistSync).Idle := fun hd => absurd hd (by simp)
  refine (Inv.settle { s with doubtful := true } false h hs rfl rfl rfl rfl rfl (fun _ ha => ha) hdoubt nofun
    fun next hnext heq => absurd ?_ hsure).proceed
  cases rest with
  | nil => cases hnext
  | cons r rest =>
    obtain rfl := Option.some.inj hnext
    rw [WatchlistSync.SkipsNext, hs]
    exact congrArg some heq

/-- The core takes the oldest request. -/
theorem Inv.work {inbox : List WatchlistSend} (h : s.Inv) (hin : s.inbox = send :: inbox) :
    ({ s with
      inbox := inbox
      core := (applyItems s.core send.snapshot).2
      outbox := s.outbox ++ [(send.promise, (applyItems s.core send.snapshot).1)] } : WatchlistSync).Inv := by
  have hmem : ∀ r ∈ inbox, r ∈ s.inbox := fun r hr => hin ▸ List.mem_cons_of_mem _ hr
  have hhead : send ∈ s.inbox := hin ▸ List.mem_cons_self
  refine ⟨h.flight, fun hs hd => ?_, fun first rest hs => ?_, h.sorted, h.issued, h.settled,
    ⟨fun r hr => h.older.inbox r (hmem r hr), fun a ha => ?_, h.older.settled⟩, h.last⟩
  · have := (h.idle hs hd).1
    rw [hin] at this
    cases this
  · cases h.awaits first rest hs with
    | answered before ok hin' _ _ _ _ => rw [hin] at hin'; cases hin'
    | asked before hin' hout hbefore hsure =>
      cases before with
      | nil =>
        -- The core takes the request that is awaited.
        obtain ⟨rfl, rfl⟩ := List.cons.inj (hin.symm.trans hin')
        refine .answered s.outbox _ rfl rfl hout applyItems_list fun hd => ⟨(hsure hd).2.1, fun hrefused => ?_⟩
        show (applyItems s.core send.snapshot).2.list = s.lastAcked
        rw [applyItems_refused hrefused]
        exact (hsure hd).2.2
      | cons b before =>
        obtain ⟨rfl, rfl⟩ := List.cons.inj (hin.symm.trans hin')
        refine .asked before rfl (fun a ha => ?_) (fun r hr => hbefore r (List.mem_cons_of_mem _ hr))
          fun hd => absurd (hsure hd).1 (List.cons_ne_nil _ _)
        rcases List.mem_append.1 ha with ha | ha
        · exact hout a ha
        · obtain rfl := List.mem_singleton.1 ha
          exact hbefore send List.mem_cons_self
  · rcases List.mem_append.1 ha with ha | ha
    · exact h.older.outbox a ha
    · obtain rfl := List.mem_singleton.1 ha
      exact h.older.inbox send hhead

/-- An answer that nobody waits for is dropped. -/
theorem Inv.drop {promise : ℕ} {ok : Bool} {outbox : List (ℕ × Bool)} (h : s.Inv)
    (hout : s.outbox = (promise, ok) :: outbox)
    (hother : ∀ first rest, s.sends = first :: rest → first.promise ≠ promise) :
    ({ s with outbox := outbox } : WatchlistSync).Inv := by
  have hmem : ∀ a ∈ outbox, a ∈ s.outbox := fun a ha => hout ▸ List.mem_cons_of_mem _ ha
  refine ⟨h.flight, fun hs hd => ?_, fun first rest hs => ?_, h.sorted, h.issued, h.settled,
    ⟨h.older.inbox, fun a ha => h.older.outbox a (hmem a ha), h.older.settled⟩, h.last⟩
  · have := (h.idle hs hd).2.1
    rw [hout] at this
    cases this
  · cases h.awaits first rest hs with
    | asked before hin hout' hbefore hsure =>
      refine .asked before hin (fun a ha => hout' a (hmem a ha)) hbefore fun hd => ?_
      have := (hsure hd).2.1
      rw [hout] at this
      cases this
    | answered before ok' hin hout' hbefore hok hsure =>
      cases before with
      | nil =>
        obtain ⟨heq, -⟩ := List.cons.inj (hout.symm.trans hout')
        exact absurd (Prod.mk.inj heq).1.symm (hother first rest hs)
      | cons b before =>
        obtain ⟨-, rfl⟩ := List.cons.inj (hout.symm.trans hout')
        exact .answered before ok' hin rfl (fun a ha => hbefore a (List.mem_cons_of_mem _ ha)) hok
          fun hd => absurd (hsure hd).1 (List.cons_ne_nil _ _)

/-- The answer that is read is the awaited one: it was the last message on its way. -/
theorem Inv.answered {ok : Bool} {outbox : List (ℕ × Bool)} (h : s.Inv)
    (hout : s.outbox = (send.promise, ok) :: outbox) (hs : s.sends = send :: rest) :
    s.inbox = [] ∧ outbox = [] ∧ (ok = true → s.core.list = send.snapshot) ∧
      (ok = false → s.doubtful = false → s.core.list = s.lastAcked) := by
  cases h.awaits send rest hs with
  | asked before hin hout' hbefore hsure =>
    exact absurd (hout' (send.promise, ok) (hout ▸ List.mem_cons_self)) (lt_irrefl _)
  | answered before ok' hin hout' hbefore hok hsure =>
    cases before with
    | nil =>
      obtain ⟨heq, rfl⟩ := List.cons.inj (hout.symm.trans hout')
      obtain ⟨-, rfl⟩ := Prod.mk.inj heq
      exact ⟨hin, rfl, hok, fun hrefused hd => (hsure hd).2 hrefused⟩
    | cons b before =>
      obtain ⟨rfl, -⟩ := List.cons.inj (hout.symm.trans hout')
      exact absurd (hbefore _ List.mem_cons_self) (lt_irrefl _)

theorem Inv.answer {promise : ℕ} {ok : Bool} {outbox : List (ℕ × Bool)} (h : s.Inv)
    (hout : s.outbox = (promise, ok) :: outbox) (hsure : s.Sure .answer) :
    ({ s with outbox := outbox }.answer promise ok).Inv := by
  unfold WatchlistSync.answer
  split
  · next hs => exact h.drop hout fun first rest hs' => by rw [show s.sends = [] from hs] at hs'; cases hs'
  · next send rest hs =>
    have hs : s.sends = send :: rest := hs
    split
    · next hne =>
      refine h.drop hout fun first rest' hs' => ?_
      obtain ⟨rfl, -⟩ := List.cons.inj (hs.symm.trans hs')
      exact hne
    · next heq =>
      obtain rfl : send.promise = promise := not_not.1 heq
      obtain ⟨hin, rfl, hok, hrefused⟩ := h.answered hout hs
      split
      · next htrue =>
        -- Acknowledged: the core has the snapshot, which becomes `lastAcked`.
        refine (Inv.settle { s with
          outbox := [], ackedWatchlist := send.snapshot, lastAcked := send.snapshot, doubtful := false }
            true h hs rfl rfl rfl rfl rfl (List.forall_mem_nil _) ?_ (fun _ => ⟨rfl, rfl⟩) fun _ _ _ => rfl).proceed
        exact fun _ => ⟨hin, rfl, hok htrue⟩
      · next hfalse =>
        have hfalse : ok = false := by simpa using hfalse
        refine (Inv.settle { s with outbox := [] } false h hs rfl rfl rfl rfl rfl (List.forall_mem_nil _) ?_ nofun
          fun next hnext heq => ?_).proceed
        · exact fun hd => ⟨hin, rfl, hrefused hfalse hd⟩
        · cases rest with
          | nil => cases hnext
          | cons r rest =>
            obtain rfl := Option.some.inj hnext
            cases hd : s.doubtful with
            | false => rfl
            | true =>
              have hskips : s.SkipsNext := by
                rw [WatchlistSync.SkipsNext, hs]
                exact congrArg some heq
              refine absurd ?_ (hsure hd hskips)
              rw [hout, hs, hfalse]
              rfl

theorem Inv.startSend (h : s.Inv) {target : List WatchItem}
    (hnew : s.inFlight = none → target ≠ s.lastAcked) : (s.startSend target).Inv := by
  have hlast : ({ s with
      promises := s.promises + 1
      inFlight := some ⟨s.promises, target⟩
      calls := s.calls ++ [SyncCall.mk target (some s.promises)] } : WatchlistSync).LastCall
        (s.sends ++ [⟨s.promises, target⟩]) := by
    intro call hcall
    rw [List.getLast?_concat] at hcall
    obtain rfl := Option.some.inj hcall
    rw [List.getLast?_concat]
  have hlt : ∀ {n}, n < s.promises → n < s.promises + 1 := fun hn => by omega
  unfold WatchlistSync.startSend
  split
  · -- Nothing was in flight, so the new send is the only one.
    next hnone =>
    have hs : s.sends = [] := List.getLast?_eq_none_iff.1 (h.flight.symm.trans hnone)
    rw [hs, List.nil_append] at hlast
    refine Released.proceed ⟨rfl, h.idle hs, List.pairwise_singleton _ _, fun r hr => ?_, fun r hr => ?_,
      ⟨fun r hr => hlt (h.older.inbox r hr), fun a ha => hlt (h.older.outbox a ha),
        fun a ha => hlt (h.older.settled a ha)⟩, hlast, fun next hnext heq => ?_⟩
    · obtain rfl := List.mem_singleton.1 hr
      exact Nat.lt_succ_self _
    · obtain rfl := List.mem_singleton.1 hr
      exact ⟨h.older.inbox, h.older.outbox, h.older.settled⟩
    · obtain rfl := Option.some.inj hnext
      exact absurd heq (hnew hnone)
  · next flight hsome =>
    have hne : s.sends ≠ [] := fun hs => by rw [h.flight, hs] at hsome; cases hsome
    refine ⟨(List.getLast?_concat ..).symm, fun hs => absurd hs (by simp), fun first rest hs => ?_, ?_, fun r hr => ?_,
      fun a ha r hr => ?_, ⟨fun r hr => hlt (h.older.inbox r hr), fun a ha => hlt (h.older.outbox a ha),
        fun a ha => hlt (h.older.settled a ha)⟩, hlast⟩
    · -- The send that is awaited is still the first one.
      obtain ⟨first', rest', hs'⟩ := List.exists_cons_of_ne_nil hne
      have hs : s.sends ++ [WatchlistSend.mk s.promises target] = first :: rest := hs
      rw [hs', List.cons_append] at hs
      obtain ⟨rfl, -⟩ := List.cons.inj hs
      cases h.awaits first' rest' hs' with
      | asked before hin hout hbefore hsure => exact .asked before hin hout hbefore hsure
      | answered before ok hin hout hbefore hok hsure => exact .answered before ok hin hout hbefore hok hsure
    · -- Promises are numbered in order, and the new send has the next number.
      show ((s.sends ++ [WatchlistSend.mk s.promises target]).map WatchlistSend.promise).Pairwise (· < ·)
      rw [List.map_append, List.pairwise_append]
      refine ⟨h.sorted, List.pairwise_singleton _ _, fun p hp q hq => ?_⟩
      obtain ⟨r, hr, rfl⟩ := List.mem_map.1 hp
      obtain rfl := List.mem_singleton.1 hq
      exact h.issued r hr
    · rcases List.mem_append.1 hr with hr | hr
      · exact hlt (h.issued r hr)
      · obtain rfl := List.mem_singleton.1 hr
        exact Nat.lt_succ_self _
    · rcases List.mem_append.1 hr with hr | hr
      · exact h.settled a ha r hr
      · obtain rfl := List.mem_singleton.1 hr
        exact h.older.settled a ha

/-- A call that sends nothing is only noted. -/
theorem Inv.note (h : s.Inv) {call : SyncCall}
    (hcall : match s.sends.getLast? with
      | some send => call = ⟨send.snapshot, some send.promise⟩
      | none => call.target = s.lastAcked ∧ s.doubtful = false) :
    ({ s with calls := s.calls ++ [call] } : WatchlistSync).Inv := by
  refine ⟨h.flight, h.idle, fun first rest hs => ?_, h.sorted, h.issued, h.settled,
    ⟨h.older.inbox, h.older.outbox, h.older.settled⟩, fun call' hlast => ?_⟩
  · cases h.awaits first rest hs with
    | asked before hin hout hbefore hsure => exact .asked before hin hout hbefore hsure
    | answered before ok hin hout hbefore hok hsure => exact .answered before ok hin hout hbefore hok hsure
  · rw [List.getLast?_concat] at hlast
    obtain rfl := Option.some.inj hlast
    cases hl : s.sends.getLast? with
    | some send =>
      rw [hl] at hcall
      simp only
      exact hcall
    | none =>
      rw [hl] at hcall
      simp only
      exact fun _ => hcall

theorem Inv.sync (h : s.Inv) {target : List WatchItem} (hsure : s.Sure (.sync target)) :
    (s.syncWatchlist target).Inv := by
  unfold WatchlistSync.syncWatchlist
  split
  · next hnone =>
    split
    · next hequal =>
      have heq := watchlistsEqual_iff.1 hequal
      refine h.note ?_
      rw [← h.flight, hnone]
      exact ⟨heq, hsure hnone heq⟩
    · next hne => exact h.startSend fun _ heq => hne (watchlistsEqual_iff.2 heq)
  · next flight hsome =>
    split
    · next hequal =>
      refine h.note ?_
      rw [← h.flight, hsome, watchlistsEqual_iff.1 hequal]
    · exact h.startSend fun hnone => by rw [hsome] at hnone; cases hnone

theorem Inv.step {s' : WatchlistSync} {e : SyncEvent} (h : s.Inv) (hsure : s.Sure e)
    (hs : s.step e = some s') : s'.Inv := by
  cases e with
  | sync target =>
    obtain rfl := Option.some.inj hs
    exact h.sync hsure
  | timeout =>
    simp only [WatchlistSync.step] at hs
    split at hs
    · cases hs
    · next hsends =>
      obtain rfl := Option.some.inj hs
      exact h.timeout hsends hsure
  | work =>
    simp only [WatchlistSync.step] at hs
    split at hs
    · cases hs
    · next hin =>
      obtain rfl := Option.some.inj hs
      exact h.work hin
  | answer =>
    simp only [WatchlistSync.step] at hs
    split at hs
    · cases hs
    · next hout =>
      obtain rfl := Option.some.inj hs
      exact h.answer hout hsure

theorem connected_inv (w : Watchlist) : (connected w).Inv where
  flight := rfl
  idle _ _ := ⟨rfl, rfl, rfl⟩
  awaits _ _ := nofun
  sorted := List.Pairwise.nil
  issued _ := nofun
  settled _ := nofun
  older := ⟨nofun, nofun, nofun⟩
  last _ := nofun

/-- **Watchlist agreement**, in every run in which no target is skipped in doubt. -/
theorem watchlist_agrees (w : Watchlist) (events : List SyncEvent) (s : WatchlistSync)
    (hsure : Along step Sure (connected w) events) (hrun : run step (connected w) events = some s) :
    s.Agrees := by
  have h : s.Inv := run_inv_of (fun _ _ _ hi hc hs => hi.step hc hs) (connected_inv w) hsure hrun
  intro call hlast hresolved hquiet
  obtain ⟨hs, -, -⟩ := hquiet
  have hcall := h.last call hlast
  rw [hs] at hcall
  obtain ⟨htarget, hd⟩ := hcall hresolved
  rw [htarget]
  exact (h.idle hs hd).2.2

/-- A request times out, and the one after it is acknowledged. -/
def lateThenSynced : List SyncEvent :=
  [.sync [⟨"AAPL.US", true⟩], .timeout, .sync [⟨"TSLA.US", true⟩], .work, .work, .answer, .answer]

theorem watchlist_agrees_late :
    ∃ s, run step (connected {}) lateThenSynced = some s ∧ s.Agrees := by
  have hsome : (run step (connected {}) lateThenSynced).isSome := by decide +kernel
  obtain ⟨s, hs⟩ := Option.isSome_iff_exists.1 hsome
  exact ⟨s, hs, watchlist_agrees {} lateThenSynced s (by decide +kernel) hs⟩

/-- A request times out, and the list from before it is synced again. -/
def lateThenBack : List SyncEvent :=
  [.sync [⟨"AAPL.US", true⟩], .timeout, .sync [], .work, .answer]

/-- The second sync is skipped, and the core keeps the first target. -/
theorem skipped_in_doubt :
    ∃ s, run step (connected {}) lateThenBack = some s ∧ ¬ s.Agrees := by
  have hsome : (run step (connected {}) lateThenBack).isSome := by decide +kernel
  obtain ⟨s, hs⟩ := Option.isSome_iff_exists.1 hsome
  refine ⟨s, hs, fun h => ?_⟩
  have hlast : (run step (connected {}) lateThenBack).map (fun s => s.calls.getLast?) =
      some (some ⟨[], none⟩) := by decide +kernel
  have hquiet : (run step (connected {}) lateThenBack).map (fun s => (s.sends, s.inbox, s.outbox)) =
      some ([], [], []) := by decide +kernel
  have hcore : (run step (connected {}) lateThenBack).map (fun s => s.core.list) =
      some [⟨"AAPL.US", true⟩] := by decide +kernel
  rw [hs] at hlast hquiet hcore
  simp only [Option.map_some, Option.some.injEq, Prod.mk.injEq] at hlast hquiet hcore
  have := h _ hlast nofun hquiet
  rw [hcore] at this
  cases this

end WatchlistSync

end MarketSentinel.Extension
