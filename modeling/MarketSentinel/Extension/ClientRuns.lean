import MarketSentinel.Extension.Client

/-!
# Requests settle once

What one event can do to the pending requests: nothing (`Quiet`), the settlement of one of them
(`Settles`), of all of them, or a new one.

* `dispatchLine_cases`: a line settles at most the request it names.
* `Inv.of_step`, `inv_after`: the pending table and the timers stay in step.
* `requests_settle_once`: every promise is settled once, or is pending with its timer armed.
-/

namespace MarketSentinel.Extension

open Lib

namespace IpcClient

variable {c c' : IpcClient} {parse : String → Option Json}

/-! ## What a line does -/

/-- Nothing is settled, and no request is made. -/
structure Quiet (c c' : IpcClient) : Prop where
  pending : c'.pending = c.pending
  timers : c'.timers = c.timers
  settlements : c'.settlements = c.settlements
  requests : c'.requests = c.requests
  seq : c'.seq = c.seq
  timersSet : c'.timersSet = c.timersSet
  closed : c'.closed = c.closed
  received : c.received ⊆ c'.received

/-- The promise of a pending request is settled, and the request and its timer are dropped. -/
structure Settles (c c' : IpcClient) (id : String) (p : PendingRequest) (s : Settlement) : Prop where
  found : c.pending.get? id = some p
  pending : c'.pending = c.pending.pop id
  timers : c'.timers = c.timers.pop p.timer
  settlements : c'.settlements = c.settlements ++ [(p.promise, s)]
  requests : c'.requests = c.requests
  seq : c'.seq = c.seq
  timersSet : c'.timersSet = c.timersSet
  closed : c'.closed = c.closed
  received : c.received ⊆ c'.received
  answers : ∀ m, s = .resolved m → m ∈ c'.received ∧ m.requestId = some id ∧ m.type = p.expectedType

/-- Handlers settle nothing. -/
theorem quiet_deliver (c : IpcClient) (kind : HandlerKind) (d : Delivery) : c.Quiet (c.deliver kind d) :=
  ⟨rfl, rfl, rfl, rfl, rfl, rfl, rfl, fun _ h => h⟩

/-- A request that is finished is settled once. -/
theorem settles_finish {id : String} {p : PendingRequest} (h : c.pending.get? id = some p)
    {s : Settlement} (hs : ∀ m, s = .resolved m → m ∈ c.received ∧ m.requestId = some id ∧
      m.type = p.expectedType) : c.Settles ((c.clearPending id).settle p.promise s) id p s := by
  have hclear : c.clearPending id = { c.clearTimeout p.timer with pending := c.pending.pop id } := by
    simp only [clearPending, h]
  rw [hclear]
  exact ⟨h, rfl, rfl, rfl, rfl, rfl, rfl, rfl, fun _ hm => hm, hs⟩

/-- A request that is rejected is settled once. -/
theorem settles_reject {id : String} {p : PendingRequest} (h : c.pending.get? id = some p)
    (e : ClientError) : c.Settles (c.rejectPending id e) id p (.rejected e) := by
  have hreject : c.rejectPending id e = (c.clearPending id).settle p.promise (.rejected e) := by
    simp only [rejectPending, h]
  rw [hreject]
  exact settles_finish h nofun

/-- What the part for responses does with a message that was received. -/
theorem dispatchResponse_cases {m : CoreMessage} (hm : m ∈ c.received) :
    c.Quiet (c.dispatchResponse m) ∨
      ∃ id p s, m.requestId = some id ∧ c.Settles (c.dispatchResponse m) id p s := by
  unfold dispatchResponse
  cases hfound : m.requestId.bind fun id => (c.pending.get? id).map fun pending => (id, pending) with
  | none =>
    left
    cases m <;> exact quiet_deliver _ _ _
  | some entry =>
    right
    obtain ⟨id, hid, hpending⟩ := Option.bind_eq_some_iff.1 hfound
    obtain ⟨p, hp, rfl⟩ := Option.map_eq_some_iff.1 hpending
    -- An error rejects; so does a message of another type than the expected one.
    have hother : ∃ s, c.Settles
        (if m.type ≠ p.expectedType then
          c.rejectPending id (.protocol "unexpected_type"
            ("expected " ++ p.expectedType.value ++ ", got " ++ m.type.value) (some id))
        else (c.clearPending id).settle p.promise (.resolved m)) id p s := by
      by_cases htype : m.type ≠ p.expectedType
      · rw [if_pos htype]
        exact ⟨_, settles_reject hp _⟩
      · rw [if_neg htype]
        refine ⟨_, settles_finish hp ?_⟩
        intro m' heq
        cases heq
        exact ⟨hm, hid, not_not.1 htype⟩
    cases m
    case error _ code text => exact ⟨id, p, _, hid, settles_reject hp _⟩
    all_goals
      obtain ⟨s, hs⟩ := hother
      exact ⟨id, p, s, hid, hs⟩

theorem Settles.of_received {id : String} {p : PendingRequest} {s : Settlement} {m : CoreMessage}
    (h : Settles { c with received := c.received ++ [m] } c' id p s) : c.Settles c' id p s :=
  ⟨h.found, h.pending, h.timers, h.settlements, h.requests, h.seq, h.timersSet, h.closed,
    fun _ hm => h.received (List.mem_append_left _ hm), h.answers⟩

theorem Quiet.of_received {m : CoreMessage} (h : Quiet { c with received := c.received ++ [m] } c') :
    c.Quiet c' :=
  ⟨h.pending, h.timers, h.settlements, h.requests, h.seq, h.timersSet, h.closed,
    fun _ hm => h.received (List.mem_append_left _ hm)⟩

/-- **A message settles the request with its id, or nothing.** -/
theorem dispatchMessage_cases (c : IpcClient) (m : CoreMessage) :
    c.Quiet (c.dispatchMessage m) ∨
      ∃ id p s, m.requestId = some id ∧ c.Settles (c.dispatchMessage m) id p s := by
  have hresponse := dispatchResponse_cases (c := { c with received := c.received ++ [m] }) (m := m)
    (by simp)
  have hlift : ∀ c', (Quiet { c with received := c.received ++ [m] } c' ∨ ∃ id p s,
      m.requestId = some id ∧ Settles { c with received := c.received ++ [m] } c' id p s) →
      c.Quiet c' ∨ ∃ id p s, m.requestId = some id ∧ c.Settles c' id p s := by
    rintro c' (hq | ⟨id, p, s, hid, hs⟩)
    · exact .inl hq.of_received
    · exact .inr ⟨id, p, s, hid, hs.of_received⟩
  unfold dispatchMessage
  apply hlift
  split
  · exact .inl (quiet_deliver _ _ _)
  · exact .inl (quiet_deliver _ _ _)
  · exact hresponse

/-- **A line settles at most the request it names.** -/
theorem dispatchLine_cases (c : IpcClient) (raw : Option Json) :
    c.Quiet (c.dispatchLine raw) ∨
      ∃ id p s, raw.bind (fun raw => peekRequestId (some raw)) = some id ∧
        c.Settles (c.dispatchLine raw) id p s := by
  cases raw with
  | none => exact .inl (quiet_deliver _ _ _)
  | some raw =>
    rw [Option.bind_some]
    unfold dispatchLine
    dsimp only
    cases hparse : parseCoreMessage raw with
    | ok m =>
      rcases c.dispatchMessage_cases m with hq | ⟨id, p, s, hid, hs⟩
      · exact .inl hq
      · exact .inr ⟨id, p, s, (parseCoreMessage_requestId hparse).symm.trans hid, hs⟩
    | error f =>
      -- A line that does not parse is still attributed, by the id that can be read off it.
      have hid : f.requestId.or (peekRequestId (some raw)) = peekRequestId (some raw) := by
        rw [parseCoreMessage_error hparse, Option.or_self]
      dsimp only
      rw [hid]
      cases hpeek : peekRequestId (some raw) with
      | none => exact .inl (quiet_deliver _ _ _)
      | some id =>
        dsimp only
        split
        · rename_i hsome
          obtain ⟨p, hp⟩ := Option.isSome_iff_exists.1 hsome
          exact .inr ⟨id, p, _, rfl, settles_reject hp _⟩
        · exact .inl (quiet_deliver _ _ _)

/-! ## The invariant -/

/-- The pending table, the timers and the settlements are in step. -/
structure Inv (c : IpcClient) : Prop where
  /-- A pending request has its timer armed, and its promise is not settled. -/
  pending : ∀ id p, c.pending.get? id = some p → c.settled p.promise = 0 ∧
    (∃ r, c.requests[p.promise]? = some r ∧ r.requestId = some id ∧
      p.expectedType = expectedResponse r.type) ∧
    ∃ ms, c.timers.get? p.timer = some ⟨id, p.promise, ms⟩
  timers : ∀ t timer, c.timers.get? t = some timer → t < c.timersSet ∧
    ∃ p, c.pending.get? timer.requestId = some p ∧ p.timer = t ∧ p.promise = timer.promise
  ids : ∀ r id, r ∈ c.requests → r.requestId = some id → ∃ n ≤ c.seq, id = defaultId n
  waits : ∀ i, i < c.requests.length → c.settled i = 0 →
    ∃ id p, c.pending.get? id = some p ∧ p.promise = i
  once : ∀ i, c.settled i ≤ 1
  known : ∀ i, c.settled i ≠ 0 → i < c.requests.length
  closed : c.closed = true → c.pending = .empty
  resolved : ∀ i m, (i, .resolved m) ∈ c.settlements → m ∈ c.received ∧
    ∃ r id, c.requests[i]? = some r ∧ r.requestId = some id ∧ m.requestId = some id ∧
      m.type = expectedResponse r.type

/-- A settlement is counted for its promise. -/
theorem settled_append (h : c'.settlements = c.settlements ++ [(j, s)]) (i : ℕ) :
    c'.settled i = c.settled i + if j = i then 1 else 0 := by
  unfold settled
  rw [h, List.map_append, List.count_append]
  simp [List.count_singleton]

/-- What settles nothing keeps the invariant. -/
theorem Inv.of_quiet (h : c.Inv) (hq : c.Quiet c') : c'.Inv := by
  have hsettled : ∀ i, c'.settled i = c.settled i := fun i => by simp only [settled, hq.settlements]
  refine ⟨?_, ?_, ?_, ?_, ?_, ?_, ?_, ?_⟩
  · simpa only [hq.pending, hq.timers, hq.requests, hsettled] using h.pending
  · simpa only [hq.pending, hq.timers, hq.timersSet] using h.timers
  · simpa only [hq.requests, hq.seq] using h.ids
  · simpa only [hq.pending, hq.requests, hsettled] using h.waits
  · simpa only [hsettled] using h.once
  · simpa only [hq.requests, hsettled] using h.known
  · simpa only [hq.pending, hq.closed] using h.closed
  · intro i m hm
    rw [hq.settlements] at hm
    obtain ⟨hr, hrest⟩ := h.resolved i m hm
    rw [hq.requests]
    exact ⟨hq.received hr, hrest⟩

/-- Two pending requests with one promise are one. -/
theorem Inv.pending_inj (h : c.Inv) {id id' : String} {p p' : PendingRequest}
    (hp : c.pending.get? id = some p) (hp' : c.pending.get? id' = some p')
    (heq : p.promise = p'.promise) : id = id' := by
  obtain ⟨-, ⟨r, hr, hid, -⟩, -⟩ := h.pending id p hp
  obtain ⟨-, ⟨r', hr', hid', -⟩, -⟩ := h.pending id' p' hp'
  rw [heq, hr'] at hr
  cases hr
  exact Option.some.inj (hid.symm.trans hid')

/-- Two pending requests with one timer are one. -/
theorem Inv.timer_inj (h : c.Inv) {id id' : String} {p p' : PendingRequest}
    (hp : c.pending.get? id = some p) (hp' : c.pending.get? id' = some p')
    (heq : p.timer = p'.timer) : id = id' := by
  obtain ⟨-, -, ms, hms⟩ := h.pending id p hp
  obtain ⟨-, -, ms', hms'⟩ := h.pending id' p' hp'
  rw [heq, hms'] at hms
  exact (congrArg RequestTimer.requestId (Option.some.inj hms)).symm

/-- So does what settles a pending request. -/
theorem Inv.of_settles {id : String} {p : PendingRequest} {s : Settlement} (h : c.Inv)
    (hs : c.Settles c' id p s) : c'.Inv := by
  have hcount := settled_append hs.settlements
  obtain ⟨hzero, ⟨r, hr, hrid, hrtype⟩, -⟩ := h.pending id p hs.found
  -- What was pending under the id is settled now, once; the rest is as before.
  have hlookup : ∀ id', c'.pending.get? id' = if id' = id then none else c.pending.get? id' := by
    intro id'
    rw [hs.pending, Dict.get?_pop]
  refine ⟨?_, ?_, ?_, ?_, ?_, ?_, ?_, ?_⟩
  · intro id' p' hp'
    rw [hlookup] at hp'
    split at hp'
    · cases hp'
    rename_i hne
    obtain ⟨h0, hreq, ms, hms⟩ := h.pending id' p' hp'
    -- Another pending request has another promise and another timer.
    have hpromise : p.promise ≠ p'.promise := fun heq => hne (h.pending_inj hp' hs.found heq.symm)
    have htimer : p'.timer ≠ p.timer := fun heq => hne (h.timer_inj hp' hs.found heq)
    rw [hcount, if_neg hpromise, hs.requests, hs.timers, Dict.get?_pop_ne _ htimer]
    exact ⟨h0, hreq, ms, hms⟩
  · intro t timer ht
    rw [hs.timers, Dict.get?_pop] at ht
    split at ht
    · cases ht
    rename_i hne
    obtain ⟨hlt, p', hp', htimer, hpromise⟩ := h.timers t timer ht
    rw [hs.timersSet]
    refine ⟨hlt, p', ?_, htimer, hpromise⟩
    rw [hlookup, if_neg]
    · exact hp'
    · intro heq
      rw [heq, hs.found] at hp'
      cases hp'
      exact hne htimer.symm
  · rw [hs.requests, hs.seq]
    exact h.ids
  · intro i hi h0
    rw [hcount] at h0
    rw [hs.requests] at hi
    -- A promise that is not settled is not the one that was settled just now.
    have hne : p.promise ≠ i := fun heq => by rw [if_pos heq] at h0; omega
    rw [if_neg hne] at h0
    obtain ⟨id', p', hp', hi'⟩ := h.waits i hi h0
    refine ⟨id', p', ?_, hi'⟩
    rw [hlookup, if_neg]
    · exact hp'
    · rintro rfl
      rw [hs.found] at hp'
      cases hp'
      exact hne hi'
  · intro i
    rw [hcount]
    have hi := h.once i
    by_cases heq : p.promise = i
    · subst heq
      rw [if_pos rfl]
      omega
    · rw [if_neg heq]
      omega
  · intro i hi
    rw [hcount] at hi
    rw [hs.requests]
    by_cases heq : p.promise = i
    · exact heq ▸ (List.getElem?_eq_some_iff.1 hr).1
    · rw [if_neg heq] at hi
      exact h.known i hi
  · intro hclosed
    have hempty := h.closed (hs.closed ▸ hclosed)
    have hfound := hs.found
    rw [hempty] at hfound
    cases hfound
  · intro i m hm
    rw [hs.settlements] at hm
    rw [hs.requests]
    rcases List.mem_append.1 hm with hm | hm
    · obtain ⟨hr, hrest⟩ := h.resolved i m hm
      exact ⟨hs.received hr, hrest⟩
    · obtain ⟨rfl, hres⟩ := Prod.mk.inj (List.mem_singleton.1 hm)
      obtain ⟨hreceived, hid, htype⟩ := hs.answers m hres.symm
      exact ⟨hreceived, r, id, hr, hrid, hid, htype.trans hrtype⟩

/-- So does a line. -/
theorem Inv.dispatchLine (h : c.Inv) (raw : Option Json) : (c.dispatchLine raw).Inv := by
  rcases c.dispatchLine_cases raw with hq | ⟨id, p, s, -, hs⟩
  · exact h.of_quiet hq
  · exact h.of_settles hs

/-- So does a chunk. -/
theorem Inv.feed (h : c.Inv) (parse : String → Option Json) (chunk : String) :
    (c.feed parse chunk).Inv := by
  unfold IpcClient.feed
  generalize JsonlDecoder.push c.buffer chunk = pushed
  have hstart : Inv { c with buffer := pushed.2 } :=
    h.of_quiet ⟨rfl, rfl, rfl, rfl, rfl, rfl, rfl, fun _ hm => hm⟩
  exact List.foldlRecOn pushed.1 _ hstart fun c hc line _ => hc.dispatchLine (parse line)

/-- So does a timer. -/
theorem Inv.onTimeout (h : c.Inv) (timer : ℕ) : (c.onTimeout timer).Inv := by
  unfold IpcClient.onTimeout
  cases ht : c.timers.get? timer with
  | none => exact h
  | some t =>
    obtain ⟨-, p, hp, rfl, hpromise⟩ := h.timers timer t ht
    refine @Inv.of_settles _ _ t.requestId p (.rejected (.timeout t.requestId t.timeoutMs)) h
      ⟨hp, rfl, rfl, ?_, rfl, rfl, rfl, rfl, fun _ hm => hm, nofun⟩
    rw [hpromise]
    rfl

/-! ## A new request -/

/-- The ids that the client makes are all different. -/
theorem defaultId_inj {m n : ℕ} (h : defaultId m = defaultId n) : m = n := by
  have hrepr : m.repr = n.repr := String.append_right_inj _ |>.1 h
  exact Nat.repr_inj.1 hrepr

/-- No request has had the next id. -/
theorem Inv.next_unused (h : c.Inv) {r : RequestRecord} (hr : r ∈ c.requests) :
    r.requestId ≠ some (defaultId (c.seq + 1)) := by
  intro heq
  obtain ⟨n, hn, hid⟩ := h.ids r _ hr heq
  have := defaultId_inj hid
  omega

/-- No pending request has the id that comes next. -/
theorem Inv.pending_id_ne (h : c.Inv) {id : String} {p : PendingRequest}
    (hp : c.pending.get? id = some p) : id ≠ defaultId (c.seq + 1) := by
  obtain ⟨-, ⟨r, hr, hid, -⟩, -⟩ := h.pending id p hp
  rintro rfl
  exact h.next_unused (List.mem_of_getElem? hr) hid

/-- The promises of pending requests have been given out. -/
theorem Inv.pending_promise_lt (h : c.Inv) {id : String} {p : PendingRequest}
    (hp : c.pending.get? id = some p) : p.promise < c.requests.length := by
  obtain ⟨-, ⟨r, hr, -, -⟩, -⟩ := h.pending id p hp
  exact (List.getElem?_eq_some_iff.1 hr).1

/-- The promise of the next request is not settled. -/
theorem Inv.settled_next (h : c.Inv) : c.settled c.requests.length = 0 := by
  by_contra hne
  have := h.known _ hne
  omega

theorem getElem?_append_of_some {α : Type*} {l : List α} {i : ℕ} {x : α} (h : l[i]? = some x)
    (l' : List α) : (l ++ l')[i]? = some x := by
  rw [List.getElem?_append_left (List.getElem?_eq_some_iff.1 h).1]
  exact h

/-- A client that is closed rejects. -/
theorem request_of_closed (h : c.closed = true) (body : HostCommandBody) :
    c.request body = settle { c with requests := c.requests ++ [⟨body.type, none⟩] } c.requests.length
      (.rejected (.disconnected "ipc disconnected")) := by
  unfold request
  rw [if_pos h]

/-- A closed client rejects at once. -/
theorem Inv.request_closed (h : c.Inv) (hclosed : c.closed = true) (body : HostCommandBody) :
    (c.request body).Inv := by
  rw [request_of_closed hclosed]
  have hempty := h.closed hclosed
  -- The promise of the request is rejected at once.
  have hcount := @settled_append c
    (settle { c with requests := c.requests ++ [⟨body.type, none⟩] } c.requests.length
      (.rejected (.disconnected "ipc disconnected"))) c.requests.length _ rfl
  refine ⟨?_, ?_, ?_, ?_, ?_, ?_, fun _ => hempty, ?_⟩
  · intro id p hp
    have hp : c.pending.get? id = some p := hp
    rw [hempty] at hp
    cases hp
  · exact h.timers
  · intro r id hr hid
    rcases List.mem_append.1 hr with hr | hr
    · exact h.ids r id hr hid
    · obtain rfl := List.mem_singleton.1 hr
      cases hid
  · intro i hi h0
    rw [hcount] at h0
    have hne : c.requests.length ≠ i := fun heq => by rw [if_pos heq] at h0; omega
    rw [if_neg hne] at h0
    have hlt : i < (c.requests ++ [(⟨body.type, none⟩ : RequestRecord)]).length := hi
    rw [List.length_append, List.length_singleton] at hlt
    exact h.waits i (by omega) h0
  · intro i
    rw [hcount]
    by_cases heq : c.requests.length = i
    · rw [if_pos heq, ← heq, h.settled_next]
    · rw [if_neg heq]
      exact h.once i
  · intro i hi
    rw [hcount] at hi
    show i < (c.requests ++ [(⟨body.type, none⟩ : RequestRecord)]).length
    rw [List.length_append, List.length_singleton]
    by_cases heq : c.requests.length = i
    · omega
    · rw [if_neg heq] at hi
      have := h.known i hi
      omega
  · intro i m hm
    rcases List.mem_append.1 hm with hm | hm
    · obtain ⟨hreceived, r, id, hr, hrest⟩ := h.resolved i m hm
      exact ⟨hreceived, r, id, getElem?_append_of_some hr _, hrest⟩
    · cases List.mem_singleton.1 hm

/-- A client that is open arms a timer and waits. -/
theorem request_of_open (h : c.closed = false) (body : HostCommandBody) : ∃ written, c.request body =
    { c with
      seq := c.seq + 1
      timersSet := c.timersSet + 1
      requests := c.requests ++ [⟨body.type, some (defaultId (c.seq + 1))⟩]
      timers := c.timers.set c.timersSet
        ⟨defaultId (c.seq + 1), c.requests.length, c.timeoutMs body.type⟩
      pending := c.pending.set (defaultId (c.seq + 1))
        ⟨expectedResponse body.type, c.requests.length, c.timersSet⟩
      written := written } := by
  unfold request
  rw [if_neg (by rw [h]; decide)]
  exact ⟨_, rfl⟩

/-- An open client makes the request pending, under a new id. -/
theorem Inv.request_open (h : c.Inv) (hopen : c.closed = false) (body : HostCommandBody) :
    (c.request body).Inv := by
  obtain ⟨written, heq⟩ := request_of_open hopen body
  rw [heq]
  refine ⟨?_, ?_, ?_, ?_, h.once, ?_, ?_, ?_⟩
  · intro id p hp
    dsimp only at hp ⊢
    rw [Dict.get?_set] at hp
    split at hp
    · rename_i hid
      cases hp
      -- The new request is the last one, and nothing has settled its promise yet.
      have hlast : (c.requests ++ [⟨body.type, some id⟩])[c.requests.length]? =
          some ⟨body.type, some id⟩ := List.getElem?_concat_length
      rw [← hid]
      exact ⟨h.settled_next, ⟨_, hlast, rfl, rfl⟩, _, Dict.get?_set_self _ _ _⟩
    · obtain ⟨h0, ⟨r, hr, hrest⟩, ms, hms⟩ := h.pending id p hp
      -- The new timer is none of those that run.
      have hne : p.timer ≠ c.timersSet := (h.timers _ _ hms).1.ne
      exact ⟨h0, ⟨r, getElem?_append_of_some hr _, hrest⟩, ms, by rw [Dict.get?_set_ne _ hne]; exact hms⟩
  · intro t timer ht
    dsimp only at ht ⊢
    rw [Dict.get?_set] at ht
    split at ht
    · rename_i hid
      cases ht
      exact ⟨by omega, _, Dict.get?_set_self _ _ _, hid.symm, rfl⟩
    · obtain ⟨hlt, p, hp, hrest⟩ := h.timers t timer ht
      exact ⟨by omega, p, by rw [Dict.get?_set_ne _ (h.pending_id_ne hp)]; exact hp, hrest⟩
  · intro r id hr hid
    rcases List.mem_append.1 hr with hr | hr
    · obtain ⟨n, hn, heq⟩ := h.ids r id hr hid
      exact ⟨n, Nat.le_succ_of_le hn, heq⟩
    · obtain rfl := List.mem_singleton.1 hr
      exact ⟨c.seq + 1, le_rfl, (Option.some.inj hid).symm⟩
  · intro i hi h0
    dsimp only at hi ⊢
    rw [List.length_append, List.length_singleton] at hi
    by_cases hlt : i < c.requests.length
    · obtain ⟨id, p, hp, hrest⟩ := h.waits i hlt h0
      exact ⟨id, p, by rw [Dict.get?_set_ne _ (h.pending_id_ne hp)]; exact hp, hrest⟩
    · exact ⟨_, _, Dict.get?_set_self _ _ _, by dsimp only; omega⟩
  · intro i hi
    have := h.known i hi
    dsimp only
    rw [List.length_append]
    omega
  · intro hclosed
    rw [show c.closed = true from hclosed] at hopen
    cases hopen
  · intro i m hm
    obtain ⟨hreceived, r, id, hr, hrest⟩ := h.resolved i m hm
    exact ⟨hreceived, r, id, getElem?_append_of_some hr _, hrest⟩

theorem Inv.request (h : c.Inv) (body : HostCommandBody) : (c.request body).Inv := by
  cases hclosed : c.closed
  · exact h.request_open hclosed body
  · exact h.request_closed hclosed body

/-! ## The end -/

/-- What the loop of `rejectAll` does to a client whose table is cleared. -/
theorem foldl_rejectItem (e : ClientError) : ∀ (items : List PendingRequest) (c : IpcClient),
    (items.foldl (rejectItem e) c).pending = c.pending ∧
      (items.foldl (rejectItem e) c).settlements =
        c.settlements ++ items.map (fun p => (p.promise, .rejected e)) ∧
      (∀ t, (items.foldl (rejectItem e) c).timers.get? t =
        if t ∈ items.map PendingRequest.timer then none else c.timers.get? t) ∧
      (items.foldl (rejectItem e) c).requests = c.requests ∧
      (items.foldl (rejectItem e) c).seq = c.seq ∧
      (items.foldl (rejectItem e) c).received = c.received := by
  intro items
  induction items with
  | nil => intro c; simp
  | cons item items ih =>
    intro c
    rw [List.foldl_cons]
    obtain ⟨hpending, hsettlements, htimers, hrest⟩ := ih (rejectItem e c item)
    refine ⟨hpending, ?_, ?_, hrest⟩
    · rw [hsettlements]
      simp [rejectItem, settle, clearTimeout]
    · intro t
      have hpop : (rejectItem e c item).timers = c.timers.pop item.timer := rfl
      rw [htimers t, hpop, Dict.get?_pop]
      simp only [List.map_cons, List.mem_cons]
      -- The timer of the first request is cleared, whether or not a later one has the same.
      by_cases h1 : t = item.timer
      · rw [if_pos h1, ite_self, if_pos (.inl h1)]
      · rw [if_neg h1]
        simp only [h1, false_or]

/-- The promises of the pending requests. -/
def waiting (c : IpcClient) : List ℕ := c.pending.values.map PendingRequest.promise

/-- The promises that wait are those of the pending requests. -/
theorem mem_waiting {i : ℕ} : i ∈ c.waiting ↔ ∃ id p, c.pending.get? id = some p ∧ p.promise = i := by
  unfold waiting
  rw [List.mem_map]
  constructor
  · rintro ⟨p, hp, hi⟩
    obtain ⟨id, hid⟩ := Dict.mem_values.1 hp
    exact ⟨id, p, hid, hi⟩
  · rintro ⟨id, p, hid, hi⟩
    exact ⟨p, Dict.mem_values.2 ⟨id, hid⟩, hi⟩

/-- No promise waits twice. -/
theorem Inv.waiting_nodup (h : c.Inv) : c.waiting.Nodup := by
  unfold waiting Dict.values
  rw [List.map_map]
  apply List.Nodup.map_on
  · intro e he e' he' heq
    have hp := Dict.mem_entries.1 he
    have hp' := Dict.mem_entries.1 he'
    have hid := h.pending_inj hp hp' heq
    rw [hid, hp'] at hp
    exact Prod.ext hid (Option.some.inj hp).symm
  · exact List.Nodup.of_map _ c.pending.nodup

/-- Everything that was pending is rejected, once. -/
theorem rejectAll_spec (h : c.Inv) (e : ClientError) :
    (c.rejectAll e).pending = .empty ∧ (∀ t, (c.rejectAll e).timers.get? t = none) ∧
      (c.rejectAll e).settlements = c.settlements ++ c.waiting.map (fun i => (i, .rejected e)) ∧
      (c.rejectAll e).requests = c.requests ∧ (c.rejectAll e).seq = c.seq ∧
      (c.rejectAll e).received = c.received := by
  obtain ⟨hpending, hsettlements, htimers, hrequests, hseq, hreceived⟩ :=
    foldl_rejectItem e c.pending.values { c with pending := .empty }
  refine ⟨hpending, ?_, ?_, hrequests, hseq, hreceived⟩
  · intro t
    refine (htimers t).trans ?_
    split
    · rfl
    rename_i hnot
    cases ht : c.timers.get? t with
    | none => rfl
    | some timer =>
      obtain ⟨-, p, hp, htimer, -⟩ := h.timers t timer ht
      exact absurd (List.mem_map.2 ⟨p, Dict.mem_values.2 ⟨_, hp⟩, htimer⟩) hnot
  · refine hsettlements.trans ?_
    unfold waiting
    rw [List.map_map]
    rfl

/-- A client that is closed after `rejectAll`. -/
theorem Inv.close (h : c.Inv) (e : ClientError) (handlers : HandlerKind → List ℕ) :
    Inv { c.rejectAll e with closed := true, handlers := handlers } := by
  obtain ⟨hpending, htimers, hsettlements, hrequests, hseq, hreceived⟩ := rejectAll_spec h e
  have hcount : ∀ i, settled { c.rejectAll e with closed := true, handlers := handlers } i =
      c.settled i + c.waiting.count i := by
    intro i
    unfold settled
    dsimp only
    rw [hsettlements, List.map_append, List.count_append, List.map_map]
    congr 2
    exact List.map_id _
  -- What waits is not settled.
  have hwaits : ∀ i ∈ c.waiting, c.settled i = 0 := by
    intro i hi
    obtain ⟨id, p, hp, rfl⟩ := mem_waiting.1 hi
    exact (h.pending id p hp).1
  refine ⟨?_, ?_, ?_, ?_, ?_, ?_, fun _ => hpending, ?_⟩
  · intro id p hp
    rw [show _ = _ from congrArg (fun d => d.get? id) hpending] at hp
    cases hp
  · intro t timer ht
    rw [show _ = none from htimers t] at ht
    cases ht
  · intro r id hr
    dsimp only at hr ⊢
    rw [hrequests] at hr
    rw [hseq]
    exact h.ids r id hr
  · -- A promise that waits for nothing has been settled by `rejectAll`.
    intro i hi h0
    dsimp only at hi
    rw [hrequests] at hi
    rw [hcount] at h0
    obtain ⟨id, p, hp, hpi⟩ := h.waits i hi (by omega)
    have hpos := List.count_pos_iff.2 (mem_waiting.2 ⟨id, p, hp, hpi⟩)
    omega
  · intro i
    rw [hcount]
    by_cases hi : i ∈ c.waiting
    · rw [hwaits i hi, List.count_eq_one_of_mem h.waiting_nodup hi]
    · rw [List.count_eq_zero_of_not_mem hi]
      exact h.once i
  · intro i hi
    dsimp only
    rw [hrequests]
    rw [hcount] at hi
    by_cases hw : i ∈ c.waiting
    · obtain ⟨id, p, hp, rfl⟩ := mem_waiting.1 hw
      exact h.pending_promise_lt hp
    · rw [List.count_eq_zero_of_not_mem hw] at hi
      exact h.known i hi
  · intro i m hm
    dsimp only at hm ⊢
    rw [hsettlements] at hm
    rw [hrequests, hreceived]
    rcases List.mem_append.1 hm with hm | hm
    · exact h.resolved i m hm
    · obtain ⟨j, -, heq⟩ := List.mem_map.1 hm
      cases heq

/-! ## Runs -/

/-- **Every event keeps the invariant.** -/
theorem Inv.of_step (h : c.Inv) (parse : String → Option Json) (e : ClientEvent) :
    (step parse c e).Inv := by
  cases e with
  | request body => exact h.request body
  | feed chunk => exact h.feed parse chunk
  | timeout timer => exact h.onTimeout timer
  | notifyClosed reason => exact h.close (.disconnected reason) _
  | dispose => exact h.close (.disconnected "client disposed") _
  | listen kind handler => exact h.of_quiet ⟨rfl, rfl, rfl, rfl, rfl, rfl, rfl, fun _ hm => hm⟩
  | unlisten kind handler => exact h.of_quiet ⟨rfl, rfl, rfl, rfl, rfl, rfl, rfl, fun _ hm => hm⟩

/-- A new client has it. -/
theorem inv_new (hello default : ℕ) :
    Inv { helloTimeoutMs := hello, defaultTimeoutMs := default } where
  pending := nofun
  timers := nofun
  ids := nofun
  waits := nofun
  once := fun _ => Nat.zero_le _
  known := fun _ hne => absurd rfl hne
  closed := fun _ => rfl
  resolved := nofun

theorem inv_after (parse : String → Option Json) (hello default : ℕ) (events : List ClientEvent) :
    (after parse hello default events).Inv :=
  List.foldlRecOn events _ (inv_new hello default) fun _ hc e _ => hc.of_step parse e

/-- No step opens a client again. -/
theorem closed_step (hclosed : c.closed = true) (parse : String → Option Json) (e : ClientEvent) :
    (step parse c e).closed = true := by
  have hline : ∀ (c : IpcClient) raw, (c.dispatchLine raw).closed = c.closed := by
    intro c raw
    rcases c.dispatchLine_cases raw with hq | ⟨id, p, s, -, hs⟩
    · exact hq.closed
    · exact hs.closed
  cases e with
  | request body =>
    show (c.request body).closed = true
    rw [request_of_closed hclosed]
    exact hclosed
  | feed chunk =>
    show (c.feed parse chunk).closed = true
    unfold IpcClient.feed
    generalize JsonlDecoder.push c.buffer chunk = pushed
    have hstart : IpcClient.closed { c with buffer := pushed.2 } = true := hclosed
    exact List.foldlRecOn (motive := fun c : IpcClient => c.closed = true) pushed.1 _ hstart
      fun c hc line _ => (hline c (parse line)).trans hc
  | timeout timer =>
    show (c.onTimeout timer).closed = true
    unfold onTimeout
    split <;> exact hclosed
  | notifyClosed reason => rfl
  | dispose => rfl
  | listen kind handler => exact hclosed
  | unlisten kind handler => exact hclosed

/-- What is closed stays closed. -/
theorem closed_of_closes {events : List ClientEvent} (h : ∃ e ∈ events, ClientEvent.Closes e) : ∀ c : IpcClient,
    (events.foldl (step parse) c).closed = true := by
  induction events with
  | nil =>
    obtain ⟨e, he, -⟩ := h
    cases he
  | cons e events ih =>
    intro c
    rw [List.foldl_cons]
    by_cases hrest : ∃ e ∈ events, ClientEvent.Closes e
    · exact ih hrest _
    · have hcloses : e.Closes := by
        obtain ⟨e', he', hcl⟩ := h
        rcases List.mem_cons.1 he' with rfl | hmem
        · exact hcl
        · exact absurd ⟨e', hmem, hcl⟩ hrest
      have hc : (step parse c e).closed = true := by
        cases e <;> first | rfl | exact hcloses.elim
      exact List.foldlRecOn (motive := fun c : IpcClient => c.closed = true) events _ hc
        fun c hc e _ => closed_step hc parse e

/-- The promises, the pending table and the timers of a client that is in use. -/
structure SettlesOnce (c : IpcClient) : Prop where
  /-- A promise is settled, once, or its request is pending and the timer is armed. -/
  promises : ∀ i < c.requests.length,
    (c.settled i = 1 ∧ ∀ id p, c.pending.get? id = some p → p.promise ≠ i) ∨
    (c.settled i = 0 ∧ ∃ id p ms, c.pending.get? id = some p ∧ p.promise = i ∧
      c.timers.get? p.timer = some ⟨id, i, ms⟩)
  /-- It is resolved by a message that came, with the id and the type of its request. -/
  resolved : ∀ i m, (i, .resolved m) ∈ c.settlements → m ∈ c.received ∧
    ∃ r id, c.requests[i]? = some r ∧ r.requestId = some id ∧ m.requestId = some id ∧
      m.type = expectedResponse r.type
  /-- A line leaves every request pending that it does not name. -/
  line : ∀ (raw : Option Json) id p, c.pending.get? id = some p →
    raw.bind (fun raw => peekRequestId (some raw)) ≠ some id →
    (c.dispatchLine raw).pending.get? id = some p ∧
      (c.dispatchLine raw).timers.get? p.timer = c.timers.get? p.timer ∧
      (c.dispatchLine raw).settled p.promise = 0
  /-- A client that is closed has nothing pending, and rejects. -/
  closed : c.closed = true → c.pending = .empty ∧ ∀ body,
    (c.request body).settlements = c.settlements ++
        [(c.requests.length, .rejected (.disconnected "ipc disconnected"))] ∧
      (c.request body).pending = .empty ∧ (c.request body).written = c.written

/-- A line without the id leaves a request pending. -/
theorem Inv.line (h : c.Inv) {raw : Option Json} {id : String} {p : PendingRequest}
    (hp : c.pending.get? id = some p)
    (hid : raw.bind (fun raw => peekRequestId (some raw)) ≠ some id) :
    (c.dispatchLine raw).pending.get? id = some p ∧
      (c.dispatchLine raw).timers.get? p.timer = c.timers.get? p.timer ∧
      (c.dispatchLine raw).settled p.promise = 0 := by
  obtain ⟨h0, -, -⟩ := h.pending id p hp
  rcases c.dispatchLine_cases raw with hq | ⟨id', p', s, hid', hs⟩
  · refine ⟨by rw [hq.pending]; exact hp, by rw [hq.timers], ?_⟩
    unfold settled at h0 ⊢
    rw [hq.settlements]
    exact h0
  · have hne : id ≠ id' := fun heq => hid (heq ▸ hid')
    refine ⟨?_, ?_, ?_⟩
    · rw [hs.pending, Dict.get?_pop_ne _ hne]
      exact hp
    · rw [hs.timers, Dict.get?_pop_ne _ fun heq => hne (h.timer_inj hp hs.found heq)]
    · rw [settled_append hs.settlements, if_neg, h0]
      exact fun heq => hne (h.pending_inj hp hs.found heq.symm)

/-- So every request is settled at most once. -/
theorem Inv.settlesOnce (h : c.Inv) : c.SettlesOnce where
  promises := by
    intro i hi
    have honce := h.once i
    by_cases h0 : c.settled i = 0
    · obtain ⟨id, p, hp, rfl⟩ := h.waits i hi h0
      obtain ⟨-, -, ms, hms⟩ := h.pending id p hp
      exact .inr ⟨h0, id, p, ms, hp, rfl, hms⟩
    · left
      refine ⟨by omega, fun id p hp heq => ?_⟩
      have := (h.pending id p hp).1
      rw [heq] at this
      exact h0 this
  resolved := h.resolved
  line := fun _ _ _ hp hid => h.line hp hid
  closed := by
    intro hclosed
    refine ⟨h.closed hclosed, fun body => ?_⟩
    rw [request_of_closed hclosed]
    exact ⟨rfl, h.closed hclosed, rfl⟩

/-- **Requests settle once**, in every interleaving of requests, chunks, timeouts and closes; after a
close nothing is pending, and requests reject. -/
theorem requests_settle_once (parse : String → Option Json) (hello default : ℕ)
    (events : List ClientEvent) : (after parse hello default events).SettlesOnce ∧
      ((∃ e ∈ events, ClientEvent.Closes e) → (after parse hello default events).closed = true) :=
  ⟨(inv_after parse hello default events).settlesOnce, fun h => closed_of_closes h _⟩

end IpcClient

end MarketSentinel.Extension
