import Mathlib.Data.List.Dedup
import MarketSentinel.Lib.Convert
import MarketSentinel.Lib.Machine
import MarketSentinel.MarketData.Normalizer
import MarketSentinel.Telemetry.Recovery
import MarketSentinel.Watchlist.Watchlist

/-!
# The watchlist and its file

`watchlist/watchlist.py` with the file that the constructor reads and every change writes. Memory is changed
before the file is written, a write ends as the environment decides, and what a failed one leaves in the
file is arbitrary.

* `call_effect`: a call is refused, finds its symbol listed, or changes memory and writes.
* `within_call`: no call takes the list beyond its limit.
* `loaded_saved`: a completed write is read back.
* `watchlist_consistent_iff`: over a run, the list keeps its limit, calls that raise leave it alone and the
  file follows it, exactly when the first file keeps the limit, no failing write meets a change, and a symbol
  that is listed is added only when the file is up to date.
-/

namespace MarketSentinel

open Lib Utf8

/-! ## Reading the file -/

section Load

variable (json : JsonModule) (py : Python)

/-- One turn of the loop of `_load`, `none` where it raises. -/
def readItem : Json → Option WatchItem
  | .obj raw => do
    let symbol ← ((← raw.lookup "symbol").pyStr py).toOption
    return { symbol, enabled := ((raw.lookup "enabled").getD (.bool true)).pyBool }
  | _ => none

/-- What `for raw in value` goes over, `none` where it raises. -/
def iterated : Json → Option (List Json)
  | .list xs => some xs
  | .str s => some (s.toList.map fun c => .str (String.singleton c))
  | .obj fields => some (fields.map fun f => .str f.1)
  | _ => none

/-- The items that `_load` reads, in order, from the bytes at the path if there are any. -/
def fileItems : Option Bytes → Option (List WatchItem)
  | none => some []
  | some raw => do
    match ← json.loads (← decode raw) with
    | .obj payload => (← iterated ((payload.lookup "items").getD (.list []))).mapM (readItem py)
    | _ => none

end Load

namespace Watchlist

/-- `self._items[item.symbol] = item`. -/
def put (w : Watchlist) (item : WatchItem) : Watchlist where
  limit := w.limit
  items := w.items.set item.symbol item
  keyed := by
    intro symbol item' hget
    rw [Dict.get?_set] at hget
    split at hget
    · next hs => cases hget; exact hs.symm
    · exact w.keyed symbol item' hget

/-- `del self._items[symbol]`. -/
def delete (w : Watchlist) (symbol : String) : Watchlist where
  limit := w.limit
  items := w.items.pop symbol
  keyed := by
    intro symbol' item hget
    rw [Dict.get?_pop] at hget
    split at hget
    · cases hget
    · exact w.keyed symbol' item hget

/-- The loop of `_load`, on the items that it reads. -/
def fill (w : Watchlist) (items : List WatchItem) : Watchlist := items.foldl put w

/-- The `payload` of `_save`. -/
def payload (w : Watchlist) : Payload :=
  [("items", .list (w.list.map fun item => .obj [("symbol", .str item.symbol), ("enabled", .bool item.enabled)]))]

end Watchlist

/-- A watchlist with the bytes at its path. -/
structure StoredWatchlist where
  path : Option String
  persist : Bool
  watchlist : Watchlist
  file : Option Bytes

/-- How a write ends: completed, or raised with these bytes at the path. -/
inductive WriteOutcome
  | done
  | failed (left : Option Bytes)

inductive WatchCall
  | add (symbol : String)
  | remove (symbol : String)
  | replace (items : List WatchItem)
  | enable (symbol : String)
  | disable (symbol : String)

/-- What a call raises; `write` is the error of the file. -/
inductive WatchCallError
  | rejected (error : WatchlistError)
  | unknown (symbol : String)
  | write
  deriving DecidableEq, Repr

namespace StoredWatchlist

/-- `__init__`, `none` where it raises. -/
def init (json : JsonModule) (py : Python) (path : Option String) (limit : ℤ) (persist : Bool) (file : Option Bytes) :
    Option StoredWatchlist :=
  if persist ∧ path = none then none
  else if persist then
    (fileItems json py file).map fun items => ⟨path, persist, Watchlist.fill { limit := limit } items, file⟩
  else some ⟨path, persist, { limit := limit }, file⟩

section Calls

variable (json : JsonModule) (s : StoredWatchlist)

/-- `_save`, with the error that it raises. -/
def save : WriteOutcome → StoredWatchlist × Option WatchCallError
  | .done =>
    if s.persist = false ∨ s.path = none then (s, none)
    else ({ s with file := some (encode (json.dumps s.watchlist.payload)) }, none)
  | .failed left =>
    if s.persist = false ∨ s.path = none then (s, none) else ({ s with file := left }, some .write)

/-- The list changes in memory, `_save` runs, and the call returns the value. -/
def commit (watchlist : Watchlist) (value : Option WatchItem) (write : WriteOutcome) :
    StoredWatchlist × Except WatchCallError (Option WatchItem) :=
  match ({ s with watchlist := watchlist }).save json write with
  | (s', none) => (s', .ok value)
  | (s', some error) => (s', .error error)

def add (symbol : String) (write : WriteOutcome) : StoredWatchlist × Except WatchCallError (Option WatchItem) :=
  match s.watchlist.items.get? symbol with
  | some existing => (s, .ok (some existing))
  | none =>
    if s.watchlist.limit ≤ s.watchlist.items.entries.length then (s, .error (.rejected (.full s.watchlist.limit)))
    else s.commit json (s.watchlist.put { symbol := symbol }) (some { symbol := symbol }) write

def remove (symbol : String) (write : WriteOutcome) : StoredWatchlist × Except WatchCallError (Option WatchItem) :=
  match s.watchlist.items.get? symbol with
  | none => (s, .error (.unknown symbol))
  | some _ => s.commit json (s.watchlist.delete symbol) none write

def replace (items : List WatchItem) (write : WriteOutcome) :
    StoredWatchlist × Except WatchCallError (Option WatchItem) :=
  match s.watchlist.replace items with
  | .error error => (s, .error (.rejected error))
  | .ok watchlist => s.commit json watchlist none write

/-- `_set_enabled`. -/
def setEnabled (symbol : String) (enabled : Bool) (write : WriteOutcome) :
    StoredWatchlist × Except WatchCallError (Option WatchItem) :=
  match s.watchlist.items.get? symbol with
  | none => (s, .error (.unknown symbol))
  | some item =>
    s.commit json (s.watchlist.put { symbol := item.symbol, enabled := enabled })
      (some { symbol := item.symbol, enabled := enabled }) write

def call (write : WriteOutcome) : WatchCall → StoredWatchlist × Except WatchCallError (Option WatchItem)
  | .add symbol => s.add json symbol write
  | .remove symbol => s.remove json symbol write
  | .replace items => s.replace json items write
  | .enable symbol => s.setEnabled json symbol true write
  | .disable symbol => s.setEnabled json symbol false write

/-- The watchlist as a machine: a step is a call and the end of its write. -/
def step (s : StoredWatchlist) (l : WatchCall × WriteOutcome) : Option StoredWatchlist := some (s.call json l.2 l.1).1

end Calls

end StoredWatchlist

/-! ## The list in memory -/

namespace Watchlist

variable {w w' : Watchlist}

/-- The symbols are unique and at most `limit`. -/
structure Within (w : Watchlist) : Prop where
  unique : (w.list.map (·.symbol)).Nodup
  bounded : (w.list.length : ℤ) ≤ w.limit

/-- The call changes the items. -/
def Changes (w : Watchlist) : WatchCall → Prop
  | .add symbol => symbol ∉ w.items.keys ∧ (w.list.length : ℤ) < w.limit
  | .remove symbol => symbol ∈ w.items.keys
  | .replace items => (items.map (·.symbol)).Nodup ∧ (items.length : ℤ) ≤ w.limit ∧ items ≠ w.list
  | .enable symbol => ∃ item, w.items.get? symbol = some item ∧ item.enabled = false
  | .disable symbol => ∃ item, w.items.get? symbol = some item ∧ item.enabled = true

/-- The call adds a symbol that is listed. -/
def Readds (w : Watchlist) (call : WatchCall) : Prop := ∃ symbol ∈ w.items.keys, call = .add symbol

theorem length_list (w : Watchlist) : w.list.length = w.items.entries.length := List.length_map _

theorem length_keys (w : Watchlist) : w.items.keys.length = w.list.length := by
  rw [← list_symbols, List.length_map]

/-- The items are read off the list. -/
theorem entries_of_list (w : Watchlist) : w.items.entries = w.list.map fun item => (item.symbol, item) := by
  unfold list Dict.values
  rw [List.map_map]
  refine (List.map_id _).symm.trans (List.map_congr_left fun e he => ?_)
  have hsymbol : e.2.symbol = e.1 := w.keyed e.1 e.2 (Dict.mem_entries.1 he)
  exact Prod.ext hsymbol.symm rfl

theorem get?_of_list (h : w.list = w'.list) (symbol : String) : w.items.get? symbol = w'.items.get? symbol := by
  unfold Dict.get?
  rw [entries_of_list, entries_of_list, h]

theorem list_put_new {item : WatchItem} (h : item.symbol ∉ w.items.keys) : (w.put item).list = w.list ++ [item] :=
  Dict.values_set_new h item

theorem length_put_mem {item : WatchItem} (h : item.symbol ∈ w.items.keys) :
    (w.put item).list.length = w.list.length := by
  rw [← length_keys, ← length_keys]
  exact congrArg List.length (Dict.keys_set_mem h item)

theorem length_delete_le (w : Watchlist) (symbol : String) : (w.delete symbol).list.length ≤ w.list.length := by
  rw [← length_keys, ← length_keys]
  exact (Dict.keys_pop w.items symbol).length_le

theorem fill_limit (items : List WatchItem) : ∀ w : Watchlist, (w.fill items).limit = w.limit := by
  induction items with
  | nil => intro w; rfl
  | cons item items ih => intro w; exact ih (w.put item)

/-- Distinct symbols are filled in as they come. -/
theorem list_fill : ∀ (items : List WatchItem) (w : Watchlist),
    ((w.list ++ items).map (·.symbol)).Nodup → (w.fill items).list = w.list ++ items := by
  intro items
  induction items with
  | nil =>
    intro w _
    rw [List.append_nil]
    rfl
  | cons item items ih =>
    intro w hnodup
    have hnew : item.symbol ∉ w.items.keys := by
      rw [List.map_append, List.map_cons, list_symbols] at hnodup
      exact fun hmem => (List.nodup_append.1 hnodup).2.2 _ hmem _ List.mem_cons_self rfl
    have hlist := list_put_new hnew
    have hrest : (w.put item).list ++ items = w.list ++ item :: items := by rw [hlist, List.append_assoc]; rfl
    rw [← hrest]
    exact ih (w.put item) (hrest ▸ hnodup)

theorem mem_keys_fill {symbol : String} : ∀ (items : List WatchItem) (w : Watchlist),
    symbol ∈ (w.fill items).items.keys ↔ symbol ∈ w.items.keys ∨ symbol ∈ items.map (·.symbol) := by
  intro items
  induction items with
  | nil => intro w; simp [fill]
  | cons item items ih =>
    intro w
    have hput : symbol ∈ (w.put item).items.keys ↔ symbol ∈ w.items.keys ∨ symbol = item.symbol := by
      by_cases hmem : item.symbol ∈ w.items.keys
      · rw [show (w.put item).items.keys = w.items.keys from Dict.keys_set_mem hmem item]
        exact ⟨.inl, fun h => h.elim id fun he => he ▸ hmem⟩
      · rw [show (w.put item).items.keys = w.items.keys ++ [item.symbol] from Dict.keys_set_new hmem item]
        simp
    have hfill : (w.fill (item :: items)) = (w.put item).fill items := rfl
    rw [hfill, ih, hput, List.map_cons, List.mem_cons, or_assoc]

/-- A filled list has each symbol of the items once. -/
theorem length_fill (limit : ℤ) (items : List WatchItem) :
    (fill { limit := limit } items).list.length = (items.map (·.symbol)).dedup.length := by
  rw [← length_keys]
  refine List.Perm.length_eq ((List.perm_ext_iff_of_nodup (Dict.nodup _) (List.nodup_dedup _)).2 fun symbol => ?_)
  rw [List.mem_dedup]
  exact (mem_keys_fill items _).trans (by simp [Dict.empty, Dict.keys])

/-- The loop of `replace` keeps the items as they come, or finds a symbol twice. -/
theorem collect_cases : ∀ (items : List WatchItem) (seen : Dict String WatchItem),
    (∃ d, collect seen items = .ok d ∧ d.values = seen.values ++ items ∧
        (seen.keys ++ items.map (·.symbol)).Nodup) ∨
      ∃ error, collect seen items = .error error ∧ ¬(seen.keys ++ items.map (·.symbol)).Nodup := by
  intro items
  induction items with
  | nil =>
    intro seen
    exact .inl ⟨seen, rfl, by simp, by simpa using show seen.keys.Nodup from seen.nodup⟩
  | cons item items ih =>
    intro seen
    unfold collect
    by_cases hmem : item.symbol ∈ seen.keys
    · refine .inr ⟨_, if_pos hmem, fun hnodup => ?_⟩
      exact (List.nodup_append.1 hnodup).2.2 _ hmem _ List.mem_cons_self rfl
    · rw [if_neg hmem]
      have hkeys : (seen.set item.symbol item).keys ++ items.map (·.symbol) =
          seen.keys ++ (item :: items).map (·.symbol) := by
        rw [Dict.keys_set_new hmem, List.append_assoc]
        rfl
      have hvalues : (seen.set item.symbol item).values ++ items = seen.values ++ item :: items := by
        rw [Dict.values_set_new hmem, List.append_assoc]
        rfl
      rw [← hkeys, ← hvalues]
      exact ih _

/-- `replace` takes exactly the lists within the limit. -/
theorem replace_cases (w : Watchlist) (items : List WatchItem) :
    (∃ w', w.replace items = .ok w' ∧ w'.limit = w.limit ∧ w'.list = items ∧
        (items.map (·.symbol)).Nodup ∧ (items.length : ℤ) ≤ w.limit) ∨
      ∃ error, w.replace items = .error error ∧
        ¬((items.map (·.symbol)).Nodup ∧ (items.length : ℤ) ≤ w.limit) := by
  unfold replace
  have hcollect := collect_cases items Dict.empty
  simp only [Dict.keys, Dict.values, Dict.empty, List.map_nil, List.nil_append] at hcollect
  split
  · next error herror =>
    obtain ⟨d, hd, -⟩ | ⟨error', -, hnodup⟩ := hcollect
    · rw [show collect Dict.empty items = .ok d from hd] at herror
      cases herror
    · exact .inr ⟨error, rfl, fun h => hnodup h.1⟩
  · next seen hseen =>
    obtain ⟨d, hd, hvalues, hnodup⟩ | ⟨error', herror, -⟩ := hcollect
    · obtain rfl : seen = d := Except.ok.inj (hseen.symm.trans hd)
      have hlength : seen.entries.length = items.length := by rw [← hvalues, List.length_map]
      by_cases hfull : w.limit < seen.entries.length
      · rw [if_pos hfull]
        exact .inr ⟨_, rfl, fun h => by omega⟩
      · rw [if_neg hfull]
        exact .inl ⟨_, rfl, rfl, hvalues, hnodup, by omega⟩
    · rw [show collect Dict.empty items = .error error' from herror] at hseen
      cases hseen

end Watchlist

/-! ## One call -/

namespace StoredWatchlist

variable {json : JsonModule} {py : Python} {s : StoredWatchlist}

/-- What a call does. -/
inductive Effect (json : JsonModule) (s : StoredWatchlist) (call : WatchCall) (write : WriteOutcome)
    (r : StoredWatchlist × Except WatchCallError (Option WatchItem)) : Prop
  | refused (error : WatchCallError) (hr : r = (s, .error error)) (hchange : ¬s.watchlist.Changes call)
      (hreadd : ¬s.watchlist.Readds call)
  | kept (value : Option WatchItem) (hr : r = (s, .ok value)) (hreadd : s.watchlist.Readds call)
  | changed (watchlist : Watchlist) (value : Option WatchItem) (hr : r = s.commit json watchlist value write)
      (hlimit : watchlist.limit = s.watchlist.limit)
      (hbound : (watchlist.list.length : ℤ) ≤ s.watchlist.limit ∨ watchlist.list.length ≤ s.watchlist.list.length)
      (hchange : watchlist.list ≠ s.watchlist.list ↔ s.watchlist.Changes call)
      (hreadd : ¬s.watchlist.Readds call)

theorem add_effect (symbol : String) (write : WriteOutcome) :
    Effect json s (.add symbol) write (s.add json symbol write) := by
  have hlength := s.watchlist.length_list
  unfold add
  cases hget : s.watchlist.items.get? symbol with
  | some existing => exact .kept _ rfl ⟨symbol, Dict.mem_keys.2 ⟨existing, hget⟩, rfl⟩
  | none =>
    have hnew : symbol ∉ s.watchlist.items.keys := by
      intro hmem
      obtain ⟨item, hitem⟩ := Dict.mem_keys.1 hmem
      rw [hget] at hitem
      cases hitem
    have hreadd : ¬s.watchlist.Readds (.add symbol) := by
      rintro ⟨symbol', hmem, hcall⟩
      cases hcall
      exact hnew hmem
    by_cases hfull : s.watchlist.limit ≤ s.watchlist.items.entries.length
    · have hchange : ¬s.watchlist.Changes (.add symbol) := fun h => by have := h.2; omega
      simp only [hfull, if_true]
      exact .refused _ rfl hchange hreadd
    · have hlist : (s.watchlist.put { symbol := symbol }).list = s.watchlist.list ++ [{ symbol := symbol }] :=
        Watchlist.list_put_new hnew
      have hgrown := congrArg List.length hlist
      rw [List.length_append, List.length_singleton] at hgrown
      simp only [hfull, if_false]
      -- The list has grown by one, so it has changed.
      refine .changed _ _ rfl rfl (.inl (by omega)) (iff_of_true (fun h => ?_) ⟨hnew, by omega⟩) hreadd
      rw [h] at hgrown
      omega

theorem remove_effect (symbol : String) (write : WriteOutcome) :
    Effect json s (.remove symbol) write (s.remove json symbol write) := by
  have hreadd : ¬s.watchlist.Readds (.remove symbol) := by
    rintro ⟨_, _, hcall⟩
    cases hcall
  unfold remove
  cases hget : s.watchlist.items.get? symbol with
  | none =>
    refine .refused _ rfl (fun hmem => ?_) hreadd
    obtain ⟨item, hitem⟩ := Dict.mem_keys.1 hmem
    rw [hget] at hitem
    cases hitem
  | some item =>
    refine .changed _ _ rfl rfl (.inr (Watchlist.length_delete_le _ _))
      (iff_of_true (fun h => ?_) (Dict.mem_keys.2 ⟨item, hget⟩)) hreadd
    have hgone := Watchlist.get?_of_list h symbol
    rw [hget] at hgone
    exact absurd hgone (by simp [Watchlist.delete])

theorem replace_effect (items : List WatchItem) (write : WriteOutcome) :
    Effect json s (.replace items) write (s.replace json items write) := by
  have hreadd : ¬s.watchlist.Readds (.replace items) := by
    rintro ⟨_, _, hcall⟩
    cases hcall
  unfold replace
  obtain ⟨w', hw', hlimit, hlist, hnodup, hbound⟩ | ⟨error, herror, hnot⟩ := s.watchlist.replace_cases items
  · rw [hw']
    refine .changed _ _ rfl hlimit (.inl (hlist ▸ hbound)) ?_ hreadd
    rw [hlist]
    exact ⟨fun hne => ⟨hnodup, hbound, hne⟩, fun h => h.2.2⟩
  · rw [herror]
    exact .refused _ rfl (fun h => hnot ⟨h.1, h.2.1⟩) hreadd

/-- Both calls of `_set_enabled`. -/
theorem setEnabled_effect {call : WatchCall} {symbol : String} {enabled : Bool} (write : WriteOutcome)
    (hcall : s.watchlist.Changes call ↔ ∃ item, s.watchlist.items.get? symbol = some item ∧ item.enabled = !enabled)
    (hreadd : ¬s.watchlist.Readds call) :
    Effect json s call write (s.setEnabled json symbol enabled write) := by
  unfold setEnabled
  cases hget : s.watchlist.items.get? symbol with
  | none =>
    refine .refused _ rfl (fun h => ?_) hreadd
    obtain ⟨item, hitem, -⟩ := hcall.1 h
    rw [hget] at hitem
    cases hitem
  | some item =>
    have hsymbol : item.symbol = symbol := s.watchlist.keyed symbol item hget
    have hmem : item.symbol ∈ s.watchlist.items.keys := Dict.mem_keys.2 ⟨item, by rw [hsymbol]; exact hget⟩
    have hlength : (s.watchlist.put { symbol := item.symbol, enabled := enabled }).list.length =
        s.watchlist.list.length := Watchlist.length_put_mem hmem
    refine .changed _ _ rfl rfl (.inr hlength.le) ?_ hreadd
    rw [hcall, hget]
    by_cases hsame : item.enabled = enabled
    · -- The item is written over itself.
      have hitem : ({ symbol := item.symbol, enabled := enabled } : WatchItem) = item := by rw [← hsame]
      have hput : (s.watchlist.put item).list = s.watchlist.list :=
        congrArg Dict.values (Dict.set_eq_self (hsymbol ▸ hget))
      rw [hitem]
      refine iff_of_false (fun h => h hput) ?_
      rintro ⟨item', hitem', hother⟩
      cases hitem'
      rw [hsame] at hother
      cases enabled <;> cases hother
    · refine iff_of_true (fun h => ?_) ⟨item, rfl, by cases hitem : item.enabled <;> cases enabled <;> simp_all⟩
      -- If the lists were equal the item would have been enabled alike.
      have hread := Watchlist.get?_of_list h item.symbol
      rw [hsymbol, hget, ← hsymbol] at hread
      have hwritten := Option.some.inj ((Dict.get?_set_self _ _ _).symm.trans hread)
      exact hsame (congrArg WatchItem.enabled hwritten).symm

/-- **Every call** is refused, finds its symbol listed, or changes memory and writes. -/
theorem call_effect (call : WatchCall) (write : WriteOutcome) : Effect json s call write (s.call json write call) := by
  have hreadd : (∀ symbol, call ≠ .add symbol) → ¬s.watchlist.Readds call := by
    rintro hne ⟨symbol, -, hcall⟩
    exact hne symbol hcall
  cases call with
  | add symbol => exact add_effect symbol write
  | remove symbol => exact remove_effect symbol write
  | replace items => exact replace_effect items write
  | enable symbol => exact setEnabled_effect write (by rfl) (hreadd (by simp))
  | disable symbol => exact setEnabled_effect write (by rfl) (hreadd (by simp))

/-! ## Writing and reading back -/

/-- What is relied on of `json`, for a list: its payload is parsed back. -/
def Rereads (json : JsonModule) (w : Watchlist) : Prop := json.loads (json.dumps w.payload) = some (.obj w.payload)

/-- Loading the file gives the items in memory, in their order. -/
def InFile (json : JsonModule) (py : Python) (s : StoredWatchlist) : Prop :=
  (init json py s.path s.watchlist.limit s.persist s.file).map (·.watchlist.list) = some s.watchlist.list

theorem mapM_readItem (items : List WatchItem) :
    (items.map fun item => Json.obj [("symbol", .str item.symbol), ("enabled", .bool item.enabled)]).mapM
      (readItem py) = some items := by
  induction items with
  | nil => rfl
  | cons item items ih =>
    rw [List.map_cons, List.mapM_cons, ih]
    rfl

/-- **A completed write is read back.** -/
theorem loaded_saved {w : Watchlist} (hreads : Rereads json w) :
    fileItems json py (some (encode (json.dumps w.payload))) = some w.list := by
  have hrows := @mapM_readItem py w.list
  unfold fileItems
  simp only [decode_encode, Option.bind_eq_bind, Option.bind_some]
  rw [hreads]
  exact hrows

theorem inFile_iff (hpersist : s.persist = true) (hpath : s.path ≠ none) :
    InFile json py s ↔
      (fileItems json py s.file).map (fun items => (Watchlist.fill { limit := s.watchlist.limit } items).list) =
        some s.watchlist.list := by
  unfold InFile init
  rw [if_neg (fun h => hpath h.2), if_pos hpersist, Option.map_map]
  rfl

theorem inFile_saved (hpersist : s.persist = true) (hpath : s.path ≠ none) (hreads : Rereads json s.watchlist)
    (hfile : s.file = some (encode (json.dumps s.watchlist.payload))) : InFile json py s := by
  rw [inFile_iff hpersist hpath, hfile, loaded_saved hreads, Option.map_some]
  exact congrArg some (Watchlist.list_fill _ _ (by simpa [Watchlist.list, Dict.values, Dict.empty] using
    s.watchlist.list_symbols_nodup))

/-! ## A run of calls -/

/-- A list that writes has a path. -/
def Placed (s : StoredWatchlist) : Prop := s.persist = true → s.path ≠ none

/-- What is claimed of a call: the list keeps its limit, a call that raises leaves it alone, and after one that
succeeds a persistent list is in its file. -/
structure Consistent (json : JsonModule) (py : Python) (s : StoredWatchlist) (l : WatchCall × WriteOutcome) :
    Prop where
  within : (s.call json l.2 l.1).1.watchlist.Within
  atomic : ∀ error, (s.call json l.2 l.1).2 = .error error →
    (s.call json l.2 l.1).1.watchlist.list = s.watchlist.list
  saved : ∀ value, (s.call json l.2 l.1).2 = .ok value → s.persist = true → InFile json py (s.call json l.2 l.1).1

/-- A failing write meets no change, and a symbol that is listed is added only when the file is up to date. -/
structure Orderly (json : JsonModule) (py : Python) (s : StoredWatchlist) (l : WatchCall × WriteOutcome) : Prop where
  written : s.persist = true → ∀ left, l.2 = .failed left → ¬s.watchlist.Changes l.1
  current : s.persist = true → s.watchlist.Readds l.1 → InFile json py s

theorem save_fst (write : WriteOutcome) :
    (s.save json write).1.watchlist = s.watchlist ∧ (s.save json write).1.persist = s.persist ∧
      (s.save json write).1.path = s.path := by
  cases write with
  | done => rw [save]; split <;> exact ⟨rfl, rfl, rfl⟩
  | failed left => rw [save]; split <;> exact ⟨rfl, rfl, rfl⟩

/-- What a write leaves: memory as changed, the settings as they were. -/
theorem commit_fst (w : Watchlist) (value : Option WatchItem) (write : WriteOutcome) :
    (s.commit json w value write).1.watchlist = w ∧ (s.commit json w value write).1.persist = s.persist ∧
      (s.commit json w value write).1.path = s.path := by
  have hsave := @save_fst json { s with watchlist := w } write
  unfold commit
  split
  · next s' hs' => rw [hs'] at hsave; exact hsave
  · next s' error hs' => rw [hs'] at hsave; exact hsave

theorem commit_unwritten (hpersist : s.persist = false) (w : Watchlist) (value : Option WatchItem)
    (write : WriteOutcome) : s.commit json w value write = ({ s with watchlist := w }, .ok value) := by
  unfold commit save
  cases write <;> simp [hpersist]

theorem commit_done (hpersist : s.persist = true) (hpath : s.path ≠ none) (w : Watchlist) (value : Option WatchItem) :
    s.commit json w value .done =
      ({ s with watchlist := w, file := some (encode (json.dumps w.payload)) }, .ok value) := by
  unfold commit save
  simp [hpersist, hpath]

theorem commit_failed (hpersist : s.persist = true) (hpath : s.path ≠ none) (w : Watchlist) (value : Option WatchItem)
    (left : Option Bytes) :
    s.commit json w value (.failed left) = ({ s with watchlist := w, file := left }, .error .write) := by
  unfold commit save
  simp [hpersist, hpath]

theorem placed_call (hplaced : s.Placed) (call : WatchCall) (write : WriteOutcome) :
    (s.call json write call).1.Placed := by
  cases @call_effect json s call write with
  | refused error hr => rw [hr]; exact hplaced
  | kept value hr => rw [hr]; exact hplaced
  | changed w value hr =>
    obtain ⟨-, hpersist, hpath⟩ := @commit_fst json s w value write
    rw [hr]
    unfold Placed
    rw [hpersist, hpath]
    exact hplaced

/-- **No call takes the list beyond its limit.** -/
theorem within_call (hwithin : s.watchlist.Within) (call : WatchCall) (write : WriteOutcome) :
    (s.call json write call).1.watchlist.Within := by
  cases @call_effect json s call write with
  | refused error hr => rw [hr]; exact hwithin
  | kept value hr => rw [hr]; exact hwithin
  | changed w value hr hlimit hbound =>
    rw [hr, (commit_fst w value write).1]
    refine ⟨w.list_symbols_nodup, ?_⟩
    rw [hlimit]
    have hbefore := hwithin.bounded
    omega

/-- **One call is consistent exactly when it is orderly.** -/
theorem consistent_iff (hwithin : s.watchlist.Within) (hplaced : s.Placed) (l : WatchCall × WriteOutcome)
    (hreads : Rereads json (s.call json l.2 l.1).1.watchlist) : Consistent json py s l ↔ Orderly json py s l := by
  obtain ⟨call, write⟩ := l
  have hnext := @within_call json s hwithin call write
  dsimp only at hreads
  cases @call_effect json s call write with
  | refused error hr hchange hreadd =>
    refine iff_of_true ⟨hnext, fun _ _ => by dsimp only; rw [hr], fun value hvalue => ?_⟩
      ⟨fun _ _ _ => hchange, fun _ h => absurd h hreadd⟩
    dsimp only at hvalue
    rw [hr] at hvalue
    cases hvalue
  | kept value hr hreadd =>
    have hstay : ¬s.watchlist.Changes call := by
      obtain ⟨symbol, hmem, rfl⟩ := hreadd
      exact fun h => h.1 hmem
    constructor
    · intro h
      refine ⟨fun _ _ _ => hstay, fun hpersist _ => ?_⟩
      have hsaved := h.saved value (by dsimp only; rw [hr]) hpersist
      dsimp only at hsaved
      rw [hr] at hsaved
      exact hsaved
    · intro h
      refine ⟨hnext, fun error herror => ?_, fun _ _ hpersist => ?_⟩
      · dsimp only at herror
        rw [hr] at herror
        cases herror
      · dsimp only
        rw [hr]
        exact h.current hpersist hreadd
  | changed w value hr hlimit hbound hchange hreadd =>
    rw [hr, (commit_fst w value write).1] at hreads
    cases hpersist : s.persist with
    | false =>
      -- Nothing is written.
      have hcommit := hr.trans (commit_unwritten hpersist w value write)
      refine iff_of_true ⟨hnext, fun error herror => ?_, fun _ _ h => ?_⟩ ⟨fun h => ?_, fun h => ?_⟩
      · dsimp only at herror
        rw [hcommit] at herror
        cases herror
      · rw [hpersist] at h; cases h
      · rw [hpersist] at h; cases h
      · rw [hpersist] at h; cases h
    | true =>
      have hpath := hplaced hpersist
      cases write with
      | done =>
        have hcommit := hr.trans (commit_done hpersist hpath w value)
        refine iff_of_true ⟨hnext, fun error herror => ?_, fun _ _ _ => ?_⟩
          ⟨fun _ _ h => (by cases h), fun _ h => absurd h hreadd⟩
        · dsimp only at herror
          rw [hcommit] at herror
          cases herror
        · dsimp only
          rw [hcommit]
          exact inFile_saved hpersist hpath hreads rfl
      | failed left =>
        have hcommit := hr.trans (commit_failed hpersist hpath w value left)
        constructor
        · intro h
          refine ⟨fun _ _ _ hchanges => hchange.2 hchanges ?_, fun _ hr => absurd hr hreadd⟩
          have hatomic := h.atomic .write (by dsimp only; rw [hcommit])
          dsimp only at hatomic
          rw [hcommit] at hatomic
          exact hatomic
        · intro h
          refine ⟨hnext, fun error _ => ?_, fun value' hvalue => ?_⟩
          · dsimp only
            rw [hcommit]
            exact not_not.1 (mt hchange.1 (h.written hpersist left rfl))
          · dsimp only at hvalue
            rw [hcommit] at hvalue
            cases hvalue

/-- The runs that are consistent are the runs that are orderly, once the list is within its limit. -/
theorem along_consistent_iff : ∀ (ls : List (WatchCall × WriteOutcome)) (s : StoredWatchlist),
    s.watchlist.Within → s.Placed →
      Machine.Along (step json) (fun s l => Rereads json (s.call json l.2 l.1).1.watchlist) s ls →
        (Machine.Along (step json) (Consistent json py) s ls ↔ Machine.Along (step json) (Orderly json py) s ls) := by
  intro ls
  induction ls with
  | nil => intro s _ _ _; exact Iff.rfl
  | cons l ls ih =>
    intro s hwithin hplaced hreads
    have hrest := ih (s.call json l.2 l.1).1 (within_call hwithin l.1 l.2) (placed_call hplaced l.1 l.2)
      (hreads.2 _ rfl)
    have hhead := @consistent_iff json py s hwithin hplaced l hreads.1
    constructor
    · rintro ⟨hl, hls⟩
      exact ⟨hhead.1 hl, fun s' hs' => by cases hs'; exact hrest.1 (hls _ rfl)⟩
    · rintro ⟨hl, hls⟩
      exact ⟨hhead.2 hl, fun s' hs' => by cases hs'; exact hrest.2 (hls _ rfl)⟩

/-- The symbols that the constructor reads from the file. -/
def initSymbols (json : JsonModule) (py : Python) (persist : Bool) (file : Option Bytes) : List String :=
  if persist then ((fileItems json py file).getD []).map (·.symbol) else []

/-- What the constructor builds. -/
theorem init_spec {path : Option String} {limit : ℤ} {persist : Bool} {file : Option Bytes}
    (h : init json py path limit persist file = some s) :
    s.Placed ∧ (s.watchlist.Within ↔ ((initSymbols json py persist file).dedup.length : ℤ) ≤ limit) := by
  unfold init at h
  unfold initSymbols
  cases persist with
  | false =>
    rw [if_neg (by simp), if_neg (by simp)] at h
    obtain rfl := Option.some.inj h
    refine ⟨fun h => (by cases h), ⟨fun h => h.bounded, fun h => ⟨Watchlist.list_symbols_nodup _, h⟩⟩⟩
  | true =>
    by_cases hpath : path = none
    · rw [if_pos ⟨rfl, hpath⟩] at h
      cases h
    · rw [if_neg (fun h => hpath h.2), if_pos rfl] at h
      obtain ⟨items, hitems, rfl⟩ := Option.map_eq_some_iff.1 h
      have hlength := Watchlist.length_fill limit items
      have hlimit := Watchlist.fill_limit items { limit := limit }
      rw [if_pos rfl, hitems, Option.getD_some]
      refine ⟨fun _ => hpath, ⟨fun h => ?_, fun h => ⟨Watchlist.list_symbols_nodup _, ?_⟩⟩⟩
      · have hbounded := h.bounded
        dsimp only at hbounded
        rw [hlimit, hlength] at hbounded
        exact hbounded
      · dsimp only
        rw [hlimit, hlength]
        exact h

/-- What the constructor reads is in the file. -/
theorem inFile_init {path : Option String} {limit : ℤ} {persist : Bool} {file : Option Bytes}
    (h : init json py path limit persist file = some s) : InFile json py s := by
  have hsame : init json py s.path s.watchlist.limit s.persist s.file = some s := by
    unfold init at h
    split at h
    · cases h
    · split at h
      · next hpath hpersist =>
        obtain ⟨items, hitems, rfl⟩ := Option.map_eq_some_iff.1 h
        unfold init
        rw [Watchlist.fill_limit, if_neg hpath, if_pos hpersist, hitems, Option.map_some]
      · next hpath hpersist =>
        obtain rfl := Option.some.inj h
        unfold init
        rw [if_neg hpath, if_neg hpersist]
  unfold InFile
  rw [hsame, Option.map_some]

/-- On a disk that takes every write, every run is orderly: the file is never behind. -/
theorem along_orderly_of_done : ∀ (ls : List (WatchCall × WriteOutcome)) (s : StoredWatchlist),
    s.watchlist.Within → s.Placed → (s.persist = true → InFile json py s) → (∀ l ∈ ls, l.2 = .done) →
      Machine.Along (step json) (fun s l => Rereads json (s.call json l.2 l.1).1.watchlist) s ls →
        Machine.Along (step json) (Orderly json py) s ls := by
  intro ls
  induction ls with
  | nil => intro s _ _ _ _ _; trivial
  | cons l ls ih =>
    intro s hwithin hplaced hfile hdone hreads
    have horderly : Orderly json py s l := by
      refine ⟨fun _ left hleft => ?_, fun hpersist _ => hfile hpersist⟩
      rw [hdone l List.mem_cons_self] at hleft
      cases hleft
    have hconsistent := (consistent_iff hwithin hplaced l hreads.1).2 horderly
    refine ⟨horderly, fun s' hs' => ?_⟩
    cases hs'
    refine ih _ (within_call hwithin l.1 l.2) (placed_call hplaced l.1 l.2) ?_
      (fun l' hl' => hdone l' (List.mem_cons_of_mem _ hl')) (hreads.2 _ rfl)
    -- The call refuses and changes nothing, or succeeds and is saved.
    rw [hdone l List.mem_cons_self]
    have hsaved := hconsistent.saved
    rw [hdone l List.mem_cons_self] at hsaved
    cases @call_effect json s l.1 .done with
    | refused error hr => rw [hr]; exact hfile
    | kept value hr => rw [hr]; exact hfile
    | changed w value hr =>
      cases hpersist : s.persist with
      | true => exact fun _ => hsaved value (by rw [hr, commit_done hpersist (hplaced hpersist)]) hpersist
      | false =>
        rw [hr, (commit_fst w value .done).2.1, hpersist]
        intro h
        cases h

/-- **On a disk that takes every write** a first file within the limit is all that a run needs. -/
theorem along_consistent_of_done {path : Option String} {limit : ℤ} {persist : Bool} {file : Option Bytes}
    (hinit : init json py path limit persist file = some s)
    (hroom : ((initSymbols json py persist file).dedup.length : ℤ) ≤ limit) (ls : List (WatchCall × WriteOutcome))
    (hdone : ∀ l ∈ ls, l.2 = .done)
    (hreads : Machine.Along (step json) (fun s l => Rereads json (s.call json l.2 l.1).1.watchlist) s ls) :
    Machine.Along (step json) (Consistent json py) s ls := by
  obtain ⟨hplaced, hwithin⟩ := init_spec hinit
  have horderly := along_orderly_of_done ls s (hwithin.2 hroom) hplaced (fun _ => inFile_init hinit) hdone hreads
  exact (along_consistent_iff ls s (hwithin.2 hroom) hplaced hreads).2 horderly

/-- **A watchlist and its file.** Over a run of calls the symbols stay unique and within the limit, a call that
raises leaves the list as it was, and after each call that succeeds a persistent list is in its file in the
same order, exactly when the first file has at most `limit` symbols, no write fails at a call that changes the
items, and a symbol that is listed is added only while the file has the items. -/
theorem watchlist_consistent_iff {path : Option String} {limit : ℤ} {persist : Bool} {file : Option Bytes}
    (hinit : init json py path limit persist file = some s) (ls : List (WatchCall × WriteOutcome))
    (hreads : Machine.Along (step json) (fun s l => Rereads json (s.call json l.2 l.1).1.watchlist) s ls) :
    (s.watchlist.Within ∧ Machine.Along (step json) (Consistent json py) s ls) ↔
      (((initSymbols json py persist file).dedup.length : ℤ) ≤ limit ∧
        Machine.Along (step json) (Orderly json py) s ls) := by
  obtain ⟨hplaced, hroom⟩ := init_spec hinit
  constructor
  · rintro ⟨hwithin, hls⟩
    exact ⟨hroom.1 hwithin, (along_consistent_iff ls s hwithin hplaced hreads).1 hls⟩
  · rintro ⟨hlimit, hls⟩
    have hwithin := hroom.2 hlimit
    exact ⟨hwithin, (along_consistent_iff ls s hwithin hplaced hreads).2 hls⟩

/-- The file of a list with one symbol, enabled. -/
def indentedText (symbol : String) : String :=
  "\x7b\n  \"items\": [\n    \x7b\n      \"symbol\": \"" ++ symbol ++
    "\",\n      \"enabled\": true\n    \x7d\n  ]\n\x7d"

/-- `json` on the list of one symbol. -/
def indentedJson : JsonModule where
  loads t :=
    if t = indentedText "600519.SH" then
      some (.obj [("items", .list [.obj [("symbol", .str "600519.SH"), ("enabled", .bool true)]])])
    else none
  dumps payload :=
    match payload with
    | [("items", .list [.obj [("symbol", .str symbol), ("enabled", .bool true)]])] => indentedText symbol
    | _ => "\x7b\n  \"items\": []\n\x7d"

/-- The list of a new file. -/
def newList : StoredWatchlist := ⟨some "data/watchlist.json", true, {}, none⟩

/-- A symbol is added, and the write of a call that enables it again fails and empties the file. -/
theorem watchlist_consistent_enabled :
    Machine.Along (step indentedJson) (Consistent indentedJson noTexts) newList
      [(.add "600519.SH", .done), (.enable "600519.SH", .failed (some []))] := by
  have hinit : init indentedJson noTexts (some "data/watchlist.json") 10 true none = some newList := rfl
  have hreads : Rereads indentedJson (Watchlist.put {} { symbol := "600519.SH" }) := rfl
  have hrun : Machine.Along (step indentedJson)
      (fun s l => Rereads indentedJson (s.call indentedJson l.2 l.1).1.watchlist) newList
      [(.add "600519.SH", .done), (.enable "600519.SH", .failed (some []))] :=
    ⟨hreads, fun s hs => by cases hs; exact ⟨hreads, fun _ _ => trivial⟩⟩
  refine ((watchlist_consistent_iff hinit _ hrun).2 ⟨by decide, ⟨?_, ?_⟩, fun s hs => ?_⟩).2
  · intro _ left hleft
    cases hleft
  · rintro _ ⟨symbol, hmem, _⟩
    cases hmem
  · cases hs
    refine ⟨⟨?_, ?_⟩, fun _ _ => trivial⟩
    · rintro _ left _ ⟨item, hitem, hdisabled⟩
      cases hitem
      cases hdisabled
    · rintro _ ⟨symbol, _, hcall⟩
      cases hcall

/-- The write of the first symbol fails, and the list has it. -/
theorem failed_add_kept :
    init indentedJson noTexts (some "data/watchlist.json") 10 true none = some newList ∧ newList.watchlist.Within ∧
      newList.call indentedJson (.failed none) (.add "600519.SH") =
        (⟨some "data/watchlist.json", true, Watchlist.put {} { symbol := "600519.SH" }, none⟩, .error .write) ∧
      ¬Machine.Along (step indentedJson) (Consistent indentedJson noTexts) newList
        [(.add "600519.SH", .failed none)] := by
  refine ⟨rfl, ⟨by decide, by decide⟩, rfl, fun h => ?_⟩
  have hatomic := h.1.atomic .write rfl
  exact absurd hatomic (by decide)

end StoredWatchlist

end MarketSentinel
