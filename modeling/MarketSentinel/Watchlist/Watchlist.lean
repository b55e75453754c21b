import MarketSentinel.Domain.Model
import MarketSentinel.Lib.Dict

/-!
# The watchlist

`watchlist/watchlist.py` without its file: the items by symbol, in the order they were given.
Every item sits under its own symbol, by a field of the structure.

* `list_symbols_nodup`, `enabledSymbols_nodup`: a symbol is listed once.
* `mem_list_of_enabled`: a tick asks about listed symbols only.
-/

namespace MarketSentinel

open Lib

theorem items_keyed_empty : ∀ symbol item, (Dict.empty : Dict String WatchItem).get? symbol = some item →
    item.symbol = symbol := by
  intro symbol item h
  cases h

structure Watchlist where
  limit : ℤ := 10
  items : Dict String WatchItem := Dict.empty
  keyed : ∀ symbol item, items.get? symbol = some item → item.symbol = symbol := by exact items_keyed_empty

/-- `WatchlistFullError` and `WatchlistSymbolError`. -/
inductive WatchlistError
  | full (limit : ℤ)
  | duplicate (symbol : String)
  deriving DecidableEq, Repr

/-- `str(exc)`. -/
def WatchlistError.message : WatchlistError → String
  | .full limit => "watchlist limit is " ++ toString limit
  | .duplicate symbol => "duplicate symbol: " ++ symbol

namespace Watchlist

/-- The loop of `replace`. -/
def collect : Dict String WatchItem → List WatchItem → Except WatchlistError (Dict String WatchItem)
  | seen, [] => .ok seen
  | seen, item :: items =>
    if item.symbol ∈ seen.keys then .error (.duplicate item.symbol)
    else collect (seen.set item.symbol item) items

theorem collect_keyed : ∀ (items : List WatchItem) (seen d : Dict String WatchItem),
    (∀ symbol item, seen.get? symbol = some item → item.symbol = symbol) →
      collect seen items = .ok d → ∀ symbol item, d.get? symbol = some item → item.symbol = symbol := by
  intro items
  induction items with
  | nil =>
    intro seen d hseen hd
    obtain rfl := Except.ok.inj hd
    exact hseen
  | cons item items ih =>
    intro seen d hseen hd
    unfold collect at hd
    split at hd
    · cases hd
    · refine ih _ d (fun symbol item' hget => ?_) hd
      rw [Dict.get?_set] at hget
      split at hget
      · next hs => cases hget; exact hs.symm
      · exact hseen symbol item' hget

/-- `replace`; the file that it writes is left out. -/
def replace (w : Watchlist) (items : List WatchItem) : Except WatchlistError Watchlist :=
  match h : collect Dict.empty items with
  | .error e => .error e
  | .ok seen =>
    if w.limit < seen.entries.length then .error (.full w.limit)
    else .ok { w with items := seen, keyed := collect_keyed items _ seen (fun _ _ h => by cases h) h }

/-- `list`. -/
def list (w : Watchlist) : List WatchItem := w.items.values

/-- `enabled_symbols`. -/
def enabledSymbols (w : Watchlist) : List String :=
  (w.list.filter (·.enabled)).map (·.symbol)

variable (w : Watchlist)

/-- The symbols are the keys. -/
theorem list_symbols : w.list.map (·.symbol) = w.items.keys := by
  unfold list Dict.values Dict.keys
  rw [List.map_map]
  refine List.map_congr_left fun e he => ?_
  exact w.keyed e.1 e.2 (Dict.mem_entries.1 he)

theorem list_symbols_nodup : (w.list.map (·.symbol)).Nodup := by
  rw [list_symbols]
  exact w.items.nodup

theorem enabledSymbols_sublist : (w.enabledSymbols).Sublist (w.list.map (·.symbol)) :=
  List.filter_sublist.map _

theorem enabledSymbols_nodup : w.enabledSymbols.Nodup :=
  w.list_symbols_nodup.sublist w.enabledSymbols_sublist

theorem mem_list_of_enabled {symbol : String} (h : symbol ∈ w.enabledSymbols) :
    symbol ∈ w.list.map (·.symbol) :=
  w.enabledSymbols_sublist.subset h

end Watchlist

end MarketSentinel
