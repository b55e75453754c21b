import Mathlib.Data.Int.Notation
import Mathlib.Data.List.Forall2
import Mathlib.Data.List.Infix
import MarketSentinel.Lib.Markup

/-!
# The details panel

`details/render.ts`, with the parts of `hover/model.ts` and `hover/format.ts` that it uses. A string is its UTF-16
units. Every text goes through `escapeHtml`, and the two classes that depend on the model are taken from fixed
lists, so the tags of a body depend on the shape of the model only.

* `escapeHtml_eq`: the replacements one after the other escape each unit once.
* `ModelShape`: what the tags may depend on.
* `renderDetailsBody_tags`: bodies of models of one shape have the same tags and attributes.
-/

namespace MarketSentinel.Extension

open Lib Utf16 Markup

/-! ## model -/

structure HoverSignalView where
  priority : Utf16
  direction : Utf16
  family : Utf16
  body : Utf16
  ruleLabel : Utf16
  aiLabel : Utf16
  aiBody : Option Utf16 := none
  aiMeta : Option Utf16 := none

structure HoverSymbolView where
  symbol : Utf16
  displayName : Utf16
  level : Utf16
  feedStatus : Option Utf16 := none
  price : Utf16
  changeDay : Utf16
  change1m : Utf16
  change5m : Utf16
  change15m : Utf16
  volumeRatio1m : Utf16
  volumeRatio5m : Utf16
  ema5 : Utf16
  ema20 : Utf16
  rsi14 : Utf16
  vwap : Utf16
  vwapBias : Option Utf16 := none
  sessionHighObs : Utf16
  sessionLowObs : Utf16
  sessionHighRef : Utf16
  sessionLowRef : Utf16
  signals : List HoverSignalView
  moreSignals : ℤ

/-- The members of `HoverModel` that the panel shows. -/
structure HoverModel where
  connection : Option Utf16 := none
  feedSource : Option Utf16 := none
  aiStatus : Option Utf16 := none
  unreadLine : Option Utf16 := none
  lastUpdate : Option Utf16 := none
  replayMode : Option Bool := none
  replayStatus : Option Utf16 := none
  lifecycleMessage : Option Utf16 := none
  outputHint : Option Utf16 := none
  symbols : List HoverSymbolView

/-! ## render -/

def formatDirection (direction : Utf16) : Utf16 :=
  if direction = encode "up" then encode "↑" else if direction = encode "down" then encode "↓" else encode "·"

def escapeHtml (value : Utf16) : Utf16 :=
  replaceUnit '\'' "&#39;" <| replaceUnit '"' "&quot;" <| replaceUnit '>' "&gt;" <|
    replaceUnit '<' "&lt;" <| replaceUnit '&' "&amp;" value

/-- The class of a value; `toLowerCase` makes no other unit a letter of an allowed class. -/
def fixedClass (value : Utf16) (allowed : List String) (fallback : String) : Utf16 :=
  let normalized := value.map lower
  if normalized ∈ allowed.map encode then normalized else encode fallback

def priorityClass (signal : HoverSignalView) : Utf16 :=
  fixedClass signal.priority ["notice", "important", "critical"] "notice"

def levelClass (symbol : HoverSymbolView) : Utf16 := fixedClass symbol.level ["hot", "warm", "cold"] "cold"

/-- `value !== undefined ? render(value) : ""`. -/
def ifDefined (value : Option Utf16) (render : Utf16 → Utf16) : Utf16 :=
  match value with
  | none => []
  | some value => render value

/-- The block of the AI annotation. -/
def renderAi (signal : HoverSignalView) : Utf16 :=
  if signal.aiLabel = [] then []
  else
    encode "<div class=\"signal-block ai-block\">\n          <div class=\"section-label\">" ++
      escapeHtml signal.aiLabel ++ encode "</div>\n          " ++
      ifDefined signal.aiBody (fun body => encode "<div class=\"body-copy\">" ++ escapeHtml body ++ encode "</div>") ++
      encode "\n          " ++
      ifDefined signal.aiMeta (fun text => encode "<div class=\"muted\">" ++ escapeHtml text ++ encode "</div>") ++
      encode "\n        </div>"

def renderSignal (signal : HoverSignalView) : Utf16 :=
  (encode "<article class=\"signal-card " ++ priorityClass signal ++
      encode "\">\n      <div class=\"signal-title\">\n        <span class=\"priority\">") ++
    escapeHtml signal.priority ++ encode "</span>\n        <span class=\"direction\">" ++
    escapeHtml (formatDirection signal.direction) ++ encode "</span>\n        <span>" ++ escapeHtml signal.family ++
    encode "</span>\n      </div>\n      <div class=\"signal-block\">\n        <div class=\"section-label\">" ++
    escapeHtml signal.ruleLabel ++ encode "</div>\n        <div class=\"body-copy\">" ++ escapeHtml signal.body ++
    encode "</div>\n      </div>\n      " ++ renderAi signal ++
    encode "\n      <div class=\"signal-type\"><span class=\"muted\">信号类型</span><span>" ++ escapeHtml signal.family ++
    encode "</span></div>\n    </article>"

def renderMetricGroup (title : Utf16) (rows : List Utf16) : Utf16 :=
  encode "<section class=\"metric-group\">\n      <div class=\"section-label\">" ++ escapeHtml title ++
    encode "</div>\n      " ++
    (rows.map fun row => encode "<div class=\"metric-row\">" ++ escapeHtml row ++ encode "</div>").flatten ++
    encode "\n    </section>"

/-- The groups of metrics. -/
def renderMetrics (symbol : HoverSymbolView) : Utf16 :=
  let vwap :=
    match symbol.vwapBias with
    | some bias => encode "VWAP " ++ symbol.vwap ++ encode " · " ++ bias
    | none => encode "VWAP " ++ symbol.vwap
  renderMetricGroup (encode "涨跌幅")
      [encode "1m " ++ symbol.change1m ++ encode "  ·  5m " ++ symbol.change5m ++ encode "  ·  15m " ++
        symbol.change15m] ++
    encode "\n        " ++
    renderMetricGroup (encode "成交")
      [encode "1m " ++ symbol.volumeRatio1m ++ encode "  ·  5m " ++ symbol.volumeRatio5m] ++
    encode "\n        " ++
    renderMetricGroup (encode "技术指标")
      [encode "EMA5 " ++ symbol.ema5 ++ encode "  ·  EMA20 " ++ symbol.ema20 ++ encode "  ·  RSI14 " ++ symbol.rsi14,
        vwap] ++
    encode "\n        " ++
    renderMetricGroup (encode "日内区间")
      [encode "高 " ++ symbol.sessionHighObs ++ encode " / 前高 " ++ symbol.sessionHighRef,
        encode "低 " ++ symbol.sessionLowObs ++ encode " / 前低 " ++ symbol.sessionLowRef]

/-- The code of a symbol whose name does not have it. -/
def renderCode (symbol : HoverSymbolView) : Utf16 :=
  if symbol.symbol <:+: symbol.displayName then []
  else encode "<div class=\"symbol-code\">" ++ escapeHtml symbol.symbol ++ encode "</div>"

/-- The signals of a symbol. -/
def renderSignals (symbol : HoverSymbolView) : Utf16 :=
  let signals := (symbol.signals.map renderSignal).flatten
  let moreSignals :=
    if 0 < symbol.moreSignals then
      encode "<div class=\"muted more-signals\">还有 " ++ encode (toString symbol.moreSignals) ++
        encode " 个 active signals 未展开</div>"
    else []
  if signals = [] then [] else encode "<div class=\"signals\">" ++ signals ++ moreSignals ++ encode "</div>"

def renderSymbol (symbol : HoverSymbolView) : Utf16 :=
  encode "<section class=\"symbol-card\">\n      <header class=\"symbol-header\">\n        <div>\n          " ++
    encode "<div class=\"symbol-name\">" ++ escapeHtml symbol.displayName ++ encode "</div>\n          " ++
    renderCode symbol ++
    encode "\n        </div>\n        <div class=\"quote-block\">\n          <div class=\"price\">" ++
    escapeHtml symbol.price ++ encode "</div>\n          <div class=\"day-change\">" ++
    escapeHtml symbol.changeDay ++ encode "</div>\n        </div>\n      </header>\n      " ++
    (encode "<div class=\"chips\"><span class=\"chip level " ++ levelClass symbol ++ encode "\">") ++
    escapeHtml symbol.level ++ encode "</span>" ++
    ifDefined symbol.feedStatus
      (fun status => encode "<span class=\"chip\">" ++ escapeHtml status ++ encode "</span>") ++
    encode "</div>\n      " ++ renderSignals symbol ++ encode "\n      <div class=\"metrics-grid\">\n        " ++
    renderMetrics symbol ++ encode "\n      </div>\n    </section>"

/-- The items of `renderTopMeta`. -/
def metaItems (model : HoverModel) : List Utf16 :=
  (model.connection.map (encode "连接：" ++ ·)).toList ++ (model.feedSource.map (encode "行情源：" ++ ·)).toList ++
    (model.aiStatus.map (encode "AI：" ++ ·)).toList ++ model.unreadLine.toList ++
    (model.lastUpdate.map fun update =>
      if update = encode "--" then encode "最后行情：--" else encode "最后行情：" ++ update ++ encode "（UTC+8）").toList ++
    if model.replayMode = some true then [encode "Replay：" ++ model.replayStatus.getD (encode "运行中")] else []

def renderTopMeta (model : HoverModel) : Utf16 :=
  ((metaItems model).map fun item =>
    encode "<span class=\"meta-chip\">" ++ escapeHtml item ++ encode "</span>").flatten

/-- The empty state. -/
def renderLifecycle (model : HoverModel) : Utf16 :=
  if model.symbols = [] then
    ifDefined model.lifecycleMessage fun message =>
      encode "<section class=\"empty-state\">\n          <div class=\"empty-title\">" ++ escapeHtml message ++
        encode "</div>\n          " ++
        ifDefined model.outputHint
          (fun hint => encode "<div class=\"muted\">" ++ escapeHtml hint ++ encode "</div>") ++
        encode "\n        </section>"
  else []

def renderDetailsBody (model : HoverModel) : Utf16 :=
  encode "<main class=\"page\">\n      <header class=\"page-header\">\n        <div>\n          " ++
    encode "<div class=\"eyebrow\">MARKET SENTINEL</div>\n          <h1>行情详情</h1>\n        </div>\n        " ++
    encode "<div class=\"meta-row\">" ++ renderTopMeta model ++ encode "</div>\n      </header>\n      " ++
    renderLifecycle model ++ encode "\n      <div class=\"symbols-grid\">" ++
    (model.symbols.map renderSymbol).flatten ++ encode "</div>\n    </main>"

/-! ## Escaped texts -/

/-- What `escapeHtml` makes of a unit. -/
def escapeUnit (u : UInt16) : Utf16 :=
  if u = unit '&' then encode "&amp;"
  else if u = unit '<' then encode "&lt;"
  else if u = unit '>' then encode "&gt;"
  else if u = unit '"' then encode "&quot;"
  else if u = unit '\'' then encode "&#39;"
  else [u]

/-- **The replacements** escape each unit once: what one of them writes is not escaped again. -/
theorem escapeHtml_eq (value : Utf16) : escapeHtml value = value.flatMap escapeUnit := by
  have hstart : replaceUnit '&' "&amp;" value =
      value.flatMap fun u => if u = unit '&' then encode "&amp;" else [u] := rfl
  unfold escapeHtml
  rw [hstart, replaceUnit_flatMap, replaceUnit_flatMap, replaceUnit_flatMap, replaceUnit_flatMap]
  refine List.flatMap_congr fun u _ => ?_
  unfold escapeUnit
  by_cases hamp : u = unit '&'
  · rw [if_pos hamp, if_pos hamp]
    decide
  rw [if_neg hamp, if_neg hamp]
  by_cases hlt : u = unit '<'
  · subst hlt
    decide
  by_cases hgt : u = unit '>'
  · subst hgt
    decide
  by_cases hquot : u = unit '"'
  · subst hquot
    decide
  by_cases hapos : u = unit '\''
  · subst hapos
    decide
  simp [replaceUnit, hlt, hgt, hquot, hapos]

/-- An escaped text has no `<`. -/
theorem not_mem_escapeHtml (value : Utf16) : unit '<' ∉ escapeHtml value := by
  rw [escapeHtml_eq, List.mem_flatMap]
  rintro ⟨u, -, hu⟩
  unfold escapeUnit at hu
  split at hu
  · exact absurd hu (by decide)
  split at hu
  · exact absurd hu (by decide)
  split at hu
  · exact absurd hu (by decide)
  split at hu
  · exact absurd hu (by decide)
  split at hu
  · exact absurd hu (by decide)
  · next hlt _ _ _ => exact hlt (List.mem_singleton.1 hu).symm

theorem same_text (value value' : Utf16) : SameTags (escapeHtml value) (escapeHtml value') :=
  .of_text (not_mem_escapeHtml value) (not_mem_escapeHtml value')

/-- A number has no `<`. -/
theorem not_mem_number (n : ℤ) : unit '<' ∉ encode (toString n) := by
  have hnat : ∀ m : ℕ, '<' ∉ (toString m).toList := by
    intro m hmem
    change '<' ∈ m.repr.toList at hmem
    rw [Nat.toList_repr] at hmem
    exact absurd (Nat.isDigit_of_mem_toDigits (by decide) (by decide) hmem) (by decide)
  refine not_mem_encode (by decide) ?_
  cases n with
  | ofNat m => exact hnat m
  | negSucc m =>
    change '<' ∉ ("-" ++ toString (m + 1)).toList
    rw [String.toList_append, List.mem_append]
    exact fun hmem => hmem.elim (by decide) (hnat _)

/-! ## Classes -/

/-- The class of a value is one of a fixed list. -/
theorem fixedClass_mem (value : Utf16) {allowed : List String} {fallback : String} (h : fallback ∈ allowed) :
    fixedClass value allowed fallback ∈ allowed.map encode := by
  unfold fixedClass
  dsimp only
  split
  · next hmem => exact hmem
  · exact List.mem_map_of_mem h

/-! ## Shapes -/

/-- What the tags of a signal depend on. -/
structure SignalShape where
  priority : Utf16
  /-- The AI block, with whether it has a body and a meta line. -/
  ai : Option (Bool × Bool)
  deriving DecidableEq

def HoverSignalView.shape (signal : HoverSignalView) : SignalShape where
  priority := priorityClass signal
  ai := if signal.aiLabel = [] then none else some (signal.aiBody.isSome, signal.aiMeta.isSome)

/-- What the tags of a symbol depend on. -/
structure SymbolShape where
  level : Utf16
  feed : Bool
  code : Bool
  signals : List SignalShape
  moreSignals : Bool
  deriving DecidableEq

def HoverSymbolView.shape (symbol : HoverSymbolView) : SymbolShape where
  level := levelClass symbol
  feed := symbol.feedStatus.isSome
  code := decide ¬symbol.symbol <:+: symbol.displayName
  signals := symbol.signals.map (·.shape)
  moreSignals := decide (symbol.signals ≠ [] ∧ 0 < symbol.moreSignals)

/-- What the tags of a body depend on. -/
structure ModelShape where
  /-- The number of the chips. -/
  chips : ℕ
  /-- The empty state, with whether it has a hint. -/
  lifecycle : Option Bool
  symbols : List SymbolShape
  deriving DecidableEq

def HoverModel.shape (model : HoverModel) : ModelShape where
  chips := (metaItems model).length
  lifecycle := if model.symbols = [] then model.lifecycleMessage.map fun _ => model.outputHint.isSome else none
  symbols := model.symbols.map (·.shape)

/-! ## The tags of each part -/

/-- A part that is there in both texts or in neither. -/
theorem same_ifDefined {value value' : Option Utf16} {render : Utf16 → Utf16} (h : value.isSome = value'.isSome)
    (hrender : ∀ a b, SameTags (render a) (render b)) :
    SameTags (ifDefined value render) (ifDefined value' render) := by
  cases value with
  | none =>
    cases value' with
    | none => exact .of_closed rfl
    | some b => cases h
  | some a =>
    cases value' with
    | none => cases h
    | some b => exact hrender a b

/-- A text between two tags. -/
theorem same_element {before after : Utf16} (hbefore : (scan .data before).1 = .data)
    (hafter : (scan .data after).1 = .data) (value value' : Utf16) :
    SameTags (before ++ escapeHtml value ++ after) (before ++ escapeHtml value' ++ after) :=
  (SameTags.of_closed hbefore).part (same_text value value') hafter

theorem same_renderAi {signal signal' : HoverSignalView} (h : signal.shape.ai = signal'.shape.ai) :
    SameTags (renderAi signal) (renderAi signal') := by
  unfold HoverSignalView.shape at h
  unfold renderAi
  by_cases hlabel : signal.aiLabel = []
  · by_cases hlabel' : signal'.aiLabel = []
    · rw [if_pos hlabel, if_pos hlabel']
      exact .of_closed rfl
    · simp [hlabel, hlabel'] at h
  · by_cases hlabel' : signal'.aiLabel = []
    · simp [hlabel, hlabel'] at h
    · simp only [if_neg hlabel, if_neg hlabel', Option.some.injEq, Prod.mk.injEq] at h
      rw [if_neg hlabel, if_neg hlabel']
      refine SameTags.of_closed ?_
        |>.part (same_text _ _) ?_
        |>.part (same_ifDefined h.1 fun _ _ => same_element ?_ ?_ _ _) ?_
        |>.part (same_ifDefined h.2 fun _ _ => same_element ?_ ?_ _ _) ?_
      all_goals decide +kernel

/-- The head of a card, with its class. -/
theorem same_renderSignal {signal signal' : HoverSignalView} (h : signal.shape = signal'.shape) :
    SameTags (renderSignal signal) (renderSignal signal') := by
  have hclass : priorityClass signal = priorityClass signal' := congrArg SignalShape.priority h
  have hclosed : ∀ c ∈ ["notice", "important", "critical"].map encode,
      (scan .data (encode "<article class=\"signal-card " ++ c ++
        encode "\">\n      <div class=\"signal-title\">\n        <span class=\"priority\">")).1 = .data := by
    decide +kernel
  have hhead := hclosed (priorityClass signal) (fixedClass_mem _ (by decide))
  have hai := same_renderAi (congrArg SignalShape.ai h)
  unfold renderSignal
  rw [← hclass]
  -- The priority, the direction, the family, the label and the body; the annotation; and the family again.
  refine SameTags.of_closed hhead
    |>.part (same_text _ _) ?_
    |>.part (same_text _ _) ?_
    |>.part (same_text _ _) ?_
    |>.part (same_text _ _) ?_
    |>.part (same_text _ _) ?_
    |>.part hai ?_
    |>.part (same_text _ _) ?_
  all_goals decide +kernel

/-- Elements of the same kind, as many in both texts. -/
theorem same_elements {A : Type} {render : A → Utf16} {R : A → A → Prop} {as bs : List A}
    (h : List.Forall₂ R as bs) (hrender : ∀ a b, R a b → SameTags (render a) (render b)) :
    SameTags (as.map render).flatten (bs.map render).flatten := by
  refine .flatten ?_
  rw [List.forall₂_map_left_iff, List.forall₂_map_right_iff]
  exact h.imp hrender

theorem forall₂_of_length {A : Type} {as bs : List A} (h : as.length = bs.length) :
    List.Forall₂ (fun _ _ => True) as bs := by
  induction as generalizing bs with
  | nil =>
    rw [List.length_nil, eq_comm, List.length_eq_zero_iff] at h
    rw [h]
    exact .nil
  | cons a as ih =>
    cases bs with
    | nil => cases h
    | cons b bs => exact .cons trivial (ih (Nat.succ.inj h))

/-- Elements with the same image. -/
theorem forall₂_of_map {A B : Type} {f : A → B} {as bs : List A} (h : as.map f = bs.map f) :
    List.Forall₂ (fun a b => f a = f b) as bs := by
  induction as generalizing bs with
  | nil =>
    rw [List.map_nil, eq_comm, List.map_eq_nil_iff] at h
    rw [h]
    exact .nil
  | cons a as ih =>
    cases bs with
    | nil => cases h
    | cons b bs =>
      obtain ⟨hfirst, hrest⟩ := List.cons.inj h
      exact .cons hfirst (ih hrest)

theorem same_renderMetricGroup (title : Utf16) {rows rows' : List Utf16} (h : rows.length = rows'.length) :
    SameTags (renderMetricGroup title rows) (renderMetricGroup title rows') := by
  have hrows : SameTags
      (rows.map fun row => encode "<div class=\"metric-row\">" ++ escapeHtml row ++ encode "</div>").flatten
      (rows'.map fun row => encode "<div class=\"metric-row\">" ++ escapeHtml row ++ encode "</div>").flatten :=
    same_elements (forall₂_of_length h) fun _ _ _ => same_element (by decide) (by decide) _ _
  unfold renderMetricGroup
  refine SameTags.of_closed ?_ |>.part (same_text _ _) ?_ |>.part hrows ?_
  all_goals decide

theorem same_renderMetrics (symbol symbol' : HoverSymbolView) :
    SameTags (renderMetrics symbol) (renderMetrics symbol') := by
  unfold renderMetrics
  refine same_renderMetricGroup _ ?_
    |>.append (.of_closed ?_) |>.part (same_renderMetricGroup _ ?_) ?_ |>.part (same_renderMetricGroup _ ?_) ?_
    |>.append (same_renderMetricGroup _ ?_)
  all_goals rfl

theorem same_renderCode {symbol symbol' : HoverSymbolView} (h : symbol.shape.code = symbol'.shape.code) :
    SameTags (renderCode symbol) (renderCode symbol') := by
  have hiff : symbol.symbol <:+: symbol.displayName ↔ symbol'.symbol <:+: symbol'.displayName :=
    not_iff_not.1 (decide_eq_decide.1 h)
  unfold renderCode
  by_cases hcode : symbol.symbol <:+: symbol.displayName
  · rw [if_pos hcode, if_pos (hiff.1 hcode)]
    exact .of_closed rfl
  · rw [if_neg hcode, if_neg fun hcode' => hcode (hiff.2 hcode')]
    exact same_element (by decide) (by decide) _ _

theorem renderSignal_ne_nil (signal : HoverSignalView) : renderSignal signal ≠ [] := by
  unfold renderSignal
  exact List.append_ne_nil_of_right_ne_nil _ (by decide)

theorem signals_eq_nil {signals : List HoverSignalView} : (signals.map renderSignal).flatten = [] ↔ signals = [] := by
  cases signals with
  | nil => simp
  | cons signal signals => simp [renderSignal_ne_nil]

theorem same_renderSignals {symbol symbol' : HoverSymbolView} (h : symbol.shape.signals = symbol'.shape.signals)
    (hmore : symbol.shape.moreSignals = symbol'.shape.moreSignals) :
    SameTags (renderSignals symbol) (renderSignals symbol') := by
  have hshapes : List.Forall₂ (fun a b : HoverSignalView => a.shape = b.shape) symbol.signals symbol'.signals :=
    forall₂_of_map h
  have hsignals : SameTags (symbol.signals.map renderSignal).flatten (symbol'.signals.map renderSignal).flatten :=
    same_elements hshapes fun _ _ => same_renderSignal
  have hnil : symbol.signals = [] ↔ symbol'.signals = [] := by
    rw [← List.length_eq_zero_iff, ← List.length_eq_zero_iff, hshapes.length_eq]
  have hshown : symbol.signals ≠ [] ∧ 0 < symbol.moreSignals ↔ symbol'.signals ≠ [] ∧ 0 < symbol'.moreSignals :=
    decide_eq_decide.1 hmore
  unfold renderSignals
  dsimp only
  by_cases hempty : symbol.signals = []
  · rw [if_pos (signals_eq_nil.2 hempty), if_pos (signals_eq_nil.2 (hnil.1 hempty))]
    exact .of_closed rfl
  -- Both have signals, and both or neither show how many more there are.
  have hempty' : symbol'.signals ≠ [] := fun h' => hempty (hnil.2 h')
  rw [and_iff_right hempty, and_iff_right hempty'] at hshown
  rw [if_neg fun h' => hempty (signals_eq_nil.1 h'), if_neg fun h' => hempty' (signals_eq_nil.1 h')]
  refine ((SameTags.of_closed (by decide)).append hsignals).part ?_ (by decide)
  by_cases hpos : 0 < symbol.moreSignals
  · rw [if_pos hpos, if_pos (hshown.1 hpos)]
    exact (SameTags.of_closed (by decide)).part (.of_text (not_mem_number _) (not_mem_number _))
      (by decide)
  · rw [if_neg hpos, if_neg fun h' => hpos (hshown.2 h')]
    exact .of_closed rfl

theorem same_renderSymbol {symbol symbol' : HoverSymbolView} (h : symbol.shape = symbol'.shape) :
    SameTags (renderSymbol symbol) (renderSymbol symbol') := by
  have hclass : levelClass symbol = levelClass symbol' := congrArg SymbolShape.level h
  have hclosed : ∀ c ∈ ["hot", "warm", "cold"].map encode,
      (scan .data (encode "<div class=\"chips\"><span class=\"chip level " ++ c ++ encode "\">")).1 = .data := by
    decide
  have hchips := hclosed (levelClass symbol) (fixedClass_mem _ (by decide))
  have hcode := same_renderCode (congrArg SymbolShape.code h)
  have hsignals := same_renderSignals (congrArg SymbolShape.signals h) (congrArg SymbolShape.moreSignals h)
  have hfeed : SameTags
      (ifDefined symbol.feedStatus
        fun status => encode "<span class=\"chip\">" ++ escapeHtml status ++ encode "</span>")
      (ifDefined symbol'.feedStatus
        fun status => encode "<span class=\"chip\">" ++ escapeHtml status ++ encode "</span>") :=
    same_ifDefined (congrArg SymbolShape.feed h)
      fun _ _ => same_element (by decide) (by decide) _ _
  unfold renderSymbol
  rw [← hclass]
  -- The name, the code, the price and the change; the level and the feed; and the signals and the metrics.
  refine SameTags.of_closed ?_
    |>.part (same_text _ _) ?_
    |>.part hcode ?_
    |>.part (same_text _ _) ?_
    |>.part (same_text _ _) ?_
    |>.append (.of_closed hchips)
    |>.part (same_text _ _) ?_
    |>.part hfeed ?_
    |>.part hsignals ?_
    |>.part (same_renderMetrics _ _) ?_
  all_goals decide +kernel

theorem same_renderTopMeta {model model' : HoverModel} (h : model.shape.chips = model'.shape.chips) :
    SameTags (renderTopMeta model) (renderTopMeta model') :=
  same_elements (forall₂_of_length h) fun _ _ _ => same_element (by decide) (by decide) _ _

theorem same_renderLifecycle {model model' : HoverModel} (h : model.shape.lifecycle = model'.shape.lifecycle)
    (hsymbols : model.symbols = [] ↔ model'.symbols = []) :
    SameTags (renderLifecycle model) (renderLifecycle model') := by
  unfold HoverModel.shape at h
  dsimp only at h
  unfold renderLifecycle
  by_cases hempty : model.symbols = []
  · rw [if_pos hempty, if_pos (hsymbols.1 hempty)] at h ⊢
    cases hmessage : model.lifecycleMessage with
    | none =>
      cases hmessage' : model'.lifecycleMessage with
      | none => exact .of_closed rfl
      | some message' => simp [hmessage, hmessage'] at h
    | some message =>
      cases hmessage' : model'.lifecycleMessage with
      | none => simp [hmessage, hmessage'] at h
      | some message' =>
        have hhint : model.outputHint.isSome = model'.outputHint.isSome := by simpa [hmessage, hmessage'] using h
        unfold ifDefined
        dsimp only
        refine SameTags.of_closed ?_
          |>.part (same_text _ _) ?_
          |>.part (same_ifDefined hhint fun _ _ => same_element ?_ ?_ _ _) ?_
        all_goals decide
  · rw [if_neg hempty, if_neg fun hempty' => hempty (hsymbols.2 hempty')]
    exact .of_closed rfl

/-- **Bodies of models of one shape** have the same tags, and leave none open. -/
theorem same_renderDetailsBody {model model' : HoverModel} (h : model.shape = model'.shape) :
    SameTags (renderDetailsBody model) (renderDetailsBody model') := by
  have hshapes : List.Forall₂ (fun a b : HoverSymbolView => a.shape = b.shape) model.symbols model'.symbols :=
    forall₂_of_map (congrArg ModelShape.symbols h)
  have hsymbols : model.symbols = [] ↔ model'.symbols = [] := by
    rw [← List.length_eq_zero_iff, ← List.length_eq_zero_iff, hshapes.length_eq]
  have hmeta := same_renderTopMeta (congrArg ModelShape.chips h)
  have hlifecycle := same_renderLifecycle (congrArg ModelShape.lifecycle h) hsymbols
  unfold renderDetailsBody
  refine SameTags.of_closed ?_
    |>.part hmeta ?_
    |>.part hlifecycle ?_
    |>.part (same_elements hshapes fun _ _ => same_renderSymbol) ?_
  all_goals decide +kernel

/-- **The panel is safe from injection**: the tags and attributes of a body depend on the shape of the model only,
and a body leaves no tag open. -/
theorem renderDetailsBody_tags {model model' : HoverModel} (h : model.shape = model'.shape) :
    tags (renderDetailsBody model) = tags (renderDetailsBody model') ∧
      (scan .data (renderDetailsBody model)).1 = .data := by
  have hsame := same_renderDetailsBody h
  refine ⟨hsame.tags_eq, ?_⟩
  obtain ⟨found, hscan, -⟩ := hsame
  rw [hscan]

/-- A model with one signal of which some texts vary. -/
def signalModel (displayName body aiBody : String) : HoverModel where
  connection := some (encode "正常")
  symbols := [{
    symbol := encode "600519.SH"
    displayName := encode displayName
    level := encode "HOT"
    price := encode "1500.00"
    changeDay := encode "+1.20%"
    change1m := encode "+0.80%"
    change5m := encode "+1.10%"
    change15m := encode "+1.50%"
    volumeRatio1m := encode "2.00x"
    volumeRatio5m := encode "1.50x"
    ema5 := encode "1495.00"
    ema20 := encode "1488.00"
    rsi14 := encode "64.0"
    vwap := encode "1492.00"
    sessionHighObs := encode "1501.00"
    sessionLowObs := encode "1478.00"
    sessionHighRef := encode "1490.00"
    sessionLowRef := encode "1470.00"
    signals := [{
      priority := encode "IMPORTANT"
      direction := encode "up"
      family := encode "price_volume"
      body := encode body
      ruleLabel := encode "规则信号"
      aiLabel := encode "AI 增强"
      aiBody := some (encode aiBody) }]
    moreSignals := 0 }]

theorem renderDetailsBody_tags_script :
    tags (renderDetailsBody (signalModel "贵州茅台" "放量" "摘要")) =
      tags (renderDetailsBody
        (signalModel "<script>alert(1)</script>" "\"><b onclick='x'>" "&lt;</div><img src=x onerror=alert(1)>")) :=
  (renderDetailsBody_tags (by decide +kernel)).1

end MarketSentinel.Extension
