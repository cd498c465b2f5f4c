import PaperTrading.Indicator.Series
import PaperTrading.Market.Quote

/-!
# Indicator blocks

A block names a kind of indicator and its settings.  It is computed from the candles of one symbol and
yields a study: one series, or several named series of which conditions read one.

* `periodSetting`: a positive whole setting, with the value that stands in for a missing one.
* `leastCandles`: the least number of candles that a kind needs.
* `study`: the study of a block over a market.
* `Readout`: what conditions read of a study.
-/

namespace PaperTrading

/-- The lines of a study: one series, or several under names. -/
inductive Lines (α : Type) where
  | single (history : List α)
  | named (histories : List (String × List α))

/-- **The outcome of an indicator block.** -/
structure Study (α : Type) where
  lines : Lines α
  period : Int
  /-- The settings that were used, with their values. -/
  settings : List (String × Value α)
  timestamp : Option String
  /-- Further figures that belong to the study. -/
  extras : List (String × Value α)

/-- **What conditions read of a study:** the latest values and the histories, as values. -/
structure Readout (α : Type) where
  value : Value α
  history : Value α

/-- The studies of a run, by the block that yielded them. -/
abbrev Studies (α : Type) := Table (Study α)

variable {α : Type}

/-- A series as a value. -/
def seriesValue (xs : List α) : Value α := .list (xs.map .num)

/-- The latest value of a series. -/
def latest (xs : List α) : Value α := .ofNum? xs.getLast?

/-- The latest values of the lines. -/
def Lines.value : Lines α → Value α
  | .single xs => latest xs
  | .named hs => .object (hs.map fun h => (h.1, latest h.2))

/-- The histories of the lines. -/
def Lines.history : Lines α → Value α
  | .single xs => seriesValue xs
  | .named hs => .object (hs.map fun h => (h.1, seriesValue h.2))

/-- All series of the lines. -/
def Lines.all : Lines α → List (List α)
  | .single xs => [xs]
  | .named hs => hs.map (·.2)

def Study.readout (s : Study α) : Readout α := ⟨s.lines.value, s.lines.history⟩

/-- The document of a study. -/
def Study.toValue (s : Study α) : Value α :=
  .object ([("value", s.lines.value), ("history", s.lines.history), ("period", .int s.period),
    ("settings", .object s.settings), ("timestamp", .ofText? s.timestamp)] ++ s.extras)

namespace Indicator

variable [Arith α]

/-! ### Settings -/

/-- **A positive whole setting.**  One that is missing, empty or zero has a default. -/
def periodSetting (settings : Table (Value α)) (name : String) (default : Int) :
    Except Failure Int := do
  let raw := Value.get settings name
  if raw.isMissingOrZero then return default
  let n ← raw.toInteger
  if n ≤ 0 then throw (.settingNotPositive name n)
  return n

/-- A setting that is a number, with a default. -/
def numberSetting (settings : Table (Value α)) (name : String) (default : α) :
    Except Failure α :=
  ((Value.get settings name).orElse (.num default)).toNumber

/-- The period of a kind that has one. -/
def period (kind : IndicatorKind) (settings : Table (Value α)) : Except Failure Int :=
  match kind with
  | .sma | .rsi => periodSetting settings "period" 14
  | .ema => periodSetting settings "period" 12
  | .bollinger => periodSetting settings "period" 20
  | .macd => periodSetting settings "slowPeriod" 26

/-- The period of the signal line. -/
def signalPeriod (settings : Table (Value α)) : Except Failure Int :=
  periodSetting settings "signalPeriod" 9

/-- **The least number of candles that a kind needs.** -/
def leastCandles (kind : IndicatorKind) (settings : Table (Value α)) : Except Failure Int := do
  let n ← period kind settings
  match kind with
  | .rsi => return n + 1
  | .macd => return n + (← signalPeriod settings)
  | _ => return n

/-- The least number of candles for a kind given by name. -/
def leastCandlesNamed (kind : String) (settings : Table (Value α)) : Except Failure Int :=
  match IndicatorKind.ofName? kind with
  | some k => leastCandles k settings
  | none => .error (.noPeriods kind)

/-- The field of the candles that a block reads. -/
def priceField (settings : Table (Value α)) : Except Failure PriceField :=
  let raw := ((Value.get settings "priceField").orElse (Value.get settings "field")).orElse
    (.text "close")
  match raw with
  | .text s => match PriceField.ofName? s with
    | some f => .ok f
    | none => .error (.unknownPriceField s)
  | v => .error (.unknownPriceField v.display)

/-! ### Computation -/

/-- **The study of a kind** over a list of prices. -/
def compute (kind : IndicatorKind) (prices : List α) (settings : Table (Value α))
    (timestamp : Option String) : Except Failure (Study α) := do
  match kind with
  | .sma =>
    let n ← period .sma settings
    return ⟨.single (← sma prices n), n, [("period", .int n)], timestamp, []⟩
  | .ema =>
    let n ← period .ema settings
    return ⟨.single (← ema prices n), n, [("period", .int n)], timestamp, []⟩
  | .rsi =>
    let n ← period .rsi settings
    let xs ← rsi prices n
    let overbought ← numberSetting settings "overbought" 70.0
    let oversold ← numberSetting settings "oversold" 30.0
    return ⟨.single xs, n, [("period", .int n)], timestamp,
      [("overbought", .num overbought), ("oversold", .num oversold)]⟩
  | .macd =>
    let fast ← periodSetting settings "fastPeriod" 12
    let slow ← period .macd settings
    let signal ← signalPeriod settings
    let m ← macd prices fast slow signal
    return ⟨.named [("macd", m.macd), ("signal", m.signal), ("histogram", m.histogram)], slow,
      [("fastPeriod", .int fast), ("slowPeriod", .int slow), ("signalPeriod", .int signal)],
      timestamp, []⟩
  | .bollinger =>
    let n ← period .bollinger settings
    let deviations ← numberSetting settings "deviations" 2.0
    let b ← bollinger prices n deviations
    return ⟨.named [("middle", b.middle), ("upper", b.upper), ("lower", b.lower)], n,
      [("period", .int n), ("deviations", .num deviations)], timestamp, []⟩

/-- The symbol of a block: the one that it names, or the first of the market. -/
def symbolOf (settings : Table (Value α)) (market : Market α) : Value α :=
  (Value.get settings "symbol").orElse (.ofText? market.keys.head?)

/-- The quote that a block reads; it has to have a history. -/
def quoteOf (settings : Table (Value α)) (market : Market α) : Except Failure (Quote α) := do
  let symbol := symbolOf settings market
  let quote ← if symbol.isTrue then symbol.lookUp market else .ok none
  match quote.filter (!·.history.isEmpty) with
  | some q => .ok q
  | none => .error (.noHistory symbol.display)

/-- The study of a known kind over a market. -/
def studyOf (kind : IndicatorKind) (market : Market α) (settings : Table (Value α)) :
    Except Failure (Study α) := do
  let quote ← quoteOf settings market
  let field ← priceField settings
  let prices := quote.history.map (·.value field)
  checkEnough prices.length (← leastCandles kind settings) kind.name.toUpper
  compute kind prices settings quote.timestamp

/-- **The study of an indicator block** over a market. -/
def study (kind : String) (market : Market α) (settings : Table (Value α)) :
    Except Failure (Study α) :=
  match IndicatorKind.ofName? kind with
  | some k => studyOf k market settings
  | none => .error (.unknownKind .indicator kind)

end Indicator

end PaperTrading
