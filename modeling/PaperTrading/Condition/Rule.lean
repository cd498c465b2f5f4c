import PaperTrading.Condition.Pattern
import PaperTrading.Condition.Source

/-!
# Conditions

A condition block is true or false at a moment of the market.  A source that cannot be resolved makes
it false.

* `crosses`: whether one line crosses another between two moments.
* `Comparison`: the comparisons of a threshold.
* `Condition.crossover`, `Condition.threshold`, `Condition.priceAction`: the three kinds.
* `Condition.evaluate`: a condition block given by the name of its kind.
-/

namespace PaperTrading

variable {α : Type} [Arith α]

/-! ### Crossing -/

/-- **Whether the first line crosses the second** between two moments, in a given direction. -/
def crosses (previous₁ previous₂ current₁ current₂ : α) (direction : Value α) : Bool :=
  let bullish := decide (previous₁ ≤ previous₂) && decide (current₂ < current₁)
  let bearish := decide (previous₂ ≤ previous₁) && decide (current₁ < current₂)
  if direction.isOneOf ["above", "bullish"] then bullish
  else if direction.isOneOf ["below", "bearish"] then bearish
  else if direction.isText "any" then bullish || bearish
  else false

/-! ### Comparing -/

/-- The comparisons of a threshold. -/
inductive Comparison where
  | above
  | below
  | equal
  | atLeast
  | atMost
  deriving DecidableEq, Repr

namespace Comparison

/-- The comparison of a sign or a name. -/
def ofName? : String → Option Comparison
  | ">" | "greater_than" => some above
  | "<" | "less_than" => some below
  | "==" | "===" | "equals" => some equal
  | ">=" | "greater_than_equals" => some atLeast
  | "<=" | "less_than_equals" => some atMost
  | _ => none

/-- Whether a comparison holds between two numbers. -/
def holds (c : Comparison) (x y : α) : Bool :=
  match c with
  | above => y < x
  | below => x < y
  | equal => x == y
  | atLeast => y ≤ x
  | atMost => x ≤ y

end Comparison

/-! ### The kinds -/

namespace Condition

/-- A setting with a text that stands in for a missing one. -/
def settingOr (settings : Table (Value α)) (name default : String) : Value α :=
  (settings.find? name).getD (.text default)

/-- **A crossing of two sources** between the last two moments. -/
def crossover (settings : Table (Value α)) (market : Market α) (readouts : Table (Readout α)) :
    Except Failure Bool := do
  let source (type address : String) (moment : Moment) : Except Failure (Option α) :=
    Source.resolve (Value.get settings type) (Value.get settings address) market readouts moment
  let current₁ ← source "source1Type" "source1" .current
  let current₂ ← source "source2Type" "source2" .current
  let previous₁ ← source "source1Type" "source1" .previous
  let previous₂ ← source "source2Type" "source2" .previous
  match current₁, current₂, previous₁, previous₂ with
  | some c₁, some c₂, some p₁, some p₂ =>
    return crosses p₁ p₂ c₁ c₂ (settingOr settings "direction" "above")
  | _, _, _, _ => return false

/-- **A comparison of a source with a number.** -/
def threshold (settings : Table (Value α)) (market : Market α) (readouts : Table (Readout α)) :
    Except Failure Bool := do
  let type := Value.get settings "sourceType"
  match ← Source.resolve type (Value.get settings "source") market readouts .current with
  | none => return false
  | some x =>
    let sign ← (settingOr settings "operator" "").key
    let limit ← Source.number? (Value.get settings "value")
    match sign.bind Comparison.ofName?, limit with
    | some c, some y => return c.holds x y
    | _, _ => return false

/-- How many candles back a pattern looks. -/
def lookbackSetting (settings : Table (Value α)) : Except Failure Int :=
  ((Value.get settings "lookbackPeriod").orElse (.int 1)).toInteger

/-- **A pattern at the end of the history of a symbol.** -/
def priceAction (settings : Table (Value α)) (market : Market α) : Except Failure Bool := do
  let quote ← (settingOr settings "symbol" "").lookUp market
  match (quote.elim [] (·.history)).reverse with
  | current :: previous :: earlier =>
    let name ← (settingOr settings "patternType" "").key
    match name.bind Pattern.ofName? with
    | none => return false
    | some p =>
      return p.holds (← lookbackSetting settings) (previous :: earlier).reverse previous current
  | _ => return false

/-- The condition of a known kind. -/
def holds (kind : ConditionKind) (settings : Table (Value α)) (market : Market α)
    (readouts : Table (Readout α)) : Except Failure Bool :=
  match kind with
  | .crossover => crossover settings market readouts
  | .threshold => threshold settings market readouts
  | .priceAction => priceAction settings market

/-- **A condition block** over a market and the studies of the run. -/
def evaluate (kind : String) (market : Market α) (readouts : Table (Readout α))
    (settings : Table (Value α)) : Except Failure Bool :=
  match ConditionKind.ofName? kind with
  | some k => holds k settings market readouts
  | none => .error (.unknownKind .condition kind)

end Condition

end PaperTrading
