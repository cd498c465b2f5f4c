import PaperTrading.Market.Quote

/-!
# Candle patterns

A pattern is a property of the last candle of a history, measured against the candles before it.

* `Pattern`: the patterns by name.
* `lookback`: the candles that a breakout is measured against.
* `Pattern.holds`: whether a pattern is seen at the end of a history.
-/

namespace PaperTrading

/-- **The patterns.** -/
inductive Pattern where
  | bullishCandle
  | bearishCandle
  | doji
  | hammer
  | engulfingBullish
  | engulfingBearish
  | higherHigh
  | lowerLow
  | higherClose
  | lowerClose
  deriving DecidableEq, Repr

namespace Pattern

def all : List Pattern :=
  [bullishCandle, bearishCandle, doji, hammer, engulfingBullish, engulfingBearish, higherHigh,
    lowerLow, higherClose, lowerClose]

def name : Pattern → String
  | bullishCandle => "bullish_candle"
  | bearishCandle => "bearish_candle"
  | doji => "doji"
  | hammer => "hammer"
  | engulfingBullish => "engulfing_bullish"
  | engulfingBearish => "engulfing_bearish"
  | higherHigh => "higher_high"
  | lowerLow => "lower_low"
  | higherClose => "higher_close"
  | lowerClose => "lower_close"

/-- The pattern of a given name. -/
def ofName? (s : String) : Option Pattern := all.find? (·.name == s)

theorem ofName?_name (p : Pattern) : ofName? p.name = some p := by
  cases p <;> decide

end Pattern

variable {α : Type}

/-- **The last `n` entries before the current one.** -/
def lookback (n : Int) (before : List (Candle α)) : List (Candle α) :=
  before.drop (max 0 (before.length - n)).toNat

variable [Arith α]

namespace Candle

/-- A candle that closes above its opening. -/
def isBullish (c : Candle α) : Bool := c.opening < c.close

/-- A candle that closes below its opening. -/
def isBearish (c : Candle α) : Bool := c.close < c.opening

/-- A candle whose body is smaller than a tenth of its range.  A candle without a range has nothing
to measure the body against. -/
def isDoji (c : Candle α) : Bool :=
  let range := c.high - c.low
  !decide (range ≤ 0.0) && decide (Arith.size (c.close - c.opening) / range < 0.1)

/-- A bullish candle with a long wick below its body and a short one above. -/
def isHammer (c : Candle α) : Bool :=
  let body := c.close - c.opening
  !decide (c.close ≤ c.opening) && decide (2.0 * body < c.opening - c.low)
    && decide (c.high - c.close < body)

end Candle

/-- **A pattern at the end of a history** with the given last candle, the one before it, and all
candles before it. -/
def Pattern.holds (p : Pattern) (n : Int) (before : List (Candle α)) (previous current : Candle α) :
    Bool :=
  match p with
  | .bullishCandle => current.isBullish
  | .bearishCandle => current.isBearish
  | .doji => current.isDoji
  | .hammer => current.isHammer
  | .engulfingBullish =>
    current.isBullish && previous.isBearish && decide (current.opening < previous.close)
      && decide (previous.opening < current.close)
  | .engulfingBearish =>
    current.isBearish && previous.isBullish && decide (previous.close < current.opening)
      && decide (current.close < previous.opening)
  | .higherHigh => (lookback n before).all fun c => c.high < current.high
  | .lowerLow => (lookback n before).all fun c => current.low < c.low
  | .higherClose => previous.close < current.close
  | .lowerClose => current.close < previous.close

end PaperTrading
