/-!
# The vocabulary of strategies

A strategy is a list of blocks.  A block plays one of three roles, and each role knows a fixed list
of kinds.  Documents name both by text.

* `Role`: indicator, condition or action.
* `IndicatorKind`, `ConditionKind`, `ActionKind`: the kinds of each role.
* `Role.kinds`: the names of the kinds that a role knows, in the order in which they are listed.
-/

namespace PaperTrading

/-- **What a block does** in a strategy. -/
inductive Role where
  | indicator
  | condition
  | action
  deriving DecidableEq, Repr

/-- The kinds of indicator. -/
inductive IndicatorKind where
  | sma
  | ema
  | rsi
  | macd
  | bollinger
  deriving DecidableEq, Repr

/-- The kinds of condition. -/
inductive ConditionKind where
  | crossover
  | threshold
  | priceAction
  deriving DecidableEq, Repr

/-- The kinds of action. -/
inductive ActionKind where
  | buy
  | sell
  | stopLoss
  | takeProfit
  deriving DecidableEq, Repr

namespace Role

def all : List Role := [indicator, condition, action]

def name : Role → String
  | indicator => "indicator"
  | condition => "condition"
  | action => "action"

/-- The role of a given name. -/
def ofName? (s : String) : Option Role := all.find? (·.name == s)

end Role

namespace IndicatorKind

def all : List IndicatorKind := [sma, ema, rsi, macd, bollinger]

def name : IndicatorKind → String
  | sma => "sma"
  | ema => "ema"
  | rsi => "rsi"
  | macd => "macd"
  | bollinger => "bb"

/-- The kind of indicator of a given name. -/
def ofName? (s : String) : Option IndicatorKind := all.find? (·.name == s)

end IndicatorKind

namespace ConditionKind

def all : List ConditionKind := [crossover, threshold, priceAction]

def name : ConditionKind → String
  | crossover => "crossover"
  | threshold => "threshold"
  | priceAction => "price_action"

/-- The kind of condition of a given name. -/
def ofName? (s : String) : Option ConditionKind := all.find? (·.name == s)

end ConditionKind

namespace ActionKind

def all : List ActionKind := [buy, sell, stopLoss, takeProfit]

def name : ActionKind → String
  | buy => "buy"
  | sell => "sell"
  | stopLoss => "stop_loss"
  | takeProfit => "take_profit"

/-- The kind of action of a given name. -/
def ofName? (s : String) : Option ActionKind := all.find? (·.name == s)

end ActionKind

/-- The names of the kinds that a role knows. -/
def Role.kinds : Role → List String
  | indicator => IndicatorKind.all.map IndicatorKind.name
  | condition => ConditionKind.all.map ConditionKind.name
  | action => ActionKind.all.map ActionKind.name

/-! ### Names and kinds belong together -/

theorem Role.ofName?_name (r : Role) : ofName? r.name = some r := by
  cases r <;> decide

theorem IndicatorKind.ofName?_name (k : IndicatorKind) : ofName? k.name = some k := by
  cases k <;> decide

theorem ConditionKind.ofName?_name (k : ConditionKind) : ofName? k.name = some k := by
  cases k <;> decide

theorem ActionKind.ofName?_name (k : ActionKind) : ofName? k.name = some k := by
  cases k <;> decide

end PaperTrading
