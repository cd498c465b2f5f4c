import PaperTrading.Market.Quote
import PaperTrading.Time
import PaperTrading.Vocabulary

/-!
# Signals

An action block that fires emits a signal: an intent to trade a symbol, or to watch over a position.
Without a price there is nothing to trade at, and no signal is emitted.

* `Signal`: an intent, with the order that it carries.
* `Signal.generate`: the signal of an action block over a market.
-/

namespace PaperTrading

/-- What a trading signal asks for. -/
inductive Side where
  | buy
  | sell
  /-- A side that no portfolio supports. -/
  | other (name : String)
  deriving DecidableEq, Repr

/-- The two ways to watch over a position. -/
inductive Protection where
  | stopLoss
  | takeProfit
  deriving DecidableEq, Repr

def Side.name : Side → String
  | buy => "buy"
  | sell => "sell"
  | other name => name

def Protection.name : Protection → String
  | stopLoss => "stop_loss"
  | takeProfit => "take_profit"

/-- **The order that a signal carries.** -/
inductive Order (α : Type) where
  /-- A trade; without a quantity it is sized when it is executed, by a risk or by a fraction of the
  position. -/
  | trade (side : Side) (type : Value α) (quantity : Option Int) (risk fraction : Option α)
  | protect (protection : Protection) (type : Value α) (value : Option α) (trailingType : Value α)
      (trailingValue : Option α)

/-- **An intent to trade,** not yet applied to any portfolio. -/
structure Signal (α : Type) where
  symbol : Value α
  price : Option α
  time : Instant
  order : Order α

variable {α : Type}

/-- The name of what a signal asks for. -/
def Order.name : Order α → String
  | trade side .. => side.name
  | protect protection .. => protection.name

/-- The document of a signal. -/
def Signal.toValue (s : Signal α) : Value α :=
  let document (type : Value α) (quantity : Option Int) (risk fraction : Option α)
      (more : List (String × Value α)) : Value α :=
    .object ([("action", .text s.order.name), ("symbol", s.symbol), ("orderType", type),
      ("price", .ofNum? s.price), ("quantity", .ofInt? quantity), ("riskLevel", .ofNum? risk),
      ("percentage", .ofNum? fraction), ("timestamp", .text s.time.iso)] ++ more)
  match s.order with
  | .trade _ type quantity risk fraction => document type quantity risk fraction []
  | .protect _ type value trailingType trailingValue =>
    document (.text "market") none none none
      [("type", type), ("value", .ofNum? value), ("trailingType", trailingType),
        ("trailingValue", .ofNum? trailingValue)]

namespace Signal

variable [Arith α]

/-! ### Settings -/

/-- The symbol of an action block. -/
def symbolOf (settings : Table (Value α)) : Value α :=
  (Value.get settings "symbol").orElse (.text "SPY")

/-- The type of the order of an action block. -/
def orderType (settings : Table (Value α)) : Value α :=
  (Value.get settings "orderType").orElse (.text "market")

/-- The price at which a block trades: the one that it names, unless it trades at the market; else the
live price. -/
def tradingPrice (settings : Table (Value α)) (market : Market α) :
    Except Failure (Option α) := do
  let price := Value.get settings "price"
  if price.isTrue && !(orderType settings).isText "market" then return some (← price.toNumber)
  else market.livePrice (symbolOf settings)

/-- The number of shares that a block names. -/
def shares (settings : Table (Value α)) : Except Failure (Option Int) := do
  let raw := Value.get settings "quantity"
  if raw.isMissingOrZero then return none
  return some (← Arith.truncated (← raw.toNumber))

/-- A number that a block may leave out. -/
def optionalNumber (settings : Table (Value α)) (name : String) : Except Failure (Option α) := do
  let raw := Value.get settings name
  if raw.isMissing then return none
  return some (← raw.toNumber)

/-- A number that a block may leave out, with a default. -/
def numberOr (settings : Table (Value α)) (name : String) (default : α) : Except Failure α :=
  ((Value.get settings name).orElse (.num default)).toNumber

/-! ### Orders -/

/-- The order of a block that buys. -/
def buyOrder (settings : Table (Value α)) : Except Failure (Order α) := do
  let n ← shares settings
  let risk ← numberOr settings "riskLevel" 0.02
  return .trade .buy (orderType settings) n (some risk) none

/-- The order of a block that sells; the fraction is given in percent. -/
def sellOrder (settings : Table (Value α)) : Except Failure (Order α) := do
  let percent ← numberOr settings "percentage" 100.0
  let n ← shares settings
  return .trade .sell (orderType settings) n none (some (Arith.clamp (percent / 100.0)))

/-- The type of protection of a block. -/
def protectionType (settings : Table (Value α)) : Value α :=
  (Value.get settings "type").orElse (.text "price")

/-- The order of a block that limits a loss. -/
def stopLossOrder (settings : Table (Value α)) : Except Failure (Order α) := do
  let value ← optionalNumber settings "value"
  let trailing ← numberOr settings "trailingValue" 0.0
  return .protect .stopLoss (protectionType settings) value
    ((Value.get settings "trailingType").orElse (.text "none")) (some trailing)

/-- The order of a block that takes a profit. -/
def takeProfitOrder (settings : Table (Value α)) : Except Failure (Order α) := do
  let value ← optionalNumber settings "value"
  return .protect .takeProfit (protectionType settings) value .null none

/-- The order of a block of a known kind. -/
def orderOf (kind : ActionKind) (settings : Table (Value α)) : Except Failure (Order α) :=
  match kind with
  | .buy => buyOrder settings
  | .sell => sellOrder settings
  | .stopLoss => stopLossOrder settings
  | .takeProfit => takeProfitOrder settings

/-- The price of a block of a known kind; protections always start from the live price. -/
def priceOf (kind : ActionKind) (settings : Table (Value α)) (market : Market α) :
    Except Failure (Option α) :=
  match kind with
  | .buy | .sell => tradingPrice settings market
  | .stopLoss | .takeProfit => market.livePrice (symbolOf settings)

/-- **The signal of a block of a known kind;** none without a price. -/
def emit (now : Instant) (kind : ActionKind) (settings : Table (Value α)) (market : Market α) :
    Except Failure (Option (Signal α)) := do
  match ← priceOf kind settings market with
  | none => return none
  | some price =>
    return some ⟨symbolOf settings, some price, now, ← orderOf kind settings⟩

/-- **The signal of an action block.** -/
def generate (now : Instant) (kind : String) (settings : Table (Value α)) (market : Market α) :
    Except Failure (Option (Signal α)) :=
  match ActionKind.ofName? kind with
  | some k => emit now k settings market
  | none => .error (.unknownKind .action kind)

variable {settings : Table (Value α)}

/-- A block may leave out the number of shares. -/
theorem shares_of_missing (h : (Value.get settings "quantity").isMissingOrZero = true) :
    shares settings = .ok none := by
  unfold shares
  rw [if_pos h]
  rfl

theorem numberOr_of_isTrue {name : String} (h : (Value.get settings name).isTrue = true)
    (default : α) : numberOr settings name default = (Value.get settings name).toNumber := by
  unfold numberOr
  rw [Value.orElse_of_isTrue h]

/-- What does not count as given is left out. -/
theorem numberOr_of_isTrue_eq_false {name : String}
    (h : (Value.get settings name).isTrue = false) (default : α) :
    numberOr settings name default = .ok default := by
  unfold numberOr Value.orElse
  rw [h]
  rfl

/-- **The signal of a block with a price** carries the order of the block. -/
theorem generate_of_order {now : Instant} {kind : String} {k : ActionKind} {market : Market α}
    {price : α} {order : Order α} (hkind : ActionKind.ofName? kind = some k)
    (hprice : priceOf k settings market = .ok (some price))
    (horder : orderOf k settings = .ok order) :
    generate now kind settings market =
      .ok (some ⟨symbolOf settings, some price, now, order⟩) := by
  unfold generate
  rw [hkind]
  dsimp only
  unfold emit
  rw [hprice]
  show (orderOf k settings >>= _) = _
  rw [horder]
  rfl

end Signal

end PaperTrading
