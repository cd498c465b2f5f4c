import PaperTrading.Session.Basic
import PaperTrading.Session.Sizing

/-!
# Executing signals

A signal changes cash, positions and the trade log together, or nothing at all.

* `Session.buy`, `Session.sell`: the two trades.
* `Session.execute`: one signal; a failure leaves the session as it was.
-/

namespace PaperTrading

open Arith

variable {α : Type} [Arith α]

/-- The price at which a signal is executed: its own, else the live price, else zero. -/
def Signal.priceIn (signal : Signal α) (market : Market α) : Except Failure α :=
  match signal.price.filter isNonzero with
  | some price => .ok price
  | none => do return (← market.livePrice signal.symbol).getD 0.0

namespace Session

/-! ### Positions -/

/-- The positions with the first one in a symbol replaced by others. -/
def replaceFirst (symbol : Value α) (new : List (Position α)) :
    List (Position α) → List (Position α)
  | [] => []
  | p :: ps => if p.symbol.same symbol then new ++ ps else p :: replaceFirst symbol new ps

/-- A position after a buy: the average cost is weighted by the quantities. -/
def enlarge (now : Instant) (p : Position α) (quantity : Int) (cost : α) :
    Except Failure (Position α) := do
  let total := p.quantity + quantity
  let paid := (← times p.averageCost p.quantity) + cost
  return { p with averageCost := ← dividedBy paid total, quantity := total, lastUpdated := now }

/-- The positions after a buy. -/
def positionsAfterBuy (now : Instant) (s : Session α) (symbol : Value α) (quantity : Int)
    (price cost : α) : Except Failure (List (Position α)) :=
  match s.positionIn symbol with
  | some p => do
    return replaceFirst symbol [← enlarge now p quantity cost] s.positions
  | none => .ok (s.positions ++ [⟨symbol, quantity, price, price, now, now⟩])

/-- The positions after shares of the position in a symbol have been sold; an empty position is
dropped. -/
def positionsAfterSell (now : Instant) (s : Session α) (symbol : Value α) (p : Position α)
    (quantity : Int) : List (Position α) :=
  let left := p.quantity - quantity
  replaceFirst symbol
    (if left ≤ 0 then [] else [{ p with quantity := left, lastUpdated := now }]) s.positions

/-! ### Quantities -/

/-- The shares that the risk of a trade pays for. -/
def affordableQuantity (s : Session α) (risk : Option α) (price : α) : Except Failure Int :=
  Sizing.affordable s.cash ((risk.filter isNonzero).getD s.settings.riskPerTrade) price

/-- The shares that a buy is for. -/
def buyQuantity (s : Session α) (quantity : Option Int) (risk : Option α) (price : α) :
    Except Failure Int :=
  match quantity.filter (· ≠ 0) with
  | some n => .ok n
  | none => s.affordableQuantity risk price

/-- The shares that a sell is for. -/
def sellQuantity (s : Session α) (p : Position α) (quantity : Option Int)
    (risk fraction : Option α) (price : α) : Except Failure Int :=
  match quantity.filter (· ≠ 0), fraction with
  | some n, _ => .ok n
  | none, some f => Sizing.part p.quantity f
  | none, none => s.affordableQuantity risk price

/-! ### Trades -/

/-- **A buy.**  It has to be for at least one share, and the cash has to cover it. -/
def buy (now : Instant) (s : Session α) (symbol : Value α) (price : α) (quantity : Option Int)
    (risk : Option α) : Except Failure (Session α × Transaction α) := do
  let n ← s.buyQuantity quantity risk price
  if n ≤ 0 then throw (.cannotAffordOne symbol.display (written price) (fixed 2 s.cash))
  let cost ← times price n
  if s.cash < cost then throw (.cannotAfford n symbol.display (written price))
  let positions ← s.positionsAfterBuy now symbol n price cost
  let t : Transaction α := ⟨symbol, n, price, cost, now, none⟩
  return ({ s with positions, cash := s.cash - cost, transactions := s.transactions ++ [t] }, t)

/-- **A sell.**  It has to be for at least one share, and for no more than are held. -/
def sell (now : Instant) (s : Session α) (symbol : Value α) (price : α) (quantity : Option Int)
    (risk fraction : Option α) : Except Failure (Session α × Transaction α) := do
  match s.positionIn symbol with
  | none => throw (.noPosition symbol.display)
  | some p =>
    let n ← s.sellQuantity p quantity risk fraction price
    if n ≤ 0 ∨ p.quantity < n then throw (.notEnoughShares n symbol.display p.quantity)
    let value ← times price n
    let profit ← times (price - p.averageCost) n
    let t : Transaction α := ⟨symbol, n, price, value, now, some profit⟩
    return ({ s with
      positions := s.positionsAfterSell now symbol p n
      cash := s.cash + value
      transactions := s.transactions ++ [t] }, t)

/-- The session with one more protective order. -/
def protect (now : Instant) (s : Session α) (symbol : Value α) (price : Option α)
    (protection : Protection) (type : Value α) (value : Option α) (trailingType : Value α)
    (trailingValue : Option α) : Session α :=
  { s with protectiveOrders := s.protectiveOrders ++ [{
      protection, symbol, value, trailingType, trailingValue
      referencePrice := (price.filter isNonzero).getD 0.0
      type := type.orElse (.text "price")
      time := now }] }

/-- A trade at a price that has to be positive. -/
def trade (now : Instant) (s : Session α) (symbol : Value α) (price : α) (side : Side)
    (quantity : Option Int) (risk fraction : Option α) :
    Except Failure (Session α × Transaction α) :=
  if price ≤ 0.0 then .error (.invalidPrice side.name symbol.display (written price))
  else match side with
    | .buy => s.buy now symbol price quantity risk
    | .sell => s.sell now symbol price quantity risk fraction
    | .other name => .error (.unsupportedSide name)

/-- **One signal.**  A trade yields its transaction; a protection is only recorded. -/
def execute (now : Instant) (market : Market α) (s : Session α) (signal : Signal α) :
    Except Failure (Session α × Option (Transaction α)) :=
  match signal.order with
  | .protect protection type value trailingType trailingValue =>
    .ok (s.protect now signal.symbol signal.price protection type value trailingType
      trailingValue, none)
  | .trade side _ quantity risk fraction => do
    let price ← signal.priceIn market
    let (s, t) ← s.trade now signal.symbol price side quantity risk fraction
    return (s, some t)

end Session

end PaperTrading
