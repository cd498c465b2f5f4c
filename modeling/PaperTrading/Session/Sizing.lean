import PaperTrading.Number.Arith

/-!
# Position sizing

How many whole shares a trade is for when its signal does not say so.

* `Sizing.affordable`: the shares that a fraction of the cash buys.
* `Sizing.part`: the shares that a fraction of a position is.
-/

namespace PaperTrading.Sizing

open Arith

variable {α : Type} [Arith α]

/-- **The shares that a fraction of the cash buys** at a price, rounded down. -/
def affordable (cash risk price : α) : Except Failure Int :=
  if price ≤ 0.0 then .error (.notPositive "price" (written price))
  else if cash < 0.0 then .error (.negative "cash_balance" (written cash))
  else if risk < 0.0 then .error (.negative "risk_fraction" (written risk))
  else floored (cash * risk / price)

/-- **The shares that a fraction of a position is,** rounded down.  The fraction is brought into the
range from zero to one, and a product just below a whole number counts as that number. -/
def part (held : Int) (fraction : α) : Except Failure Int := do
  floored ((← ofInteger α held) * clamp fraction + 1e-9)

end PaperTrading.Sizing
