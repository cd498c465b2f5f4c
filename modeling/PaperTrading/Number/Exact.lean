import PaperTrading.Number.Arith
import PaperTrading.Number.Decimal

/-!
# Exact fractions

The same computations without rounding.  There is no infinity and no value that is not a number, so a
numeral that names one stands for nothing.  The square root is a parameter, because most fractions
have none.

* `Exact.arith`: the arithmetic of fractions with a given square root.
-/

namespace PaperTrading

namespace Exact

/-- The fraction that a numeral stands for. -/
def ofNumeral? : Numeral → Option Rat
  | .finite negative digits exponent =>
    let size : Rat := OfScientific.ofScientific digits (exponent < 0) exponent.natAbs
    some (if negative then -size else size)
  | _ => none

/-- The text of a fraction. -/
def written (x : Rat) : String :=
  if x.den = 1 then toString x.num else toString x.num ++ "/" ++ toString x.den

/-- The fraction with so many places that is nearest; a tie goes to the even last digit. -/
def roundTo (places : Nat) (x : Rat) : Rat :=
  let n := roundHalfEven (x.num.natAbs * Nat.pow 10 places) x.den
  let size : Rat := OfScientific.ofScientific n true places
  if x < 0 then -size else size

/-- **Exact arithmetic** with a given square root. -/
@[reducible] def arith (root : Rat → Rat) : Arith Rat where
  decLt x y := inferInstanceAs (Decidable (x < y))
  decLe x y := inferInstanceAs (Decidable (x ≤ y))
  ofInt? n := some (n : Rat)
  ofNumeral? := ofNumeral?
  isNaN _ := false
  isInfinite _ := false
  floor x := x.floor
  square? x := some (x * x)
  sqrt := root
  written := written
  fixed places x := written (roundTo places x)
  roundTo := roundTo

end Exact

end PaperTrading
