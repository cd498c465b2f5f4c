import PaperTrading.Number.Arith
import PaperTrading.Number.Layout

/-!
# Doubles

The arithmetic in which the program runs.  Sums, products and comparisons are those of the hardware;
whatever is written or rounded to places is computed exactly from the bits.

* `Double.ofInt?`, `Double.ofNumeral`: the double nearest to an integer and to a numeral.
* `Double.roundTo`: the double nearest to the decimal with so many places that is nearest to a double.
* The instance `Arith Float`.
-/

namespace PaperTrading

namespace Double

/-- The double nearest to `n * 10 ^ e`.  Beyond 400 places on either side the result is infinite or
zero, whatever the digits are. -/
def nearest (n : Nat) (e : Int) : Float :=
  let top : Int := e + (n.log2 * 30103 / 100000 : Nat)
  if n = 0 ∨ top < -400 then 0.0
  else if 400 < top then 1.0 / 0.0
  else OfScientific.ofScientific n (e < 0) e.natAbs

/-- A double with a sign. -/
def withSign (negative : Bool) (x : Float) : Float := if negative then -x else x

/-- The double nearest to an integer, if one is. -/
def ofInt? (n : Int) : Option Float :=
  let x := nearest n.natAbs 0
  if x.isInf then none else some (withSign (n < 0) x)

/-- The double nearest to a numeral. -/
def ofNumeral : Numeral → Float
  | .finite negative digits exponent => withSign negative (nearest digits exponent)
  | .infinity negative => withSign negative (1.0 / 0.0)
  | .nan => 0.0 / 0.0

/-- The square of a double, if it is not beyond the finite ones. -/
def square? (x : Float) : Option Float :=
  let y := Float.pow x 2.0
  if y.isInf && !x.isInf then none else some y

/-- The double nearest to the nearest decimal with so many places. -/
def roundTo (places : Nat) (x : Float) : Float :=
  match Binary64.ofFloat x with
  | .finite negative m q _ =>
    withSign negative (nearest (Binary64.units places m q) (-(places : Int)))
  | _ => x

end Double

instance : Arith Float where
  decLt x y := inferInstanceAs (Decidable (x < y))
  decLe x y := inferInstanceAs (Decidable (x ≤ y))
  ofInt? := Double.ofInt?
  ofNumeral? n := some (Double.ofNumeral n)
  isNaN x := x.isNaN
  isInfinite x := x.isInf
  floor x := (Binary64.ofFloat x).floor
  square? := Double.square?
  sqrt := Float.sqrt
  written x := (Binary64.ofFloat x).written
  fixed places x := (Binary64.ofFloat x).fixed places
  roundTo := Double.roundTo

end PaperTrading
