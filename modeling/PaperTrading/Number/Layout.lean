import PaperTrading.Number.Decimal

/-!
# Written doubles

The text of a double, laid out from its decimal digits.

* `Digits.text`: the digits as a number with a point, or with an exponent when the number is very
  large or very small.
* `Binary64.written`: the shortest text that reads back as the same double.
* `Binary64.fixed`: a double with a fixed number of places, a tie going to the even last digit.
-/

namespace PaperTrading

/-- A minus sign in front of a text. -/
def signed (negative : Bool) (s : String) : String := if negative then "-" ++ s else s

namespace Digits

/-- The decimal exponents of a first digit that is written without an exponent. -/
def isPositional (e : Int) : Bool := -4 ≤ e && e < 16

/-- The digits of a number without zeros at its end, and the number of zeros that were dropped. -/
def withoutZeros : List Char → List Char × Nat
  | [] => ([], 0)
  | c :: cs => match withoutZeros cs with
    | ([], n) => if c = '0' then ([], n + 1) else ([c], n)
    | (ds, n) => (c :: ds, n)

/-- An exponent with its sign and at least two digits. -/
def exponentText (e : Int) : String :=
  let ds := toString e.natAbs
  (if e < 0 then "e-" else "e+") ++ (if ds.length < 2 then "0" ++ ds else ds)

/-- **The text of a positive number given by its digits.** -/
def text (d : Digits) : String :=
  let (ds, dropped) := withoutZeros (Nat.toDigits 10 d.digits)
  let e : Int := d.exponent + dropped
  let first : Int := e + ds.length - 1
  if isPositional first then
    if 0 ≤ e then String.ofList (ds ++ List.replicate e.toNat '0') ++ ".0"
    else if 0 ≤ first then
      String.ofList (ds.take (first.toNat + 1) ++ '.' :: ds.drop (first.toNat + 1))
    else "0." ++ String.ofList (List.replicate (-first - 1).toNat '0' ++ ds)
  else
    let point := if ds.length = 1 then [] else '.' :: ds.drop 1
    String.ofList (ds.take 1 ++ point) ++ exponentText first

example : text ⟨12345, -2⟩ = "123.45" ∧ text ⟨1, -5⟩ = "1e-05" ∧ text ⟨10, 15⟩ = "1e+16"
    ∧ text ⟨25, -5⟩ = "0.00025" ∧ text ⟨3, 2⟩ = "300.0" := by decide +kernel

end Digits

namespace Binary64

/-- **The shortest text that reads back.** -/
def written : Binary64 → String
  | .nan => "nan"
  | .infinity negative => signed negative "inf"
  | .finite negative m q narrowBelow =>
    signed negative (if m = 0 then "0.0" else (Digits.shortest m q narrowBelow).text)

/-- The digits of `n` with the last `places` of them behind a point. -/
def withPlaces (places n : Nat) : String :=
  let ds := Nat.toDigits 10 n
  let ds := List.replicate (places + 1 - ds.length) '0' ++ ds
  let whole := ds.length - places
  String.ofList (ds.take whole ++ if places = 0 then [] else '.' :: ds.drop whole)

/-- The nearest multiple of `10 ^ -places` to a size `m * 2 ^ q`, as a count of such units. -/
def units (places m : Nat) (q : Int) : Nat :=
  let (n, d) := fraction m q
  roundHalfEven (n * Nat.pow 10 places) d

/-- **A double with a fixed number of places.** -/
def fixed (places : Nat) : Binary64 → String
  | .nan => "nan"
  | .infinity negative => signed negative "inf"
  | .finite negative m q _ => signed negative (withPlaces places (units places m q))

example : written (ofFloat 0.1) = "0.1" ∧ written (ofFloat (-0.0)) = "-0.0"
    ∧ written (ofFloat 1e16) = "1e+16" ∧ fixed 2 (ofFloat 0.125) = "0.12"
    ∧ fixed 2 (ofFloat (-0.001)) = "-0.00" := by decide +kernel

end Binary64

end PaperTrading
