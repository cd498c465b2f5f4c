import PaperTrading.Number.Binary64

/-!
# Decimal digits of doubles

Two ways to write a double in decimal: with the fewest digits that read back as the same double, and
with a fixed number of places.  Both are exact arithmetic on the fraction that the double is.

* `roundHalfEven`: the integer nearest to a fraction, a tie going to the even one.
* `Digits.shortest`: the fewest digits that read back, the nearest of those, a tie going to the even.
-/

namespace PaperTrading

/-- The integer nearest to `n / d`; a tie goes to the even neighbour. -/
def roundHalfEven (n d : Nat) : Nat :=
  let q := n / d
  let r := n % d
  if 2 * r < d then q
  else if d < 2 * r then q + 1
  else if q % 2 = 0 then q else q + 1

/-- **Digits with a decimal exponent:** the number `digits * 10 ^ exponent`. -/
structure Digits where
  digits : Nat
  exponent : Int
  deriving DecidableEq, Repr

namespace Digits

/-- Counts up from `k` to the first power of ten above `n / d`, in at most `steps` steps. -/
def raise (n d : Nat) : Nat → Int → Int
  | 0, k => k
  | steps + 1, k =>
    if n * Nat.pow 10 (-k).toNat < d * Nat.pow 10 k.toNat then k else raise n d steps (k + 1)

/-- The exponent of the least power of ten above `n / d`.  The binary lengths of the two numbers give
a start that is below it by at most four. -/
def magnitude (n d : Nat) : Int :=
  raise n d 5 (((n.log2 : Int) - d.log2) * 30103 / 100000 - 1)

/-- The multiple of `10 ^ e` that reads back as the double `m * 2 ^ q` and is nearest to it, if there
is one.  In quarters of `2 ^ q` the numbers that read back lie between `lo` and `hi`, ends included
when `m` is even. -/
def onGrid (m : Nat) (q : Int) (narrowBelow : Bool) (e : Int) : Option Nat :=
  let up := Nat.pow 2 (q - 2).toNat * Nat.pow 10 (-e).toNat
  let down := Nat.pow 2 (2 - q).toNat * Nat.pow 10 e.toNat
  let lo := (4 * m - if narrowBelow then 1 else 2) * up
  let hi := (4 * m + 2) * up
  let readsBack (c : Nat) : Bool :=
    if m % 2 = 0 then lo ≤ c * down && c * down ≤ hi else lo < c * down && c * down < hi
  let c := 4 * m * up / down
  match readsBack c, readsBack (c + 1) with
  | true, true => some (roundHalfEven (4 * m * up) down)
  | true, false => some c
  | false, true => some (c + 1)
  | false, false => none

/-- The first hit on ever finer grids, from multiples of `10 ^ e` on. -/
def search (m : Nat) (q : Int) (narrowBelow : Bool) : Nat → Int → Digits
  | 0, e => ⟨m, e⟩
  | steps + 1, e => match onGrid m q narrowBelow e with
    | some c => ⟨c, e⟩
    | none => search m q narrowBelow steps (e - 1)

/-- **The fewest digits that read back** as the positive double `m * 2 ^ q`; seventeen always do. -/
def shortest (m : Nat) (q : Int) (narrowBelow : Bool) : Digits :=
  let (n, d) := Binary64.fraction m q
  search m q narrowBelow 17 (magnitude n d - 1)

example : shortest 1 (-1074) false = ⟨5, -324⟩ := by decide +kernel
example : shortest 0x1999999999999a (-56) false = ⟨1, -1⟩ := by decide +kernel

end Digits

end PaperTrading
