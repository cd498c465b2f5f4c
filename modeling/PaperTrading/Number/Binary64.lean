/-!
# Doubles taken apart

A finite double is a whole multiple of a power of two, read off its bits.  Everything exact about
doubles (rounding down, writing in decimal) is then arithmetic on natural numbers.

* `Binary64.ofFloat`: a double as a sign, a multiple and an exponent, or as a special value.
* `Binary64.fraction`: the size of a finite double as a fraction of natural numbers.
* `Binary64.floor`: the largest integer that is not above a finite double.
-/

namespace PaperTrading

/-- **A double taken apart.**  A finite one has the size `m * 2 ^ q`; `narrowBelow` tells that the
double below it is nearer than the one above, which holds at a power of two. -/
inductive Binary64 where
  | finite (negative : Bool) (m : Nat) (q : Int) (narrowBelow : Bool)
  | infinity (negative : Bool)
  | nan
  deriving DecidableEq, Repr

namespace Binary64

/-- The double with the given bits. -/
def ofBits (bits : Nat) : Binary64 :=
  let negative := bits / Nat.pow 2 63 = 1
  let e : Nat := bits / Nat.pow 2 52 % 2048
  let f : Nat := bits % Nat.pow 2 52
  if e = 2047 then
    if f = 0 then .infinity negative else .nan
  else if e = 0 then .finite negative f (-1074) false
  else .finite negative (Nat.pow 2 52 + f) (e - 1075) (f = 0 ∧ 1 < e)

/-- The parts of a double. -/
def ofFloat (x : Float) : Binary64 := ofBits x.toBits.toNat

/-- `m * 2 ^ q` as a fraction. -/
def fraction (m : Nat) (q : Int) : Nat × Nat :=
  (m * Nat.pow 2 q.toNat, Nat.pow 2 (-q).toNat)

/-- The largest integer that is not above a finite double; the special values count as zero. -/
def floor : Binary64 → Int
  | .finite negative m q _ =>
    let (n, d) := fraction m q
    (if negative then -(n : Int) else n).fdiv d
  | _ => 0

def isNaN : Binary64 → Bool
  | .nan => true
  | _ => false

def isInfinite : Binary64 → Bool
  | .infinity _ => true
  | _ => false

example : floor (ofFloat (-2.5)) = -3 ∧ floor (ofFloat 1e16) = 10000000000000000 := by decide +kernel

end Binary64

end PaperTrading
