import PaperTrading.Failure
import PaperTrading.Number.Numeral

/-!
# The arithmetic of prices and money

Every computation of the library is written once, over a type of numbers given by the class `Arith`.
Two instances are built: doubles, in which the program runs, and exact fractions, in which the same
definitions can be read without rounding.

* `Arith`: the operations.
* `quotient`, `squared`, `root`, `ofInteger`, `floored`, `truncated`: the operations that are not
  defined everywhere, with the failure that each of them reports.
* `sum`, `larger`, `smaller`, `clamp`, `size`: small functions whose order of operations is fixed,
  because doubles show it.
-/

namespace PaperTrading

/-- **Numbers to compute with.** -/
class Arith (α : Type) extends Add α, Sub α, Mul α, Div α, Neg α, LT α, LE α, BEq α,
    OfScientific α where
  decLt (x y : α) : Decidable (x < y)
  decLe (x y : α) : Decidable (x ≤ y)
  /-- The number of an integer; none when it lies beyond the numbers. -/
  ofInt? : Int → Option α
  /-- The number that a numeral stands for, if there is one. -/
  ofNumeral? : Numeral → Option α
  isNaN : α → Bool
  isInfinite : α → Bool
  /-- The largest integer that is not above a finite number. -/
  floor : α → Int
  /-- The square; none when it lies beyond the numbers. -/
  square? : α → Option α
  sqrt : α → α
  /-- The text of a number, which reads back as the number. -/
  written : α → String
  /-- The text of a number with a fixed number of places. -/
  fixed : Nat → α → String
  /-- The nearest number with so many places. -/
  roundTo : Nat → α → α

namespace Arith

variable {α : Type} [Arith α]

instance (x y : α) : Decidable (x < y) := decLt x y

instance (x y : α) : Decidable (x ≤ y) := decLe x y

/-! ### Operations that may fail -/

/-- A quotient; there is none by zero. -/
def quotient (x y : α) : Except Failure α :=
  if y == 0.0 then .error (.divisionByZero false) else .ok (x / y)

/-- The number of an integer. -/
def ofInteger (α : Type) [Arith α] (n : Int) : Except Failure α :=
  match ofInt? n with
  | some x => .ok x
  | none => .error .integerTooLarge

/-- The square of a number. -/
def squared (x : α) : Except Failure α :=
  match square? x with
  | some y => .ok y
  | none => .error .squareTooLarge

/-- The square root; a number below zero has none. -/
def root (x : α) : Except Failure α :=
  if x < 0.0 then .error .rootOfNegative else .ok (sqrt x)

/-- The largest integer that is not above a number. -/
def floored (x : α) : Except Failure Int :=
  if isNaN x then .error (.noIntegerPart true)
  else if isInfinite x then .error (.noIntegerPart false)
  else .ok (floor x)

/-- The integer part of a number, cut toward zero. -/
def truncated (x : α) : Except Failure Int :=
  if isNaN x then .error (.noIntegerPart true)
  else if isInfinite x then .error (.noIntegerPart false)
  else .ok (if x < 0.0 then -floor (-x) else floor x)

/-- A number times an integer. -/
def times (x : α) (n : Int) : Except Failure α := do
  return x * (← ofInteger α n)

/-- A number divided by an integer. -/
def dividedBy (x : α) (n : Int) : Except Failure α := do
  quotient x (← ofInteger α n)

/-! ### Small functions -/

/-- The sum from the left, starting from zero. -/
def sum (xs : List α) : α := xs.foldl (· + ·) 0.0

/-- The larger of two numbers; the first unless the second is above it. -/
def larger (x y : α) : α := if x < y then y else x

/-- The smaller of two numbers; the first unless the second is below it. -/
def smaller (x y : α) : α := if y < x then y else x

/-- A fraction brought into the range from zero to one. -/
def clamp (x : α) : α := smaller (larger x 0.0) 1.0

/-- The size of a number without its sign. -/
def size (x : α) : α := if x ≤ 0.0 then 0.0 - x else x

/-- A number that counts as given: not zero. -/
def isNonzero (x : α) : Bool := !(x == 0.0)

end Arith

end PaperTrading
