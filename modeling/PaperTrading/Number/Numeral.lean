import PaperTrading.Text.Blank

/-!
# Numerals

A number as it is written: digits with a decimal exponent, or one of the words for infinity and for
no number.  Blanks around a numeral are skipped, one underscore may stand between two digits, and
digits of every script count.

* `Numeral.read?`: the numeral that a text is.
* `readInteger`: the integer that a text is; it may have no more than `digitLimit` digits.
-/

namespace PaperTrading

open Text

/-- **A number as written.**  A finite one stands for `digits * 10 ^ exponent`. -/
inductive Numeral where
  | finite (negative : Bool) (digits : Nat) (exponent : Int)
  | infinity (negative : Bool)
  | nan
  deriving DecidableEq, Repr

namespace Numeral

/-- The sign at the front, and what follows it. -/
def readSign : List Char → Bool × List Char
  | '-' :: cs => (true, cs)
  | '+' :: cs => (false, cs)
  | cs => (false, cs)

/-- Reads digits on from the value `v` of the `n` digits before: the value, the number of digits, and
the rest.  An underscore is part of the run only between two digits. -/
def readDigits (v n : Nat) : List Char → Nat × Nat × List Char
  | [] => (v, n, [])
  | [c] => match digit? c with
    | some d => (10 * v + d, n + 1, [])
    | none => (v, n, [c])
  | c :: c' :: cs => match digit? c with
    | some d => readDigits (10 * v + d) (n + 1) (c' :: cs)
    | none =>
      if c = '_' ∧ 0 < n then
        match digit? c' with
        | some d => readDigits (10 * v + d) (n + 1) cs
        | none => (v, n, c :: c' :: cs)
      else (v, n, c :: c' :: cs)

/-- The exponent after the digits, if the rest is one. -/
def readExponent : List Char → Option Int
  | [] => some 0
  | c :: cs =>
    if c = 'e' ∨ c = 'E' then
      let (negative, cs) := readSign cs
      match readDigits 0 0 cs with
      | (v, n, []) => if 0 < n then some (if negative then -(v : Int) else v) else none
      | _ => none
    else none

/-- The numeral after its sign. -/
def readUnsigned (negative : Bool) (cs : List Char) : Option Numeral :=
  let word := String.ofList (cs.map Char.toLower)
  if word = "inf" ∨ word = "infinity" then some (.infinity negative)
  else if word = "nan" then some .nan
  else
    let (v, n, rest) := readDigits 0 0 cs
    let (v, k, rest) := match rest with
      | '.' :: rest => readDigits v 0 rest
      | rest => (v, 0, rest)
    if n + k = 0 then none
    else (readExponent rest).map fun e => .finite negative v (e - k)

/-- **The numeral that a text is.** -/
def read? (s : String) : Option Numeral :=
  let (negative, cs) := readSign (trim isNumeralBlank s.toList)
  readUnsigned negative cs

end Numeral

/-! ### Integers -/

/-- The most digits that an integer may be written with. -/
def digitLimit : Nat := 4300

/-- Why a text is no integer. -/
inductive IntegerFault where
  | malformed
  /-- Its digits are too many, whatever follows them. -/
  | tooLong (digits : Nat)
  deriving DecidableEq, Repr

/-- **The integer that a text is.**  Digits are counted up to the first character that does not
belong to them; an underscore there is refused before they are counted. -/
def readInteger (s : String) : Except IntegerFault Int :=
  let (negative, cs) := Numeral.readSign (trim isNumeralBlank s.toList)
  let (v, n, rest) := Numeral.readDigits 0 0 cs
  if n = 0 ∨ rest.head? = some '_' then .error .malformed
  else if digitLimit < n then .error (.tooLong n)
  else if rest.isEmpty then .ok (if negative then -(v : Int) else v)
  else .error .malformed

example : (readInteger " +1_0 ").toOption = some 10 ∧ (readInteger "1__0").toOption = none
    ∧ (readInteger "7.5").toOption = none := by decide +kernel

example : Numeral.read? "-1_000.5e3" = some (.finite true 10005 2) ∧ Numeral.read? "." = none
    ∧ Numeral.read? " Infinity" = some (.infinity false) ∧ Numeral.read? "1._0" = none := by
  decide +kernel

end PaperTrading
