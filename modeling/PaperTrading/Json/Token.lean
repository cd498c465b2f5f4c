import PaperTrading.Text.Surrogate
import PaperTrading.Value.Basic

/-!
# Tokens of JSON

A document is cut into punctuation, texts and words.  A word is a longest run of characters that are
neither blank nor punctuation nor a quotation mark; it has to be a number or one of the constants.

* `Token.ofChars`: the tokens of a document, by a fold of `Scan.step` over its characters.
* `Token.ofWord?`: the token of a word.
* `word?`: the value of a word.
-/

namespace PaperTrading.Json

open PaperTrading.Text (asciiDigit? decodeUnits)

/-- **A token.** -/
inductive Token (α : Type) where
  | openList
  | closeList
  | openObject
  | closeObject
  | comma
  | colon
  | text (s : String)
  | word (v : Value α)
  /-- An integer with too many digits. -/
  | overlong (digits : Nat)

/-! ### Words -/

/-- The number that a row of ASCII digits denotes; there has to be at least one. -/
def digits? (cs : List Char) : Option Nat :=
  if cs.isEmpty then none
  else (cs.mapM asciiDigit?).map fun ds => ds.foldl (fun n d => 10 * n + d) 0

/-- The exponent after a mark; none at all counts as zero. -/
def exponent? : List Char → Option Int
  | [] => some 0
  | _ :: '-' :: ds => (digits? ds).map fun n => -(n : Int)
  | _ :: '+' :: ds => (digits? ds).map fun n => (n : Int)
  | _ :: ds => (digits? ds).map fun n => (n : Int)

/-- The digits of the whole part have no zero in front of others. -/
def isWhole (cs : List Char) : Bool := cs == ['0'] || cs.head? != some '0'

/-- A number without a point and an exponent, or the numeral of one that has either. -/
def number? (cs : List Char) : Option (Int ⊕ Numeral) := do
  let negative := cs.head? == some '-'
  let cs := if negative then cs.drop 1 else cs
  let isMark (c : Char) : Bool := c = 'e' || c = 'E'
  let mantissa := cs.takeWhile (!isMark ·)
  let after := cs.dropWhile (!isMark ·)
  let whole := mantissa.takeWhile (· ≠ '.')
  let places := mantissa.dropWhile (· ≠ '.')
  let n ← digits? whole
  if !isWhole whole then none
  let e ← exponent? after
  match places with
  | [] =>
    if after.isEmpty then some (.inl (if negative then -n else n))
    else some (.inr (.finite negative n e))
  | _ :: ds =>
    let _ ← digits? ds
    let m ← digits? (whole ++ ds)
    some (.inr (.finite negative m (e - ds.length)))

/-- **The value of a word.** -/
def word? {α : Type} [Arith α] (cs : List Char) : Option (Value α) :=
  match String.ofList cs with
  | "null" => some .null
  | "true" => some (.bool true)
  | "false" => some (.bool false)
  | "NaN" => (Arith.ofNumeral? .nan).map .num
  | "Infinity" => (Arith.ofNumeral? (.infinity false)).map .num
  | "-Infinity" => (Arith.ofNumeral? (.infinity true)).map .num
  | _ => match number? cs with
    | some (.inl n) => some (.int n)
    | some (.inr n) => (Arith.ofNumeral? n).map .num
    | none => none

/-- The length of an integer that a row of characters begins with.  A row that begins with a number
with places or with an exponent has none, and neither has one with a zero in front. -/
def integerLength (cs : List Char) : Nat :=
  let cs := if cs.head? == some '-' then cs.drop 1 else cs
  let isDigit (c : Char) : Bool := (asciiDigit? c).isSome
  let startsWithDigit (cs : List Char) : Bool := cs.head?.any isDigit
  let isNumber := match cs.dropWhile isDigit with
    | '.' :: rest => startsWithDigit rest
    | c :: rest =>
      (c == 'e' || c == 'E') && (startsWithDigit rest
        || ((rest.head? == some '-' || rest.head? == some '+') && startsWithDigit (rest.drop 1)))
    | [] => false
  if isNumber || cs.head? == some '0' then 0 else (cs.takeWhile isDigit).length

/-- **The token of a word.**  An integer with too many digits is one whatever follows it. -/
def Token.ofWord? {α : Type} [Arith α] (cs : List Char) : Option (Token α) :=
  let n := integerLength cs
  if digitLimit < n then some (.overlong n) else (word? cs).map .word

/-! ### Texts -/

/-- The character that a letter after a backslash denotes. -/
def escaped? : Char → Option Char
  | '"' => some '"'
  | '\\' => some '\\'
  | '/' => some '/'
  | 'b' => some '\x08'
  | 'f' => some '\x0c'
  | 'n' => some '\n'
  | 'r' => some '\r'
  | 't' => some '\t'
  | _ => none

/-- The value of a hexadecimal digit. -/
def hexDigit? (c : Char) : Option Nat :=
  if '0' ≤ c ∧ c ≤ '9' then some (c.toNat - 48)
  else if 'a' ≤ c ∧ c ≤ 'f' then some (c.toNat - 87)
  else if 'A' ≤ c ∧ c ≤ 'F' then some (c.toNat - 55)
  else none

/-! ### Scanning -/

/-- Where a scan stands; rows that are being read are kept in reverse. -/
inductive Mode where
  | between
  | inWord (chars : List Char)
  | inText (units : List Nat)
  | afterBackslash (units : List Nat)
  | inUnit (units : List Nat) (unit count : Nat)
  /-- Something is no token; what follows does not matter. -/
  | broken

/-- A scan in progress: the tokens so far, in reverse, and where it stands. -/
structure Scan (α : Type) where
  tokens : List (Token α)
  mode : Mode

namespace Scan

variable {α : Type} [Arith α]

/-- The token of a punctuation mark. -/
def mark? : Char → Option (Token α)
  | '[' => some .openList
  | ']' => some .closeList
  | '\x7b' => some .openObject
  | '\x7d' => some .closeObject
  | ',' => some .comma
  | ':' => some .colon
  | _ => none

def isSpace (c : Char) : Bool := c = ' ' || c = '\t' || c = '\n' || c = '\r'

omit [Arith α] in
/-- The scan with another mode. -/
def turn (s : Scan α) (mode : Mode) : Scan α := { s with mode }

omit [Arith α] in
/-- The scan with one more token, which is complete. -/
def add (s : Scan α) (t : Token α) : Scan α := ⟨t :: s.tokens, .between⟩

omit [Arith α] in
/-- The scan after a character that is not part of a text or a word. -/
def outside (s : Scan α) (c : Char) : Scan α :=
  if isSpace c then s.turn .between
  else if c = '"' then s.turn (.inText [])
  else match mark? c with
    | some t => s.add t
    | none => s.turn (.inWord [c])

/-- The scan after the end of a word. -/
def endWord (s : Scan α) (chars : List Char) : Scan α :=
  match Token.ofWord? chars.reverse with
  | some t => s.add t
  | none => s.turn .broken

omit [Arith α] in
/-- A character of a text, or the quotation mark at its end. -/
def inside (s : Scan α) (units : List Nat) (c : Char) : Scan α :=
  if c = '"' then s.add (.text (String.ofList (decodeUnits units.reverse)))
  else if c = '\\' then s.turn (.afterBackslash units)
  else if c.toNat < 0x20 then s.turn .broken
  else s.turn (.inText (c.toNat :: units))

/-- **One character further.** -/
def step (s : Scan α) (c : Char) : Scan α :=
  match s.mode with
  | .broken => s
  | .between => s.outside c
  | .inWord chars =>
    if isSpace c || c = '"' || (mark? (α := α) c).isSome then
      let s := s.endWord chars
      match s.mode with
      | .broken => s
      | _ => s.outside c
    else s.turn (.inWord (c :: chars))
  | .inText units => s.inside units c
  | .afterBackslash units =>
    if c = 'u' then s.turn (.inUnit units 0 0)
    else match escaped? c with
      | some d => s.turn (.inText (d.toNat :: units))
      | none => s.turn .broken
  | .inUnit units unit count =>
    match hexDigit? c with
    | some d =>
      let unit := 16 * unit + d
      s.turn (if count = 3 then .inText (unit :: units) else .inUnit units unit (count + 1))
    | none => s.turn .broken

/-- The scan after the last character. -/
def finish (s : Scan α) : Scan α :=
  match s.mode with
  | .inWord chars => s.endWord chars
  | .between => s
  | _ => s.turn .broken

end Scan

/-- **The tokens of a document** up to the first place that is no token, and whether they are all of
it. -/
def Token.ofChars {α : Type} [Arith α] (cs : List Char) : List (Token α) × Bool :=
  let s := (cs.foldl Scan.step ⟨[], .between⟩).finish
  (s.tokens.reverse, match s.mode with
    | .between => true
    | _ => false)

end PaperTrading.Json
