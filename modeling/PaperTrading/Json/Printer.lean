import PaperTrading.Text.Quoted
import PaperTrading.Value.Basic

/-!
# Writing JSON

A value is written in ASCII: every other character is escaped by its 16-bit units, and one that stands
for half a pair by that half.  Numbers are written so that they read back, with a point or an exponent
when they are no integers.

* `Json.encodeText`: a text between quotation marks.
* `Json.write`: the text that denotes a value.
-/

namespace PaperTrading.Json

open PaperTrading.Text (half? hex)

/-- A unit of 16 bits as an escape. -/
def escapeUnit (u : Nat) : List Char := '\\' :: 'u' :: hex 4 u

/-- **A character inside a text.** -/
def encodeChar (c : Char) : List Char :=
  let n := c.toNat
  if c = '"' then ['\\', '"']
  else if c = '\\' then ['\\', '\\']
  else if c = '\n' then ['\\', 'n']
  else if c = '\r' then ['\\', 'r']
  else if c = '\t' then ['\\', 't']
  else if n = 8 then ['\\', 'b']
  else if n = 12 then ['\\', 'f']
  else if 0x20 ≤ n ∧ n < 0x7f then [c]
  else if n < 0x10000 then escapeUnit n
  else match half? c with
    | some u => escapeUnit u
    | none =>
      escapeUnit (0xd800 + (n - 0x10000) / 0x400) ++ escapeUnit (0xdc00 + (n - 0x10000) % 0x400)

/-- A text between quotation marks. -/
def encodeText (s : String) : String :=
  String.ofList ('"' :: s.toList.flatMap encodeChar ++ ['"'])

/-- A number; the words for numbers that are not finite are those of the reader. -/
def encodeNumber {α : Type} [Arith α] (x : α) : String :=
  if Arith.isNaN x then "NaN"
  else if Arith.isInfinite x then (if x < 0.0 then "-Infinity" else "Infinity")
  else Arith.written x

mutual

/-- **The text that denotes a value.** -/
def write {α : Type} [Arith α] : Value α → String
  | .null => "null"
  | .bool true => "true"
  | .bool false => "false"
  | .int n => toString n
  | .num x => encodeNumber x
  | .text s => encodeText s
  | .list items => "[" ++ ", ".intercalate (writeItems items) ++ "]"
  | .object fields => "\x7b" ++ ", ".intercalate (writeFields fields) ++ "\x7d"

/-- The texts of some items. -/
def writeItems {α : Type} [Arith α] : List (Value α) → List String
  | [] => []
  | v :: vs => write v :: writeItems vs

/-- The texts of some fields. -/
def writeFields {α : Type} [Arith α] : List (String × Value α) → List String
  | [] => []
  | (k, v) :: fs => (encodeText k ++ ": " ++ write v) :: writeFields fs

end

end PaperTrading.Json
