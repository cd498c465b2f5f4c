import PaperTrading.Text.Blank
import PaperTrading.Text.Surrogate
import PaperTrading.Text.Utf8

/-!
# Encodings of JSON

JSON is sent as bytes in UTF-8, UTF-16 or UTF-32.  It starts with plain characters, whose bytes are
zero but for one, so the places of the zeros tell the encoding.  The bytes here are those of a text in
UTF-8; only a text with null characters can be anything else.

* `Encoding.ofBytes`: the encoding of some bytes.
* `decode?`: the text that is meant by the bytes of a text.
-/

namespace PaperTrading.Json

open PaperTrading.Text

/-- **An encoding.** -/
inductive Encoding where
  | utf8
  | utf16 (isLittleEndian : Bool)
  | utf32 (isLittleEndian : Bool)
  deriving DecidableEq, Repr

/-- **The encoding of some bytes.** -/
def Encoding.ofBytes : List Nat → Encoding
  | 0 :: 0 :: _ :: _ :: _ => utf32 false
  | 0 :: _ :: _ :: _ :: _ => utf16 false
  | _ :: 0 :: 0 :: 0 :: _ => utf32 true
  | _ :: 0 :: _ :: _ :: _ => utf16 true
  | [0, _] => utf16 false
  | [_, 0] => utf16 true
  | _ => utf8

/-- The number that some bytes stand for. -/
def ofDigits (isLittleEndian : Bool) (bytes : List Nat) : Nat :=
  (if isLittleEndian then bytes.reverse else bytes).foldl (fun n b => 256 * n + b) 0

/-- The units of 16 bits; there has to be an even number of bytes. -/
def units? (isLittleEndian : Bool) : List Nat → Option (List Nat)
  | [] => some []
  | a :: b :: bytes =>
    (units? isLittleEndian bytes).map (ofDigits isLittleEndian [a, b] :: ·)
  | _ => none

/-- The characters of units of 32 bits, which have to be code points. -/
def characters? (isLittleEndian : Bool) : List Nat → Option (List Char)
  | [] => some []
  | a :: b :: c :: d :: bytes =>
    let n := ofDigits isLittleEndian [a, b, c, d]
    if n < 0x110000 then (characters? isLittleEndian bytes).map (loneUnit n :: ·) else none
  | _ => none

/-- **The text that is meant by the bytes of a text.** -/
def decode? (s : String) : Option String :=
  let bytes := utf8Bytes s.toList
  (match Encoding.ofBytes bytes with
    | .utf8 => some (withoutMark s.toList)
    | .utf16 isLittleEndian => (units? isLittleEndian bytes).map decodeUnits
    | .utf32 isLittleEndian => characters? isLittleEndian bytes).map String.ofList

example : decode? "[\x00]\x00" = some "[]" ∧ decode? "[\x00]\x00 " = none
    ∧ decode? "\x00\x00\x007" = some "7" ∧ decode? "\ufeff7" = some "7" := by decide +kernel

end PaperTrading.Json
