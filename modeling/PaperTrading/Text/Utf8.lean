/-!
# Texts as bytes

A text is sent as bytes in UTF-8.  Bytes that are no UTF-8 are decoded all the same: what cannot be
decoded stands for the replacement character.

* `utf8Bytes`: the bytes of a text.
* `ofUtf8`: the text of some bytes.
-/

namespace PaperTrading.Text

/-- **The bytes of a text.** -/
def utf8Bytes (cs : List Char) : List Nat :=
  cs.flatMap fun c => (String.utf8EncodeChar c).map UInt8.toNat

theorem utf8Bytes_append (cs ds : List Char) : utf8Bytes (cs ++ ds) = utf8Bytes cs ++ utf8Bytes ds := by
  simp [utf8Bytes]

/-- A decoder of UTF-8 in progress: the characters so far, in reverse, and the sequence that has been
begun: its value, the number of bytes that it still needs, and the range of the next one. -/
structure Decoder where
  chars : List Char
  value : Nat
  needed : Nat
  low : Nat
  high : Nat

namespace Decoder

def start : Decoder := ⟨[], 0, 0, 0, 0⟩

/-- The decoder with one more character. -/
def emit (d : Decoder) (c : Char) : Decoder := { d with chars := c :: d.chars, needed := 0 }

/-- A byte that begins a character. -/
def begin (d : Decoder) (b : Nat) : Decoder :=
  if b < 0x80 then d.emit (Char.ofNat b)
  else if 0xc2 ≤ b ∧ b ≤ 0xdf then ⟨d.chars, b - 0xc0, 1, 0x80, 0xbf⟩
  else if 0xe0 ≤ b ∧ b ≤ 0xef then
    ⟨d.chars, b - 0xe0, 2, if b = 0xe0 then 0xa0 else 0x80, if b = 0xed then 0x9f else 0xbf⟩
  else if 0xf0 ≤ b ∧ b ≤ 0xf4 then
    ⟨d.chars, b - 0xf0, 3, if b = 0xf0 then 0x90 else 0x80, if b = 0xf4 then 0x8f else 0xbf⟩
  else d.emit '\ufffd'

/-- **One byte further.**  A sequence that breaks off stands for the replacement character. -/
def step (d : Decoder) (b : Nat) : Decoder :=
  if d.needed = 0 then d.begin b
  else if d.low ≤ b ∧ b ≤ d.high then
    let value := 64 * d.value + (b - 0x80)
    if d.needed = 1 then d.emit (Char.ofNat value)
    else ⟨d.chars, value, d.needed - 1, 0x80, 0xbf⟩
  else (d.emit '\ufffd').begin b

/-- The characters that have been decoded. -/
def finish (d : Decoder) : List Char :=
  (if d.needed = 0 then d else d.emit '\ufffd').chars.reverse

end Decoder

/-- **The text of some bytes.** -/
def ofUtf8 (bytes : List Nat) : List Char := (bytes.foldl Decoder.step .start).finish

example : ofUtf8 (utf8Bytes ['a', '\u00e9', '😀']) = ['a', '\u00e9', '😀']
    ∧ ofUtf8 [0xe2, 0x82, 0x41, 0xff] = ['\ufffd', 'A', '\ufffd'] := by decide +kernel

end PaperTrading.Text
