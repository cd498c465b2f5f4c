/-!
# Surrogates

In 16-bit units a character beyond the first 65536 is a pair, a high surrogate with a low one.  An
escape can name one half without the other.  A text cannot hold half a character, so a character of
the last private plane stands for it, the one whose code point is higher by 65536 * 16; a text in
which such a character occurs cannot be sent in UTF-8.

* `decodeUnits`: the characters of 16-bit units.
* `standIn`, `half?`: the character that stands for half a pair, and the half behind a character.
* `isWhole`: a text without halves.
-/

namespace PaperTrading.Text

/-- A high surrogate, the first half of a pair. -/
def isHigh (u : Nat) : Bool := 0xd800 ≤ u && u < 0xdc00

/-- A low surrogate, the second half of a pair. -/
def isLow (u : Nat) : Bool := 0xdc00 ≤ u && u < 0xe000

/-- **The character that stands for half a pair.** -/
def standIn (u : Nat) : Char := Char.ofNat (u + 0x100000)

/-- **The half that a character stands for,** if it stands for one. -/
def half? (c : Char) : Option Nat :=
  if 0x10d800 ≤ c.toNat ∧ c.toNat < 0x10e000 then some (c.toNat - 0x100000) else none

/-- A text in which no character stands for half a pair. -/
def isWhole (s : String) : Bool := s.toList.all fun c => (half? c).isNone

/-- The character of a pair. -/
def paired (high low : Nat) : Char :=
  Char.ofNat (0x10000 + (high - 0xd800) * 0x400 + (low - 0xdc00))

/-- The character of a unit that stands alone. -/
def loneUnit (u : Nat) : Char := if isHigh u || isLow u then standIn u else Char.ofNat u

/-- **The characters of units:** a high and a low surrogate in a row denote one character.  A unit may
also be the code point of a character beyond the first 65536. -/
def decodeUnits : List Nat → List Char
  | [] => []
  | [u] => [loneUnit u]
  | u :: v :: us =>
    if isHigh u && isLow v then paired u v :: decodeUnits us
    else loneUnit u :: decodeUnits (v :: us)

/-- The half that a stand-in stands for is the one that it was made for. -/
theorem half?_standIn {u : Nat} (h : isHigh u || isLow u) : half? (standIn u) = some u := by
  have hu : 0xd800 ≤ u ∧ u < 0xe000 := by
    simp only [isHigh, isLow, Bool.or_eq_true, Bool.and_eq_true, decide_eq_true_eq] at h; omega
  have hv : (u + 0x100000).isValidChar := Or.inr (by omega)
  have hn : (Char.ofNat (u + 0x100000)).toNat = u + 0x100000 := by
    rw [Char.ofNat, dif_pos hv]; rfl
  simp only [half?, standIn, hn]
  rw [if_pos (by omega)]; simp

example : decodeUnits [0xd83d, 0xde00, 0x41] = ['😀', 'A']
    ∧ (decodeUnits [0xde00, 0xd83d]).map half? = [some 0xde00, some 0xd83d] := by decide +kernel

end PaperTrading.Text
