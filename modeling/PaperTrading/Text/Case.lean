/-!
# Plain letters

A word that a setting is compared with is written in plain letters, and the setting may use others.
Few characters beyond ASCII have a capital or a folded form in plain letters; the rest stay as they
are here, because no plain word holds them.

* `capitals`: a text in capital letters.
* `folded`: a text without regard to case.
-/

namespace PaperTrading.Text

/-- The letters of the ligatures and of the sharp s, in small letters. -/
def ligature? (c : Char) : Option (List Char) :=
  match c with
  | '\u00df' => some ['s', 's']
  | '\ufb00' => some ['f', 'f']
  | '\ufb01' => some ['f', 'i']
  | '\ufb02' => some ['f', 'l']
  | '\ufb03' => some ['f', 'f', 'i']
  | '\ufb04' => some ['f', 'f', 'l']
  | '\ufb05' | '\ufb06' => some ['s', 't']
  | _ => none

/-- The capital form of a character: the dotless i and the long s are capital I and S. -/
def capital (c : Char) : List Char :=
  match c with
  | '\u0131' => ['I']
  | '\u017f' => ['S']
  | c => ((ligature? c).getD [c]).map Char.toUpper

/-- **A text in capital letters,** as far as they are plain. -/
def capitals (s : String) : String := String.ofList (s.toList.flatMap capital)

/-- The folded form of a character: the long s is an s, the sign for kelvin a k. -/
def fold (c : Char) : List Char :=
  match c with
  | '\u017f' => ['s']
  | '\u1e9e' => ['s', 's']
  | '\u212a' => ['k']
  | c => ((ligature? c).getD [c]).map Char.toLower

/-- **A text without regard to case,** as far as its letters are plain. -/
def folded (s : String) : String := String.ofList (s.toList.flatMap fold)

example : capitals "warn\u0131ng" = "WARNING" ∧ capitals "_\ufb06yles" = "_STYLES"
    ∧ folded "YE\u017f" = "yes" := by decide +kernel

end PaperTrading.Text
