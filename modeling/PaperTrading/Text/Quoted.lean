import PaperTrading.Text.Printable
import PaperTrading.Text.Surrogate

/-!
# Quoted text

A text written between quotes, with every character that could be misread escaped.  The quote is
the single one, unless the text holds a single quote and no double one.

* `quote`: the quoted text.
* `quoteBriefly`: its beginning, as much as a message has room for.
-/

namespace PaperTrading.Text

/-- The last `width` hexadecimal digits of `n`, in lower case. -/
def hex : Nat → Nat → List Char
  | 0, _ => []
  | width + 1, n => hex width (n / 16) ++ [Nat.digitChar (n % 16)]

/-- The quote that surrounds a text. -/
def quoteFor (cs : List Char) : Char :=
  if cs.contains '\'' && !cs.contains '"' then '"' else '\''

/-- A code point as an escape, with two, four or eight digits. -/
def escapeCode (n : Nat) : List Char :=
  if n < 0x100 then ['\\', 'x'] ++ hex 2 n
  else if n < 0x10000 then ['\\', 'u'] ++ hex 4 n
  else ['\\', 'U'] ++ hex 8 n

/-- A character inside quotes `q`: the quote, the backslash, the tab and the line ends are escaped
by a letter, other unprintable characters by their code point, and half a pair by its unit. -/
def escape (q c : Char) : List Char :=
  if c = q then ['\\', c]
  else if c = '\\' then ['\\', '\\']
  else if c = '\t' then ['\\', 't']
  else if c = '\n' then ['\\', 'n']
  else if c = '\r' then ['\\', 'r']
  else if isPrintable c then [c]
  else escapeCode ((half? c).getD c.toNat)

/-- **Quoted text.** -/
def quote (s : String) : String :=
  let q := quoteFor s.toList
  String.ofList (q :: s.toList.flatMap (escape q) ++ [q])

/-- The first `room` characters of quoted text; the closing quote is lost if there is no room for it. -/
def quoteBriefly (room : Nat) (s : String) : String :=
  String.ofList ((quote s).toList.take room)

end PaperTrading.Text
