import PaperTrading.Value.Basic

/-!
# Values as text

How a value is written into a message or an identifier: a text as it is, everything else in the
notation of literals, in which texts are quoted.

* `Value.literal`: the literal of a value.
* `Value.display`: a text as it is, otherwise the literal.
-/

namespace PaperTrading

namespace Value

variable {α : Type} [Arith α]

mutual

/-- **The literal of a value.** -/
def literal : Value α → String
  | null => "None"
  | bool true => "True"
  | bool false => "False"
  | int n => toString n
  | num x => Arith.written x
  | text s => Text.quote s
  | list items => "[" ++ ", ".intercalate (literals items) ++ "]"
  | object fields => "\x7b" ++ ", ".intercalate (literalFields fields) ++ "\x7d"

/-- The literals of some values. -/
def literals : List (Value α) → List String
  | [] => []
  | v :: vs => literal v :: literals vs

/-- The literals of some fields. -/
def literalFields : List (String × Value α) → List String
  | [] => []
  | (k, v) :: fs => (Text.quote k ++ ": " ++ literal v) :: literalFields fs

end

/-- **A value as text.** -/
def display : Value α → String
  | text s => s
  | v => literal v

end Value

end PaperTrading
