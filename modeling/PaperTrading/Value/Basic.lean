import PaperTrading.Number.Arith
import PaperTrading.Table

/-!
# Values

The data of documents: settings, options and market data arrive as values whose type is not known
beforehand.  Integers and other numbers are kept apart, because they are written, read and refused
differently.

* `Value`: the values, over a type `α` of numbers.
* `Value.typeName`, `Value.isTrue`, `Value.same`: the name of the type of a value, whether it counts
  as given, and whether two values are equal.
* `Value.orElse`: a value, or another one in place of a value that does not count as given.
-/

namespace PaperTrading

/-- **The values of documents.** -/
inductive Value (α : Type) where
  | null
  | bool (b : Bool)
  | int (n : Int)
  | num (x : α)
  | text (s : String)
  | list (items : List (Value α))
  | object (fields : List (String × Value α))
  deriving Repr

namespace Value

variable {α : Type}

instance : Inhabited (Value α) := ⟨null⟩

/-- The object of a table. -/
def ofTable (t : Table (Value α)) : Value α := object t.entries

/-- A number, or null in place of none. -/
def ofNum? (x : Option α) : Value α := x.elim null num

/-- An integer, or null in place of none. -/
def ofInt? (n : Option Int) : Value α := n.elim null int

/-- A text, or null in place of none. -/
def ofText? (s : Option String) : Value α := s.elim null text

/-- The name of the type of a value. -/
def typeName : Value α → String
  | null => "NoneType"
  | bool _ => "bool"
  | int _ => "int"
  | num _ => "float"
  | text _ => "str"
  | list _ => "list"
  | object _ => "dict"

def isNull : Value α → Bool
  | null => true
  | _ => false

def isObject : Value α → Bool
  | object _ => true
  | _ => false

/-- The value is the given text. -/
def isText (v : Value α) (s : String) : Bool :=
  match v with
  | text t => t == s
  | _ => false

theorem isText_iff {v : Value α} {s : String} : v.isText s = true ↔ v = text s := by
  cases v <;> simp [isText]

/-- The value is one of the given texts. -/
def isOneOf (v : Value α) (names : List String) : Bool := names.any v.isText

/-- A value that is missing: null or the empty text. -/
def isMissing : Value α → Bool
  | null => true
  | text s => s == ""
  | _ => false

variable [Arith α]

/-- A value that counts as given: not null, false, zero or empty. -/
def isTrue : Value α → Bool
  | null => false
  | bool b => b
  | int n => n != 0
  | num x => Arith.isNonzero x
  | text s => s != ""
  | list items => !items.isEmpty
  | object fields => !fields.isEmpty

/-- A number that is missing or zero. -/
def isMissingOrZero : Value α → Bool
  | null => true
  | bool b => !b
  | int n => n == 0
  | num x => !Arith.isNonzero x
  | text s => s == ""
  | _ => false

/-- **A value, or another one** in place of a value that does not count as given. -/
def orElse (v w : Value α) : Value α := if v.isTrue then v else w

/-! ### Equality -/

/-- A number is exactly an integer. -/
def isInteger (x : α) (n : Int) : Bool :=
  !Arith.isNaN x && !Arith.isInfinite x && Arith.floor x == n &&
    (match Arith.ofInt? (α := α) n with
      | some y => x == y
      | none => false)

/-- A truth value as an integer. -/
def bit (b : Bool) : Int := if b then 1 else 0

mutual

/-- **Equality of values:** numbers are compared by size whatever their type, lists item by item, and
objects without regard to the order of their fields. -/
def same : Value α → Value α → Bool
  | null, null => true
  | bool a, bool b => a == b
  | bool a, int n => bit a == n
  | int n, bool b => n == bit b
  | bool a, num y => isInteger y (bit a)
  | num x, bool b => isInteger x (bit b)
  | int m, int n => m == n
  | int m, num y => isInteger y m
  | num x, int n => isInteger x n
  | num x, num y => x == y
  | text s, text t => s == t
  | list vs, list ws => sameItems vs ws
  | object fs, object gs => fs.length == gs.length && sameFields fs gs
  | _, _ => false

/-- Two lists agree item by item. -/
def sameItems : List (Value α) → List (Value α) → Bool
  | [], [] => true
  | v :: vs, w :: ws => same v w && sameItems vs ws
  | _, _ => false

/-- Every field has an equal one of the same name among others. -/
def sameFields : List (String × Value α) → List (String × Value α) → Bool
  | [], _ => true
  | (k, v) :: fs, gs =>
    (match gs.find? (·.1 == k) with
      | some g => same v g.2
      | none => false) && sameFields fs gs

end

/-! ### Small laws -/

theorem isTrue_text {s : String} (h : s ≠ "") : (text s : Value α).isTrue = true := by
  simp [isTrue, h]

theorem orElse_of_isTrue {v : Value α} (h : v.isTrue = true) (w : Value α) : v.orElse w = v := by
  simp [orElse, h]

end Value

end PaperTrading
