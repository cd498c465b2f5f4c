import PaperTrading.Indicator.Study

/-!
# Sources of conditions

A condition compares numbers that it addresses by text: a line of an indicator block, a field of the
last candle of a symbol, or a number written out.  The last dot of an address divides the block or the
symbol from what is asked of it.  An address that leads nowhere has no number.

* `splitLast`: an address divided at its last dot.
* `Source.indicator`, `Source.price`: the numbers behind the two kinds of address.
* `Source.resolve`: the number of a source, at the last moment or at the one before.
-/

namespace PaperTrading

/-- The moments at which a source is read. -/
inductive Moment where
  | current
  | previous
  deriving DecidableEq, Repr

/-- The characters before and after the last dot, if there is one. -/
def splitLastChars : List Char → Option (List Char × List Char)
  | [] => none
  | c :: cs => match splitLastChars cs with
    | some (a, b) => some (c :: a, b)
    | none => if c = '.' then some ([], cs) else none

/-- **An address divided at its last dot.** -/
def splitLast (s : String) : Option (String × String) :=
  (splitLastChars s.toList).map fun (a, b) => (String.ofList a, String.ofList b)

namespace Source

variable {α : Type}

/-- The entry before the last one. -/
def beforeLast {β : Type} (xs : List β) : Option β := xs.reverse[1]?

variable [Arith α]

/-- **A value as a number,** if it can be read as one.  Truth values are no numbers here. -/
def number? : Value α → Except Failure (Option α)
  | .null | .bool _ => .ok none
  | .int n => do return some (← Arith.ofInteger α n)
  | .num x => .ok (some x)
  | .text s => .ok ((Numeral.read? s).bind Arith.ofNumeral?)
  | .list _ | .object _ => .ok none

/-- The history of a line: the unnamed one, or one with a name. -/
def history (r : Readout α) : Option String → Except Failure (List (Value α))
  | none => match r.history with
    | .list xs => .ok xs
    | _ => .ok []
  | some line => match r.history with
    | .object fields => ((Table.mk fields).find? line |>.getD (.list [])).items
    | _ => .ok []

/-- The latest value of a line; the empty name stands for all values together. -/
def value (r : Readout α) : Option String → Value α
  | none => r.value
  | some line => match r.value with
    | .object fields => if line = "" then r.value else Value.get ⟨fields⟩ line
    | _ => .null

/-- The number of a line at a moment.  A study with named lines is read by a name only, any other one
without. -/
def lineAt (r : Readout α) (line : Option String) (moment : Moment) :
    Except Failure (Option α) :=
  if line.isSome != r.value.isObject then .ok none
  else match moment with
    | .current => number? (value r line)
    | .previous => do
      match beforeLast (← history r line) with
      | some v => number? v
      | none => return none

/-- The block and the line that an address names.  An address that is a block is never divided. -/
def lineOf (readouts : Table (Readout α)) (address : String) : String × Option String :=
  if readouts.contains address then (address, none)
  else match splitLast address with
    | some (block, line) => (block, some line)
    | none => (address, none)

/-- **The number behind the address of an indicator.** -/
def indicator (readouts : Table (Readout α)) (address : String) (moment : Moment) :
    Except Failure (Option α) :=
  let (block, line) := lineOf readouts address
  match readouts.find? block with
  | some r => lineAt r line moment
  | none => .ok none

omit [Arith α] in
/-- **The number behind the address of a price.** -/
def price (market : Market α) (address : String) (moment : Moment) : Option α := do
  let (symbol, name) ← splitLast address
  let quote ← market.find? symbol
  let candle ← match moment with
    | .current => quote.history.getLast?
    | .previous => beforeLast quote.history
  let field ← PriceField.ofName? name
  return candle.value field

/-- **The number of a source.**  Sources of an unknown type have none. -/
def resolve (type source : Value α) (market : Market α) (readouts : Table (Readout α))
    (moment : Moment) : Except Failure (Option α) :=
  if source.isNull then .ok none
  else match type with
    | .text "indicator" => indicator readouts source.display moment
    | .text "price" => .ok (price market source.display moment)
    | .text "value" => number? source
    | _ => .ok none

end Source

/-! ### Division at the last dot -/

theorem splitLastChars_none {cs : List Char} : splitLastChars cs = none ↔ '.' ∉ cs := by
  induction cs with
  | nil => simp [splitLastChars]
  | cons c cs ih =>
    cases h : splitLastChars cs with
    | some p => simp [splitLastChars, h, ← ih]
    | none =>
      by_cases hc : c = '.'
      · simp [splitLastChars, h, hc]
      · simp [splitLastChars, h, hc, ← ih, Ne.symm hc]

theorem splitLastChars_append {a b : List Char} (h : '.' ∉ b) :
    splitLastChars (a ++ '.' :: b) = some (a, b) := by
  induction a with
  | nil => simp [splitLastChars, splitLastChars_none.2 h]
  | cons c a ih => simp [splitLastChars, ih]

end PaperTrading
