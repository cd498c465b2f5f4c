import PaperTrading.Value.Display

/-!
# Reading values

What is read out of a value when its type is not the one that is asked for.

* `Value.toNumber`, `Value.toInteger`: a value as a number and as an integer; texts are read as
  numerals.
* `Value.items`: what a value lists: the items of a list, the characters of a text, the keys of an
  object.
* `Value.fieldsFor`: the fields of an object; any other value does not know the member that is asked.
* `Value.key`: a value as the key of a table.
* `Value.toTable`: the table that a value describes by an object or by a list of pairs.
-/

namespace PaperTrading

namespace Value

variable {α : Type}

/-! ### Parts -/

/-- The fields of an object; the failure of any other value names the member that was asked for. -/
def fieldsFor (member : String) : Value α → Except Failure (Table (Value α))
  | object fields => .ok ⟨fields⟩
  | v => .error (.noMember v.typeName member)

/-- **What a value lists.** -/
def items : Value α → Except Failure (List (Value α))
  | text s => .ok (s.toList.map fun c => text c.toString)
  | list items => .ok items
  | object fields => .ok (fields.map fun f => text f.1)
  | v => .error (.notIterable v.typeName)

/-- **A value as the key of a table of texts.**  Only a text can be found in one; lists and objects
cannot even be looked for. -/
def key : Value α → Except Failure (Option String)
  | text s => .ok (some s)
  | v@(list _) | v@(object _) => .error (.notKey v.typeName)
  | _ => .ok none

/-- What a table holds at a value as key. -/
def lookUp {β : Type} (v : Value α) (t : Table β) : Except Failure (Option β) := do
  return (← v.key).bind t.find?

/-- The value of a field; null if there is none. -/
def get (fields : Table (Value α)) (name : String) : Value α := (fields.find? name).getD null

/-- The value of a field that has to be there. -/
def getRequired (fields : Table (Value α)) (name : String) : Except Failure (Value α) :=
  match fields.find? name with
  | some v => .ok v
  | none => .error (.missingField name)

variable [Arith α]

/-! ### Numbers -/

/-- **A value as a number.** -/
def toNumber : Value α → Except Failure α
  | bool b => Arith.ofInteger α (bit b)
  | int n => Arith.ofInteger α n
  | num x => .ok x
  | text s => match (Numeral.read? s).bind Arith.ofNumeral? with
    | some x => .ok x
    | none => .error (.unreadableNumber s)
  | v => .error (.notNumber v.typeName)

/-- **A value as an integer.** -/
def toInteger : Value α → Except Failure Int
  | bool b => .ok (bit b)
  | int n => .ok n
  | num x => Arith.truncated x
  | text s => match readInteger s with
    | .ok n => .ok n
    | .error .malformed => .error (.unreadableInteger s)
    | .error (.tooLong digits) => .error (.tooManyDigits digits)
  | v => .error (.notInteger v.typeName)

/-- A number that may be missing. -/
def toNumber? (v : Value α) : Except Failure (Option α) :=
  if v.isNull then .ok none else do return some (← v.toNumber)

/-! ### Tables -/

/-- The text as which the key of a setting is written. -/
def keyText : Value α → String
  | null => "null"
  | bool b => if b then "true" else "false"
  | num x =>
    if Arith.isNaN x then "NaN"
    else if Arith.isInfinite x then (if x < 0.0 then "-Infinity" else "Infinity")
    else Arith.written x
  | v => v.display

/-- The key and the value that the entry `index` of a list of pairs holds. -/
def pairAt (index : Nat) (v : Value α) : Except Failure (Value α × Value α) :=
  match v.items with
  | .error _ => .error (.notItems index)
  | .ok [k, w] => do
    let _ ← k.key
    return (k, w)
  | .ok vs => .error (.notPair index vs.length)

/-- Some pairs with one more; a pair with an equal key keeps that key and takes the new value. -/
def putPair (k v : Value α) : List (Value α × Value α) → List (Value α × Value α)
  | [] => [(k, v)]
  | p :: ps => if p.1.same k then (p.1, v) :: ps else p :: putPair k v ps

/-- **The table that a value describes:** an object by its fields, any other value by the pairs that
it lists.  Keys that are equal are one, although their texts may differ; keys that differ stay apart,
although one may be written like the other.  Settings are looked up under names that only texts have. -/
def toTable : Value α → Except Failure (Table (Value α))
  | object fields => .ok ⟨fields⟩
  | v => do
    let pairs ← (← v.items).zipIdx.mapM fun (w, i) => pairAt i w
    let distinct := pairs.foldl (fun ps p => putPair p.1 p.2 ps) []
    return ⟨distinct.map fun p => (p.1.keyText, p.2)⟩

/-- The texts joined by commas; a value that is no text cannot be joined. -/
def joinTexts (vs : List (Value α)) : Except Failure String := do
  let texts ← vs.zipIdx.mapM fun (v, i) => match v with
    | text s => .ok s
    | v => .error (.notText i v.typeName)
  return ",".intercalate texts

end Value

end PaperTrading
