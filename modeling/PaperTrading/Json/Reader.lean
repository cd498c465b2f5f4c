import PaperTrading.Json.Token

/-!
# Reading JSON

A value is built from tokens by a machine that keeps the lists and objects around the current place.
A name that occurs twice in an object keeps its first place and takes its last value.

* `Build.step`: what one token does to the machine.
* `Json.read`: the value that a text denotes.
-/

namespace PaperTrading.Json

/-- A list or an object that is still open. -/
inductive Frame (α : Type) where
  /-- A list with its items so far, in reverse. -/
  | list (items : List (Value α))
  /-- An object with its fields so far and the name of the field that is being read. -/
  | object (fields : Table (Value α)) (name : String)

/-- **What may come next,** inside the given open frames. -/
inductive Build (α : Type) where
  | value (frames : List (Frame α))
  /-- A value, or the end of a list that has just been opened. -/
  | valueOrEnd (frames : List (Frame α))
  | name (fields : Table (Value α)) (frames : List (Frame α))
  /-- A name, or the end of an object that has just been opened. -/
  | nameOrEnd (frames : List (Frame α))
  | colon (fields : Table (Value α)) (name : String) (frames : List (Frame α))
  | afterItem (items : List (Value α)) (frames : List (Frame α))
  | afterField (fields : Table (Value α)) (frames : List (Frame α))
  | done (v : Value α)

namespace Build

variable {α : Type}

/-- A value is complete: it goes into the innermost open frame. -/
def complete (v : Value α) : List (Frame α) → Build α
  | [] => done v
  | .list items :: frames => afterItem (v :: items) frames
  | .object fields k :: frames => afterField (fields.insert k v) frames

/-- Refuses to open a list or an object inside `limit` others. -/
def descend (limit : Nat) (isObject : Bool) (frames : List (Frame α)) (b : Build α) :
    Except Failure (Build α) :=
  if frames.length < limit then .ok b else .error (.nestedTooDeeply isObject)

/-- A token where a value may begin. -/
def beginValue (limit : Nat) (frames : List (Frame α)) : Token α → Except Failure (Build α)
  | .openList => descend limit false frames (valueOrEnd frames)
  | .openObject => descend limit true frames (nameOrEnd frames)
  | .text s => .ok (complete (.text s) frames)
  | .word v => .ok (complete v frames)
  | .overlong digits => .error (.tooManyDigits digits)
  | _ => .error .malformedJson

/-- **One token further.** -/
def step (limit : Nat) : Build α → Token α → Except Failure (Build α)
  | value frames, t => beginValue limit frames t
  | valueOrEnd frames, .closeList => .ok (complete (.list []) frames)
  | valueOrEnd frames, t => beginValue limit (.list [] :: frames) t
  | name fields frames, .text s => .ok (colon fields s frames)
  | nameOrEnd frames, .closeObject => .ok (complete (.object []) frames)
  | nameOrEnd frames, .text s => .ok (colon .empty s frames)
  | colon fields s frames, .colon => .ok (value (.object fields s :: frames))
  | afterItem items frames, .comma => .ok (value (.list items :: frames))
  | afterItem items frames, .closeList => .ok (complete (.list items.reverse) frames)
  | afterField fields frames, .comma => .ok (name fields frames)
  | afterField fields frames, .closeObject => .ok (complete (.ofTable fields) frames)
  | _, _ => .error .malformedJson

/-- The value that a finished machine has built. -/
def result : Build α → Except Failure (Value α)
  | done v => .ok v
  | _ => .error .malformedJson

end Build

/-- **The value that a text denotes,** with lists and objects at most `limit` deep.  Of several faults
the first one counts. -/
def read {α : Type} [Arith α] (limit : Nat) (s : String) : Except Failure (Value α) := do
  let (tokens, isAll) := Token.ofChars s.toList
  let built ← tokens.foldlM (Build.step limit) (.value [])
  if isAll then built.result else throw .malformedJson

end PaperTrading.Json
