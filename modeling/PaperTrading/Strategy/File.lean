import PaperTrading.Json.Reader
import PaperTrading.Strategy.Document

/-!
# Files of strategies

A file holds strategy documents as a list, or as the field `strategies` of an object.  A file that is
missing holds none.

* `Strategy.readAll`: the strategies of a document.
* `Strategy.ofFile`: the strategies of a file.
-/

namespace PaperTrading.Strategy

variable {α : Type} [Arith α]

/-- The documents that a file lists. -/
def documents (v : Value α) : Value α :=
  match v with
  | .object fields => ((Table.mk fields).find? "strategies").getD (.list [])
  | v => v

/-- **The strategies of a document.** -/
def readAll (v : Value α) : Except Failure (List (Strategy α)) := do
  (← (documents v).items).mapM Strategy.read

/-- How deep lists and objects may lie inside each other in a file. -/
def fileDepth : Nat := 986

/-- **The strategies of a file** with a given name. -/
def ofFile (name : String) (text : Option String) : Except Failure (List (Strategy α)) :=
  match text with
  | none => .ok []
  | some s => match Json.read fileDepth s with
    | .ok v => readAll v
    | .error .malformedJson => .error (.invalidStrategyFile name)
    | .error f => .error f

end PaperTrading.Strategy
