import PaperTrading.Text.Surrogate
import PaperTrading.Value.Basic

/-!
# Rendering documents

A document is rendered as JSON in UTF-8.  Fields with private names are left out; a number that is not
finite and a text with half a character cannot be rendered.

* `published`: a document without private fields.
* `isRenderable`: a document that can be rendered.
-/

namespace PaperTrading.Http

variable {α : Type}

/-- A name that is not for the client. -/
def isPrivate (name : String) : Bool := "_sa".toList.isPrefixOf name.toList

mutual

/-- **A document without private fields,** at any depth. -/
def published : Value α → Value α
  | .list items => .list (publishedItems items)
  | .object fields => .object (publishedFields fields)
  | v => v

/-- Some items without private fields. -/
def publishedItems : List (Value α) → List (Value α)
  | [] => []
  | v :: vs => published v :: publishedItems vs

/-- The fields that are not private. -/
def publishedFields : List (String × Value α) → List (String × Value α)
  | [] => []
  | (k, v) :: fs => if isPrivate k then publishedFields fs else (k, published v) :: publishedFields fs

end

variable [Arith α]

mutual

/-- **A document that can be rendered.** -/
def isRenderable : Value α → Bool
  | .num x => !(Arith.isNaN x || Arith.isInfinite x)
  | .text s => Text.isWhole s
  | .list items => areRenderable items
  | .object fields => fieldsAreRenderable fields
  | _ => true

/-- Items that can be rendered. -/
def areRenderable : List (Value α) → Bool
  | [] => true
  | v :: vs => isRenderable v && areRenderable vs

/-- Fields that can be rendered, with their names. -/
def fieldsAreRenderable : List (String × Value α) → Bool
  | [] => true
  | (k, v) :: fs => Text.isWhole k && isRenderable v && fieldsAreRenderable fs

end

end PaperTrading.Http
