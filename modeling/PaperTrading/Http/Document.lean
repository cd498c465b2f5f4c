import PaperTrading.Http.Service
import PaperTrading.Json.Printer

/-!
# Requests and responses as documents

A request can be written down as an object with its method, its path, its user and its body; a
response as an object with its status and its body.

* `Request.ofValue`: the request of a document.
* `Response.toValue`: the document of a response.
-/

namespace PaperTrading.Http

variable {α : Type}

/-- The text of a field, if it holds one. -/
def textOf? (fields : Table (Value α)) (name : String) : Option String :=
  match fields.find? name with
  | some (.text s) => some s
  | _ => none

/-- **The request of a document.**  A body that is no text is sent as JSON. -/
def Request.ofValue [Arith α] (v : Value α) : Request :=
  let fields : Table (Value α) := match v with
    | .object fields => ⟨fields⟩
    | _ => .empty
  { method := (textOf? fields "method").getD ""
    target := (textOf? fields "path").getD ""
    user := textOf? fields "user"
    body := (fields.find? "body").map fun
      | .text s => s
      | body => Json.write body }

/-- The body of a response, if it has one. -/
def Content.toValue? : Content α → Option (Value α)
  | .document v => some v
  | .text s => some (.text s)
  | .none => Option.none

/-- **The document of a response.** -/
def Response.toValue (r : Response α) : Value α :=
  .object (("status", .int r.status) :: r.content.toValue?.toList.map fun v => ("body", v))

end PaperTrading.Http
