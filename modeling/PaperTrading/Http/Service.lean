import PaperTrading.Desk.Operations
import PaperTrading.Http.Path
import PaperTrading.Http.Rendering
import PaperTrading.Json.Encoding
import PaperTrading.Json.Reader

/-!
# The HTTP service

A request names a user in a header and an endpoint by its path.  The service decodes the body, lets
the desk do the work and maps failures to status codes: 400 for a request that cannot be met, 403 for
a foreign session, 404 for an unknown one, 409 for a stopped one, and 500 for a failure that is nobody's
fault but the service's own.

* `Request`, `Response`: what comes in and what goes out.
* `Service`: a desk, which may not be there yet, and a provider of market data, if there is one.
* `Service.handle`: the answer to a request, and the service after it.
-/

namespace PaperTrading.Http

/-- **A request.**  The body is raw text. -/
structure Request where
  method : String
  target : String
  user : Option String
  body : Option String

/-- The content of a response. -/
inductive Content (α : Type) where
  | document (v : Value α)
  | text (s : String)
  | none

/-- **A response.** -/
structure Response (α : Type) where
  status : Nat
  content : Content α

/-- **The service.** -/
structure Service (α : Type) where
  desk : Option (Desk α)
  provider : Option (Provider α)

variable {α : Type}

namespace Response

/-- The answer to a failure that no other status covers. -/
def internalError : Response α := ⟨500, .text "Internal Server Error"⟩

/-- A refusal with an explanation, if it can be rendered. -/
def refusal (status : Nat) (detail : String) : Response α :=
  if Text.isWhole detail then ⟨status, .document (.object [("detail", .text detail)])⟩
  else internalError

/-- The answer to a body that is not what the endpoint asks for. -/
def unprocessable : Response α := ⟨422, .none⟩

/-- The answer to a body that cannot be decoded. -/
def unreadable : Response α := refusal 400 "There was an error parsing the body"

/-- The answer to a path that is known without the slashes at its end. -/
def redirect : Response α := ⟨307, .text ""⟩

/-- The status of a failure of a session operation; other failures are internal errors. -/
def ofFailure (f : Failure) : Response α :=
  match f with
  | .foreignSession | .foreignStrategy => refusal 403 f.message
  | .sessionNotFound _ => refusal 404 f.message
  | .notActive .. => refusal 409 f.message
  | _ => internalError

/-- The answer to a session that could not be created. -/
def ofCreation (f : Failure) : Response α :=
  match f with
  | .foreignStrategy => ofFailure f
  | f =>
    let isRefused := f.isStrategy || f.isValue ||
      (match f with
        | .strategyNotFound _ => true
        | _ => false)
    if isRefused then refusal 400 ("Failed to start paper trading session: " ++ f.message)
    else internalError

end Response

/-! ### Bodies -/

/-- The body of a request. -/
inductive Body (α : Type) where
  | missing
  | object (fields : Table (Value α))
  /-- A value that is no object. -/
  | other (v : Value α)
  | malformed
  /-- Bytes that denote no text, or a text that is too much to read. -/
  | unreadable

/-- How deep lists and objects may lie inside each other in a body. -/
def bodyDepth : Nat := 955

/-- The body of a raw text; null counts as missing. -/
def Body.read [Arith α] (raw : Option String) : Body α :=
  match raw with
  | none | some "" => missing
  | some s => match Json.decode? s with
    | none => unreadable
    | some s => match Json.read bodyDepth s with
      | .ok .null => missing
      | .ok (.object fields) => object ⟨fields⟩
      | .ok v => other v
      | .error .malformedJson => malformed
      | .error _ => unreadable

/-- The answer to a body that is none of those that an endpoint asks for; it quotes a value. -/
def Body.rejection [Arith α] : Body α → Response α
  | .other v => if isRenderable (published v) then .unprocessable else .internalError
  | .unreadable => .unreadable
  | _ => .unprocessable

/-- A response with a document, if it can be rendered. -/
def Response.document [Arith α] (status : Nat) (v : Value α) : Response α :=
  let v := published v
  if isRenderable v then ⟨status, .document v⟩ else internalError

namespace Service

variable [Arith α]

/-! ### Checks -/

/-- The text of a header: every byte of it is a character. -/
def headerText (s : String) : String :=
  String.ofList ((Text.utf8Bytes s.toList).map Char.ofNat)

omit [Arith α] in
/-- The answer for the user of a request, who has to be named. -/
def withUser (s : Service α) (user : Option String)
    (k : String → Service α × Response α) : Service α × Response α :=
  match user.filter (· ≠ "") with
  | some u => k (headerText u)
  | none => (s, .refusal 401 "Missing X-User-Id header")

omit [Arith α] in
/-- The answer of the desk, which has to be there. -/
def withDesk (s : Service α) (k : Desk α → Desk α × Response α) : Service α × Response α :=
  match s.desk with
  | some d =>
    let (d, r) := k d
    ({ s with desk := some d }, r)
  | none => (s, .refusal 503 "Session manager not configured")

/-- The answer of an operation on a session. -/
def answer (d : Desk α × Except Failure (Session α)) : Desk α × Response α :=
  match d with
  | (d, .ok session) => (d, .document 200 session.toValue)
  | (d, .error f) => (d, .ofFailure f)

/-! ### Endpoints -/

/-- Starts a session. -/
def create (now : Instant) (s : Service α) (user : Option String) (body : Body α) :
    Service α × Response α :=
  match body with
  | .object fields => s.withUser user fun u =>
    let strategy := Value.get fields "strategyId"
    if strategy.isTrue then s.withDesk fun d =>
      match d.create now (some u) strategy.display (.ofTable fields) with
      | (d, .ok session) => (d, .document 201 session.toValue)
      | (d, .error f) => (d, .ofCreation f)
    else (s, .refusal 400 "Strategy ID is required")
  | body => (s, body.rejection)

/-- Lists the sessions of a user. -/
def list (s : Service α) (user : Option String) : Service α × Response α :=
  s.withUser user fun u => s.withDesk fun d =>
    (d, .document 200 (.list ((d.list (some u)).map Session.toValue)))

/-- Shows a session. -/
def get (s : Service α) (user : Option String) (id : String) : Service α × Response α :=
  s.withUser user fun u => s.withDesk fun d => answer (d, d.get id (some u))

/-- Runs one cycle of a session, over the given market data or over fetched ones. -/
def updateWith (now : Instant) (s : Service α) (user : Option String) (id : String)
    (data : Value α) : Service α × Response α :=
  s.withUser user fun u => s.withDesk fun d =>
    if !data.isNull then answer (d.update now id (.document data) (some u))
    else match s.provider with
      | some provider =>
        let (d, refreshed) := d.refresh now id (some u) provider
        answer (d, refreshed.result)
      | none => (d, .refusal 400 "marketData is required")

/-- Runs one cycle of a session; the body may hold market data. -/
def update (now : Instant) (s : Service α) (user : Option String) (id : String) (body : Body α) :
    Service α × Response α :=
  match body with
  | .missing => updateWith now s user id .null
  | .object fields => updateWith now s user id (Value.get fields "marketData")
  | body => (s, body.rejection)

/-- Stops a session. -/
def stop (now : Instant) (s : Service α) (user : Option String) (id : String) :
    Service α × Response α :=
  s.withUser user fun u => s.withDesk fun d => answer (d.stop now id (some u))

/-- Deletes a session. -/
def delete (s : Service α) (user : Option String) (id : String) : Service α × Response α :=
  s.withUser user fun u => s.withDesk fun d =>
    match d.delete id (some u) with
    | (d, .ok true) => (d, .document 200 (.object [("id", .text id)]))
    | (d, .ok false) => (d, .refusal 404 "Paper trading session not found")
    | (d, .error f) => (d, .ofFailure f)

/-- The answer of an endpoint to a method that it knows. -/
def dispatch (now : Instant) (s : Service α) (r : Request) : Endpoint → Service α × Response α
  | .health => (s, .document 200 (.object [("status", .text "ok")]))
  | .sessions =>
    if r.method = "POST" then create now s r.user (.read r.body) else s.list r.user
  | .session id => if r.method = "DELETE" then s.delete r.user id else s.get r.user id
  | .update id => update now s r.user id (.read r.body)
  | .stop id => stop now s r.user id
  | .page => (s, ⟨200, .text ""⟩)

/-- **The answer to a request,** and the service after it. -/
def handle (now : Instant) (s : Service α) (r : Request) : Service α × Response α :=
  match Route.ofTarget r.target with
  | .unknown => (s, .refusal 404 "Not Found")
  | .moved => (s, .redirect)
  | .known e =>
    if e.methods.contains r.method then dispatch now s r e
    else (s, .refusal 405 "Method Not Allowed")

end Service

end PaperTrading.Http
