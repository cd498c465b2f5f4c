import PaperTrading.Json.Token
import PaperTrading.Text.Utf8

/-!
# Request paths

A path is percent-decoded before it is matched.  A path that is known but for slashes at its end leads
nowhere by itself; whoever asks for it is sent to the path without them.

* `percentDecode`: the text behind percent escapes, read as UTF-8.
* `Endpoint`: the known paths.
* `Route.ofTarget`: where a request target leads.
-/

namespace PaperTrading.Http

open PaperTrading.Text (utf8Bytes ofUtf8)

/-! ### Decoding -/

/-- The bytes of a text with percent escapes; an escape that is not two hexadecimal digits stands for
itself. -/
def bytes : List Char → List Nat
  | [] => []
  | '%' :: a :: b :: cs => match Json.hexDigit? a, Json.hexDigit? b with
    | some x, some y => (16 * x + y) :: bytes cs
    | _, _ => 0x25 :: bytes (a :: b :: cs)
  | c :: cs => utf8Bytes [c] ++ bytes cs

/-- **The characters behind percent escapes.** -/
def percentDecode (cs : List Char) : List Char := ofUtf8 (bytes cs)

/-! ### Endpoints -/

/-- **The known paths.** -/
inductive Endpoint where
  | health
  | sessions
  | session (id : String)
  | update (id : String)
  | stop (id : String)
  /-- A page about the service, made for people. -/
  | page
  deriving DecidableEq, Repr

namespace Endpoint

/-- The methods that an endpoint answers. -/
def methods : Endpoint → List String
  | health => ["GET"]
  | sessions => ["GET", "POST"]
  | session _ => ["GET", "DELETE"]
  | update _ => ["PUT"]
  | stop _ => ["PUT"]
  | page => ["GET", "HEAD"]

/-- The endpoint of the segments of a path. -/
def ofSegments? : List String → Option Endpoint
  | ["", "health"] => some health
  | ["", "paper-trading"] => some sessions
  | ["", "paper-trading", id] => if id = "" then none else some (session id)
  | ["", "paper-trading", id, "update"] => if id = "" then none else some (update id)
  | ["", "paper-trading", id, "stop"] => if id = "" then none else some (stop id)
  | ["", "docs"] | ["", "docs", "oauth2-redirect"] | ["", "redoc"] | ["", "openapi.json"] => some page
  | _ => none

/-- The segments of a path. -/
def segments (path : List Char) : List String := (path.splitOn '/').map String.ofList

/-- A path without slashes at its end. -/
def withoutSlashes (path : List Char) : List Char :=
  (path.reverse.dropWhile (· == '/')).reverse

/-- A path without a line feed at its end. -/
def withoutLineFeed (path : List Char) : List Char :=
  if path.getLast? == some '\n' then path.dropLast else path

/-- The endpoint of a path.  A line feed at the end is skipped, unless it belongs to an
identifier. -/
def ofPath? (path : List Char) : Option Endpoint :=
  (ofSegments? (segments path)).orElse fun _ => ofSegments? (segments (withoutLineFeed path))

end Endpoint

/-- **Where a request target leads.** -/
inductive Route where
  | known (e : Endpoint)
  /-- Without the slashes at its end the path would be known. -/
  | moved
  | unknown
  deriving DecidableEq, Repr

namespace Route

/-- The route of a path. -/
def ofPath (path : List Char) : Route :=
  match Endpoint.ofPath? path with
  | some e => known e
  | none =>
    if (Endpoint.ofPath? (Endpoint.withoutSlashes path)).isSome then moved else unknown

/-- **The route of a request target.** -/
def ofTarget (target : String) : Route := ofPath (percentDecode target.toList)

end Route

example : Route.ofTarget "/%68ealth" = .known .health ∧ Route.ofTarget "/health//" = .moved
    ∧ Route.ofTarget "/paper-trading/a%3Fb" = .known (.session "a?b")
    ∧ Route.ofTarget "/health?x" = .unknown := by decide +kernel

end PaperTrading.Http
