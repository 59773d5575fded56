/-
SshAuthority/Service/Request.lean

Requests to the service, and where they lead.

The path of a request is taken without its query and with its escapes resolved.
Five forms of paths lead somewhere. One of them is that of the framework, which shows
what the others are; it comes first, and two methods lead to it, where one method leads
to each of the others. A line feed at the end is overlooked where a form ends in fixed
text.
-/
import SshAuthority.Text.Percent

namespace SshAuthority

/-- A request. -/
structure Request where
  method : Text
  /-- Scheme and host that the request was sent to. -/
  origin : Text
  /-- Path and query, as they were sent. -/
  target : Text
  contentType : Option Text
  body : Bytes
  /-- The address that the request came from. -/
  client : Text

namespace Request

/-- The path. -/
def path (r : Request) : Text := Percent.decode (r.target.takeWhile (· ≠ 0x3F))

/-- The query, if there is one that is not empty. -/
def query? (r : Request) : Option Text :=
  match Text.cut? 0x3F r.target with
  | some (_, q) => if q.isEmpty then none else some q
  | none => none

/-- The path as records show it: up to a fragment or query, on one line. -/
def shownPath (r : Request) : Text :=
  ((r.path.filter fun c => c ≠ 0x09 && c ≠ 0x0A && c ≠ 0x0D).takeWhile (· ≠ 0x23)).takeWhile
    (· ≠ 0x3F)

end Request

/-- Where a request leads. -/
inductive Route where
  /-- What the framework tells of the service. -/
  | schema
  /-- The version of the service. -/
  | index
  | health
  /-- What the service knows of a host. -/
  | host (name : Text)
  /-- A certificate for logins to a host. -/
  | certificate (host : Text)
  deriving DecidableEq

namespace Route

/-- The text without a line feed at its end. -/
def overlookLineFeed (t : Text) : Text := if t.getLast? = some 0x0A then t.dropLast else t

/-- A name that fills one segment of a path. -/
def segment? (t : Text) : Option Text := if t.isEmpty || t.contains 0x2F then none else some t

/-- The host in the path of a certificate. -/
def certificateHost? (rest : Text) : Option Text := do
  let (name, tail) ← Text.cut? 0x2F rest
  if overlookLineFeed tail = "certificate" then segment? name else none

/-- Where a path leads. -/
def ofPath? (path : Text) : Option Route := do
  let rest ← Text.after? "/" path
  if overlookLineFeed rest = "openapi.json" then some .schema
  else if overlookLineFeed rest = [] then some .index
  else if overlookLineFeed rest = "api/health" then some .health
  else match segment? rest with
    | some name => some (.host name)
    | none => .certificate <$> certificateHost? rest

/-- The methods that lead to a route. The framework names two of them in no fixed order. -/
def methods : Route → List Text
  | .schema => ["GET", "HEAD"]
  | .certificate _ => ["POST"]
  | _ => ["GET"]

instance decidableMemMethods (method : Text) (route : Route) : Decidable (method ∈ route.methods) :=
  inferInstance

end Route

end SshAuthority
