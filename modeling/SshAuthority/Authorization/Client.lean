/-
SshAuthority/Authorization/Client.lean

What the service asks an authorization service.

There are two questions. `info` asks which identity providers the service
supports; `status` asks for the state of the user who owns an access token, and
`authorize` makes a decision of it. An answer counts only with a status of
success and a JSON object as its body. Whatever else happens is a failure: the
endpoint is unreachable, or the user is not authorized. The record of it ends with
what the HTTP client says of the fault.
-/
import SshAuthority.Authorization.Decision
import SshAuthority.Authorization.Inquiry
import SshAuthority.Encoding.Base64
import SshAuthority.Json.Reader
import SshAuthority.Url.Basic

namespace SshAuthority

/-- The client that requests are sent with, as far as the service depends on it: how it writes the
names of hosts, and what it says of a fault. -/
structure HttpClient where
  idna : Host.Idna
  /-- On a URL that cannot be encoded. -/
  urlFault : Text → Text
  /-- On a header that cannot be encoded. -/
  headerFault : Text → Text
  /-- On a response to a URL whose status is none of success. -/
  statusFault : Text → Nat → Text
  /-- On a body that is no JSON. -/
  bodyFault : Bytes → Text

/-- An authorization service, how it is asked, and how long to wait for it. -/
structure Endpoint where
  client : HttpClient
  base : Text
  timeout : Real64

/-- The JSON value in a reply of success. -/
def Reply.json : Reply → Except Json.Fault Json
  | .lost _ => .error .malformed
  | .response status body => if isSuccess status then Json.readBytes body else .error .malformed

/-- What is said of a reply from a URL that has no value. -/
def HttpClient.replyFault (client : HttpClient) (url : Text) : Reply → Text
  | .lost words => words
  | .response status body =>
    if isSuccess status then client.bodyFault body else client.statusFault url status

namespace Endpoint

/-- The endpoint at a base URL, whose slashes at the end do not count. -/
def ofUrl (client : HttpClient) (url : Text) (timeout : Real64) : Endpoint :=
  ⟨client, Text.dropRight (· = 0x2F) url, timeout⟩

/-- The seconds to wait where nothing else is said. -/
def defaultTimeout : Real64 := Real64.ofDecimal false 10 0

/-! ### Requests -/

/-- The header of a user with a password. -/
def basicHeader (user password : Text) : Option Text := do
  let octets ← Utf8.encode? (user ++ [0x3A] ++ password)
  return Text.ofString "Basic " ++ Bytes.toLatin (Base64.encode octets)

/-- The request for a path below the base URL. User information in the URL takes the
place of the given header. If URL or header cannot be encoded there is none, but what the
client says of that. -/
def request (e : Endpoint) (path : Text) (header : Option Text) :
    Except Defect (Except Text Outgoing) := do
  match Url.read e.client.idna (e.base ++ path) with
  | .error .unencodable => return .error (e.client.urlFault (e.base ++ path))
  | .error d => throw d
  | .ok url =>
    let url := url.forRequest
    if header.any (!Text.isAscii ·) then return .error (e.client.headerFault (header.getD []))
    else
      let authorization := match url.credentials? with
        | some (user, password) => basicHeader user password
        | none => header
      return .ok ⟨url.text, authorization, e.timeout⟩

/-- Asks for a path, and goes on with the value in the reply; `lost` is how it goes on
without one, by what the client says of that. -/
def inquire {α : Type} (e : Endpoint) (path : Text) (header : Option Text)
    (lost : Text → Logged α) (next : Json → Logged α) : Inquiry (Logged α) :=
  match e.request path header with
  | .error d => .done (.fail (.defect d))
  | .ok (.error words) => .done (lost words)
  | .ok (.ok request) =>
    .ask request fun reply =>
      match reply.json with
      | .ok value => next value
      | .error .tooDeep => .fail (.defect .tooDeep)
      | .error _ => lost (e.client.replyFault request.url reply)

/-! ### Questions -/

/-- A record of this module. -/
def record (level : Log.Level) (message : Text) : Log.Record :=
  { level, logger := "oinit_ca.motleycue", message }

/-- The providers that a value lists. -/
def providers? (value : Json) : Option (List Text) :=
  match value.get? "supported_OPs" with
  | some (.array items) => some (items.map Json.display)
  | _ => none

/-- What a record says of a question that has failed. -/
def failureMessage (e : Endpoint) (question words : Text) : Text :=
  Text.ofString "motley_cue " ++ question ++ Text.ofString " request failed: " ++ e.base ++
    Text.ofString ": " ++ words

/-- Asks for the supported identity providers. -/
def info (e : Endpoint) : Inquiry (Logged (List Text)) :=
  let lost (words : Text) : Logged (List Text) :=
    ⟨.error (.unreachable (.unreachable e.base)),
      [record Log.Level.warning (e.failureMessage "info" words)]⟩
  e.inquire "/info" none lost fun value =>
    match providers? value with
    | some list => .pure list
    | none => ⟨.error (.unreachable (.malformed e.base)),
        [record Log.Level.warning ("motley_cue info response malformed: " ++ e.base)]⟩

/-- The state of a user and what the service says to it. -/
structure UserStatus where
  state : UserState
  message : Text
  deriving DecidableEq

/-- The status that a value gives. -/
def status? (value : Json) : Option UserStatus :=
  match value with
  | .object entries =>
    let message := (Table.get? "message" entries).getD .null
    some {
      state := .ofJson ((Table.get? "state" entries).getD .null)
      message := if message.isPresent then message.display else [] }
  | _ => none

/-- Asks for the status of the user who owns the token. -/
def status (e : Endpoint) (token : Text) : Inquiry (Logged UserStatus) :=
  let lost (words : Text) : Logged UserStatus :=
    ⟨.error (.unauthorized .noStatus), [record Log.Level.info (e.failureMessage "status" words)]⟩
  e.inquire "/user/status" (some (Text.ofString "Bearer " ++ token)) lost fun value =>
    match status? value with
    | some s => .pure s
    | none => .fail (.unauthorized .badStatus)

/-- The record of a decision. -/
def decisionRecord (e : Endpoint) (s : UserStatus) : Log.Record :=
  let about := Text.ofString "User state " ++ s.state.text ++ Text.ofString " at " ++ e.base ++
    Text.ofString ": "
  match s.state.decision with
  | .deny => record Log.Level.info
      (about ++ if s.message.isEmpty then Text.ofString "no message" else s.message)
  | .allow => record Log.Level.debug (about ++ s.state.decision.text)

/-- Decides whether the user who owns the token may have a certificate. -/
def authorize (e : Endpoint) (token : Text) : Inquiry (Logged Decision) :=
  (e.status token).map fun answer =>
    answer.andThen fun s => ⟨.ok s.state.decision, [e.decisionRecord s]⟩

end Endpoint

end SshAuthority
