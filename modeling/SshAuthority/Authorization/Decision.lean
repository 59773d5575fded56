/-
SshAuthority/Authorization/Decision.lean

The state of a user, and whether it allows a certificate.

An authorization service reports the state as a word. Accounts are deployed at
the first login and not here, so a user without an account is still allowed a
certificate; whatever is no known word is unknown, and forbids it.
-/
import SshAuthority.Json.Value

namespace SshAuthority

/-- The state of a user at an authorization service. -/
inductive UserState where
  | notDeployed
  | deployed
  | suspended
  | unknown
  deriving DecidableEq

/-- Whether a certificate may be issued. -/
inductive Decision where
  | allow
  | deny
  deriving DecidableEq

namespace UserState

/-- The word for a state. -/
def text : UserState → Text
  | .notDeployed => "not_deployed"
  | .deployed => "deployed"
  | .suspended => "suspended"
  | .unknown => "unknown"

/-- The state of a word. -/
def ofText (t : Text) : UserState :=
  if t = text .notDeployed then .notDeployed
  else if t = text .deployed then .deployed
  else if t = text .suspended then .suspended
  else .unknown

/-- The state that a value names; only texts name one. -/
def ofJson : Json → UserState
  | .text t => ofText t
  | _ => .unknown

/-- What the state means for a certificate. -/
def decision : UserState → Decision
  | .notDeployed | .deployed => .allow
  | .suspended | .unknown => .deny

end UserState

/-- The word for a decision. -/
def Decision.text : Decision → Text
  | .allow => "allow"
  | .deny => "deny"

end SshAuthority
