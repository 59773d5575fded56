/-
SshAuthority/Config/HostGroup.lean

Host groups, and the group that a host belongs to.

A group has two key pairs, one that vouches for hosts and one that vouches for
users, and patterns of hosts with the endpoint of the authorization service for
each. A configuration is its groups in order. A host belongs to the first group
with a pattern that covers it, and the first such pattern there decides on the
endpoint.
-/
import SshAuthority.Config.KeyCache
import SshAuthority.Config.Pattern

namespace SshAuthority

/-- A group of hosts. -/
structure HostGroup where
  name : Text
  hostKeys : KeyPair
  userKeys : KeyPair
  /-- The validity of certificates as it was written. -/
  validity : Text
  /-- The validity in seconds; zero binds it to the access token. -/
  duration : Int
  /-- The endpoint for each pattern. -/
  hosts : Table Text
  deriving DecidableEq

/-- Whether certificates live as long as the access token. -/
def HostGroup.isTokenBound (g : HostGroup) : Bool := g.duration = 0

/-- What a configuration says of one host. -/
structure HostInfo where
  pattern : Text
  endpoint : Text
  duration : Int
  group : Text
  hostKeys : KeyPair
  userKeys : KeyPair
  deriving DecidableEq

namespace HostGroup

/-- What the group says of hosts that an entry covers. -/
def info (g : HostGroup) (pattern endpoint : Text) : HostInfo :=
  ⟨pattern, endpoint, g.duration, g.name, g.hostKeys, g.userKeys⟩

/-- What the group says of a host, if one of its patterns covers it. -/
def resolve? (g : HostGroup) (host : Text) : Option HostInfo :=
  (g.hosts.find? fun (pattern, _) => Pattern.covers pattern host).map
    fun (pattern, endpoint) => g.info pattern endpoint

theorem resolve?_eq_none_iff {g : HostGroup} {host : Text} :
    g.resolve? host = none ↔ ∀ e ∈ g.hosts, Pattern.covers e.1 host = false := by
  unfold resolve?
  simp only [Option.map_eq_none_iff, List.find?_eq_none, Bool.not_eq_true]

end HostGroup

/-- A configuration: its host groups in order. -/
structure Config where
  groups : List HostGroup := []
  deriving DecidableEq

namespace Config

/-- The names of the groups. -/
def names (c : Config) : List Text := c.groups.map (·.name)

/-- What the configuration says of a host. -/
def resolve? (c : Config) (host : Text) : Option HostInfo :=
  c.groups.findSome? (·.resolve? host)

/-- What the configuration says of a host, which has to belong to a group. -/
def resolve (c : Config) (host : Text) : Except Failure HostInfo :=
  match c.resolve? host with
  | some info => .ok info
  | none => .error (.unknownHost host)

theorem resolve_eq_ok_iff {c : Config} {host : Text} {info : HostInfo} :
    c.resolve host = .ok info ↔ c.resolve? host = some info := by
  unfold resolve
  rcases c.resolve? host with - | info' <;> simp

theorem resolve_eq_error_iff {c : Config} {host : Text} {f : Failure} :
    c.resolve host = .error f ↔ c.resolve? host = none ∧ f = .unknownHost host := by
  unfold resolve
  rcases c.resolve? host with - | info <;> simp [eq_comm]

end Config

end SshAuthority
