/-
SshAuthority/Defect.lean

Faults that the service has no error of its own for.

Each operation turns the faults it expects into errors of the service
(`Failure`). The ones it does not expect pass through it unchanged; here they
are told apart by what went wrong, not by where.
-/

namespace SshAuthority

/-- A fault outside the service's own errors. -/
inductive Defect where
  /-- A value that no operation accepts. -/
  | badValue
  /-- Octets that are no text. -/
  | undecodable
  /-- A text that the encoding asked for cannot write. -/
  | unencodable
  /-- A home directory of a user who does not exist. -/
  | unknownUser
  /-- A text that is no URL. -/
  | invalidUrl
  /-- A text that is no key. -/
  | badKey
  /-- A value of a type that the operation does not take. -/
  | wrongType
  /-- Values nested too deeply. -/
  | tooDeep
  /-- A number beyond the range of its field. -/
  | outOfRange
  deriving DecidableEq

end SshAuthority
