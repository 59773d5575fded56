/-
SshAuthority/Config/Pattern.lean

Patterns of host names.

A pattern `*.example.org` covers what ends in `example.org` and is longer. Any
other pattern covers the host of that name alone.
-/
import SshAuthority.Text.CodePoint

namespace SshAuthority.Pattern

/-- Whether the pattern covers the host. -/
def covers (pattern host : Text) : Bool :=
  match Text.after? "*." pattern with
  | some domain => Text.endsWith domain host && host ≠ domain
  | none => host = pattern

end SshAuthority.Pattern
