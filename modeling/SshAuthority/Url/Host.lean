/-
SshAuthority/Url/Host.lean

Hosts of URLs.

A host is an address of version 4 if it is digits with three separators of any
kind between, an address of version 6 if it stands in brackets, and otherwise a
name. An ASCII name is made small and escaped. Any other is written in ASCII by the
rules for internationalized names, which are given.
-/
import SshAuthority.Defect
import SshAuthority.Network.Address
import SshAuthority.Text.Percent

namespace SshAuthority.Host

/-! ### Addresses -/

/-- The states that a code point leads to among the runs of digits: an even number
`2 k` before the digits of run `k`, an odd one within them. -/
def runStep (c : CodePoint) (state : Nat) : List Nat :=
  if state % 2 = 0 then if c.isAsciiDigit then [state + 1] else []
  else (if c.isAsciiDigit then [state] else []) ++ (if state < 7 then [state + 1] else [])

/-- Whether the text is four runs of digits with one code point between any two. -/
def looksLikeVersion4 (t : Text) : Bool :=
  (t.foldl (fun states c => (states.flatMap (runStep c)).eraseDups) [0]).contains 7

/-! ### Names -/

/-- How names that are not ASCII are written in ASCII, if they can be: the rules for
internationalized names (IDNA), which a library knows. -/
abbrev Idna := Text → Option Text

/-- What need not be escaped in an ASCII name. -/
def isNameSafe (c : CodePoint) : Bool :=
  Percent.isUnreserved c ||
    (Text.ofString "!$&()*+,;=\"\x7b\x7d%|\\" ++ [0x27, 0x60]).contains c

/-- The host as requests name it, without brackets. -/
def normalize (idna : Idna) (host : Text) : Except Defect Text :=
  if host.isEmpty then .ok []
  else if looksLikeVersion4 host then
    if (Address.version4? host).isSome then .ok host else .error .invalidUrl
  else if host.head? = some 0x5B && host.getLast? = some 0x5D && 2 ≤ host.length then
    let inner := host.tail.dropLast
    if (Address.version6? inner).isSome then .ok inner else .error .invalidUrl
  else if host.isAscii then .ok ((Percent.encode? isNameSafe (Text.lowerAscii host)).getD [])
  else match idna host with
    | some t => .ok t
    | none => .error .invalidUrl

end SshAuthority.Host
