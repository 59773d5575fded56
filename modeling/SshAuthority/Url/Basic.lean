/-
SshAuthority/Url/Basic.lean

URLs, taken apart and normalized.

Every text without control characters is taken apart: scheme, authority, path,
query and fragment, each of which may be missing. What makes a text no URL is a
host that is a broken address, a port that is no number, or a path that runs into
the authority. Normalizing makes scheme and host small, drops the port that the
scheme implies and the dots in the path, and escapes what may not stand there.
-/
import SshAuthority.Number.Decimal
import SshAuthority.Url.Host

namespace SshAuthority

/-- A URL. The host of an address of version 6 stands without its brackets. -/
structure Url where
  scheme : Text
  userInfo : Text
  host : Text
  port : Option Int
  path : Text
  query : Option Text
  fragment : Option Text
  deriving DecidableEq

namespace Url

/-! ### Taking apart -/

/-- What may follow the first letter of a scheme. -/
def isSchemePoint (c : CodePoint) : Bool :=
  c.toChar?.any fun ch => ch.isAlphanum || ch = '+' || ch = '.' || ch = '-'

/-- Whether a text can be a scheme; the empty one can. -/
def isScheme : Text → Bool
  | [] => true
  | c :: rest => c.toChar?.any Char.isAlpha && rest.all isSchemePoint

/-- The parts of a text as they stand. -/
structure Parts where
  scheme : Text
  authority : Text
  path : Text
  query : Option Text
  fragment : Option Text
  deriving DecidableEq

/-- The text before the first `sep`, and the text after it if there is one. -/
def cutAt (sep : CodePoint) (t : Text) : Text × Option Text :=
  match Text.cut? sep t with
  | some (before, after) => (before, some after)
  | none => (t, none)

/-- Takes a text apart. -/
def Parts.ofText (t : Text) : Parts :=
  let (front, fragment) := cutAt 0x23 t
  let (front, query) := cutAt 0x3F front
  let (scheme, rest) := match Text.cut? 0x3A front with
    | some (scheme, rest) => if isScheme scheme then (scheme, rest) else ([], front)
    | none => ([], front)
  match Text.after? "//" rest with
  | some rest =>
    let authority := rest.takeWhile (· ≠ 0x2F)
    ⟨scheme, authority, rest.drop authority.length, query, fragment⟩
  | none => ⟨scheme, [], rest, query, fragment⟩

/-- The user information, the host and the port of an authority. -/
def splitAuthority (t : Text) : Text × Text × Text :=
  let (userInfo, rest) := (Text.cutLast? 0x40 t).getD ([], t)
  let bracketed := if rest.head? = some 0x5B then (Text.cutLast? 0x5D rest).map (·.1 ++ [0x5D]) else none
  let host := bracketed.getD (rest.takeWhile (· ≠ 0x3A))
  let tail := rest.drop host.length
  (userInfo, host, (Text.after? ":" tail).getD tail)

/-! ### Normalizing -/

/-- The ports that schemes imply. -/
def impliedPort? (scheme : Text) : Option Int :=
  if scheme = "http" then some 80 else if scheme = "https" then some 443 else none

/-- The port that a text names, unless the scheme implies it. -/
def port? (scheme t : Text) : Except Defect (Option Int) :=
  if t.isEmpty then .ok none
  else match Decimal.read t with
    | .error _ => .error .invalidUrl
    | .ok n => .ok (if impliedPort? scheme = some n then none else some n)

/-- The segments without single dots, and with each double dot taking back the segment
before it. -/
def dropDots (done : List Text) : List Text → List Text
  | [] => done
  | s :: rest =>
    if s = "." then dropDots done rest
    else if s = ".." then
      dropDots (if done.isEmpty || done = [[]] then done else done.dropLast) rest
    else dropDots (done ++ [s]) rest

/-- The path without dots. -/
def normalizePath (path : Text) : Text :=
  Text.join [0x2F] (dropDots [] (Text.splitOn 0x2F path))

/-- The visible ASCII that is safe in a part, all but the listed. -/
def isVisibleBut (excluded : Text) (c : CodePoint) : Bool :=
  0x21 ≤ c.val && c.val ≤ 0x7E && !excluded.contains c

/-- What is safe in a query. -/
def isQuerySafe : CodePoint → Bool := isVisibleBut "\"#<>"

/-- What is safe in a fragment. -/
def isFragmentSafe : CodePoint → Bool := isVisibleBut (Text.ofString "\"<>" ++ [0x60])

/-- What is unsafe in a path. -/
def pathUnsafe : Text := Text.ofString "\"#<>?\x7b\x7d" ++ [0x60]

/-- What is safe in a path. -/
def isPathSafe : CodePoint → Bool := isVisibleBut pathUnsafe

/-- What is safe in user information. -/
def isUserSafe : CodePoint → Bool := isVisibleBut (pathUnsafe ++ Text.ofString "/;=@[\\]^|")

/-- The text of a part with all but safe code points escaped. -/
def quote (safe : CodePoint → Bool) (t : Text) : Except Defect Text :=
  match Percent.encode? safe t with
  | some q => .ok q
  | none => .error .unencodable

/-- An optional part, escaped. -/
def quoteOptional (safe : CodePoint → Bool) : Option Text → Except Defect (Option Text)
  | none => .ok none
  | some t => (quote safe t).map some

/-- Whether a path may follow: after an authority it is empty or begins with a slash,
and at the start of a text it does not begin like an authority or a scheme. -/
def pathFits (hasScheme hasAuthority : Bool) (path : Text) : Bool :=
  if hasAuthority then path.isEmpty || path.head? = some 0x2F
  else hasScheme || (!Text.startsWith "//" path && path.head? ≠ some 0x3A)

/-- The URL of parts. -/
def ofParts (idna : Host.Idna) (p : Parts) : Except Defect Url := do
  let (userInfo, host, port) := splitAuthority p.authority
  let userInfo ← quote isUserSafe userInfo
  let host ← Host.normalize idna host
  let port ← port? p.scheme port
  let hasScheme := !p.scheme.isEmpty
  let hasAuthority := !userInfo.isEmpty || !host.isEmpty || port.isSome
  if !pathFits hasScheme hasAuthority p.path then throw .invalidUrl
  let path ← quote isPathSafe
    (if hasScheme || hasAuthority then normalizePath p.path else p.path)
  let query ← quoteOptional isQuerySafe p.query
  let fragment ← quoteOptional isFragmentSafe p.fragment
  return ⟨Text.lowerAscii p.scheme, userInfo, host, port, path, query, fragment⟩

/-- The longest text that is read as a URL. -/
def maxLength : Nat := 65536

/-- Control characters of ASCII. -/
def isControl (c : CodePoint) : Bool := c.val < 0x20 || c.val = 0x7F

/-- Reads a URL. -/
def read (idna : Host.Idna) (t : Text) : Except Defect Url :=
  if maxLength < t.length || t.any isControl then .error .invalidUrl
  else ofParts idna (Parts.ofText t)

/-! ### Parts of a URL -/

/-- The path and the query as a request line holds them. -/
def target (u : Url) : Text :=
  (if u.path.isEmpty then [0x2F] else u.path) ++
    match u.query with
    | some q => 0x3F :: q
    | none => []

/-- The URL that a request goes to. Without scheme or host there is no server to name,
and only the target is left. -/
def forRequest (u : Url) : Url :=
  if u.scheme.isEmpty || u.host.isEmpty then
    { u with
      scheme := [], userInfo := [], host := [], port := none, fragment := none
      path := if u.path.isEmpty then [0x2F] else 0x2F :: Text.dropLeft (· = 0x2F) u.path }
  else u

/-- User and password, if either is given. -/
def credentials? (u : Url) : Option (Text × Text) :=
  let (user, password) := cutAt 0x3A u.userInfo
  let credentials := (Percent.decode user, Percent.decode (password.getD []))
  if credentials.1.isEmpty && credentials.2.isEmpty then none else some credentials

/-- The authority: user information, host and port. -/
def authority (u : Url) : Text :=
  (if u.userInfo.isEmpty then [] else u.userInfo ++ [0x40]) ++
    (if u.host.contains 0x3A then [0x5B] ++ u.host ++ [0x5D] else u.host) ++
    match u.port with
    | some n => 0x3A :: Decimal.ofInt n
    | none => []

/-- A part with a mark before it, if it is there. -/
def marked (mark : CodePoint) : Option Text → Text
  | some t => mark :: t
  | none => []

/-- The text of a URL. -/
def text (u : Url) : Text :=
  (if u.scheme.isEmpty then [] else u.scheme ++ [0x3A]) ++
    (if u.authority.isEmpty then [] else Text.ofString "//" ++ u.authority) ++
    u.path ++ marked 0x3F u.query ++ marked 0x23 u.fragment

end Url

end SshAuthority
