/-
SshAuthority/File/Path.lean

Paths of files.

A path is taken apart into its names: empty names and `.` drop out, `..` stays,
because what it stands for depends on the tree. The system sees a name as octets,
UTF-8 in which the code points U+DC80 to U+DCFF stand for single octets that are
not UTF-8.
-/
import SshAuthority.Defect
import SshAuthority.Text.Utf8

namespace SshAuthority

/-- A path: the slashes it begins with, and its names. -/
structure Path where
  root : Text
  names : List Text
  deriving DecidableEq

namespace Path

/-- The path of a text. Two slashes at the start are kept; more count as one. -/
def ofText (t : Text) : Path :=
  let slashes := (t.takeWhile (· = 0x2F)).length
  let root : Text := if slashes = 0 then [] else if slashes = 2 then [0x2F, 0x2F] else [0x2F]
  ⟨root, (Text.splitOn 0x2F t).filter fun name => !name.isEmpty && name ≠ [0x2E]⟩

/-- The text of a path; the empty path is written `.`. -/
def text (p : Path) : Text :=
  let t := p.root ++ Text.join [0x2F] p.names
  if t.isEmpty then [0x2E] else t

/-- The octets of a code point in a name. -/
def pointOctets? (c : CodePoint) : Option Bytes :=
  if 0xDC80 ≤ c.val && c.val ≤ 0xDCFF then some [UInt8.ofNat (c.val - 0xDC00)]
  else if c.isSurrogate then none
  else some (Utf8.encodePoint c)

/-- The octets of a name. -/
def octets? (name : Text) : Option Bytes := (name.mapM pointOctets?).map List.flatten

/-- The path of a home directory. A slash at its end does not count. -/
def ofHome (home : Text) : Path :=
  let t := Text.dropRight (· = 0x2F) home
  ofText (if t.isEmpty then [0x2F] else t)

end Path

/-- The home directories that are known: that of the user who asks, and those of others by the
octets of their names. -/
structure Homes where
  own : Text
  others : List (Bytes × Text)

/-- The home directory of a user; no name is that of the user who asks. -/
def Homes.find (homes : Homes) (user : Text) : Except Defect Text :=
  if user.isEmpty then .ok homes.own
  else match Path.octets? user with
    | none => .error .unencodable
    | some name =>
      if user.contains 0 then .error .badValue
      else match homes.others.find? (·.1 = name) with
        | some (_, home) => .ok home
        | none => .error .unknownUser

namespace Path

/-- The path with `~` or `~user` at its start replaced by a home directory. One that begins with
`~` itself is none. -/
def expandHome (homes : Homes) (p : Path) : Except Defect Path :=
  match p.root, p.names with
  | [], (0x7E :: user) :: rest =>
    match homes.find user with
    | .error d => .error d
    | .ok home =>
      if home.head? = some 0x7E then .error .unknownUser
      else .ok { ofHome home with names := (ofHome home).names ++ rest }
  | _, _ => .ok p

end Path

end SshAuthority
