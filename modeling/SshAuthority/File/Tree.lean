/-
SshAuthority/File/Tree.lean

Files and directories, and what opening a path gives.

A tree lists its files and those directories that may be empty; every directory
on the way to a listed entry is there too. What it lists goes by the names from the
root, where absolute paths start; relative ones start at the working directory. There
is nothing above the root, and `..` stays there.
-/
import SshAuthority.File.Path
import SshAuthority.Number.Decimal

namespace SshAuthority

/-- Why the system refuses to open a path. -/
inductive SystemFault where
  | notFound
  | notDirectory
  | isDirectory
  | nameTooLong
  deriving DecidableEq

namespace SystemFault

/-- The number of the fault. -/
def number : SystemFault → Nat
  | .notFound => 2
  | .notDirectory => 20
  | .isDirectory => 21
  | .nameTooLong => 36

/-- The fault in words. -/
def text : SystemFault → Text
  | .notFound => "No such file or directory"
  | .notDirectory => "Not a directory"
  | .isDirectory => "Is a directory"
  | .nameTooLong => "File name too long"

end SystemFault

/-- Why a file is not read. -/
inductive OpenFault where
  /-- The system refuses the path. -/
  | refused (fault : SystemFault) (path : Path)
  /-- The path cannot be handed to the system. -/
  | unusable (defect : Defect)
  deriving DecidableEq

/-- The message of a refusal: number, words, and the path that was opened. -/
def SystemFault.message (fault : SystemFault) (path : Path) : Text :=
  "[Errno " ++ Decimal.ofNat fault.number ++ "] " ++ fault.text ++ ": " ++ path.text.quoted

/-- What a name stands for. -/
inductive FileNode where
  | file (content : Bytes)
  | directory
  deriving DecidableEq

/-- A tree of files, by the names that lead to them from the root, with the working directory and
the home directories. -/
structure FileTree where
  working : List Bytes
  homes : Homes
  entries : List (List Bytes × FileNode)

namespace FileTree

/-- The directory above. -/
def parent (here : List Bytes) : List Bytes := here.dropLast

/-- The directory where a path starts. -/
def start (files : FileTree) (path : Path) : List Bytes :=
  if path.root.isEmpty then files.working else []

/-- The names of a path as the tree lists them: each `..` takes back the name
before it. -/
def address (files : FileTree) (path : Path) : List Bytes :=
  path.names.foldl (fun here name =>
    if name = [0x2E, 0x2E] then parent here else here ++ [(Path.octets? name).getD []])
    (files.start path)

/-- The tree with a node put at a path. -/
def put (files : FileTree) (path : Text) (node : FileNode) : FileTree :=
  let names := files.address (Path.ofText path)
  { files with entries := (names, node) :: files.entries.filter (·.1 ≠ names) }

/-- The node at an address. -/
def node? (files : FileTree) (names : List Bytes) : Option FileNode :=
  match files.entries.find? (·.1 = names) with
  | some (_, node) => some node
  | none =>
    if names.isPrefixOf files.working || files.entries.any (fun e => names.isPrefixOf e.1) then
      some .directory
    else none

/-- The longest name in octets. -/
def maxName : Nat := 255

/-- The longest path in octets. -/
def maxPath : Nat := 4095

/-- Follows names from a directory. -/
def walk (files : FileTree) : List Bytes → List Bytes → Except SystemFault FileNode
  | _, [] => .ok .directory
  | here, name :: rest =>
    if maxName < name.length then .error .nameTooLong
    else if name = [0x2E, 0x2E] then files.walk (parent here) rest
    else match files.node? (here ++ [name]) with
      | none => .error .notFound
      | some .directory => files.walk (here ++ [name]) rest
      | some (.file content) => if rest.isEmpty then .ok (.file content) else .error .notDirectory

/-- How many octets a path has that begins with so many slashes and has these names. -/
def pathLength (slashes : Nat) (names : List Bytes) : Nat :=
  slashes + names.flatten.length + (names.length - 1)

/-- The octets of the file at a path. -/
def read (files : FileTree) (path : Path) : Except OpenFault Bytes :=
  match path.names.mapM Path.octets? with
  | none => .error (.unusable .unencodable)
  | some names =>
    if names.any (·.contains 0) then .error (.unusable .badValue)
    else if maxPath < pathLength path.root.length names then .error (.refused .nameTooLong path)
    else match files.walk (files.start path) names with
      | .ok (.file content) => .ok content
      | .ok .directory => .error (.refused .isDirectory path)
      | .error fault => .error (.refused fault path)

end FileTree

end SshAuthority
