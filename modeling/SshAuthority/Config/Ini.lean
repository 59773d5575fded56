/-
SshAuthority/Config/Ini.lean

Sections of options, as configuration files hold them.

A line `[name]` opens a section, and opens it again if it came before. A line
`key = value` sets an option of the open section; a later value replaces an
earlier one and keeps its place. A line that is indented deeper than the line
which set the option continues its value, and so does a blank line. Lines that
begin with `#` or `;` count for nothing. What stands before the first header
belongs to the section `DEFAULT`, which is there from the start.

A line that is none of these is a fault. Reading goes on after it, so that all
faults of a text are known together.
-/
import SshAuthority.Table
import SshAuthority.Text.Blank

namespace SshAuthority.Ini

/-! ### Lines -/

/-- What a line is by itself. -/
inductive Line where
  | comment
  | blank
  /-- Text after so many blanks. -/
  | content (indent : Nat) (body : Text)
  deriving DecidableEq

/-- The line of a text. -/
def Line.ofText (t : Text) : Line :=
  match t.trim with
  | [] => .blank
  | c :: rest =>
    if c = 0x23 || c = 0x3B then .comment
    else .content (t.takeWhile CodePoint.isBlank).length (c :: rest)

/-- The name in a header: what stands between the first bracket and the last. -/
def header? : Text → Option Text
  | [] => none
  | c :: rest =>
    if c ≠ 0x5B then none
    else match Text.cutLast? 0x5D rest with
      | some (name, _) => if name.isEmpty then none else some name
      | none => none

/-- The key and the value around the first equals sign. -/
def option? (body : Text) : Option (Text × Text) :=
  (Text.cut? 0x3D body).map fun (key, value) => (key.trimRight, value.trim)

/-- The lines of a text, each with the line feed that ends it. -/
def lines : Text → List Text
  | [] => []
  | c :: rest =>
    if c = 0x0A then [c] :: lines rest
    else match lines rest with
      | [] => [[c]]
      | line :: more => (c :: line) :: more

/-! ### Reading -/

/-- The name of the section before the first header. -/
def initialName : Text := "DEFAULT"

/-- The name of the section whose options every section has. -/
def sharedName : Text := 0 :: Text.ofString "defaults"

/-- What has been read: the lines of each option's value, the open section, its open
option, the indentation of the line that opened it, and the faults. -/
structure Reading where
  sections : Table (Table (List Text))
  current : Text
  /-- Empty if no option is open. -/
  option : Text
  indent : Nat
  faults : List (Nat × Text)

namespace Reading

/-- Before the first line. -/
def start : Reading := ⟨[(initialName, [])], initialName, [], 0, []⟩

/-- The options of the open section. -/
def options (r : Reading) : Table (List Text) := (r.sections.get? r.current).getD []

/-- The open section with an option set. -/
def set (r : Reading) (key : Text) (value : List Text) : Reading :=
  { r with sections := r.sections.put r.current (r.options.put key value) }

/-- The open option with a line more, if an option is open. -/
def extend (r : Reading) (line : Text) : Reading :=
  if r.option.isEmpty then r
  else r.set r.option ((r.options.get? r.option).getD [] ++ [line])

/-- The section of a name, open, with no option open in it. -/
def enter (r : Reading) (name : Text) : Reading :=
  { r with
    sections := r.sections.put name ((r.sections.get? name).getD [])
    current := name
    option := [] }

/-- After a line that is no continuation. -/
def begin (r : Reading) (number : Nat) (line body : Text) : Reading :=
  match header? body with
  | some name => r.enter name
  | none =>
    match option? body with
    | none => { r with faults := r.faults ++ [(number, line)] }
    | some (key, value) =>
      let r := { r.set key [value] with option := key }
      if key.isEmpty then { r with faults := r.faults ++ [(number, line)] } else r

/-- After a line. -/
def step (r : Reading) (number : Nat) (line : Text) : Reading :=
  match Line.ofText line with
  | .comment => r
  | .blank => r.extend []
  | .content indent body =>
    if r.indent < indent && !r.option.isEmpty then r.extend body
    else { r with indent }.begin number line body

/-- After lines, the first of which has the given number. -/
def steps (r : Reading) : Nat → List Text → Reading
  | _, [] => r
  | number, line :: rest => (r.step number line).steps (number + 1) rest

end Reading

/-- The sections of a text, with the values of their options. -/
abbrev Document := Table (Table Text)

/-- The value that lines make. -/
def joinValue (lines : List Text) : Text := (Text.join [0x0A] lines).trimRight

/-- Reads a text. Faults come with the numbers of their lines; the header of the
initial section counts as line one. -/
def read (t : Text) : Except (List (Nat × Text)) Document :=
  let r := Reading.start.steps 2 (lines t)
  if r.faults.isEmpty then
    .ok (r.sections.map fun (name, options) =>
      (name, options.map fun (key, value) => (key, joinValue value)))
  else .error r.faults

namespace Document

/-- The options that every section has. -/
def shared (d : Document) : Table Text := (Table.get? sharedName d).getD []

/-- The names of the sections, in order. -/
def names (d : Document) : List Text := (Table.names d).filter (· ≠ sharedName)

/-- A section's own options. -/
def own (d : Document) (name : Text) : Table Text := (Table.get? name d).getD []

/-- A section's options: its own, and then the shared ones that it does not set. -/
def options (d : Document) (name : Text) : Table Text :=
  d.own name ++ d.shared.filter fun (key, _) => (Table.get? key (d.own name)).isNone

end Document

end SshAuthority.Ini
