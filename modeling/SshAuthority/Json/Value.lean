/-
SshAuthority/Json/Value.lean

JSON values.

Whole numbers are kept apart from numbers with a point or an exponent. An object
is the list of its entries in the order in which their names first appeared, so
each name stands in it once; `Json.ofEntries` makes one from entries that repeat
names, where the last value of a name counts.

Beside the JSON text of a value (`Json/Writer`) there is its display form, in
which the service quotes foreign values in key identifiers and messages: texts
bare at the top and quoted inside, `None`, `True` and `False`, numbers as their
decimal text.
-/
import SshAuthority.Number.RealText
import SshAuthority.Table

namespace SshAuthority

/-- A JSON value. -/
inductive Json where
  | null
  | bool (value : Bool)
  | int (value : Int)
  | real (value : Real64)
  | text (value : Text)
  | array (items : List Json)
  | object (entries : List (Text × Json))

namespace Json

/-- The object of entries that may repeat names. -/
def ofEntries (entries : List (Text × Json)) : Json :=
  .object (entries.foldl (fun done (name, value) => Table.put name value done) [])

/-- The value under a name, if the value is an object that has it. -/
def get? (name : Text) : Json → Option Json
  | .object entries => Table.get? name entries
  | _ => none

/-- Whether a value counts as there: not null, false, zero or empty. -/
def isPresent : Json → Bool
  | .null => false
  | .bool b => b
  | .int n => n ≠ 0
  | .real x => !x.isZero
  | .text t => !t.isEmpty
  | .array items => !items.isEmpty
  | .object entries => !entries.isEmpty

mutual

/-- The display form of a value inside another. -/
def inspect : Json → Text
  | .null => "None"
  | .bool true => "True"
  | .bool false => "False"
  | .int n => Decimal.ofInt n
  | .real x => x.text
  | .text t => t.quoted
  | .array items => [0x5B] ++ inspectItems items ++ [0x5D]
  | .object entries => [0x7B] ++ inspectEntries entries ++ [0x7D]

/-- The display forms of list items, with commas between them. -/
def inspectItems : List Json → Text
  | [] => []
  | [item] => inspect item
  | item :: rest => inspect item ++ [0x2C, 0x20] ++ inspectItems rest

/-- The display forms of entries, with commas between them. -/
def inspectEntries : List (Text × Json) → Text
  | [] => []
  | [(name, value)] => name.quoted ++ [0x3A, 0x20] ++ inspect value
  | (name, value) :: rest =>
    name.quoted ++ [0x3A, 0x20] ++ inspect value ++ [0x2C, 0x20] ++ inspectEntries rest

end

/-- The display form of a value by itself: a text stands bare. -/
def display : Json → Text
  | .text t => t
  | value => inspect value

end Json

end SshAuthority
