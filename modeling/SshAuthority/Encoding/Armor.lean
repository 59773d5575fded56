/-
SshAuthority/Encoding/Armor.lean

Keys and certificates within text: what a key file offers to read.

A file that begins with a DER sequence is that sequence. Otherwise its lines are
searched from the top for the first that begins something: a PEM header of the
wanted kind or, where public keys and certificates are wanted, an RFC 4716
header or a line `name base64 [comment]` whose name is one of an accepted list.
Lines that begin nothing are passed over; a header without its footer is a fault.
-/
import SshAuthority.Encoding.Der
import SshAuthority.Encoding.Base64

namespace SshAuthority.Armor

/-- What stands in a PEM block: the words before the kind, the headers, the octets. -/
structure Pem where
  label : Bytes
  headers : List (Bytes × Bytes)
  body : Bytes

/-- What a text holds. -/
inductive Content where
  /-- A DER value that begins the text. -/
  | der (value : Der)
  | pem (block : Pem)
  /-- An RFC 4716 block with its comment. -/
  | block (body : Bytes) (comment : Option Bytes)
  /-- A line: the name, the octets, the comment. -/
  | line (name body : Bytes) (comment : Option Bytes)
  /-- Nothing is found. -/
  | nothing

/-- The header lines at the start of a block, and the lines after them. A header
line has a colon, between its name and its value. -/
def headerLines : List Bytes → List (Bytes × Bytes) × List Bytes
  | [] => ([], [])
  | line :: rest =>
    if line.contains 0x3A then
      let name := line.takeWhile (· ≠ 0x3A)
      let value := (line.dropWhile (· ≠ 0x3A)).drop 1
      let (headers, body) := headerLines rest
      ((name, Bytes.trim value) :: headers, body)
    else ([], line :: rest)

/-- The lines with each one that ends in a backslash joined to the next. -/
def unfoldLines : List Bytes → List Bytes
  | [] => []
  | [line] => [line]
  | line :: next :: rest =>
    if line.getLast? = some 0x5C then
      match unfoldLines (next :: rest) with
      | [] => [line]
      | joined :: more => (line.dropLast ++ joined) :: more
    else line :: unfoldLines (next :: rest)

/-- The lines before the first equal to `footer` but for blanks at its end. -/
def upTo? (footer : Bytes) : List Bytes → Option (List Bytes)
  | [] => none
  | line :: rest =>
    if Bytes.trimRight line = footer then some []
    else (upTo? footer rest).map (line :: ·)

/-- The octets of the lines of a block. -/
def bodyOf? (lines : List Bytes) : Option Bytes := Base64.decodeLenient? lines.flatten

/-- The label of a PEM header of the given kind. -/
def pemLabel? (kind line : Bytes) : Option Bytes := do
  let rest ← Bytes.after? "-----BEGIN " line
  let tail := kind ++ Bytes.ofString "-----"
  if rest.length < tail.length then none
  else if rest.drop (rest.length - tail.length) ≠ tail then none
  else
    let label := rest.take (rest.length - tail.length)
    -- a label is set off by a blank; without one the kind follows the word at once
    if label.isEmpty then some []
    else if label.getLast? = some 0x20 then some (Bytes.trim label)
    else none

/-- Header and footer of an RFC 4716 block. -/
def blockHeader : Bytes := "---- BEGIN SSH2 PUBLIC KEY ----"

/-- The footer of an RFC 4716 block. -/
def blockFooter : Bytes := "---- END SSH2 PUBLIC KEY ----"

/-- The comment among the headers of an RFC 4716 block, without one pair of quotes
around it. -/
def comment? (headers : List (Bytes × Bytes)) : Option Bytes :=
  let isComment := fun (name : Bytes) =>
    name.map (fun b => if 0x41 ≤ b && b ≤ 0x5A then b + 32 else b) = Bytes.ofString "comment"
  (headers.reverse.find? fun h => isComment h.1).map fun h =>
    match h.2 with
    | [0x22] => []
    | 0x22 :: rest => if rest.getLast? = some 0x22 then rest.dropLast else h.2
    | value => value

/-- The first word, the second word, and the rest of a line without the white space
between. -/
def words (line : Bytes) : Bytes × Bytes × Bytes :=
  let start := line.dropWhile Bytes.isSpace
  let first := start.takeWhile (!Bytes.isSpace ·)
  let more := (start.dropWhile (!Bytes.isSpace ·)).dropWhile Bytes.isSpace
  let second := more.takeWhile (!Bytes.isSpace ·)
  let tail := (more.dropWhile (!Bytes.isSpace ·)).dropWhile Bytes.isSpace
  (first, second, tail)

/-- What a line `name base64 [comment]` holds, if the name is accepted. -/
def keyLine? (names : List Bytes) (line : Bytes) : Option Content :=
  let (name, text, tail) := words line
  if text.isEmpty || !names.contains name then none
  else (Base64.decodeLenient? text).map fun body =>
    .line name body (if tail.isEmpty then none else some tail)

/-- What the lines of a text hold. `names` are the accepted first words of key lines;
without any, only PEM blocks are found. -/
def search (kind : Bytes) (names : Option (List Bytes)) : List Bytes → Option Content
  | [] => some .nothing
  | raw :: rest =>
    let line := Bytes.trimRight raw
    match pemLabel? kind line with
    | some label =>
      let footer := Bytes.ofString "-----END " ++ line.drop 11
      match upTo? footer rest with
      | none => none
      | some inner =>
        let (headers, body) := headerLines inner
        (bodyOf? body).map fun octets => .pem ⟨label, headers, octets⟩
    | none =>
      match names with
      | none => search kind names rest
      | some accepted =>
        if line = blockHeader then
          match upTo? blockFooter rest with
          | none => none
          | some inner =>
            let (headers, body) := headerLines (unfoldLines (inner.map Bytes.trimRight))
            (bodyOf? body).map fun octets => .block octets (comment? headers)
        else match keyLine? accepted line with
          | some found => some found
          | none => search kind names rest

/-- What a text holds; fails on a block that is broken. -/
def find? (kind : Bytes) (names : Option (List Bytes)) (text : Bytes) : Option Content :=
  let start := if text.head? = some 0x30 then Der.readFront? text else none
  match start with
  | some (value, _) => some (.der value)
  | none => search kind names (Bytes.lines text)

end SshAuthority.Armor
