/-
SshAuthority/Log/Template.lean

Messages with places for arguments.

The places of a message (`Log/Place`) take its arguments in order. `%s` shows an
argument in its display form, `%r` in the form it has inside other values, and `%a`
in that form with all but ASCII escaped. `%d` shows the whole part of a number,
`%x`, `%X` and `%o` a whole number to the base 16 or 8, `%f`, `%e` and `%g` any
number to some places, and `%c` a single code point. Two percent signs stand for
one. A message without arguments is taken as it is.
-/
import SshAuthority.Log.Place
import SshAuthority.Number.Places

namespace SshAuthority.Log.Template

/-- An argument as a place shows it: its sign and the mark of its base apart, since
zeros that fill a width stand after them. -/
structure Shown where
  sign : Text := []
  mark : Text := []
  body : Text
  numeric : Bool := true

/-- What an argument is before it fills the width of the place. -/
def Shown.pad (place : Place) (width : Option Int) (s : Shown) : Text :=
  let text := s.sign ++ s.mark ++ s.body
  let count := (width.getD 0).natAbs - text.length
  if place.left || width.any (· < 0) then text ++ List.replicate count 0x20
  else if place.zeros && s.numeric then s.sign ++ s.mark ++ List.replicate count 0x30 ++ s.body
  else List.replicate count 0x20 ++ text

/-- The sign of a number. -/
def sign (place : Place) (negative : Bool) : Text :=
  if negative then "-" else if place.plus then "+" else if place.blank then " " else []

/-! ### Whole numbers -/

/-- The whole part of a number. -/
def wholeNumber : Json → Except Defect Int
  | .int n => .ok n
  | .bool b => .ok b.toNat
  | .real x =>
    match x.toRat? with
    | some r => .ok (Rat.wholePart r)
    | none => .error (if x = .nan then .badValue else .outOfRange)
  | _ => .error .wrongType

/-- A number that is whole in itself. -/
def index : Json → Except Defect Int
  | .int n => .ok n
  | .bool b => .ok b.toNat
  | _ => .error .wrongType

/-- Digits of a whole number, with at least as many as the precision. -/
def whole (place : Place) (precision : Option Int) (n : Int) (mark digits : Text) : Shown :=
  { sign := sign place (n < 0)
    mark := if place.marked then mark else []
    body := List.replicate ((precision.getD 0).toNat - digits.length) 0x30 ++ digits }

/-- The digits of a natural number to a base of at most 16. -/
def digitsTo (base n : Nat) : Text := (Nat.toDigits base n).map CodePoint.ofChar

/-- The text with its ASCII letters as capitals. -/
def capitals (t : Text) : Text :=
  t.map fun c => if 0x61 ≤ c.val && c.val ≤ 0x7A then CodePoint.ofNat (c.val - 32) else c

/-! ### Numbers with places -/

/-- The floating point number of a number. -/
def realNumber : Json → Except Defect Real64
  | .real x => .ok x
  | .int n => ofWhole n
  | .bool b => ofWhole b.toNat
  | _ => .error .wrongType
where
  /-- The floating point number nearest to a whole one. -/
  ofWhole (n : Int) : Except Defect Real64 :=
    match Real64.ofQuotient (n < 0) n.natAbs 1 with
    | .infinite _ => .error .outOfRange
    | x => .ok x

/-- A number in one of the layouts of `Number/Places`. -/
def real (place : Place) (precision : Option Int) (layout : Bool → Nat → Nat → Int → Text) :
    Real64 → Shown
  | .nan => { sign := sign place false, body := "nan" }
  | .infinite negative => { sign := sign place negative, body := "inf" }
  | .finite negative m q =>
    { sign := sign place negative
      body := layout place.marked ((precision.getD 6).toNat) m q }

/-! ### Texts -/

/-- A text, cut off after as many code points as the precision. -/
def cut (precision : Option Int) (t : Text) : Shown :=
  { body := (precision.map fun n => t.take n.toNat).getD t, numeric := false }

/-- The text with everything beyond ASCII escaped. -/
def escaped (t : Text) : Text :=
  t.flatMap fun c =>
    if c.isAscii then [c]
    else if c.val < 0x100 then "\\x" ++ Hex.ofNat 2 c.val
    else if c.val < 0x10000 then "\\u" ++ Hex.ofNat 4 c.val
    else "\\U" ++ Hex.ofNat 8 c.val

/-- A single code point, by itself or as its number. -/
def single : Json → Except Defect Shown
  | .text [c] => .ok { body := [c], numeric := false }
  | .text _ => .error .wrongType
  | value => do
    let n ← index value
    if 0 ≤ n ∧ n < 0x110000 then
      return { body := [CodePoint.ofNat n.toNat], numeric := false }
    else .error .outOfRange

/-! ### Messages -/

/-- The argument of a place in the form that the letter asks for. -/
def argument (place : Place) (precision : Option Int) (letter : CodePoint) (value : Json) :
    Except Defect Shown :=
  match letter.toChar? with
  | some 's' => .ok (cut precision value.display)
  | some 'r' => .ok (cut precision value.inspect)
  | some 'a' => .ok (cut precision (escaped value.inspect))
  | some 'c' => single value
  | some 'd' | some 'i' | some 'u' => do
    let n ← wholeNumber value
    let digits ← (Decimal.text? n.natAbs).mapError fun _ => .badValue
    return whole place precision n [] digits
  | some 'o' => do
    let n ← index value
    return whole place precision n "0o" (digitsTo 8 n.natAbs)
  | some 'x' => do
    let n ← index value
    return whole place precision n "0x" (digitsTo 16 n.natAbs)
  | some 'X' => do
    let n ← index value
    return whole place precision n "0X" (capitals (digitsTo 16 n.natAbs))
  | some 'f' => do return real place precision Real64.positional (← realNumber value)
  | some 'e' => do return real place precision Real64.scientific (← realNumber value)
  | some 'g' => do return real place precision Real64.general (← realNumber value)
  | some 'F' => do return capital (real place precision Real64.positional (← realNumber value))
  | some 'E' => do return capital (real place precision Real64.scientific (← realNumber value))
  | some 'G' => do return capital (real place precision Real64.general (← realNumber value))
  | _ => .error .badValue
where
  /-- The same in capitals. -/
  capital (s : Shown) : Shown := { s with body := capitals s.body }

/-- The greatest width of a place. -/
def maxWidth : Nat := 2 ^ 63 - 1

/-- The greatest precision of a place. -/
def maxPrecision : Nat := 2 ^ 31 - 1

/-- Fills the places among the pieces in order; every argument has to have one. -/
def fillAll : List Piece → List Json → Except Defect Text
  | [], [] => .ok []
  | [], _ :: _ => .error .wrongType
  | .named :: _, _ => .error .wrongType
  | .literal c :: rest, args => (fillAll rest args).map (c :: ·)
  | .place p :: rest, args => do
    let (width, args) ← p.width.take maxWidth args
    let (precision, args) ← p.precision.take maxPrecision args
    match p.letter, args with
    | none, _ => .error .badValue
    | some _, [] => .error .wrongType
    | some letter, value :: more => do
      let shown ← argument p precision letter value
      return shown.pad p width ++ (← fillAll rest more)

/-- The message with its places filled. -/
def fill (message : Text) (args : List Json) : Except Defect Text :=
  if args.isEmpty then .ok message else fillAll (pieces message) args

end SshAuthority.Log.Template
