/-
SshAuthority/Number/RealText.lean

Texts of floating point numbers.

A number is written with the shortest digits that read back. Magnitudes from
`10^-4` up to `10^16` are positional and keep at least one place after the point;
others have an exponent of at least two digits. Reading takes digits of any
script, an optional point and exponent, and the names of the infinities and of
the undefined value in any case.
-/
import SshAuthority.Number.Shortest

namespace SshAuthority.Real64

/-- The decimal without trailing zeros: its digits and the place of the point
after the first of them. -/
def point (d : Digits) : Text × Int :=
  let all := Decimal.ofNat d.digits
  let kept := Text.dropRight (· = 0x30) all
  (kept, all.length + d.exponent)

/-- An exponent: its sign and at least two digits. -/
def exponentText (e : Int) : Text :=
  [0x65, if e < 0 then 0x2D else 0x2B] ++ Decimal.padded 2 e.natAbs

/-- The digits with a point after the first `place` of them, or with an exponent. -/
def layout (digits : Text) (place : Int) : Text :=
  if place < -3 || 16 < place then
    match digits with
    | [] => []
    | d :: rest =>
      (if rest.isEmpty then [d] else d :: 0x2E :: rest) ++ exponentText (place - 1)
  else match place with
    | .negSucc k => 0x30 :: 0x2E :: (List.replicate (k + 1) 0x30 ++ digits)
    | .ofNat 0 => 0x30 :: 0x2E :: digits
    | .ofNat k =>
      if digits.length ≤ k then digits ++ List.replicate (k - digits.length) 0x30 ++ [0x2E, 0x30]
      else digits.take k ++ 0x2E :: digits.drop k

/-- The text of a number. -/
def text : Real64 → Text
  | .nan => "nan"
  | .infinite negative => if negative then "-inf" else "inf"
  | .finite negative m e =>
    let size : Text := if m = 0 then "0.0" else
      let (digits, place) := point (shortest m e)
      layout digits place
    if negative then 0x2D :: size else size

/-- The number with the given digits, those after the point apart, and exponent. -/
def ofParts (negative : Bool) (whole fraction : List Nat) (exponent : Int) : Real64 :=
  ofDecimal negative (Decimal.ofDigits (whole ++ fraction)) (exponent - fraction.length)

/-- Digit values, with single underscores between any two; none at all is fine. -/
def digitsOrNone? (t : Text) : Option (List Nat) :=
  if t.isEmpty then some [] else Decimal.groupedDigits? t

/-- Reads an exponent: one sign and digits. -/
def exponent? (t : Text) : Option Int := do
  let (negative, body) := Decimal.sign t
  let digits ← Decimal.groupedDigits? body
  let n := Decimal.ofDigits digits
  return if negative then -(n : Int) else n

/-- The parts of a text before and after the letter of its exponent. -/
def cutExponent (t : Text) : Text × Option Text :=
  match Text.cut? 0x65 (t.map fun c => if c = 0x45 then 0x65 else c) with
  | some (before, after) => (before, some after)
  | none => (t, none)

/-- Reads a number without sign and blanks. -/
def magnitude? (negative : Bool) (t : Text) : Option Real64 :=
  let name := Text.lowerAscii t
  if name = "inf" || name = "infinity" then some (.infinite negative)
  else if name = "nan" then some .nan
  else do
    let (mantissa, power) := cutExponent t
    let e ← match power with
      | none => some 0
      | some p => exponent? p
    match Text.cut? 0x2E mantissa with
    | none => return ofParts negative (← Decimal.groupedDigits? mantissa) [] e
    | some (whole, fraction) =>
      if whole.isEmpty && fraction.isEmpty then none
      else return ofParts negative (← digitsOrNone? whole) (← digitsOrNone? fraction) e

/-- Reads a number: blanks around it, one sign, and a magnitude. -/
def read? (t : Text) : Option Real64 :=
  let (negative, body) := Decimal.sign (Text.dropBoth CodePoint.isNumberBlank t)
  magnitude? negative body

end SshAuthority.Real64
