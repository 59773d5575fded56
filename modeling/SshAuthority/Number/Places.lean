/-
SshAuthority/Number/Places.lean

Floating point numbers to a given number of places.

A finite number is an exact quotient, so its decimal to any number of places is
one division, rounded to the nearest and a tie to the even digit. There are three
layouts: positional, with an exponent, and the general one, which takes the
exponent only where the positional layout would need many zeros.
-/
import SshAuthority.Number.RealText

namespace SshAuthority.Real64

/-- The digits before and after the point; a point with none after it is written
only if it is kept. -/
def pointed (keepPoint : Bool) (whole fraction : Text) : Text :=
  if fraction.isEmpty && !keepPoint then whole else whole ++ 0x2E :: fraction

/-- The number `m · 2^q` with so many places after the point. -/
def positional (keepPoint : Bool) (places m : Nat) (q : Int) : Text :=
  let (num, den) := scaled m 1 q
  let digits := Decimal.padded (places + 1) (nearest (num * 10 ^ places) den)
  pointed keepPoint (digits.take (digits.length - places)) (digits.drop (digits.length - places))

/-- The first `count` digits of `m · 2^q`, rounded, and the power of ten of the first
one, for positive `m` and `count`. -/
def leading (count m : Nat) (q : Int) : Digits :=
  let (num, den) := scaled m 1 q
  let top := decimalPlaces num den
  let rounded := match (count : Int) - top with
    | .ofNat k => nearest (num * 10 ^ k) den
    | .negSucc k => nearest num (den * 10 ^ (k + 1))
  if rounded = 10 ^ count then ⟨10 ^ (count - 1), top⟩ else ⟨rounded, top - 1⟩

/-- The first `count` digits as a text, and the power of ten of the first one. The
digits of zero are zeros. -/
def leadingDigits (count m : Nat) (q : Int) : Text × Int :=
  if m = 0 then (List.replicate count 0x30, 0)
  else
    let d := leading count m q
    (Decimal.padded count d.digits, d.exponent)

/-- Digits with the point after the first, and an exponent. -/
def powered (keepPoint : Bool) (digits : Text) (power : Int) : Text :=
  pointed keepPoint (digits.take 1) (digits.drop 1) ++ exponentText power

/-- The number `m · 2^q` with one digit before the point and so many places after it. -/
def scientific (keepPoint : Bool) (places m : Nat) (q : Int) : Text :=
  let (digits, power) := leadingDigits (places + 1) m q
  powered keepPoint digits power

/-- Digits of which the first stands for a given power of ten, without an exponent. -/
def spread (keepPoint : Bool) (digits : Text) : Int → Text
  | .ofNat k =>
    pointed keepPoint (digits.take (k + 1) ++ List.replicate (k + 1 - digits.length) 0x30)
      (digits.drop (k + 1))
  | .negSucc k => pointed keepPoint [0x30] (List.replicate k 0x30 ++ digits)

/-- The number `m · 2^q` with `count` digits in all, without an exponent if its
magnitude is from `10^-4` up to `10^count`. Zeros at the end are written only if the
point is kept. -/
def general (keepPoint : Bool) (count m : Nat) (q : Int) : Text :=
  let (digits, power) := leadingDigits (max 1 count) m q
  let kept := if keepPoint then digits else digits.take 1 ++ Text.dropRight (· = 0x30) (digits.drop 1)
  if power < -4 || (max 1 count : Int) ≤ power then powered keepPoint kept power
  else spread keepPoint kept power

end SshAuthority.Real64
