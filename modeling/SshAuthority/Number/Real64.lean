/-
SshAuthority/Number/Real64.lean

Binary floating point numbers of 64 bits, as exact values.

A finite number is a sign, a mantissa below `2^53` and an exponent of at least
`-1074`; its value is the mantissa times that power of two. Zero keeps its sign.
Rounding takes an exact quotient to the nearest such number, a tie to the one
with the even mantissa, so that everything here is arithmetic on `Nat` and can
be compared with whole numbers without loss.
-/
import SshAuthority.Number.Decimal

namespace SshAuthority

/-- A binary floating point number. -/
inductive Real64 where
  | nan
  | infinite (negative : Bool)
  | finite (negative : Bool) (mantissa : Nat) (exponent : Int)
  deriving DecidableEq

namespace Real64

/-- The quotient `num / den` to the nearest whole number, a tie to the even one. -/
def nearest (num den : Nat) : Nat :=
  let q := num / den
  let r := num % den
  if 2 * r < den then q
  else if den < 2 * r then q + 1
  else if q % 2 = 0 then q else q + 1

/-- The quotient of `num` and `den` times `2^shift`, as numerator and denominator. -/
def scaled (num den : Nat) (shift : Int) : Nat × Nat :=
  match shift with
  | .ofNat k => (num * 2 ^ k, den)
  | .negSucc k => (num, den * 2 ^ (k + 1))

/-- The exponent `e` with `2^e ≤ num / den < 2^(e+1)`, for positive `num` and `den`. -/
def binaryExponent (num den : Nat) : Int :=
  let k := (num.log2 : Int) - den.log2
  let (n, d) := scaled num den (-k)
  if d ≤ n then k else k - 1

/-- The floating point number nearest to `num / den`. -/
def ofQuotient (negative : Bool) (num den : Nat) : Real64 :=
  if num = 0 then .finite negative 0 0
  else
    let q := max (binaryExponent num den - 52) (-1074)
    let (n, d) := scaled num den (-q)
    let m := nearest n d
    if m = 0 then .finite negative 0 0
    else
      let (m, q) := if m = 2 ^ 53 then (2 ^ 52, q + 1) else (m, q)
      if 971 < q then .infinite negative else .finite negative m q

/-- The floating point number nearest to `digits · 10^exponent`. Exponents that
decide the outcome by themselves are not raised to. -/
def ofDecimal (negative : Bool) (digits : Nat) (exponent : Int) : Real64 :=
  if digits = 0 then .finite negative 0 0
  else
    let top := (digits.log2 * 3 / 10 : Nat) + exponent
    if 400 < top then .infinite negative
    else if (digits.log2 * 4 / 10 + 1 : Nat) + exponent < -400 then .finite negative 0 0
    else match exponent with
      | .ofNat k => ofQuotient negative (digits * 10 ^ k) 1
      | .negSucc k => ofQuotient negative digits (10 ^ (k + 1))

/-- The exact value of a finite number. -/
def toRat? : Real64 → Option Rat
  | .finite negative m e =>
    let size : Rat := match e with
      | .ofNat k => ((m * 2 ^ k : Nat) : Rat)
      | .negSucc k => mkRat m (2 ^ (k + 1))
    some (if negative then -size else size)
  | _ => none

/-- Whether the number is a zero of either sign. -/
def isZero : Real64 → Bool
  | .finite _ m _ => m = 0
  | _ => false

/-- Whether the number is at most zero; no comparison holds of `nan`. -/
def isNonPositive : Real64 → Bool
  | .nan => false
  | .infinite negative => negative
  | .finite negative m _ => negative || m = 0

end Real64

/-- The whole part of a rational number, toward zero. -/
def Rat.wholePart (x : Rat) : Int := x.num.tdiv x.den

end SshAuthority
