/-
SshAuthority/Number/Shortest.lean

The shortest decimal that reads back as a given floating point number.

All decimals that round to `m · 2^q` form an interval around it, closed if `m`
is even. For one, two, … seventeen digits the two points of that decimal grid
next to the number are tried: on the first grid with a point in the interval the
nearer one is taken. If any point of a grid lies in the interval then one of the
two neighbours does, so no shorter decimal is missed.
-/
import SshAuthority.Number.Real64

namespace SshAuthority.Real64

/-- The number `d` with `10^(d-1) ≤ num / den < 10^d`, for positive `num` and `den`. -/
def decimalPlaces (num den : Nat) : Int :=
  let estimate := binaryExponent num den * 30103 / 100000
  let below (d : Int) : Bool :=
    match d with
    | .ofNat k => num < den * 10 ^ k
    | .negSucc k => num * 10 ^ (k + 1) < den
  if below estimate then estimate
  else if below (estimate + 1) then estimate + 1
  else estimate + 2

/-- A decimal: its digits as a number, and the power of ten of the last one. -/
structure Digits where
  digits : Nat
  exponent : Int
  deriving DecidableEq

/-- The interval of decimals around `m · 2^q`, in quarters of the last binary place. -/
structure Interval where
  low : Nat
  middle : Nat
  high : Nat
  closed : Bool

/-- The decimals that round to `m · 2^q`. Below a power of two the next number is
only half as far away. -/
def interval (m : Nat) (q : Int) : Interval :=
  { low := 4 * m - (if m = 2 ^ 52 && -1074 < q then 1 else 2)
    middle := 4 * m
    high := 4 * m + 2
    closed := m % 2 = 0 }

/-- The best decimal with `count` digits, if one rounds to `m · 2^q`. -/
def onGrid? (m : Nat) (q : Int) (places : Int) (count : Nat) : Option Digits :=
  let i := interval m q
  -- quarters of the last place over `den`, and one grid step over `den`
  let e := places - count
  let (unit, den) := scaled 1 1 (q - 2)
  let (unit, step) := match e with
    | .ofNat k => (unit, den * 10 ^ k)
    | .negSucc k => (unit * 10 ^ (k + 1), den)
  let c := i.middle * unit / step
  let inside (x : Nat) : Bool :=
    if i.closed then i.low * unit ≤ x && x ≤ i.high * unit
    else i.low * unit < x && x < i.high * unit
  let down := inside (c * step)
  let up := inside ((c + 1) * step)
  if down && up then
    let below := i.middle * unit - c * step
    let above := (c + 1) * step - i.middle * unit
    if below < above || (below = above && c % 2 = 0) then some ⟨c, e⟩ else some ⟨c + 1, e⟩
  else if down then some ⟨c, e⟩
  else if up then some ⟨c + 1, e⟩
  else none

/-- The shortest decimal that reads back as `m · 2^q`, for positive `m`. -/
def shortest (m : Nat) (q : Int) : Digits :=
  let (num, den) := scaled m 1 q
  let places := decimalPlaces num den
  (((List.range 17).map (· + 1)).findSome? (onGrid? m q places)).getD ⟨0, 0⟩

end SshAuthority.Real64
