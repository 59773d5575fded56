/-
SshAuthority/Config/Duration.lean

Durations such as `1h`, `90m` or `1h30m`.

A duration is a sequence of numbers with units, after one optional sign. Its
value is the exact sum of the parts, cut to whole seconds once at the end, toward
zero. `0` needs no unit.
-/
import SshAuthority.Number.Real64

namespace SshAuthority

/-- Why a text is no duration. -/
inductive DurationFault where
  /-- It is not of the form of a duration. -/
  | malformed (text : Text)
  /-- A number in it has too many digits. -/
  | number (fault : Decimal.Fault)
  deriving DecidableEq

/-- The message of a fault. -/
def DurationFault.message : DurationFault → Text
  | .malformed text => "invalid duration " ++ text.quoted
  | .number fault => fault.message

namespace Duration

/-! ### Units -/

/-- The units and their lengths in nanoseconds. Where one name begins another, the
longer comes first. -/
def units : List (Text × Nat) :=
  [("ns", 1), ("us", 1000), ([0xB5, 0x73], 1000), ([0x3BC, 0x73], 1000), ("ms", 1000000),
    ("h", 3600000000000), ("m", 60000000000), ("s", 1000000000)]

/-- The unit at the start of a text, and the rest. -/
def unit? (t : Text) : Option (Nat × Text) :=
  units.findSome? fun (name, size) => (Text.after? name t).map (size, ·)

/-! ### Parts -/

/-- The digit values at the start of a text, and the rest. -/
def digitRun : Text → List Nat × Text
  | [] => ([], [])
  | c :: rest =>
    match c.digit? with
    | none => ([], c :: rest)
    | some d => let (more, tail) := digitRun rest; (d :: more, tail)

/-- A number with its unit: the digits before and after the point, the length of the
unit. -/
structure Part where
  whole : List Nat
  fraction : List Nat
  unit : Nat
  deriving DecidableEq

/-- The part at the start of a text, and the rest. A point needs a digit on one of
its sides. -/
def part? (t : Text) : Option (Part × Text) := do
  let (whole, afterWhole) := digitRun t
  let (fraction, rest) := match afterWhole with
    | c :: more => if c = 0x2E then digitRun more else ([], afterWhole)
    | [] => ([], [])
  if whole.isEmpty && fraction.isEmpty then none
  else do
    let (unit, tail) ← unit? rest
    return (⟨whole, fraction, unit⟩, tail)

/-- The nanoseconds of a part. -/
def Part.nanoseconds? (p : Part) : Except Decimal.Fault Rat := do
  let whole ← Decimal.ofDigits? p.whole
  let fraction ← Decimal.ofDigits? p.fraction
  return ((whole : Rat) + mkRat fraction (10 ^ p.fraction.length)) * p.unit

/-- The nanoseconds of the parts that make up a text, with fuel for as many as it
may have. `shown` is the text that a fault names. -/
def sumWithin (shown : Text) : (fuel : Nat) → Text → Except DurationFault Rat
  | _, [] => .ok 0
  | 0, _ => .error (.malformed shown)
  | fuel + 1, t =>
    match part? t with
    | none => .error (.malformed shown)
    | some (first, rest) => do
      let size ← first.nanoseconds?.mapError .number
      return size + (← sumWithin shown fuel rest)

/-- The whole seconds in a number of nanoseconds. -/
def wholeSeconds (nanoseconds : Rat) : Int := Rat.wholePart (nanoseconds / 1000000000)

/-- Reads a duration in seconds. Blanks around it do not count. -/
def read (t : Text) : Except DurationFault Int :=
  let (negative, body) := Decimal.sign t.trim
  if body = "0" then .ok 0
  else if body.isEmpty then .error (.malformed t)
  else do
    let seconds := wholeSeconds (← sumWithin t body.length body)
    return if negative then -seconds else seconds

end Duration

end SshAuthority
