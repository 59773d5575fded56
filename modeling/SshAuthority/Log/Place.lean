/-
SshAuthority/Log/Place.lean

Places for arguments in messages.

A place begins with a percent sign and ends with a letter that says in which form
the argument stands there. Between them may stand flags, a width, a precision
after a point, and one of three letters that mean nothing. An asterisk for the
width or the precision takes it from the arguments.
-/
import SshAuthority.Json.Value
import SshAuthority.Defect

namespace SshAuthority.Log

/-- A width or a precision. -/
inductive Size where
  | unset
  | fixed (size : Nat)
  /-- The next argument is the size. -/
  | given
  deriving DecidableEq

/-- Reads a size. -/
def Size.read (t : Text) : Size × Text :=
  if t.head? = some 0x2A then (.given, t.drop 1)
  else
    let digits := t.takeWhile CodePoint.isAsciiDigit
    (if digits.isEmpty then .unset else .fixed (Decimal.ofDigits (digits.map fun c => c.val - 0x30)),
      t.dropWhile CodePoint.isAsciiDigit)

/-- The size, at most `limit` in magnitude, and the arguments left. -/
def Size.take (limit : Nat) : Size → List Json → Except Defect (Option Int × List Json)
  | .unset, args => .ok (none, args)
  | .fixed n, args => if n ≤ limit then .ok (some n, args) else .error .badValue
  | .given, .int n :: args => if n.natAbs ≤ limit then .ok (some n, args) else .error .outOfRange
  | .given, .bool b :: args => .ok (some b.toNat, args)
  | .given, _ => .error .wrongType

/-- A place for an argument. -/
structure Place where
  /-- The blanks that fill the width stand after the argument. -/
  left : Bool
  /-- A number that is not negative has a plus sign. -/
  plus : Bool
  /-- A number that is not negative has a blank for its sign. -/
  blank : Bool
  /-- A number shows its base, and keeps its point. -/
  marked : Bool
  /-- Zeros instead of blanks fill the width of a number. -/
  zeros : Bool
  width : Size
  precision : Size
  /-- The letter at the end; none if the message ends before it. -/
  letter : Option CodePoint

/-- Whether a code point is a flag. -/
def Place.isFlag (c : CodePoint) : Bool :=
  c = 0x2D || c = 0x2B || c = 0x20 || c = 0x23 || c = 0x30

/-- Reads the precision after a point; a point alone stands for none at all. -/
def Place.readPrecision (t : Text) : Size × Text :=
  if t.head? = some 0x2E then
    let (size, rest) := Size.read (t.drop 1)
    (if size = .unset then .fixed 0 else size, rest)
  else (.unset, t)

/-- The text without a letter that means nothing at its start. -/
def Place.dropModifier (t : Text) : Text :=
  if t.head? = some 0x68 || t.head? = some 0x6C || t.head? = some 0x4C then t.drop 1 else t

/-- Reads a place after its percent sign. -/
def Place.read (t : Text) : Place × Text :=
  let flags := t.takeWhile isFlag
  let (width, t) := Size.read (t.dropWhile isFlag)
  let (precision, t) := readPrecision t
  let t := dropModifier t
  ({ left := flags.contains 0x2D, plus := flags.contains 0x2B, blank := flags.contains 0x20
     marked := flags.contains 0x23, zeros := flags.contains 0x30, width, precision
     letter := t.head? }, t.drop 1)

/-! ### Reading leaves no more than there was -/

theorem Size.length_read_le (t : Text) : (Size.read t).2.length ≤ t.length := by
  unfold Size.read
  split
  · simp
  · exact (List.dropWhile_sublist _).length_le

theorem Place.length_readPrecision_le (t : Text) :
    (Place.readPrecision t).2.length ≤ t.length := by
  unfold readPrecision
  split
  · have := Size.length_read_le (t.drop 1)
    simp only [List.length_drop] at this
    simp only
    omega
  · exact Nat.le_refl _

theorem Place.length_dropModifier_le (t : Text) : (Place.dropModifier t).length ≤ t.length := by
  unfold dropModifier
  split <;> simp

theorem Place.length_read_le (t : Text) : (Place.read t).2.length ≤ t.length := by
  have flags := (List.dropWhile_sublist (p := Place.isFlag) (l := t)).length_le
  have width := Size.length_read_le (t.dropWhile Place.isFlag)
  have precision := Place.length_readPrecision_le (Size.read (t.dropWhile Place.isFlag)).2
  have modifier :=
    Place.length_dropModifier_le (Place.readPrecision (Size.read (t.dropWhile Place.isFlag)).2).2
  simp only [Place.read, List.length_drop]
  omega

/-! ### Messages in pieces -/

/-- A piece of a message. -/
inductive Piece where
  | literal (c : CodePoint)
  | place (p : Place)
  /-- A place for an argument with a name. -/
  | named

/-- The pieces of a message, up to the first place for a named argument. Two percent
signs are a literal one. -/
def pieces : Text → List Piece
  | [] => []
  | [c] => [if c = 0x25 then .place (Place.read []).1 else .literal c]
  | c :: next :: rest =>
    if c ≠ 0x25 then .literal c :: pieces (next :: rest)
    else if next = 0x25 then .literal c :: pieces rest
    else if next = 0x28 then [.named]
    else
      have := Place.length_read_le (next :: rest)
      .place (Place.read (next :: rest)).1 :: pieces (Place.read (next :: rest)).2
termination_by t => t.length
decreasing_by all_goals simp only [List.length_cons] at *; omega

end SshAuthority.Log
