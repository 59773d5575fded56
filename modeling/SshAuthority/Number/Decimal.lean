/-
SshAuthority/Number/Decimal.lean

Decimal texts of whole numbers.

A number is written without leading zeros. Between texts and numbers stands a
limit of `maxDigits` digits in both directions: reading a longer digit string
costs quadratic time, so it is refused before it is begun, and a number with
more digits is refused when it is written.
-/
import SshAuthority.Text.Quoted
import SshAuthority.Text.Digit
import SshAuthority.Text.Blank

namespace SshAuthority.Decimal

/-- The longest digit string that is converted. -/
def maxDigits : Nat := 4300

/-- The digits of a natural number. -/
def ofNat (n : Nat) : Text := (Nat.toDigits 10 n).map CodePoint.ofChar

/-- The digits of an integer, after a minus sign if it is negative. -/
def ofInt (n : Int) : Text :=
  if n < 0 then 0x2D :: ofNat n.natAbs else ofNat n.natAbs

/-- The digits of `n` after as many zeros as fill `width` places. -/
def padded (width n : Nat) : Text :=
  let digits := ofNat n
  List.replicate (width - digits.length) 0x30 ++ digits

/-- The number with the given digit values, most significant first. -/
def ofDigits (digits : List Nat) : Nat := digits.foldl (fun n d => n * 10 + d) 0

/-- Why a text is no whole number. -/
inductive Fault where
  /-- The text is not of the form of a number. -/
  | malformed (text : Text)
  /-- The text has `count` digits, more than are read. -/
  | tooLong (count : Nat)
  /-- The number has more digits than are written. -/
  | tooLarge
  deriving DecidableEq

/-- The limit as messages name it. -/
def limitText : Text := "Exceeds the limit (4300 digits) for integer string conversion"

/-- The remedy as messages name it. -/
def remedyText : Text := "use sys.set_int_max_str_digits() to increase the limit"

/-- The message of a fault. The offending text is shown in quotes, up to 200 places. -/
def Fault.message : Fault → Text
  | .malformed text => "invalid literal for int() with base 10: " ++ (Text.quoted text).take 200
  | .tooLong count => limitText ++ ": value has " ++ ofNat count ++ " digits; " ++ remedyText
  | .tooLarge => limitText ++ "; " ++ remedyText

/-- The number spelled by digit values, unless there are too many. -/
def ofDigits? (digits : List Nat) : Except Fault Nat :=
  if digits.length ≤ maxDigits then .ok (ofDigits digits) else .error (.tooLong digits.length)

/-- The text of an integer, unless it has too many digits. -/
def text? (n : Int) : Except Fault Text :=
  let digits := ofNat n.natAbs
  if digits.length ≤ maxDigits then .ok (ofInt n) else .error .tooLarge

/-- The values of digits of any script, single underscores between any two of them
allowed. At least one digit has to be there. -/
def groupedDigits? : Text → Option (List Nat)
  | [] => none
  | c :: rest => do
    let d ← c.digit?
    match rest with
    | [] => some [d]
    | u :: more =>
      if u = 0x5F then (groupedDigits? more).map (d :: ·)
      else (groupedDigits? (u :: more)).map (d :: ·)

/-- The sign at the start of a text, and the rest: whether it is a minus. -/
def sign : Text → Bool × Text
  | c :: rest => if c = 0x2D then (true, rest) else if c = 0x2B then (false, rest) else (false, c :: rest)
  | [] => (false, [])

/-- Reads a whole number: blanks around it, one sign, and digits of any script with
single underscores between them. -/
def read (t : Text) : Except Fault Int :=
  let (negative, body) := sign (Text.dropBoth CodePoint.isNumberBlank t)
  match groupedDigits? body with
  | none => .error (.malformed t)
  | some digits => (ofDigits? digits).map fun n => if negative then -(n : Int) else n

end SshAuthority.Decimal
