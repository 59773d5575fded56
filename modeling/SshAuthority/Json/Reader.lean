/-
SshAuthority/Json/Reader.lean

Reading JSON.

The grammar is that of RFC 8259 with three additions: `NaN`, `Infinity` and
`-Infinity` are numbers, an escaped surrogate that forms no pair stands for
itself, and of several entries with one name the last counts. Two limits hold
besides: values may nest `maxDepth` deep, and a whole number may have as many
digits as `Decimal.maxDigits` allows.

Octets are first decoded to text: UTF-8, UTF-16 or UTF-32, told apart by a byte
order mark or by the position of the zero octets among the first four.
-/
import SshAuthority.Json.Value
import SshAuthority.Text.Utf8
import SshAuthority.Text.Utf16

namespace SshAuthority.Json

/-- Why a text or an octet string holds no value. -/
inductive Fault where
  /-- It is not JSON. -/
  | malformed
  /-- A whole number has too many digits. -/
  | longInteger
  /-- The octets are no text. -/
  | undecodable
  /-- The values nest too deep. -/
  | tooDeep
  deriving DecidableEq

/-- How deep arrays and objects may nest. -/
def maxDepth : Nat := 980

/-! ### Lexemes -/

/-- Drops the white space at the start. -/
def skipSpace (t : Text) : Text :=
  t.dropWhile fun c => c = 0x20 || c = 0x09 || c = 0x0A || c = 0x0D

/-- The code point that a backslash and this letter stand for. -/
def simpleEscape? (c : CodePoint) : Option CodePoint :=
  if c = 0x22 || c = 0x5C || c = 0x2F then some c
  else if c = 0x62 then some 0x08
  else if c = 0x66 then some 0x0C
  else if c = 0x6E then some 0x0A
  else if c = 0x72 then some 0x0D
  else if c = 0x74 then some 0x09
  else none

/-- The number of four hexadecimal digits. -/
def hex4? (a b c d : CodePoint) : Option Nat := do
  return (((← Hex.value? a) * 16 + (← Hex.value? b)) * 16 + (← Hex.value? c)) * 16 + (← Hex.value? d)

/-- A text with the held first half of a pair before it, if there is one. -/
def release (held : Option Nat) (t : Text) : Text :=
  match held with
  | some high => CodePoint.ofNat high :: t
  | none => t

/-- The body of a text up to its closing mark, and what follows it. An escaped high
surrogate is held back until it is known whether an escaped low one completes it. -/
def readText (held : Option Nat) : Text → Option (Text × Text)
  | [] => none
  | c :: rest =>
    if c = 0x22 then some (release held [], rest)
    else if c = 0x5C then
      match rest with
      | [] => none
      | e :: more =>
        if e = 0x75 then
          match more with
          | w :: x :: y :: z :: tail =>
            match hex4? w x y z with
            | none => none
            | some unit =>
              match held with
              | some high =>
                if Utf16.isLow unit then
                  (readText none tail).map fun (t, after) => (Utf16.pair high unit :: t, after)
                else if Utf16.isHigh unit then
                  (readText (some unit) tail).map fun (t, after) => (CodePoint.ofNat high :: t, after)
                else
                  (readText none tail).map fun (t, after) =>
                    (CodePoint.ofNat high :: CodePoint.ofNat unit :: t, after)
              | none =>
                if Utf16.isHigh unit then readText (some unit) tail
                else (readText none tail).map fun (t, after) => (CodePoint.ofNat unit :: t, after)
          | _ => none
        else
          match simpleEscape? e with
          | none => none
          | some p => (readText none more).map fun (t, after) => (release held (p :: t), after)
    else if c.val < 0x20 then none
    else (readText none rest).map fun (t, after) => (release held (c :: t), after)

/-- The values of the ASCII digits at the start, and what follows them. -/
def takeDigits (t : Text) : List Nat × Text :=
  ((t.takeWhile CodePoint.isAsciiDigit).map fun c => c.val - 0x30,
    t.dropWhile CodePoint.isAsciiDigit)

/-- The digits after a point, if a point and a digit follow. -/
def fraction? : Text → Option (List Nat × Text)
  | c :: rest =>
    let (digits, after) := takeDigits rest
    if c = 0x2E && !digits.isEmpty then some (digits, after) else none
  | [] => none

/-- The exponent, if its letter, an optional sign and a digit follow. -/
def power? : Text → Option (Int × Text)
  | c :: rest =>
    if c = 0x65 || c = 0x45 then
      let (negative, body) := Decimal.sign rest
      let (digits, after) := takeDigits body
      if digits.isEmpty then none
      else
        let n := Decimal.ofDigits digits
        some (if negative then -(n : Int) else n, after)
    else none
  | [] => none

/-- The whole part of a number: zero alone, or digits that do not begin with zero. -/
def wholePart? (t : Text) : Option (List Nat × Text) :=
  match t with
  | [] => none
  | c :: rest =>
    if c = 0x30 then some ([0], rest)
    else
      let (digits, after) := takeDigits t
      if digits.isEmpty then none else some (digits, after)

/-- A number after its sign. -/
def readNumber (negative : Bool) (t : Text) : Except Fault (Json × Text) :=
  match wholePart? t with
  | none => .error .malformed
  | some (whole, rest) =>
    let (decimals, afterPoint) := (fraction? rest).getD ([], rest)
    match fraction? rest, power? afterPoint with
    | none, none =>
      match Decimal.ofDigits? whole with
      | .ok n => .ok (.int (if negative then -(n : Int) else n), rest)
      | .error _ => .error .longInteger
    | _, some (e, after) => .ok (.real (Real64.ofParts negative whole decimals e), after)
    | some _, none => .ok (.real (Real64.ofParts negative whole decimals 0), afterPoint)

/-- The names of values, and the values. -/
def names : List (Text × Json) :=
  [("null", .null), ("true", .bool true), ("false", .bool false), ("NaN", .real .nan),
   ("Infinity", .real (.infinite false)), ("-Infinity", .real (.infinite true))]

/-- A value without parts: a name or a number. -/
def readAtom (t : Text) : Except Fault (Json × Text) :=
  match names.findSome? fun (name, value) => (Text.after? name t).map (value, ·) with
  | some found => .ok found
  | none =>
    match t with
    | [] => .error .malformed
    | c :: rest => if c = 0x2D then readNumber true rest else readNumber false t

/-! ### Values -/

mutual

/-- A value without white space before it, and what follows it. -/
def readValue (limit : Nat) : (fuel depth : Nat) → Text → Except Fault (Json × Text)
  | 0, _, _ => .error .malformed
  | fuel + 1, depth, t =>
    match t with
    | [] => .error .malformed
    | c :: rest =>
      if c = 0x22 then
        match readText none rest with
        | some (body, after) => .ok (.text body, after)
        | none => .error .malformed
      else if c = 0x5B then
        if limit ≤ depth then .error .tooDeep
        else match skipSpace rest with
          | [] => .error .malformed
          | d :: more =>
            if d = 0x5D then .ok (.array [], more)
            else (readItems limit fuel (depth + 1) (d :: more)).map fun (items, after) =>
              (.array items, after)
      else if c = 0x7B then
        if limit ≤ depth then .error .tooDeep
        else match skipSpace rest with
          | [] => .error .malformed
          | d :: more =>
            if d = 0x7D then .ok (.object [], more)
            else (readEntries limit fuel (depth + 1) (d :: more)).map fun (entries, after) =>
              (ofEntries entries, after)
      else readAtom t

/-- The items of an array up to its bracket. -/
def readItems (limit : Nat) : (fuel depth : Nat) → Text → Except Fault (List Json × Text)
  | 0, _, _ => .error .malformed
  | fuel + 1, depth, t =>
    match readValue limit fuel depth t with
    | .error e => .error e
    | .ok (item, after) =>
      match skipSpace after with
      | [] => .error .malformed
      | c :: more =>
        if c = 0x5D then .ok ([item], more)
        else if c = 0x2C then
          (readItems limit fuel depth (skipSpace more)).map fun (items, rest) => (item :: items, rest)
        else .error .malformed

/-- The entries of an object up to its brace. -/
def readEntries (limit : Nat) :
    (fuel depth : Nat) → Text → Except Fault (List (Text × Json) × Text)
  | 0, _, _ => .error .malformed
  | fuel + 1, depth, t =>
    match t with
    | [] => .error .malformed
    | c :: rest =>
      if c ≠ 0x22 then .error .malformed
      else match readText none rest with
        | none => .error .malformed
        | some (name, afterName) =>
          match skipSpace afterName with
          | [] => .error .malformed
          | d :: body =>
            if d ≠ 0x3A then .error .malformed
            else match readValue limit fuel depth (skipSpace body) with
              | .error e => .error e
              | .ok (value, after) =>
                match skipSpace after with
                | [] => .error .malformed
                | e :: more =>
                  if e = 0x7D then .ok ([(name, value)], more)
                  else if e = 0x2C then
                    (readEntries limit fuel depth (skipSpace more)).map fun (entries, tail) =>
                      ((name, value) :: entries, tail)
                  else .error .malformed

end

/-- Reads a text that holds one value and white space, with values nesting at most
`limit` deep. -/
def readWithin (limit : Nat) (t : Text) : Except Fault Json :=
  match readValue limit (2 * t.length + 2) 0 (skipSpace t) with
  | .error e => .error e
  | .ok (value, after) => if (skipSpace after).isEmpty then .ok value else .error .malformed

/-- Reads a text that holds one value and white space. -/
def read (t : Text) : Except Fault Json := readWithin maxDepth t

/-! ### Octets -/

/-- The text of octets in the encoding that their start betrays. -/
def decodeText? (b : Bytes) : Option Text :=
  match b with
  | 0x00 :: 0x00 :: 0xFE :: 0xFF :: rest => Utf32.decode? .big rest
  | 0xFF :: 0xFE :: 0x00 :: 0x00 :: rest => Utf32.decode? .little rest
  | 0xFE :: 0xFF :: rest => Utf16.decode? .big rest
  | 0xFF :: 0xFE :: rest => Utf16.decode? .little rest
  | 0xEF :: 0xBB :: 0xBF :: rest => Utf8.decodeWide? rest
  | x :: y :: z :: w :: _ =>
    if x = 0 then if y ≠ 0 then Utf16.decode? .big b else Utf32.decode? .big b
    else if y = 0 then
      if z ≠ 0 || w ≠ 0 then Utf16.decode? .little b else Utf32.decode? .little b
    else Utf8.decodeWide? b
  | [x, y] =>
    if x = 0 then Utf16.decode? .big b
    else if y = 0 then Utf16.decode? .little b
    else Utf8.decodeWide? b
  | _ => Utf8.decodeWide? b

/-- Reads octets that hold one value. -/
def readBytes (b : Bytes) : Except Fault Json :=
  match decodeText? b with
  | none => .error .undecodable
  | some t => read t

end SshAuthority.Json
