/-
SshAuthority/Text/CodePoint.lean

Texts as sequences of code points.

Requests, tokens and configuration files may carry any code point up to
`0x10FFFF`, isolated surrogates included: a JSON escape can name one, and such a
text is a value like any other until somebody tries to write it as UTF-8.
`Char` leaves the surrogates out, so a text is a list of code points proper.
String and character literals coerce, and `Text.toString?` is the way back.
-/

-- powers of numbers have one reading, whatever else is imported beside this library
attribute [instance (high), default_instance high + 1] instPowNat

namespace SshAuthority

/-- A code point: any number below `0x110000`, the surrogates included. -/
abbrev CodePoint := Fin 0x110000

instance CodePoint.neZero : @NeZero Nat Zero.ofOfNat0 0x110000 := ⟨by decide⟩

/-- A text is the list of its code points. -/
abbrev Text := List CodePoint

namespace CodePoint

/-- The code point of a character. -/
def ofChar (c : Char) : CodePoint :=
  ⟨c.toNat, by
    have := c.valid
    simp only [UInt32.isValidChar, Nat.isValidChar] at this
    simp only [Char.toNat]
    omega⟩

/-- The code point with the given number; numbers out of range give U+FFFD. -/
def ofNat (n : Nat) : CodePoint :=
  if h : n < 0x110000 then ⟨n, h⟩ else 0xFFFD

/-- A code point is the one of its number. -/
theorem ofNat_val (c : CodePoint) : ofNat c.val = c := by
  unfold ofNat
  rw [dif_pos c.isLt]

theorem val_ofNat {n : Nat} (h : n < 0x110000) : (ofNat n).val = n := by
  unfold ofNat
  rw [dif_pos h]

/-- The code point of an octet read as Latin-1. -/
def ofByte (b : UInt8) : CodePoint :=
  ⟨b.toNat, Nat.lt_trans b.toNat_lt (by decide)⟩

/-- Code points of the basic Latin block. -/
def isAscii (c : CodePoint) : Bool := c.val < 0x80

/-- Code points that only UTF-16 uses, as halves of a pair. -/
def isSurrogate (c : CodePoint) : Bool := 0xD800 ≤ c.val && c.val < 0xE000

/-- The character with this code point; a surrogate has none. -/
def toChar? (c : CodePoint) : Option Char :=
  if h : c.val.isValidChar then some (Char.ofNatAux c.val h) else none

instance : Coe Char CodePoint := ⟨ofChar⟩

end CodePoint

namespace Text

/-- The text of a string. -/
def ofString (s : String) : Text := s.toList.map CodePoint.ofChar

instance : Coe String Text := ⟨ofString⟩

/-- The string with this text, unless a surrogate stands in it. -/
def toString? (t : Text) : Option String :=
  (t.mapM CodePoint.toChar?).map String.ofList

/-- Whether every code point is below `0x80`. -/
def isAscii (t : Text) : Bool := t.all CodePoint.isAscii

/-- The text without the leading code points that satisfy `p`. -/
def dropLeft (p : CodePoint → Bool) (t : Text) : Text := t.dropWhile p

/-- The text without the trailing code points that satisfy `p`. -/
def dropRight (p : CodePoint → Bool) (t : Text) : Text :=
  (t.reverse.dropWhile p).reverse

/-- The text without the code points that satisfy `p` at both ends. -/
def dropBoth (p : CodePoint → Bool) (t : Text) : Text := dropRight p (dropLeft p t)

/-- The pieces of `t` between the code points equal to `sep`; there is always one
piece more than there are separators. -/
def splitOn (sep : CodePoint) : Text → List Text
  | [] => [[]]
  | c :: rest =>
    if c = sep then [] :: splitOn sep rest
    else match splitOn sep rest with
      | [] => [[c]]
      | piece :: pieces => (c :: piece) :: pieces

/-- What stands before and after the first `sep`, if there is one. -/
def cut? (sep : CodePoint) : Text → Option (Text × Text)
  | [] => none
  | c :: rest =>
    if c = sep then some ([], rest)
    else (cut? sep rest).map fun (before, after) => (c :: before, after)

/-- What stands before and after the last `sep`, if there is one. -/
def cutLast? (sep : CodePoint) (t : Text) : Option (Text × Text) :=
  (cut? sep t.reverse).map fun (after, before) => (before.reverse, after.reverse)

/-- The rest of `t` after the text `start`, if `t` begins with it. -/
def after? : Text → Text → Option Text
  | [], t => some t
  | _ :: _, [] => none
  | a :: start, c :: t => if a = c then after? start t else none

/-- Whether `t` begins with `start`. -/
def startsWith (start t : Text) : Bool := (after? start t).isSome

/-- Whether `t` ends with `tail`. -/
def endsWith (tail t : Text) : Bool := startsWith tail.reverse t.reverse

/-- The pieces with `sep` between any two of them. -/
def join (sep : Text) : List Text → Text
  | [] => []
  | [piece] => piece
  | piece :: pieces => piece ++ sep ++ join sep pieces

/-- The ASCII lower case of a code point; all others stay. -/
def lowerPoint (c : CodePoint) : CodePoint :=
  if 0x41 ≤ c.val && c.val ≤ 0x5A then CodePoint.ofNat (c.val + 32) else c

/-- The text with its ASCII capitals made small. -/
def lowerAscii (t : Text) : Text := t.map lowerPoint

end Text

end SshAuthority
