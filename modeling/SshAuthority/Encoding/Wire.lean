/-
SshAuthority/Encoding/Wire.lean

The fields of SSH packets.

A field is a fixed number of octets, or a string: its length in four octets and
then its octets. A reader takes one field from the front of the octets and fails
if they end too early; the writer of the same name produces what it takes. Only a
string that `fits` has a length that can be written.
-/
import SshAuthority.Encoding.Bytes

namespace SshAuthority.Wire

/-- Reads a field from the front of the octets. -/
abbrev Reader (α : Type) := StateT Bytes Option α

section

variable {α β : Type}

/-- A reader that takes nothing. -/
@[simp]
theorem pure_apply (x : α) (b : Bytes) : (pure x : Reader α) b = some (x, b) := rfl

/-- One reader after the other. -/
theorem bind_apply (r : Reader α) (next : α → Reader β) (b : Bytes) :
    (r >>= next) b = (r b).bind fun (x, rest) => next x rest := rfl

/-- After one reader has taken its part, the other goes on. -/
theorem bind_of_eq_some {r : Reader α} {b rest : Bytes} {x : α} (h : r b = some (x, rest))
    (next : α → Reader β) : (r >>= next) b = next x rest := by
  rw [bind_apply, h, Option.bind_some]

/-- A reader with a function applied to what it takes. -/
theorem map_apply (f : α → β) (r : Reader α) (b : Bytes) :
    (f <$> r) b = (r b).map fun (x, rest) => (f x, rest) := by
  show (r b).bind _ = _
  cases r b <;> rfl

/-- What one reader takes after the other is what each of them takes. -/
theorem bind_eq_some_iff {r : Reader α} {next : α → Reader β} {b : Bytes} {y : β × Bytes} :
    (r >>= next) b = some y ↔ ∃ x rest, r b = some (x, rest) ∧ next x rest = some y := by
  rw [bind_apply]
  rcases r b with - | ⟨x, rest⟩
  · simp
  · constructor
    · intro h
      exact ⟨x, rest, rfl, h⟩
    · rintro ⟨x', rest', h, hy⟩
      cases h
      exact hy

/-- What a mapped reader takes. -/
theorem map_eq_some_iff {f : α → β} {r : Reader α} {b : Bytes} {y : β × Bytes} :
    (f <$> r) b = some y ↔ ∃ x, r b = some (x, y.2) ∧ f x = y.1 := by
  obtain ⟨y, rest⟩ := y
  rw [map_apply]
  rcases r b with - | ⟨x, tail⟩
  · simp
  · simp only [Option.map_some, Option.some.injEq, Prod.mk.injEq]
    constructor
    · rintro ⟨rfl, rfl⟩
      exact ⟨x, ⟨rfl, rfl⟩, rfl⟩
    · rintro ⟨x', ⟨rfl, rfl⟩, rfl⟩
      exact ⟨rfl, rfl⟩

end

/-! ### Readers -/

/-- Takes a number of octets. -/
def take (count : Nat) : Reader Bytes := fun b =>
  if (b.take count).length = count then some (b.take count, b.drop count) else none

/-- Takes a number of one octet. -/
def byte : Reader Nat := Bytes.toNat <$> take 1

/-- Takes a number of four octets. -/
def uint32 : Reader Nat := Bytes.toNat <$> take 4

/-- Takes a number of eight octets. -/
def uint64 : Reader Nat := Bytes.toNat <$> take 8

/-- Takes a string. -/
def string : Reader Bytes := do take (← uint32)

/-- The integer that octets spell in two's complement. -/
def signed (b : Bytes) : Int :=
  match b with
  | [] => 0
  | top :: _ =>
    if top < 0x80 then Bytes.toNat b else (Bytes.toNat b : Int) - 2 ^ (8 * b.length)

/-- Takes an integer. -/
def mpint : Reader Int := signed <$> string

/-- The value a reader takes from octets that hold nothing more. -/
def whole? {α : Type} (r : Reader α) (b : Bytes) : Option α :=
  match r b with
  | some (x, []) => some x
  | _ => none

/-- The strings that fill the octets, with fuel for as many as may fit. -/
def stringsWithin? : (fuel : Nat) → Bytes → Option (List Bytes)
  | _, [] => some []
  | 0, _ => none
  | fuel + 1, b => do
    let (s, rest) ← string b
    return s :: (← stringsWithin? fuel rest)

/-- The strings that fill the octets. -/
def strings? (b : Bytes) : Option (List Bytes) := stringsWithin? b.length b

/-! ### Writers -/

/-- A number of four octets. -/
def putUint32 (n : Nat) : Bytes := Bytes.ofNat 4 n

/-- A number of eight octets. -/
def putUint64 (n : Nat) : Bytes := Bytes.ofNat 8 n

/-- Whether the length of a string can be written in front of it. -/
def fits (b : Bytes) : Bool := b.length < 2 ^ 32

/-- A string. -/
def putString (b : Bytes) : Bytes := putUint32 b.length ++ b

/-- The shortest octets that spell a natural number in two's complement. -/
def signedOctets (n : Nat) : Bytes :=
  match Bytes.ofNatShort n with
  | [] => []
  | top :: rest => if top < 0x80 then top :: rest else 0 :: top :: rest

/-- A natural number. -/
def putMpint (n : Nat) : Bytes := putString (signedOctets n)

end SshAuthority.Wire
