/-
SshAuthority/Proofs/Encoding/Wire.lean

Reading the fields of packets, and what was written to be read.

A string determines the octets it is read from: they are its length, it and the rest.
So reading and writing strings are inverse to each other, in both directions, and
only a string whose length cannot be written has no octets to be read from.

Main results: a field that was written is read back, whatever follows it
(`string_putString`, `mpint_putString`, `uint64_putUint64`), and a string that was read
was written so (`string_eq_some_iff`). A reader leaves the end of what it reads (`Advances`).
-/
import SshAuthority.Encoding.Wire
import SshAuthority.Proofs.Encoding.Bytes

namespace SshAuthority.Wire

variable {α : Type}

/-! ### Octets and numbers -/

/-- Taking octets cuts them off. -/
theorem take_eq_some_iff {count : Nat} {b a rest : Bytes} :
    take count b = some (a, rest) ↔ a.length = count ∧ b = a ++ rest := by
  unfold take
  constructor
  · intro h
    split at h
    · next hlen =>
      cases h
      exact ⟨hlen, (List.take_append_drop count b).symm⟩
    · cases h
  · rintro ⟨rfl, rfl⟩
    rw [List.take_left, if_pos rfl, List.drop_left]

/-- The number of a field of fixed width is the number that was put there. -/
theorem toNat_take_ofNat {width n : Nat} (h : n < 256 ^ width) (rest : Bytes) :
    (Bytes.toNat <$> take width : Reader Nat) (Bytes.ofNat width n ++ rest) = some (n, rest) := by
  have htake : take width (Bytes.ofNat width n ++ rest) = some (Bytes.ofNat width n, rest) :=
    take_eq_some_iff.mpr ⟨Bytes.length_ofNat width n, rfl⟩
  refine map_eq_some_iff.mpr ⟨Bytes.ofNat width n, htake, ?_⟩
  rw [Bytes.toNat_ofNat, Nat.mod_eq_of_lt h]

theorem uint32_putUint32 {n : Nat} (h : n < 2 ^ 32) (rest : Bytes) :
    uint32 (putUint32 n ++ rest) = some (n, rest) :=
  toNat_take_ofNat (Nat.lt_of_lt_of_le h (by decide)) rest

theorem uint64_putUint64 {n : Nat} (h : n < 2 ^ 64) (rest : Bytes) :
    uint64 (putUint64 n ++ rest) = some (n, rest) :=
  toNat_take_ofNat (Nat.lt_of_lt_of_le h (by decide)) rest

/-- A number of four octets was written so. -/
theorem uint32_eq_some {n : Nat} {b rest : Bytes} (h : uint32 b = some (n, rest)) :
    n < 2 ^ 32 ∧ b = putUint32 n ++ rest := by
  obtain ⟨a, htake, rfl⟩ := map_eq_some_iff.mp h
  obtain ⟨hlen, rfl⟩ := take_eq_some_iff.mp htake
  constructor
  · have hlt := Bytes.toNat_lt a
    rw [hlen] at hlt
    exact hlt
  · rw [putUint32, ← hlen, Bytes.ofNat_toNat]

/-! ### Strings -/

theorem fits_iff {b : Bytes} : fits b = true ↔ b.length < 2 ^ 32 := by
  rw [fits, decide_eq_true_iff]

theorem length_putString (s : Bytes) : (putString s).length = 4 + s.length := by
  rw [putString, List.length_append, putUint32, Bytes.length_ofNat]

/-- Reading a string and writing one are inverse to each other. -/
theorem string_eq_some_iff {b s rest : Bytes} :
    string b = some (s, rest) ↔ fits s = true ∧ b = putString s ++ rest := by
  unfold string
  rw [bind_eq_some_iff, fits_iff]
  constructor
  · rintro ⟨n, mid, hn, hs⟩
    obtain ⟨hlt, rfl⟩ := uint32_eq_some hn
    obtain ⟨rfl, rfl⟩ := take_eq_some_iff.mp hs
    exact ⟨hlt, (List.append_assoc _ _ _).symm⟩
  · rintro ⟨hlt, rfl⟩
    refine ⟨s.length, s ++ rest, ?_, take_eq_some_iff.mpr ⟨rfl, rfl⟩⟩
    rw [putString, List.append_assoc]
    exact uint32_putUint32 hlt (s ++ rest)

/-- A string that was written is read back. -/
theorem string_putString {s : Bytes} (h : fits s = true) (rest : Bytes) :
    string (putString s ++ rest) = some (s, rest) :=
  string_eq_some_iff.mpr ⟨h, rfl⟩

/-- A reader that leaves nothing. -/
theorem whole?_eq_some_iff {r : Reader α} {b : Bytes} {x : α} :
    whole? r b = some x ↔ r b = some (x, []) := by
  unfold whole?
  split
  · next y heq => rw [heq, Option.some.injEq, Option.some.injEq, Prod.mk.injEq, and_iff_left rfl]
  · next hne =>
    constructor
    · intro h
      cases h
    · intro h
      exact absurd h (hne x)

/-- The string that fills the octets. -/
theorem whole?_string_iff {b s : Bytes} :
    whole? string b = some s ↔ fits s = true ∧ b = putString s := by
  rw [whole?_eq_some_iff, string_eq_some_iff, List.append_nil]

/-- A part of octets that fit fits. -/
theorem fits_of_length_le {a b : Bytes} (h : fits b = true) (hle : a.length ≤ b.length) :
    fits a = true :=
  fits_iff.mpr (Nat.lt_of_le_of_lt hle (fits_iff.mp h))

/-! ### Integers -/

/-- Octets whose first bit is clear spell a natural number. -/
theorem signed_of_top_lt {top : UInt8} {rest : Bytes} (h : top < 0x80) :
    signed (top :: rest) = Bytes.toNat (top :: rest) := by
  show (if top < 0x80 then (Bytes.toNat (top :: rest) : Int) else _) = _
  rw [if_pos h]

/-- The octets of a natural number spell it. -/
@[simp]
theorem signed_signedOctets (n : Nat) : signed (signedOctets n) = n := by
  have hn : Bytes.toNat (Bytes.ofNatShort n) = n := Bytes.toNat_ofNatShort n
  unfold signedOctets
  split
  · next h =>
    rw [h] at hn
    rw [← hn]
    rfl
  · next top rest h =>
    rw [h] at hn
    -- where the first bit is set, a zero octet was put in front
    split
    · next htop => rw [signed_of_top_lt htop, hn]
    · rw [signed_of_top_lt (by decide), Bytes.toNat_zero_cons, hn]

/-- A natural number that was written, as a string, is read back. -/
theorem mpint_putString {n : Nat} (h : fits (signedOctets n) = true) (rest : Bytes) :
    mpint (putString (signedOctets n) ++ rest) = some ((n : Int), rest) :=
  map_eq_some_iff.mpr ⟨signedOctets n, string_putString h rest, signed_signedOctets n⟩

/-! ### What is left -/

/-- A reader takes from the front: what it leaves is an end of what it was given. -/
def Advances (r : Reader α) : Prop :=
  ∀ b x rest, r b = some (x, rest) → rest <:+ b

namespace Advances

variable {β : Type}

theorem pure (x : α) : Advances (pure x : Reader α) := by
  intro b y rest h
  cases h
  exact List.suffix_refl b

theorem bind {r : Reader α} {next : α → Reader β} (hr : Advances r)
    (hnext : ∀ x, Advances (next x)) : Advances (r >>= next) := by
  intro b y rest h
  obtain ⟨x, mid, hx, hy⟩ := bind_eq_some_iff.mp h
  exact (hnext x mid y rest hy).trans (hr b x mid hx)

theorem map {f : α → β} {r : Reader α} (hr : Advances r) : Advances (f <$> r) := by
  intro b y rest h
  obtain ⟨x, hx, -⟩ := map_eq_some_iff.mp h
  exact hr b x rest hx

theorem take (count : Nat) : Advances (take count) := by
  intro b a rest h
  obtain ⟨-, rfl⟩ := take_eq_some_iff.mp h
  exact List.suffix_append a rest

theorem uint32 : Advances uint32 := (take 4).map

theorem uint64 : Advances uint64 := (take 8).map

theorem string : Advances string := uint32.bind take

theorem mpint : Advances mpint := string.map

end Advances

end SshAuthority.Wire
