/-
SshAuthority/Proofs/Encoding/Bytes.lean

Numbers and the octets that spell them.

Both spellings are one up to the order of the octets, so everything is proved of the
one that begins with the least octet, by induction on the octets, and carried over.

Main results: a number is what its octets spell, up to the width (`toNat_ofNat`), and
octets are those of the number that they spell (`ofNat_toNat`).
-/
import SshAuthority.Encoding.Bytes

namespace SshAuthority.Bytes

/-! ### Least octet first -/

@[simp]
theorem toNatLE_nil : toNatLE [] = 0 := rfl

@[simp]
theorem toNatLE_cons (x : UInt8) (b : Bytes) : toNatLE (x :: b) = toNatLE b * 256 + x.toNat := rfl

@[simp]
theorem length_ofNatLE (width n : Nat) : (ofNatLE width n).length = width := by
  induction width generalizing n with
  | zero => rfl
  | succ width ih => rw [ofNatLE, List.length_cons, ih]

theorem toNatLE_lt (b : Bytes) : toNatLE b < 256 ^ b.length := by
  induction b with
  | nil => simp
  | cons x b ih =>
    have hx : x.toNat < 256 := x.toNat_lt
    rw [toNatLE_cons, List.length_cons, Nat.pow_succ]
    omega

theorem toNatLE_ofNatLE (width n : Nat) : toNatLE (ofNatLE width n) = n % 256 ^ width := by
  induction width generalizing n with
  | zero => rw [ofNatLE, toNatLE_nil, Nat.pow_zero, Nat.mod_one]
  | succ width ih =>
    have hx : (UInt8.ofNat (n % 256)).toNat = n % 256 :=
      UInt8.toNat_ofNat_of_lt (Nat.mod_lt n (by decide))
    -- the least octet, and the rest with one octet less to reach
    rw [ofNatLE, toNatLE_cons, ih, hx, Nat.pow_succ, Nat.mul_comm (256 ^ width) 256,
      Nat.mod_mul, Nat.mul_comm, Nat.add_comm]

theorem ofNatLE_toNatLE (b : Bytes) : ofNatLE b.length (toNatLE b) = b := by
  induction b with
  | nil => rfl
  | cons x b ih =>
    have hx : x.toNat < 256 := x.toNat_lt
    have hmod : (toNatLE b * 256 + x.toNat) % 256 = x.toNat := by omega
    have hdiv : (toNatLE b * 256 + x.toNat) / 256 = toNatLE b := by omega
    rw [List.length_cons, ofNatLE, toNatLE_cons, hmod, hdiv, ih, UInt8.ofNat_toNat]

/-! ### Most octet first -/

/-- The two spellings differ in order only. -/
theorem toNat_eq_toNatLE (b : Bytes) : toNat b = toNatLE b.reverse := by
  rw [toNat, List.foldl_eq_foldr_reverse]
  rfl

theorem toNat_lt (b : Bytes) : toNat b < 256 ^ b.length := by
  rw [toNat_eq_toNatLE, ← List.length_reverse]
  exact toNatLE_lt b.reverse

@[simp]
theorem length_ofNat (width n : Nat) : (ofNat width n).length = width := by
  rw [ofNat, List.length_reverse, length_ofNatLE]

/-- A number is what its octets spell, as far as they reach. -/
theorem toNat_ofNat (width n : Nat) : toNat (ofNat width n) = n % 256 ^ width := by
  rw [toNat_eq_toNatLE, ofNat, List.reverse_reverse, toNatLE_ofNatLE]

/-- Octets are those of the number that they spell. -/
theorem ofNat_toNat (b : Bytes) : ofNat b.length (toNat b) = b := by
  rw [toNat_eq_toNatLE, ofNat, ← List.length_reverse, ofNatLE_toNatLE, List.reverse_reverse]

/-- A zero in front adds nothing. -/
theorem toNat_zero_cons (b : Bytes) : toNat (0 :: b) = toNat b := rfl

/-! ### Texts -/

/-- The text of ASCII octets is in ASCII. -/
theorem isAscii_toLatin {b : Bytes} (h : ∀ x ∈ b, x < 0x80) : (toLatin b).isAscii = true := by
  refine List.all_eq_true.mpr fun c hc => ?_
  obtain ⟨x, hx, rfl⟩ := List.mem_map.mp hc
  exact decide_eq_true (UInt8.lt_iff_toNat_lt.mp (h x hx))

/-- The octets of the text of ASCII octets are those. -/
theorem ofAscii?_toLatin {b : Bytes} (h : ∀ x ∈ b, x < 0x80) : ofAscii? (toLatin b) = some b := by
  have hoctet (x : UInt8) : UInt8.ofNat (CodePoint.ofByte x).val = x := UInt8.ofNat_toNat
  have hmap : (toLatin b).map (fun c => UInt8.ofNat c.val) = b := by
    rw [toLatin, List.map_map]
    exact (List.map_congr_left fun x _ => hoctet x).trans (List.map_id b)
  rw [ofAscii?, if_pos (isAscii_toLatin h), hmap]

/-! ### The shortest octets -/

theorem lt_pow_sizeOf (n : Nat) : n < 256 ^ sizeOf n := by
  unfold sizeOf
  split
  · next h => simp [h]
  · -- the octets have room for one bit more than the logarithm
    have hlog : n < 2 ^ (n.log2 + 1) := Nat.lt_log2_self
    have hpow : 2 ^ (n.log2 + 1) ≤ 2 ^ (8 * (n.log2 / 8 + 1)) :=
      Nat.pow_le_pow_right (by decide) (by omega)
    rw [Nat.pow_mul] at hpow
    exact Nat.lt_of_lt_of_le hlog hpow

theorem toNat_ofNatShort (n : Nat) : toNat (ofNatShort n) = n := by
  rw [ofNatShort, toNat_ofNat, Nat.mod_eq_of_lt (lt_pow_sizeOf n)]

end SshAuthority.Bytes
