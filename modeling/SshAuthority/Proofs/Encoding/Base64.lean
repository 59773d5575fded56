/-
SshAuthority/Proofs/Encoding/Base64.lean

Base64 read back.

Three octets and four letters are the same 24 bits, and the padding of a shorter last
group ends the text. The induction is on the groups, as in `encode`.

Main results: the letters of octets are read as the octets (`decodeLenient?_encode`), and
they are visible ASCII (`visible_of_mem_encode`), so that they fill a word of a line.
-/
import SshAuthority.Encoding.Base64

namespace SshAuthority.Base64

/-! ### Letters -/

theorem value?_letter : ∀ v < 64, value? (letter v) = some v := by
  decide

theorem letter_ne_padding : ∀ v < 64, letter v ≠ 0x3D := by
  decide

theorem letter_visible : ∀ v < 64, 0x21 ≤ letter v ∧ letter v ≤ 0x7E := by
  decide

/-- Every octet of a base64 text is a visible ASCII character. -/
theorem visible_of_mem_encode {b : Bytes} : ∀ x ∈ encode b, 0x21 ≤ x ∧ x ≤ 0x7E := by
  fun_induction encode b with
  | case1 a b c rest n ih =>
    have ha := a.toNat_lt
    have hb := b.toNat_lt
    have hc := c.toNat_lt
    intro x hx
    simp only [List.mem_cons] at hx
    -- a letter stands for six of the 24 bits, so below 64
    rcases hx with rfl | rfl | rfl | rfl | hx
    · exact letter_visible _ (by omega)
    · exact letter_visible _ (by omega)
    · exact letter_visible _ (by omega)
    · exact letter_visible _ (by omega)
    · exact ih x hx
  | case2 a b n =>
    have ha := a.toNat_lt
    have hb := b.toNat_lt
    intro x hx
    simp only [List.mem_cons, List.not_mem_nil, or_false] at hx
    rcases hx with rfl | rfl | rfl | rfl
    · exact letter_visible _ (by omega)
    · exact letter_visible _ (by omega)
    · exact letter_visible _ (by omega)
    · decide
  | case3 a =>
    have ha := a.toNat_lt
    intro x hx
    simp only [List.mem_cons, List.not_mem_nil, or_false] at hx
    rcases hx with rfl | rfl | rfl | rfl
    · exact letter_visible _ (by omega)
    · exact letter_visible _ (by omega)
    · decide
    · decide
  | case4 =>
    intro x hx
    cases hx

/-! ### Groups -/

/-- A letter is collected as its value. -/
theorem collect_letter {v : Nat} (h : v < 64) (place pads : Nat) (rest : Bytes) :
    collect place pads (letter v :: rest) = (collect ((place + 1) % 4) 0 rest).map (v :: ·) := by
  rw [collect, if_neg (letter_ne_padding v h), value?_letter v h]

/-- The values collected from the letters of octets make up the octets. -/
theorem collect_encode (b : Bytes) : ∃ values, collect 0 0 (encode b) = some values ∧ join values = b := by
  fun_induction encode b with
  | case1 a b c rest n ih =>
    have ha := a.toNat_lt
    have hb := b.toNat_lt
    have hc := c.toNat_lt
    obtain ⟨values, hcollect, hjoin⟩ := ih
    -- the four values of the group; each octet has its bits in two of them that are neighbours
    refine ⟨n / 262144 :: n / 4096 % 64 :: n / 64 % 64 :: n % 64 :: values, ?_, ?_⟩
    · rw [collect_letter (by omega), collect_letter (by omega), collect_letter (by omega),
        collect_letter (by omega), hcollect]
      rfl
    · have h₁ : n / 262144 * 4 + n / 4096 % 64 / 16 = a.toNat := by omega
      have h₂ : n / 4096 % 64 % 16 * 16 + n / 64 % 64 / 4 = b.toNat := by omega
      have h₃ : n / 64 % 64 % 4 * 64 + n % 64 = c.toNat := by omega
      rw [join, h₁, h₂, h₃, hjoin, UInt8.ofNat_toNat, UInt8.ofNat_toNat, UInt8.ofNat_toNat]
  | case2 a b n =>
    have ha := a.toNat_lt
    have hb := b.toNat_lt
    refine ⟨[n / 4096, n / 64 % 64, n % 64], ?_, ?_⟩
    · rw [collect_letter (by omega), collect_letter (by omega), collect_letter (by omega)]
      rfl
    · have h₁ : n / 4096 * 4 + n / 64 % 64 / 16 = a.toNat := by omega
      have h₂ : n / 64 % 64 % 16 * 16 + n % 64 / 4 = b.toNat := by omega
      rw [join, h₁, h₂, UInt8.ofNat_toNat, UInt8.ofNat_toNat]
  | case3 a =>
    have ha := a.toNat_lt
    refine ⟨[a.toNat / 4, a.toNat % 4 * 16], ?_, ?_⟩
    · rw [collect_letter (by omega), collect_letter (by omega)]
      rfl
    · have h₁ : a.toNat / 4 * 4 + a.toNat % 4 * 16 / 16 = a.toNat := by omega
      rw [join, h₁, UInt8.ofNat_toNat]
  | case4 => exact ⟨[], rfl, rfl⟩

/-- The letters of octets are read as the octets. -/
theorem decodeLenient?_encode (b : Bytes) : decodeLenient? (encode b) = some b := by
  obtain ⟨values, hcollect, hjoin⟩ := collect_encode b
  rw [decodeLenient?, hcollect, Option.map_some, hjoin]

end SshAuthority.Base64
