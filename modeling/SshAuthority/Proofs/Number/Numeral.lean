/-
SshAuthority/Proofs/Number/Numeral.lean

The digits of whole numbers.

A number is written digit by digit, its last digit behind the digits of a tenth of it
(`ofNat_eq`). By this recursion the digits are those of ASCII, they say the number, and the
first of them is no zero unless the number is.

Main results: `ofDigits_ofNat`, `head?_ofNat`, `isAsciiDigit_of_mem_ofNat`.
-/
import SshAuthority.Number.Decimal

namespace SshAuthority.Decimal

variable {n : Nat}

/-- The digits of a number: those of a tenth of it, if that is not zero, and the last one. -/
theorem ofNat_eq (n : Nat) :
    ofNat n = (if n < 10 then [] else ofNat (n / 10)) ++ [CodePoint.ofDigit (n % 10)] := by
  have hdigit : ∀ d < 10, CodePoint.ofChar (Nat.digitChar d) = CodePoint.ofDigit d := by decide
  unfold ofNat
  rw [Nat.toDigits_eq_if (by decide)]
  split
  · next h =>
    rw [Nat.mod_eq_of_lt h]
    exact congrArg (· :: []) (hdigit n h)
  · rw [List.map_append, List.map_singleton, hdigit _ (Nat.mod_lt n (by decide))]

theorem ofNat_ne_nil (n : Nat) : ofNat n ≠ [] := by
  rw [ofNat_eq]
  simp

theorem isAsciiDigit_ofDigit {d : Nat} (h : d < 10) : (CodePoint.ofDigit d).isAsciiDigit = true := by
  revert d
  decide

theorem val_ofDigit {d : Nat} (h : d < 10) : (CodePoint.ofDigit d).val - 0x30 = d := by
  revert d
  decide

/-- All of it are digits. -/
theorem isAsciiDigit_of_mem_ofNat (n : Nat) : ∀ c ∈ ofNat n, c.isAsciiDigit = true := by
  induction n using Nat.strongRecOn with
  | ind n ih =>
    intro c hc
    rw [ofNat_eq] at hc
    rcases List.mem_append.mp hc with hc | hc
    · split at hc
      · cases hc
      · exact ih (n / 10) (by omega) c hc
    · rw [List.mem_singleton.mp hc]
      exact isAsciiDigit_ofDigit (Nat.mod_lt n (by decide))

/-- The digits say the number. -/
theorem ofDigits_ofNat (n : Nat) : ofDigits ((ofNat n).map fun c => c.val - 0x30) = n := by
  induction n using Nat.strongRecOn with
  | ind n ih =>
    have hlast := val_ofDigit (Nat.mod_lt n (by decide : 10 > 0))
    rw [ofNat_eq, List.map_append, List.map_singleton, hlast]
    unfold ofDigits
    rw [List.foldl_append, List.foldl_cons, List.foldl_nil]
    split
    · next h =>
      rw [List.map_nil, List.foldl_nil]
      omega
    · next h =>
      have htenth := ih (n / 10) (by omega)
      unfold ofDigits at htenth
      rw [htenth]
      omega

/-- Zero has one digit, and the digits of other numbers begin with another one. -/
theorem head?_ofNat (h : n ≠ 0) : (ofNat n).head? ≠ some 0x30 := by
  induction n using Nat.strongRecOn with
  | ind n ih =>
    rw [ofNat_eq]
    split
    · next hlt =>
      intro hzero
      have hval := val_ofDigit (Nat.mod_lt n (by decide : 10 > 0))
      rw [List.nil_append, List.head?_cons] at hzero
      rw [Option.some.inj hzero] at hval
      exact h (by omega)
    · next hge =>
      have htenth := ih (n / 10) (by omega) (by omega)
      rcases hhead : (ofNat (n / 10)).head? with - | d
      · exact absurd (List.head?_eq_none_iff.mp hhead) (ofNat_ne_nil _)
      · rw [List.head?_append, hhead, Option.some_or, ← hhead]
        exact htenth

/-- A whole number begins with a digit, or with a minus and a digit. -/
theorem exists_ofInt_eq_cons (n : Int) :
    ∃ c t, ofInt n = c :: t ∧ (c = 0x2D ∨ c.isAsciiDigit = true) := by
  unfold ofInt
  split
  · exact ⟨_, _, rfl, .inl rfl⟩
  · obtain ⟨c, digits, hdigits⟩ := List.exists_cons_of_ne_nil (ofNat_ne_nil n.natAbs)
    refine ⟨c, digits, hdigits, .inr (isAsciiDigit_of_mem_ofNat n.natAbs c ?_)⟩
    rw [hdigits]
    exact List.mem_cons_self

/-- A whole number has a text if it has no more digits than are converted. -/
theorem isOk_text?_iff {n : Int} : (text? n).isOk = true ↔ (ofNat n.natAbs).length ≤ maxDigits := by
  unfold text?
  dsimp only
  split
  · next h => exact ⟨fun _ => h, fun _ => rfl⟩
  · next h => exact ⟨nofun, fun h' => absurd h' h⟩

end SshAuthority.Decimal
