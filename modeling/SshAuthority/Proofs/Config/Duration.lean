/-
SshAuthority/Proofs/Config/Duration.lean

Durations of many digits.

A number of hours may have as many digits as are read at all, and then it has more
seconds than are written. The numbers here are made of nines alone: their value is known
without computing it, whatever their length.

Main result: `read_nines`.
-/
import SshAuthority.Config.Duration
import SshAuthority.Proofs.Text.Blank

namespace SshAuthority.Duration

/-! ### Nines -/

/-- So many hours as so many nines say. -/
def nines (k : Nat) : Text := List.replicate k 0x39 ++ [0x68]

theorem nines_succ (k : Nat) : nines (k + 1) = 0x39 :: nines k := rfl

theorem trim_nines (k : Nat) : (nines k).trim = nines k := by
  rcases k with - | k
  · decide
  · have hright : Text.trimRight (nines k) = nines k :=
      Text.dropRight_append_of_neg (List.replicate k 0x39) [] (by decide)
    rw [nines_succ, Text.trim_of_head _ (by decide), hright]

/-- A number of hours stands on one line. -/
theorem not_mem_nines (k : Nat) : 0x0A ∉ nines k := by
  intro h
  rcases List.mem_append.mp h with h | h
  · exact absurd (List.eq_of_mem_replicate h) (by decide)
  · exact absurd (List.mem_singleton.mp h) (by decide)

/-- Nines are digits until something else comes. -/
theorem digitRun_replicate (k : Nat) (t : Text) :
    digitRun (List.replicate k 0x39 ++ t) =
      (List.replicate k 9 ++ (digitRun t).1, (digitRun t).2) := by
  induction k with
  | zero => rfl
  | succ k ih =>
    have hdigit : CodePoint.digit? 0x39 = some 9 := by decide
    rw [List.replicate_succ, List.cons_append, digitRun, hdigit]
    dsimp only
    rw [ih]
    rfl

/-- The value of nines. -/
theorem ofDigits_replicate (k : Nat) : Decimal.ofDigits (List.replicate k 9) = 10 ^ k - 1 := by
  induction k with
  | zero => rfl
  | succ k ih =>
    have hpos : 0 < 10 ^ k := Nat.pow_pos (by decide)
    unfold Decimal.ofDigits at ih ⊢
    rw [List.replicate_succ', List.foldl_append, ih, List.foldl_cons, List.foldl_nil, Nat.pow_succ]
    omega

/-! ### Hours -/

/-- The hours that nines say, in nanoseconds. -/
def ninesSize (k : Nat) : Rat :=
  ((10 ^ k - 1 : Nat) + mkRat (0 : Nat) (10 ^ 0)) * (3600000000000 : Nat)

/-- The seconds of hours. -/
theorem wholeSeconds_ninesSize (k : Nat) :
    wholeSeconds (ninesSize k) = 3600 * (10 ^ k - 1 : Nat) := by
  have hunit : ((3600000000000 : Nat) : Rat) * (1000000000 : Rat)⁻¹ = ((3600 : Nat) : Rat) := by
    decide +kernel
  have hzero : mkRat (0 : Nat) (10 ^ 0) = 0 := rfl
  unfold wholeSeconds Rat.wholePart ninesSize
  rw [hzero, Rat.add_zero, Rat.div_def, Rat.mul_assoc, hunit, ← Rat.natCast_mul, Rat.num_natCast,
    Rat.den_natCast]
  show (((10 ^ k - 1) * 3600 : Nat) : Int).tdiv 1 = _
  rw [Int.tdiv_one, Int.natCast_mul, Int.mul_comm]
  rfl

/-- All of the text is one part. -/
theorem part?_nines (k : Nat) :
    part? (nines (k + 1)) = some (⟨List.replicate (k + 1) 9, [], 3600000000000⟩, []) := by
  have hend : digitRun [0x68] = ([], [0x68]) := by decide
  have hunit : unit? [0x68] = some (3600000000000, []) := by decide
  unfold part? nines
  rw [digitRun_replicate, hend, List.append_nil]
  dsimp only
  rw [if_neg (by simp)]
  show (unit? [0x68] >>= _) = _
  rw [hunit]
  rfl

theorem nanoseconds?_nines {k : Nat} (h : k ≤ Decimal.maxDigits) :
    Part.nanoseconds? ⟨List.replicate k 9, [], 3600000000000⟩ = .ok (ninesSize k) := by
  unfold Part.nanoseconds? Decimal.ofDigits?
  dsimp only
  rw [List.length_replicate, if_pos h, ofDigits_replicate]
  rfl

theorem sumWithin_nines {k fuel : Nat} (h : k + 1 ≤ Decimal.maxDigits) (shown : Text) :
    sumWithin shown (fuel + 1) (nines (k + 1)) = .ok (ninesSize (k + 1)) := by
  have hrest : sumWithin shown fuel [] = .ok 0 := by
    rcases fuel with - | fuel <;> rfl
  have hcons : nines (k + 1) ≠ [] := List.cons_ne_nil _ _
  rw [sumWithin.eq_3 _ _ _ hcons, part?_nines]
  dsimp only
  rw [nanoseconds?_nines h, hrest]
  exact congrArg Except.ok (Rat.add_zero _)

/-- As many nines as are read say so many hours. -/
theorem read_nines {k : Nat} (hpos : 0 < k) (hmax : k ≤ Decimal.maxDigits) :
    read (nines k) = .ok (3600 * (10 ^ k - 1 : Nat)) := by
  obtain ⟨k, rfl⟩ := Nat.exists_eq_succ_of_ne_zero (Nat.pos_iff_ne_zero.mp hpos)
  have hsign : Decimal.sign (nines (k + 1)) = (false, nines (k + 1)) := rfl
  have hzero : nines (k + 1) ≠ "0" := by
    intro h
    have hhead : some (0x39 : CodePoint) = some 0x30 := congrArg List.head? h
    exact absurd hhead (by decide)
  have hempty : (nines (k + 1)).isEmpty ≠ true := fun h =>
    List.cons_ne_nil _ _ (List.isEmpty_iff.mp h)
  have hsum : sumWithin (nines (k + 1)) (nines (k + 1)).length (nines (k + 1)) =
      .ok (ninesSize (k + 1)) :=
    sumWithin_nines hmax _
  unfold read
  rw [trim_nines, hsign]
  dsimp only
  rw [if_neg hzero, if_neg hempty, hsum]
  exact congrArg Except.ok (wholeSeconds_ninesSize (k + 1))

end SshAuthority.Duration
