/-
SshAuthority/Proofs/Number/Truncation.lean

The whole part of a rational number.

A number is cut to a whole one toward zero: what lies between two whole numbers becomes the
one that is nearer to zero, on either side of it (`Truncates`). At most one whole number is
such a part, and the quotient of numerator and denominator is one.

Main result: `truncates_iff`.
-/
import SshAuthority.Number.Real64

namespace SshAuthority.Rat

variable {x : Rat} {n m : Int}

/-- The whole number is what is left of the rational one when it is cut toward zero. -/
structure Truncates (x : Rat) (n : Int) : Prop where
  of_nonneg : 0 ≤ x → (n : Rat) ≤ x ∧ x < (n : Rat) + 1
  of_nonpos : x ≤ 0 → (n : Rat) - 1 < x ∧ x ≤ (n : Rat)

/-- What is cut from the opposite is the opposite. -/
theorem Truncates.neg (h : Truncates x n) : Truncates (-x) (-n) where
  of_nonneg hx := by
    obtain ⟨hlow, hhigh⟩ := h.of_nonpos (by grind)
    rw [Rat.intCast_neg]
    constructor <;> grind
  of_nonpos hx := by
    obtain ⟨hlow, hhigh⟩ := h.of_nonneg (by grind)
    rw [Rat.intCast_neg]
    constructor <;> grind

/-- At most one whole number is the part of a number. -/
theorem Truncates.unique (hn : Truncates x n) (hm : Truncates x m) : n = m := by
  rcases (Rat.le_total : 0 ≤ x ∨ x ≤ 0) with hx | hx
  · obtain ⟨hnx, hxn⟩ := hn.of_nonneg hx
    obtain ⟨hmx, hxm⟩ := hm.of_nonneg hx
    have hle : n < m + 1 := Rat.intCast_lt_intCast.mp (by push_cast; grind)
    have hge : m < n + 1 := Rat.intCast_lt_intCast.mp (by push_cast; grind)
    omega
  · obtain ⟨hnx, hxn⟩ := hn.of_nonpos hx
    obtain ⟨hmx, hxm⟩ := hm.of_nonpos hx
    have hle : n < m + 1 := Rat.intCast_lt_intCast.mp (by push_cast; grind)
    have hge : m < n + 1 := Rat.intCast_lt_intCast.mp (by push_cast; grind)
    omega

theorem wholePart_neg (x : Rat) : wholePart (-x) = -wholePart x := by
  unfold wholePart
  rw [Rat.neg_num, Rat.neg_den, Int.neg_tdiv]

/-- The part of a number that is not negative is the whole number below it. -/
theorem wholePart_eq_floor (hx : 0 ≤ x) : wholePart x = x.floor := by
  unfold wholePart
  rw [Int.tdiv_eq_ediv_of_nonneg (Rat.num_nonneg.mpr hx), ← Rat.floor_def]

theorem truncates_wholePart_of_nonneg (hx : 0 ≤ x) : Truncates x (wholePart x) := by
  rw [wholePart_eq_floor hx]
  have hlow : (x.floor : Rat) ≤ x := Rat.floor_le x
  have hhigh : x < (x.floor : Rat) + 1 := by
    have h := Rat.lt_floor_add_one x
    push_cast at h
    exact h
  refine ⟨fun _ => ⟨hlow, hhigh⟩, fun hnonpos => ?_⟩
  -- only zero is neither negative nor positive
  obtain rfl : x = 0 := Rat.le_antisymm hnonpos hx
  rw [show Rat.floor 0 = 0 from rfl]
  decide +kernel

theorem truncates_wholePart (x : Rat) : Truncates x (wholePart x) := by
  rcases (Rat.le_total : 0 ≤ x ∨ x ≤ 0) with hx | hx
  · exact truncates_wholePart_of_nonneg hx
  · have h := (truncates_wholePart_of_nonneg (x := -x) (by grind)).neg
    rw [wholePart_neg, Int.neg_neg, Rat.neg_neg] at h
    exact h

/-- The whole part is the one whole number that is left. -/
theorem truncates_iff : Truncates x n ↔ n = wholePart x :=
  ⟨fun h => h.unique (truncates_wholePart x), fun h => h ▸ truncates_wholePart x⟩

end SshAuthority.Rat
