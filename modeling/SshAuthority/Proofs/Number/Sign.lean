/-
SshAuthority/Proofs/Number/Sign.lean

Which numbers are positive, and which texts spell the number that is none.

A floating point number is positive if it is the positive infinity or has an exact value
above zero (`IsPositive`). The question that the program asks is the opposite one, whether
the number is at most zero; its two answers cover all numbers but `nan`, which gives the
answer of the positive ones. Rounding makes no `nan`, so that only its name is read as it:
three letters of either case, a sign before them, blanks around both (`SpellsNan`).

Main results: `isNonPositive_eq_false_iff`, `read?_eq_nan_iff`.
-/
import SshAuthority.Number.RealText
import SshAuthority.Proofs.Text.Blank
import Mathlib.Algebra.Order.Ring.Unbundled.Rat

namespace SshAuthority

/-! ### Signs of texts -/

namespace Decimal

/-- The sign of a text, and what stands after it. -/
theorem exists_sign (t : Text) :
    ∃ mark ∈ [[], [0x2B], [0x2D]], t = mark ++ (sign t).2 := by
  rcases t with - | ⟨c, t⟩
  · exact ⟨[], by simp, rfl⟩
  · dsimp only [sign]
    split
    · next hminus => exact ⟨[0x2D], by simp, by rw [hminus]; rfl⟩
    · split
      · next hplus => exact ⟨[0x2B], by simp, by rw [hplus]; rfl⟩
      · exact ⟨[], by simp, rfl⟩

/-- A sign is cut off what does not begin with one. -/
theorem sign_append {mark t : Text} (hmark : mark ∈ [[], [0x2B], [0x2D]])
    (hminus : t.head? ≠ some 0x2D) (hplus : t.head? ≠ some 0x2B) :
    (sign (mark ++ t)).2 = t := by
  simp only [List.mem_cons, List.not_mem_nil, or_false] at hmark
  obtain rfl | rfl | rfl := hmark
  · rcases t with - | ⟨c, t⟩
    · rfl
    · rw [List.head?_cons, ne_eq, Option.some.injEq] at hminus hplus
      unfold sign
      rw [List.nil_append]
      dsimp only
      rw [if_neg hminus, if_neg hplus]
  · rfl
  · rfl

end Decimal

namespace Real64

/-! ### Positive numbers -/

/-- The number is above zero. -/
def IsPositive (x : Real64) : Prop :=
  x = .infinite false ∨ ∃ q, x.toRat? = some q ∧ 0 < q

/-- The undefined number is on no side of zero. -/
theorem not_isPositive_nan : ¬IsPositive .nan := by
  rintro (h | ⟨q, h, -⟩)
  · cases h
  · cases h

theorem isPositive_infinite_iff {negative : Bool} :
    IsPositive (.infinite negative) ↔ negative = false := by
  constructor
  · rintro (h | ⟨q, h, -⟩)
    · exact (Real64.infinite.inj h)
    · cases h
  · rintro rfl
    exact .inl rfl

/-- A finite number is above zero if its mantissa is and it has no minus sign. -/
theorem isPositive_finite_iff {negative : Bool} {m : Nat} {e : Int} :
    IsPositive (.finite negative m e) ↔ negative = false ∧ 0 < m := by
  -- the size of the number, whose sign is that of the mantissa for either sign of the exponent
  obtain ⟨size, hvalue, hnonneg, hpos⟩ : ∃ size : Rat,
      (Real64.finite negative m e).toRat? = some (if negative then -size else size) ∧
        0 ≤ size ∧ (0 < size ↔ 0 < m) := by
    rcases e with k | k
    · refine ⟨((m * 2 ^ k : Nat) : Rat), rfl, Rat.natCast_nonneg, ?_⟩
      rw [Rat.natCast_pos]
      exact Nat.mul_pos_iff_of_pos_right (Nat.two_pow_pos k)
    · have hden : 2 ^ (k + 1) ≠ 0 := Nat.ne_of_gt (Nat.two_pow_pos (k + 1))
      refine ⟨mkRat m (2 ^ (k + 1)), rfl, Rat.mkRat_nonneg (Int.natCast_nonneg m) _, ?_⟩
      rw [Rat.mkRat_pos_iff _ hden]
      exact Int.natCast_pos
  constructor
  · rintro (h | ⟨q, hq, h⟩)
    · cases h
    · obtain rfl := Option.some.inj (hvalue.symm.trans hq)
      cases negative with
      | false => exact ⟨rfl, hpos.mp h⟩
      | true => grind
  · rintro ⟨rfl, hm⟩
    exact .inr ⟨size, hvalue, hpos.mpr hm⟩

/-- What is not at most zero is above it, or is no number. -/
theorem isNonPositive_eq_false_iff {x : Real64} :
    x.isNonPositive = false ↔ x.IsPositive ∨ x = .nan := by
  cases x with
  | nan => exact ⟨fun _ => .inr rfl, fun _ => rfl⟩
  | infinite negative =>
    rw [isPositive_infinite_iff, or_iff_left Real64.noConfusion]
    rfl
  | finite negative m e =>
    rw [isPositive_finite_iff, or_iff_left Real64.noConfusion]
    show (negative || decide (m = 0)) = false ↔ _
    rw [Bool.or_eq_false_iff, decide_eq_false_iff_not, Nat.pos_iff_ne_zero]

/-! ### Rounding makes a number -/

theorem ofQuotient_ne_nan (negative : Bool) (num den : Nat) :
    ofQuotient negative num den ≠ .nan := by
  unfold ofQuotient
  split
  · exact Real64.noConfusion
  · dsimp only
    split
    · exact Real64.noConfusion
    · split <;> split <;> exact Real64.noConfusion

theorem ofDecimal_ne_nan (negative : Bool) (digits : Nat) (exponent : Int) :
    ofDecimal negative digits exponent ≠ .nan := by
  unfold ofDecimal
  split
  · exact Real64.noConfusion
  · dsimp only
    split
    · exact Real64.noConfusion
    · split
      · exact Real64.noConfusion
      · split <;> exact ofQuotient_ne_nan _ _ _

/-- Only the name of the undefined number is read as it. -/
theorem magnitude?_eq_nan_iff {negative : Bool} {t : Text} :
    magnitude? negative t = some .nan ↔ Text.lowerAscii t = "nan" := by
  have hparts {whole fraction : List Nat} {e : Int} :
      some (ofParts negative whole fraction e) ≠ some .nan := fun h =>
    ofDecimal_ne_nan negative _ _ (Option.some.inj h)
  unfold magnitude?
  dsimp only
  split
  · next hinfinite =>
    constructor
    · intro h
      cases h
    · intro hname
      rw [hname] at hinfinite
      exact absurd hinfinite (by decide)
  · split
    · next hname => exact ⟨fun _ => hname, fun _ => rfl⟩
    · next hname =>
      refine ⟨fun h => ?_, fun h => absurd h hname⟩
      -- what is no name is read by rounding, without an exponent as well as with one
      split at h
      all_goals
        obtain ⟨e, -, h⟩ := Option.bind_eq_some_iff.mp h
        split at h
        · obtain ⟨whole, -, h⟩ := Option.bind_eq_some_iff.mp h
          exact absurd h hparts
        · split at h
          · cases h
          · obtain ⟨whole, -, h⟩ := Option.bind_eq_some_iff.mp h
            obtain ⟨fraction, -, h⟩ := Option.bind_eq_some_iff.mp h
            exact absurd h hparts

/-! ### The texts of the undefined number -/

variable {mark name : Text}

/-- The name of the undefined number in letters of either case, with at most one sign before
it and any blanks around both. -/
def SpellsNan (t : Text) : Prop :=
  ∃ before mark name after, t = before ++ (mark ++ name) ++ after ∧
    (∀ c ∈ before, c.isNumberBlank = true) ∧ (∀ c ∈ after, c.isNumberBlank = true) ∧
    mark ∈ [[], [0x2B], [0x2D]] ∧ Text.lowerAscii name = "nan"

/-- A code point whose small form is a letter is no blank. -/
theorem isNumberBlank_of_lowerPoint {c d : CodePoint} (h : Text.lowerPoint c = d)
    (hd : d.isBlank = false) : c.isNumberBlank = false := by
  rcases hc : c.isBlank with - | -
  · unfold CodePoint.isNumberBlank
    rw [hc, Bool.false_and]
  · -- a blank is its own small form
    rw [Text.lowerPoint_of_isBlank hc] at h
    rw [← h, hc] at hd
    cases hd

/-- The letters of the name, in either case. -/
theorem lowerPoint_of_mem_name {c : CodePoint} (hname : Text.lowerAscii name = "nan")
    (hc : c ∈ name) : Text.lowerPoint c = 0x6E ∨ Text.lowerPoint c = 0x61 := by
  have h : Text.lowerPoint c ∈ Text.lowerAscii name := List.mem_map.mpr ⟨c, hc, rfl⟩
  rw [hname, show Text.ofString "nan" = [0x6E, 0x61, 0x6E] by decide] at h
  simp only [List.mem_cons, List.not_mem_nil, or_false] at h
  obtain h | h | h := h
  exacts [.inl h, .inr h, .inl h]

theorem isNumberBlank_of_mem_name {c : CodePoint} (hname : Text.lowerAscii name = "nan")
    (hc : c ∈ name) : c.isNumberBlank = false := by
  rcases lowerPoint_of_mem_name hname hc with h | h
  · exact isNumberBlank_of_lowerPoint h (by decide)
  · exact isNumberBlank_of_lowerPoint h (by decide)

/-- No blank stands at the ends of a name with its sign. -/
theorem dropBoth_mark_append (hmark : mark ∈ [[], [0x2B], [0x2D]])
    (hname : Text.lowerAscii name = "nan") :
    Text.dropBoth CodePoint.isNumberBlank (mark ++ name) = mark ++ name := by
  refine Text.dropBoth_eq_self ?_ ?_
  · intro c hc
    simp only [List.mem_cons, List.not_mem_nil, or_false] at hmark
    obtain rfl | rfl | rfl := hmark
    · exact isNumberBlank_of_mem_name hname (List.mem_of_mem_head? hc)
    · obtain rfl := Option.some.inj hc
      decide
    · obtain rfl := Option.some.inj hc
      decide
  · intro c hc
    have hne : name ≠ [] := by
      rintro rfl
      cases hname
    rw [List.getLast?_append, List.getLast?_eq_some_getLast hne] at hc
    obtain rfl := Option.some.inj hc
    exact isNumberBlank_of_mem_name hname (List.getLast_mem hne)

/-- The undefined number is read from its name and from nothing else. -/
theorem read?_eq_nan_iff {t : Text} : read? t = some .nan ↔ SpellsNan t := by
  have hread : read? t = some .nan ↔
      Text.lowerAscii (Decimal.sign (Text.dropBoth CodePoint.isNumberBlank t)).2 = "nan" :=
    magnitude?_eq_nan_iff
  rw [hread]
  constructor
  · intro h
    obtain ⟨before, after, ht, hbefore, hafter⟩ := Text.exists_dropBoth CodePoint.isNumberBlank t
    obtain ⟨mark, hmark, hbody⟩ := Decimal.exists_sign (Text.dropBoth CodePoint.isNumberBlank t)
    rw [hbody] at ht
    exact ⟨before, mark, _, after, ht, hbefore, hafter, hmark, h⟩
  · rintro ⟨before, mark, name, after, rfl, hbefore, hafter, hmark, hname⟩
    have hbody : Text.dropBoth CodePoint.isNumberBlank (before ++ (mark ++ name) ++ after) =
        mark ++ name := by
      rw [Text.dropBoth_append _ hbefore hafter]
      exact dropBoth_mark_append hmark hname
    rw [hbody, Decimal.sign_append hmark]
    · exact hname
    · intro h
      exact absurd (lowerPoint_of_mem_name hname (List.mem_of_mem_head? h)) (by decide)
    · intro h
      exact absurd (lowerPoint_of_mem_name hname (List.mem_of_mem_head? h)) (by decide)

end Real64

end SshAuthority
