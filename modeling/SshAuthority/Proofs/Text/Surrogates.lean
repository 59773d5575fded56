/-
SshAuthority/Proofs/Text/Surrogates.lean

Surrogates in a text that is spelled in units of 16 bits.

A text may hold surrogates, each a code point of its own. Spelled in units it keeps them apart
from all other code points but for one case: where a high surrogate comes directly before a
low one, the two are spelled as one code point above `0xFFFF` is, and are read back as it
(`joined`). A text without such a place is read back as it was, and no other one is.

Main result: `joined_eq_self_iff`.
-/
import SshAuthority.Text.Utf16

namespace SshAuthority.Utf16

/-- The text with each high surrogate and a low one directly after it made one code point. -/
def joined : Text → Text
  | [] => []
  | [c] => [c]
  | c :: d :: rest =>
    if isHigh c.val && isLow d.val then pair c.val d.val :: joined rest else c :: joined (d :: rest)

/-- No high surrogate stands directly before a low one. -/
def Unpaired (t : Text) : Prop :=
  ∀ before c d after, t = before ++ c :: d :: after → ¬(isHigh c.val = true ∧ isLow d.val = true)

variable {c d : CodePoint} {t : Text}

theorem joined_of_pair (hc : isHigh c.val = true) (hd : isLow d.val = true) (t : Text) :
    joined (c :: d :: t) = pair c.val d.val :: joined t := by
  rw [joined, hc, hd]
  rfl

/-- What is no high surrogate is not joined with what comes after it. -/
theorem joined_cons_of_not_high (hc : isHigh c.val = false) (t : Text) :
    joined (c :: t) = c :: joined t := by
  rcases t with - | ⟨d, t⟩
  · rfl
  · rw [joined, hc]
    rfl

/-- What is no low surrogate is not joined with what comes before it. -/
theorem joined_cons_of_not_low (hd : isLow d.val = false) (c : CodePoint) (t : Text) :
    joined (c :: d :: t) = c :: joined (d :: t) := by
  rw [joined, hd, Bool.and_false]
  rfl

/-- A code point is no half of a pair of both kinds. -/
theorem isLow_of_isHigh {n : Nat} (h : isHigh n = true) : isLow n = false := by
  simp only [isHigh, isLow, Bool.and_eq_true, decide_eq_true_eq, Bool.and_eq_false_iff,
    decide_eq_false_iff_not] at h ⊢
  omega

/-! ### Texts that stay as they are -/

theorem unpaired_cons_cons :
    Unpaired (c :: d :: t) ↔ ¬(isHigh c.val = true ∧ isLow d.val = true) ∧ Unpaired (d :: t) := by
  constructor
  · intro h
    refine ⟨h [] c d t rfl, fun before c' d' after heq => h (c :: before) c' d' after ?_⟩
    rw [heq]
    rfl
  · rintro ⟨hpair, h⟩ before c' d' after heq
    rcases before with - | ⟨b, before⟩
    · obtain ⟨rfl, rfl, -⟩ : c = c' ∧ d = d' ∧ t = after := by simpa using heq
      exact hpair
    · exact h before c' d' after (List.cons.inj heq).2

theorem length_joined_le (t : Text) : (joined t).length ≤ t.length := by
  fun_induction joined t with
  | case1 => exact Nat.le_refl _
  | case2 => exact Nat.le_refl _
  | case3 c d rest _ ih =>
    simp only [List.length_cons]
    omega
  | case4 c d rest _ ih =>
    simp only [List.length_cons] at ih ⊢
    omega

/-- A text is read back as it was where no pair stands in it. -/
theorem joined_eq_self_iff : joined t = t ↔ Unpaired t := by
  fun_induction joined t with
  | case1 =>
    refine ⟨fun _ before c d after heq => ?_, fun _ => rfl⟩
    simp at heq
  | case2 c =>
    refine ⟨fun _ before c' d after heq => ?_, fun _ => rfl⟩
    have hlength := congrArg List.length heq
    simp at hlength
    omega
  | case3 c d rest hpair ih =>
    rw [unpaired_cons_cons]
    rw [Bool.and_eq_true] at hpair
    refine ⟨fun heq => ?_, fun h => absurd hpair h.1⟩
    -- joining the pair has made the text shorter
    have hlength := congrArg List.length heq
    have hle := length_joined_le rest
    simp only [List.length_cons] at hlength
    omega
  | case4 c d rest hpair ih =>
    rw [Bool.and_eq_true] at hpair
    rw [unpaired_cons_cons, List.cons.injEq, ih]
    exact ⟨fun h => ⟨hpair, h.2⟩, fun h => ⟨rfl, h.2⟩⟩

/-- A text without surrogates is one of these. -/
theorem unpaired_of_forall (h : ∀ c ∈ t, isHigh c.val = false) : Unpaired t := by
  rintro before c d after rfl ⟨hc, -⟩
  rw [h c (List.mem_append_right _ List.mem_cons_self)] at hc
  cases hc

end SshAuthority.Utf16
