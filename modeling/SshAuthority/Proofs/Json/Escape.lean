/-
SshAuthority/Proofs/Json/Escape.lean

Texts in JSON, written and read back.

Each code point is written by itself, as it is or as one or two escapes, all in printable
ASCII. The reader goes from the one to the next, and what it holds back is at most a high
surrogate that it has just read: if a low one comes next, the two are one code point. So a
text is read back with its pairs joined (`readText_write`), and what follows its closing mark
is left alone.

Main results: `readText_write` and `printable_writeText`.
-/
import SshAuthority.Json.Reader
import SshAuthority.Json.Writer
import SshAuthority.Proofs.Text.Surrogates

namespace SshAuthority

/-- Printable ASCII, the blank included. -/
def CodePoint.IsPrintable (c : CodePoint) : Prop := 0x20 ≤ c.val ∧ c.val ≤ 0x7E

instance : DecidablePred CodePoint.IsPrintable := fun c =>
  inferInstanceAs (Decidable (0x20 ≤ c.val ∧ c.val ≤ 0x7E))

namespace Hex

theorem value?_digit {d : Nat} (h : d < 16) : value? (digit d) = some d := by
  revert d
  decide

theorem isPrintable_digit {d : Nat} (h : d < 16) : (digit d).IsPrintable := by
  revert d
  decide

end Hex

namespace Json

variable {held : Option Nat} {c : CodePoint} {more rest : Text} {n : Nat}

/-! ### Escapes -/

/-- Four digits say the unit that they are of. -/
theorem hex4?_ofNat (h : n < 0x10000) : ∃ w x y z, Hex.ofNat 4 n = [w, x, y, z] ∧
    hex4? w x y z = some n := by
  refine ⟨_, _, _, _, rfl, ?_⟩
  unfold hex4?
  rw [Hex.value?_digit (Nat.mod_lt _ (by decide)), Hex.value?_digit (Nat.mod_lt _ (by decide)),
    Hex.value?_digit (Nat.mod_lt _ (by decide)), Hex.value?_digit (Nat.mod_lt _ (by decide))]
  show some _ = some n
  congr 1
  omega

/-- How reading goes on after the escape of a unit. -/
theorem readText_unitEscape (h : n < 0x10000) (held : Option Nat) (more : Text) :
    readText held (unitEscape n ++ more) =
      match held with
      | some high =>
        if Utf16.isLow n then
          (readText none more).map fun (t, after) => (Utf16.pair high n :: t, after)
        else if Utf16.isHigh n then
          (readText (some n) more).map fun (t, after) => (CodePoint.ofNat high :: t, after)
        else
          (readText none more).map fun (t, after) =>
            (CodePoint.ofNat high :: CodePoint.ofNat n :: t, after)
      | none =>
        if Utf16.isHigh n then readText (some n) more
        else (readText none more).map fun (t, after) => (CodePoint.ofNat n :: t, after) := by
  obtain ⟨w, x, y, z, hdigits, hvalue⟩ := hex4?_ofNat h
  unfold unitEscape
  rw [hdigits]
  show readText held (0x5C :: 0x75 :: w :: x :: y :: z :: more) = _
  rw [readText.eq_def]
  dsimp only
  rewrite [if_neg (by decide), if_pos rfl, if_pos rfl, hvalue]
  rfl

/-- How it goes on after a letter that stands for a code point. -/
theorem readText_simpleEscape {e p : CodePoint} (he : e ≠ 0x75) (hp : simpleEscape? e = some p)
    (held : Option Nat) (more : Text) :
    readText held (0x5C :: e :: more) =
      (readText none more).map fun (t, after) => (release held (p :: t), after) := by
  rw [readText.eq_def]
  dsimp only
  rw [if_neg (by decide), if_pos rfl, if_neg he, hp]

/-- And after a code point that stands for itself. -/
theorem readText_plain (hmark : c ≠ 0x22) (hescape : c ≠ 0x5C) (hcontrol : 0x20 ≤ c.val)
    (held : Option Nat) (more : Text) :
    readText held (c :: more) =
      (readText none more).map fun (t, after) => (release held (c :: t), after) := by
  rw [readText.eq_def]
  dsimp only
  rw [if_neg hmark, if_neg hescape, if_neg (Nat.not_lt.mpr hcontrol)]

/-! ### Code points -/

/-- The two units of a code point above `0xFFFF`, which are read as it. -/
theorem pair_units (h : 0x10000 ≤ c.val) :
    Utf16.pair (0xD800 + (c.val - 0x10000) / 0x400) (0xDC00 + (c.val - 0x10000) % 0x400) = c := by
  have hlt := c.isLt
  have hval : 0x10000 + (0xD800 + (c.val - 0x10000) / 0x400 - 0xD800) * 0x400 +
      (0xDC00 + (c.val - 0x10000) % 0x400 - 0xDC00) = c.val := by
    omega
  unfold Utf16.pair
  rw [hval, CodePoint.ofNat_val]

theorem readText_units (h : 0x10000 ≤ c.val) (held : Option Nat) (more : Text) :
    readText held (unitEscape (0xD800 + (c.val - 0x10000) / 0x400) ++
        unitEscape (0xDC00 + (c.val - 0x10000) % 0x400) ++ more) =
      (readText none more).map fun (t, after) => (release held (c :: t), after) := by
  have hlt := c.isLt
  have hhigh : Utf16.isHigh (0xD800 + (c.val - 0x10000) / 0x400) = true := by
    simp only [Utf16.isHigh, Bool.and_eq_true, decide_eq_true_eq]
    omega
  have hlow : Utf16.isLow (0xDC00 + (c.val - 0x10000) % 0x400) = true := by
    simp only [Utf16.isLow, Bool.and_eq_true, decide_eq_true_eq]
    omega
  have hsecond : readText (some (0xD800 + (c.val - 0x10000) / 0x400))
      (unitEscape (0xDC00 + (c.val - 0x10000) % 0x400) ++ more) =
        (readText none more).map fun (t, after) => (c :: t, after) := by
    rw [readText_unitEscape (by omega)]
    dsimp only
    rw [if_pos hlow, pair_units h]
  rw [List.append_assoc, readText_unitEscape (by omega), Utf16.isLow_of_isHigh hhigh, hhigh, hsecond]
  rcases held with - | high
  · rfl
  · show ((readText none more).map _).map _ = _
    rw [Option.map_map]
    rfl

/-- A code point that is no surrogate is read back, behind what was held. -/
theorem readText_writePoint (hhigh : Utf16.isHigh c.val = false) (hlow : Utf16.isLow c.val = false)
    (held : Option Nat) (more : Text) :
    readText held (writePoint c ++ more) =
      (readText none more).map fun (t, after) => (release held (c :: t), after) := by
  unfold writePoint
  split
  · next hmark =>
    have hescape : c ≠ 0x75 ∧ simpleEscape? c = some c := by
      rcases Bool.or_eq_true_iff.mp hmark with hc | hc
      all_goals
        obtain rfl := of_decide_eq_true hc
        decide
    exact readText_simpleEscape hescape.1 hescape.2 held more
  next hmark =>
  iterate 5
    split
    · next hc =>
      subst hc
      exact readText_simpleEscape (by decide) (by decide) held more
  split
  · next hprintable =>
    simp only [Bool.or_eq_true, decide_eq_true_eq, not_or] at hmark
    simp only [Bool.and_eq_true, decide_eq_true_eq] at hprintable
    exact readText_plain hmark.1 hmark.2 hprintable.1 held more
  split
  · next hunit =>
    rw [readText_unitEscape hunit, hhigh, hlow, CodePoint.ofNat_val]
    rcases held with - | high <;> rfl
  · next hunit => exact readText_units (Nat.not_lt.mp hunit) held more

/-- A surrogate is written as an escape. -/
theorem writePoint_of_surrogate (h : 0xD800 ≤ c.val ∧ c.val < 0xE000) :
    writePoint c = unitEscape c.val := by
  have hne {d : CodePoint} (hd : d.val < 0xD800) : c ≠ d := by
    rintro rfl
    omega
  unfold writePoint
  rw [if_neg (by simp [hne (d := 0x22) (by decide), hne (d := 0x5C) (by decide)]),
    if_neg (hne (by decide)), if_neg (hne (by decide)), if_neg (hne (by decide)),
    if_neg (hne (by decide)), if_neg (hne (by decide)), if_neg, if_pos (by omega)]
  simp only [Bool.and_eq_true, decide_eq_true_eq]
  omega

/-! ### Texts -/

/-- What is no surrogate is joined with nothing, whatever is held before it. -/
theorem joined_release (hhigh : Utf16.isHigh c.val = false) (hlow : Utf16.isLow c.val = false)
    (held : Option Nat) (t : Text) :
    Utf16.joined (release held (c :: t)) = release held (c :: Utf16.joined t) := by
  rcases held with - | high
  · exact Utf16.joined_cons_of_not_high hhigh t
  · show Utf16.joined (CodePoint.ofNat high :: c :: t) = _
    rw [Utf16.joined_cons_of_not_low hlow, Utf16.joined_cons_of_not_high hhigh]
    rfl

/-- A text is read back with its pairs joined, whatever high surrogate was held before it. -/
theorem readText_flatMap (t rest : Text) :
    ∀ held : Option Nat, (∀ high ∈ held, Utf16.isHigh high = true) →
      readText held (t.flatMap writePoint ++ 0x22 :: rest) =
        some (Utf16.joined (release held t), rest) := by
  induction t with
  | nil =>
    intro held _
    rw [List.flatMap_nil, List.nil_append, readText.eq_def]
    dsimp only
    rw [if_pos rfl]
    rcases held with - | high <;> rfl
  | cons c t ih =>
    intro held hheld
    rw [List.flatMap_cons, List.append_assoc]
    have hnone := ih none (by simp)
    rcases hhigh : Utf16.isHigh c.val with - | -
    · rcases hlow : Utf16.isLow c.val with - | -
      · rw [readText_writePoint hhigh hlow, hnone]
        exact congrArg (fun t => some (t, rest)) (joined_release hhigh hlow held t).symm
      · -- a low surrogate completes the pair, if a high one is held
        have hrange : 0xDC00 ≤ c.val ∧ c.val < 0xE000 := by simpa [Utf16.isLow] using hlow
        rw [writePoint_of_surrogate (by omega), readText_unitEscape (by omega), hhigh, hlow, hnone]
        rcases held with - | high
        · show _ = some (Utf16.joined (c :: t), rest)
          rw [Utf16.joined_cons_of_not_high hhigh]
          exact congrArg (fun c => some (c :: Utf16.joined t, rest)) (CodePoint.ofNat_val c)
        · have hhigh' := hheld high rfl
          have hval : (CodePoint.ofNat high).val = high := CodePoint.val_ofNat (by
            simp only [Utf16.isHigh, Bool.and_eq_true, decide_eq_true_eq] at hhigh'
            omega)
          rw [release, Utf16.joined_of_pair (by rw [hval]; exact hhigh') hlow, hval]
          rfl
    · -- a high surrogate is held, and what was held before it is no part of a pair
      have hlow := Utf16.isLow_of_isHigh hhigh
      have hrange : 0xD800 ≤ c.val ∧ c.val < 0xDC00 := by simpa [Utf16.isHigh] using hhigh
      have hsome := ih (some c.val) (by simpa using hhigh)
      rw [release, CodePoint.ofNat_val] at hsome
      rw [writePoint_of_surrogate (by omega), readText_unitEscape (by omega), hhigh, hlow, hsome]
      rcases held with - | high
      · rfl
      · rw [release, Utf16.joined_cons_of_not_low hlow]
        rfl

/-- What is written for a text is read back as it, with its pairs joined, up to the closing mark. -/
theorem readText_write (t rest : Text) :
    readText none (t.flatMap writePoint ++ 0x22 :: rest) = some (Utf16.joined t, rest) :=
  readText_flatMap t rest none (by simp)

/-! ### Printable ASCII -/

theorem printable_singleton (hc : c.IsPrintable) : ∀ d ∈ [c], d.IsPrintable := by
  intro d hd
  rw [List.mem_singleton.mp hd]
  exact hc

theorem printable_pair {d : CodePoint} (hc : c.IsPrintable) (hd : d.IsPrintable) :
    ∀ x ∈ [c, d], x.IsPrintable := by
  intro x hx
  simp only [List.mem_cons, List.not_mem_nil, or_false] at hx
  rcases hx with rfl | rfl
  · exact hc
  · exact hd

theorem printable_append {s t : Text} (hs : ∀ c ∈ s, c.IsPrintable) (ht : ∀ c ∈ t, c.IsPrintable) :
    ∀ c ∈ s ++ t, c.IsPrintable := fun c hc => (List.mem_append.mp hc).elim (hs c) (ht c)

theorem printable_hex (width n : Nat) : ∀ c ∈ Hex.ofNat width n, c.IsPrintable := by
  induction width generalizing n with
  | zero => exact fun c hc => absurd hc List.not_mem_nil
  | succ width ih =>
    have hlast := Hex.isPrintable_digit (Nat.mod_lt n (by decide : 16 > 0))
    exact printable_append (ih (n / 16)) (printable_singleton hlast)

theorem printable_unitEscape (n : Nat) : ∀ c ∈ unitEscape n, c.IsPrintable :=
  printable_append (printable_pair (by decide) (by decide)) (printable_hex 4 n)

theorem printable_writePoint (c : CodePoint) : ∀ d ∈ writePoint c, d.IsPrintable := by
  unfold writePoint
  split
  · next hmark =>
    rcases Bool.or_eq_true_iff.mp hmark with hc | hc
    all_goals
      obtain rfl := of_decide_eq_true hc
      exact printable_pair (by decide) (by decide)
  -- the five that have a letter for their escape
  iterate 5
    split
    · exact printable_pair (by decide) (by decide)
  split
  · next hprintable =>
    simp only [Bool.and_eq_true, decide_eq_true_eq] at hprintable
    exact printable_singleton hprintable
  split
  · exact printable_unitEscape c.val
  · exact printable_append (printable_unitEscape _) (printable_unitEscape _)

/-- A written text is in printable ASCII. -/
theorem printable_writeText (t : Text) : ∀ c ∈ writeText t, c.IsPrintable := by
  have hmark : ∀ c ∈ [(0x22 : CodePoint)], c.IsPrintable := printable_singleton (by decide)
  refine printable_append (printable_append hmark fun c hc => ?_) hmark
  obtain ⟨d, -, hc⟩ := List.mem_flatMap.mp hc
  exact printable_writePoint d c hc

end Json

end SshAuthority
