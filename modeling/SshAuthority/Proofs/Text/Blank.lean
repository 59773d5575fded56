/-
SshAuthority/Proofs/Text/Blank.lean

Blanks at the ends of texts, and texts taken apart at a mark.

A text that has no blanks at its ends is its own trimmed form, begins with a code point
that is not blank and ends with one. Put between blanks it comes out again; put before a
mark that does not occur in it, it is what stands before the first such mark.

Main results: `dropBoth_append`, `exists_dropBoth`, `trim_of_head`, `trim_concat_blank`,
`trim_blank_cons`, `cut?_append`.
-/
import SshAuthority.Text.Blank

namespace SshAuthority.Text

/-! ### Dropping at the end -/

variable {p : CodePoint → Bool}

theorem length_dropRight_le (p : CodePoint → Bool) (t : Text) :
    (dropRight p t).length ≤ t.length := by
  have h : (t.reverse.dropWhile p).length ≤ t.reverse.length :=
    (List.dropWhile_sublist p).length_le
  unfold dropRight
  rw [List.length_reverse] at h ⊢
  exact h

/-- What is dropped at the end does not show. -/
theorem dropRight_append_of_pos (t : Text) {tail : Text} (h : ∀ c ∈ tail, p c = true) :
    dropRight p (t ++ tail) = dropRight p t := by
  unfold dropRight
  rw [List.reverse_append, List.dropWhile_append_of_pos fun c hc => h c (List.mem_reverse.mp hc)]

/-- Nothing is dropped before a code point that stays. -/
theorem dropRight_append_of_neg (t : Text) {c : CodePoint} (tail : Text) (h : p c = false) :
    dropRight p (t ++ c :: tail) = t ++ c :: dropRight p tail := by
  unfold dropRight
  rw [List.reverse_append, List.reverse_cons, List.append_assoc, List.singleton_append,
    List.dropWhile_append]
  split
  · next hempty =>
    rw [List.isEmpty_iff.mp hempty, List.dropWhile_cons_of_neg (by rw [h]; decide),
      List.reverse_cons, List.reverse_reverse]
    rfl
  · rw [List.reverse_append, List.reverse_cons, List.reverse_reverse, List.append_assoc,
      List.singleton_append]

/-- What is dropped at the end is dropped at once. -/
theorem dropRight_dropRight (p : CodePoint → Bool) (t : Text) :
    dropRight p (dropRight p t) = dropRight p t := by
  have h (l : List CodePoint) : (l.dropWhile p).dropWhile p = l.dropWhile p := by
    induction l with
    | nil => rfl
    | cons c l ih =>
      rw [List.dropWhile_cons]
      split
      · exact ih
      · next hc => rw [List.dropWhile_cons_of_neg hc]
  rw [dropRight, dropRight, List.reverse_reverse, h]

/-- What is dropped at the end stood there. -/
theorem dropRight_isPrefix (p : CodePoint → Bool) (t : Text) : dropRight p t <+: t := by
  have h := List.reverse_prefix.mpr (List.dropWhile_suffix p (l := t.reverse))
  rwa [List.reverse_reverse] at h

/-! ### Dropping at both ends -/

/-- What is dropped at the ends does not show. -/
theorem dropBoth_append {before after : Text} (t : Text) (hbefore : ∀ c ∈ before, p c = true)
    (hafter : ∀ c ∈ after, p c = true) : dropBoth p (before ++ t ++ after) = dropBoth p t := by
  show dropRight p ((before ++ t ++ after).dropWhile p) = dropRight p (t.dropWhile p)
  rw [List.append_assoc, List.dropWhile_append_of_pos hbefore, List.dropWhile_append]
  split
  · next hempty =>
    -- all of the text goes, and what follows it
    have hnil : after.dropWhile p = [] := by
      rw [← List.append_nil after, List.dropWhile_append_of_pos hafter, List.dropWhile_nil]
    rw [List.isEmpty_iff.mp hempty, hnil]
  · exact dropRight_append_of_pos _ hafter

/-- A text with other code points at its ends stays. -/
theorem dropBoth_eq_self {t : Text} (hhead : ∀ c ∈ t.head?, p c = false)
    (hlast : ∀ c ∈ t.getLast?, p c = false) : dropBoth p t = t := by
  rcases t with - | ⟨c, t⟩
  · rfl
  · show dropRight p ((c :: t).dropWhile p) = _
    rw [List.dropWhile_cons_of_neg (by rw [hhead c rfl]; decide),
      ← List.dropLast_concat_getLast (List.cons_ne_nil c t),
      dropRight_append_of_neg _ [] (hlast _ (List.getLast?_eq_some_getLast _))]
    rfl

/-- What is dropped at the ends stood there. -/
theorem exists_dropBoth (p : CodePoint → Bool) (t : Text) :
    ∃ before after, t = before ++ dropBoth p t ++ after ∧ (∀ c ∈ before, p c = true) ∧
      ∀ c ∈ after, p c = true := by
  refine ⟨t.takeWhile p, ((t.dropWhile p).reverse.takeWhile p).reverse, ?_,
    fun c hc => List.all_eq_true.mp List.all_takeWhile c hc,
    fun c hc => List.all_eq_true.mp List.all_takeWhile c (List.mem_reverse.mp hc)⟩
  show t = t.takeWhile p ++ ((t.dropWhile p).reverse.dropWhile p).reverse ++ _
  rw [List.append_assoc, ← List.reverse_append, List.takeWhile_append_dropWhile,
    List.reverse_reverse, List.takeWhile_append_dropWhile]

/-! ### Trimming -/

/-- A text that does not begin with a blank is trimmed at its end only. -/
theorem trim_of_head {c : CodePoint} (t : Text) (h : c.isBlank = false) :
    trim (c :: t) = c :: trimRight t := by
  show dropRight CodePoint.isBlank ((c :: t).dropWhile CodePoint.isBlank) = _
  rw [List.dropWhile_cons_of_neg (by rw [h]; decide)]
  exact dropRight_append_of_neg [] t h

/-- A text that neither begins nor ends with a blank stays as it is, whatever follows it. -/
theorem trim_append {t : Text} (hne : t ≠ []) (hhead : ∀ c ∈ t.head?, c.isBlank = false)
    (hlast : ∀ c ∈ t.getLast?, c.isBlank = false) (tail : Text) :
    trim (t ++ tail) = t ++ trimRight tail := by
  have hstart : (t ++ tail).dropWhile CodePoint.isBlank = t ++ tail := by
    obtain ⟨c, t, rfl⟩ := List.exists_cons_of_ne_nil hne
    exact List.dropWhile_cons_of_neg (by rw [hhead c rfl]; decide)
  show dropRight CodePoint.isBlank ((t ++ tail).dropWhile CodePoint.isBlank) = _
  rw [hstart, ← List.dropLast_concat_getLast hne, List.append_assoc, List.append_assoc,
    List.singleton_append, List.singleton_append]
  exact dropRight_append_of_neg _ tail (hlast _ (List.getLast?_eq_some_getLast hne))

/-- What is trimmed is trimmed at once. -/
theorem trim_trim (t : Text) : trim (trim t) = trim t := by
  show trim (dropRight CodePoint.isBlank (t.dropWhile CodePoint.isBlank)) =
    dropRight CodePoint.isBlank (t.dropWhile CodePoint.isBlank)
  rcases h : t.dropWhile CodePoint.isBlank with - | ⟨c, rest⟩
  · rfl
  · -- what is left begins with what is no blank
    have hc : c.isBlank = false := by
      have hhead := List.head?_dropWhile_not CodePoint.isBlank t
      rw [h] at hhead
      exact hhead
    have hcons : dropRight CodePoint.isBlank (c :: rest) = c :: trimRight rest :=
      dropRight_append_of_neg [] rest hc
    rw [hcons, trim_of_head _ hc]
    exact congrArg (c :: ·) (dropRight_dropRight _ rest)

/-- A blank at the end does not show. -/
theorem trim_concat_blank (t : Text) {c : CodePoint} (h : c.isBlank = true) :
    trim (t ++ [c]) = trim t := by
  show dropRight CodePoint.isBlank ((t ++ [c]).dropWhile CodePoint.isBlank) =
    dropRight CodePoint.isBlank (t.dropWhile CodePoint.isBlank)
  rw [List.dropWhile_append]
  split
  · next hempty =>
    rw [List.isEmpty_iff.mp hempty, List.dropWhile_cons_of_pos h]
    rfl
  · exact dropRight_append_of_pos _ fun d hd => by rw [List.mem_singleton.mp hd, h]

/-- A blank at the start does not show. -/
theorem trim_blank_cons {c : CodePoint} (t : Text) (h : c.isBlank = true) :
    trim (c :: t) = trim t := by
  show dropRight CodePoint.isBlank ((c :: t).dropWhile CodePoint.isBlank) = _
  rw [List.dropWhile_cons_of_pos h]
  rfl

/-- Nothing is left of blanks. -/
theorem trim_of_isBlank {t : Text} (h : isBlank t = true) : trim t = [] := by
  show dropRight CodePoint.isBlank (t.dropWhile CodePoint.isBlank) = []
  rw [← List.append_nil t, List.dropWhile_append_of_pos fun c hc => List.all_eq_true.mp h c hc]
  rfl

/-- A trimmed text does not begin with a blank. -/
theorem isBlank_head_of_trim_eq {c : CodePoint} {t : Text} (h : trim (c :: t) = c :: t) :
    c.isBlank = false := by
  rcases hc : c.isBlank with - | -
  · rfl
  · -- else something would be missing
    rw [trim_blank_cons t hc] at h
    have hle : (trim t).length ≤ t.length :=
      Nat.le_trans (length_dropRight_le _ _) (List.dropWhile_sublist _).length_le
    rw [h, List.length_cons] at hle
    omega

/-- A trimmed text has no blanks at its end. -/
theorem trimRight_of_trim_eq {t : Text} (h : trim t = t) : trimRight t = t := by
  rcases t with - | ⟨c, t⟩
  · rfl
  · have hc := isBlank_head_of_trim_eq h
    rw [trim_of_head t hc] at h
    exact (dropRight_append_of_neg [] t hc).trans h

/-- A trimmed text ends with no blank, so nothing of what stands before it is dropped. -/
theorem trimRight_append_of_trim_eq (t : Text) {tail : Text} (hne : tail ≠ [])
    (h : trim tail = tail) : trimRight (t ++ tail) = t ++ tail := by
  rcases tail with - | ⟨c, tail⟩
  · exact absurd rfl hne
  · have hright := trimRight_of_trim_eq h
    have hc := isBlank_head_of_trim_eq h
    have hcons : trimRight (c :: tail) = c :: trimRight tail := dropRight_append_of_neg [] tail hc
    rw [hcons] at hright
    show dropRight CodePoint.isBlank (t ++ c :: tail) = _
    rw [dropRight_append_of_neg t tail hc]
    exact congrArg (t ++ ·) hright

/-- A blank is no letter, and so has one case. -/
theorem lowerPoint_of_isBlank {c : CodePoint} (h : c.isBlank = true) : lowerPoint c = c := by
  unfold lowerPoint
  rw [if_neg]
  intro hcapital
  simp [CodePoint.isBlank] at h
  simp at hcapital
  omega

/-! ### Marks -/

/-- What stands before and after a mark that does not occur before it. -/
theorem cut?_append {sep : CodePoint} {before : Text} (after : Text) (h : sep ∉ before) :
    cut? sep (before ++ sep :: after) = some (before, after) := by
  induction before with
  | nil => exact if_pos rfl
  | cons c before ih =>
    have hne : c ≠ sep := fun heq => h (heq ▸ List.mem_cons_self)
    rw [List.cons_append, cut?, if_neg hne, ih fun hmem => h (List.mem_cons_of_mem c hmem)]
    rfl

/-- What stands before a mark that comes last. -/
theorem cutLast?_concat (sep : CodePoint) (before : Text) :
    cutLast? sep (before ++ [sep]) = some (before, []) := by
  have hcut : cut? sep (sep :: before.reverse) = some ([], before.reverse) := if_pos rfl
  unfold cutLast?
  rw [List.reverse_append, List.reverse_singleton, List.singleton_append, hcut]
  simp

end SshAuthority.Text
