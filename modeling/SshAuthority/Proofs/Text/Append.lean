/-
SshAuthority/Proofs/Text/Append.lean

Texts that are put one after the other.

A text begins with another one if something can be put after that to make it, and ends with
one if something can be put before it. What is put after a text does not change where the
text is cut or into which pieces it falls, up to the last.

Main results: `startsWith_iff`, `endsWith_iff`, `cut?_append_of_eq_some`,
`splitOn_append_cons`, `join_concat`.
-/
import SshAuthority.Text.CodePoint

namespace SshAuthority.Text

variable {sep : CodePoint}

/-! ### Beginnings and ends -/

theorem after?_eq_some_iff {start t rest : Text} : after? start t = some rest ↔ t = start ++ rest := by
  induction start generalizing t with
  | nil => simp [after?]
  | cons a start ih =>
    rcases t with - | ⟨c, t⟩
    · simp [after?]
    · by_cases h : a = c
      · subst h
        simp [after?, ih]
      · simp [after?, h, Ne.symm h]

theorem startsWith_iff {start t : Text} : startsWith start t = true ↔ ∃ rest, t = start ++ rest := by
  unfold startsWith
  rw [Option.isSome_iff_exists]
  exact exists_congr fun rest => after?_eq_some_iff

theorem endsWith_iff {tail t : Text} : endsWith tail t = true ↔ ∃ lead, t = lead ++ tail := by
  unfold endsWith
  rw [startsWith_iff]
  constructor
  · rintro ⟨rest, h⟩
    refine ⟨rest.reverse, ?_⟩
    rw [← List.reverse_reverse t, h, List.reverse_append, List.reverse_reverse]
  · rintro ⟨lead, rfl⟩
    exact ⟨lead.reverse, List.reverse_append⟩

/-! ### Cuts -/

theorem cut?_eq_none_iff {t : Text} : cut? sep t = none ↔ sep ∉ t := by
  induction t with
  | nil => simp [cut?]
  | cons c t ih =>
    rw [cut?]
    split
    · next h => simp [h]
    · next h => simp [ih, Ne.symm h]

/-- What is put after a text goes to what stands after its first mark. -/
theorem cut?_append_of_eq_some {t before after : Text} (h : cut? sep t = some (before, after))
    (s : Text) : cut? sep (t ++ s) = some (before, after ++ s) := by
  induction t generalizing before with
  | nil => cases h
  | cons c t ih =>
    rw [List.cons_append, cut?]
    rw [cut?] at h
    split at h
    · next hc =>
      cases h
      rw [if_pos hc]
    · next hc =>
      obtain ⟨⟨before, after'⟩, hcut, heq⟩ := Option.map_eq_some_iff.mp h
      obtain ⟨rfl, rfl⟩ := Prod.mk.inj heq
      rw [if_neg hc, ih hcut]
      rfl

/-! ### Pieces -/

theorem splitOn_ne_nil (sep : CodePoint) (t : Text) : splitOn sep t ≠ [] := by
  rcases t with - | ⟨c, t⟩
  · exact List.cons_ne_nil _ _
  · rw [splitOn]
    split
    · exact List.cons_ne_nil _ _
    · split <;> exact List.cons_ne_nil _ _

theorem splitOn_of_not_mem {t : Text} (h : sep ∉ t) : splitOn sep t = [t] := by
  induction t with
  | nil => rfl
  | cons c t ih =>
    obtain ⟨hc, ht⟩ := not_or.mp (mt List.mem_cons.mpr h)
    rw [splitOn, if_neg (Ne.symm hc), ih ht]

/-- A mark between two texts separates the pieces of one from those of the other. -/
theorem splitOn_append_cons (s t : Text) :
    splitOn sep (s ++ sep :: t) = splitOn sep s ++ splitOn sep t := by
  induction s with
  | nil => exact if_pos rfl
  | cons c s ih =>
    rw [List.cons_append, splitOn, splitOn]
    split
    · rw [ih]
      rfl
    · rw [ih]
      rcases hs : splitOn sep s with - | ⟨piece, pieces⟩
      · exact absurd hs (splitOn_ne_nil sep s)
      · rfl

/-- Another piece comes after a mark. -/
theorem join_concat (sep : Text) {pieces : List Text} (h : pieces ≠ []) (piece : Text) :
    join sep (pieces ++ [piece]) = join sep pieces ++ sep ++ piece := by
  induction pieces with
  | nil => exact absurd rfl h
  | cons first pieces ih =>
    rcases pieces with - | ⟨second, pieces⟩
    · rfl
    · show first ++ sep ++ join sep (second :: pieces ++ [piece]) = _
      rw [ih (List.cons_ne_nil _ _)]
      simp [join, List.append_assoc]

end SshAuthority.Text
