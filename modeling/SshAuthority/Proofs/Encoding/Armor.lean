/-
SshAuthority/Proofs/Encoding/Armor.lean

A line that was written is found, and a comment that was found stood in the file.

Two words of visible characters with a blank between them are one line, whatever follows
them in it, begin no block, and are cut into the two words again. So the search that goes
through a text finds the line of a key or of a certificate, and in it the packet.

The other way round, whatever the search takes out of the lines it takes by dropping
octets; so the comment of a key is what is left of the file after dropping some octets, the
line feeds among them.

Main results: `find?_line_append`, for names that begin with a small letter, and
`comment_sublist_of_find?`.
-/
import SshAuthority.Encoding.Armor
import SshAuthority.Proofs.Encoding.Base64

namespace SshAuthority

namespace Bytes

/-- The ASCII characters that are no blanks. -/
def IsVisible (x : UInt8) : Prop := 0x21 ≤ x ∧ x ≤ 0x7E

theorem isSpace_of_isVisible {x : UInt8} (h : IsVisible x) : isSpace x = false := by
  have hlow : 0x21 ≤ x.toNat := UInt8.le_iff_toNat_le.mp h.1
  simp only [isSpace, Bool.or_eq_false_iff, beq_eq_false_iff_ne, ne_eq, ← UInt8.toNat_inj,
    Bool.and_eq_false_iff, decide_eq_false_iff_not, UInt8.le_iff_toNat_le, UInt8.reduceToNat]
  omega

theorem ne_lineFeed_of_isVisible {x : UInt8} (h : IsVisible x) : x ≠ 0x0A := by
  rintro rfl
  exact absurd h.1 (by decide)

/-- Octets without a line feed are one line. -/
theorem lines_of_forall_ne {b : Bytes} (h : ∀ x ∈ b, x ≠ 0x0A) : lines b = [b] := by
  induction b with
  | nil => rfl
  | cons x b ih =>
    rw [lines, if_neg (h x List.mem_cons_self), ih fun y hy => h y (List.mem_cons_of_mem x hy)]

/-- The lines hold all octets but the line feeds. -/
theorem flatten_lines (b : Bytes) : (lines b).flatten = b.filter (· ≠ 0x0A) := by
  induction b with
  | nil => rfl
  | cons x b ih =>
    rw [lines]
    split
    · next hx => rw [List.flatten_cons, List.nil_append, ih, hx, List.filter_cons_of_neg (by decide)]
    · next hx =>
      rw [List.filter_cons_of_pos (by simpa using hx), ← ih]
      rcases lines b with - | ⟨line, more⟩ <;> rfl

/-- What is trimmed off stood at the end. -/
theorem trimRight_isPrefix (b : Bytes) : trimRight b <+: b := by
  have h := List.reverse_prefix.mpr (List.dropWhile_suffix isSpace (l := b.reverse))
  rwa [List.reverse_reverse] at h

theorem trimRight_sublist (b : Bytes) : (trimRight b).Sublist b := (trimRight_isPrefix b).sublist

theorem trim_sublist (b : Bytes) : (trim b).Sublist b :=
  (trimRight_sublist _).trans (List.dropWhile_sublist isSpace)

/-- The beginning of octets begins as they do. -/
theorem mem_head?_of_isPrefix {b b' : Bytes} (h : b' <+: b) : ∀ x ∈ b'.head?, x ∈ b.head? := by
  obtain ⟨dropped, rfl⟩ := h
  intro x hx
  rw [List.head?_append, Option.mem_def.mp hx]
  rfl

/-- Nothing is dropped before a visible character; what comes after it is trimmed. -/
theorem trimRight_append_of_isVisible (a : Bytes) {b : Bytes} (hne : b ≠ [])
    (h : ∀ x ∈ b, IsVisible x) (tail : Bytes) :
    trimRight (a ++ b ++ tail) = a ++ b ++ trimRight tail := by
  obtain ⟨init, last, rfl⟩ : ∃ init last, b = init ++ [last] :=
    ⟨b.dropLast, b.getLast hne, (List.dropLast_concat_getLast hne).symm⟩
  have hlast : isSpace last = false :=
    isSpace_of_isVisible (h last (List.mem_append_right init (List.mem_singleton_self last)))
  -- seen from the end, the trimming comes to the last visible character or stops before it
  have hstop (t : Bytes) : ((last :: t).dropWhile isSpace) = last :: t :=
    List.dropWhile_cons_of_neg (by simp [hlast])
  unfold trimRight
  rw [List.reverse_append, List.dropWhile_append]
  split
  · next hempty =>
    rw [List.isEmpty_iff.mp hempty]
    simp [hstop]
  · simp

end Bytes

namespace Armor

open Bytes

/-! ### Lines of words -/

/-- Octets that pass a test, and then others of which the first does not, are told apart. -/
theorem span_append {p : UInt8 → Bool} {w : Bytes} (hw : ∀ x ∈ w, p x = true) {t : Bytes}
    (ht : ∀ x ∈ t.head?, p x = false) :
    (w ++ t).takeWhile p = w ∧ (w ++ t).dropWhile p = t := by
  rw [List.takeWhile_append_of_pos hw, List.dropWhile_append_of_pos hw]
  rcases t with - | ⟨x, t⟩
  · exact ⟨List.append_nil w, rfl⟩
  · have hx : ¬p x = true := by rw [ht x rfl]; decide
    rw [List.takeWhile_cons_of_neg hx, List.dropWhile_cons_of_neg hx, List.append_nil]
    exact ⟨rfl, rfl⟩

/-- The words of a line that begins with two words. -/
theorem words_append {a b tail : Bytes} (ha : a ≠ [] ∧ ∀ x ∈ a, IsVisible x)
    (hb : b ≠ [] ∧ ∀ x ∈ b, IsVisible x) (htail : ∀ x ∈ tail.head?, isSpace x = true) :
    words (a ++ [0x20] ++ b ++ tail) = (a, b, tail.dropWhile isSpace) := by
  have hinside {w : Bytes} (h : ∀ x ∈ w, IsVisible x) : ∀ x ∈ w, (!isSpace x) = true :=
    fun x hx => by rw [isSpace_of_isVisible (h x hx), Bool.not_false]
  -- blanks are dropped up to a word, and no further
  have hblanks {w : Bytes} (blanks : Bytes) (hw : w ≠ [] ∧ ∀ x ∈ w, IsVisible x)
      (hblank : ∀ x ∈ blanks, isSpace x = true) (t : Bytes) :
      (blanks ++ (w ++ t)).dropWhile isSpace = w ++ t := by
    obtain ⟨x, w, rfl⟩ := List.exists_cons_of_ne_nil hw.1
    refine (span_append hblank fun y hy => ?_).2
    rw [← Option.some.inj hy]
    exact isSpace_of_isVisible (hw.2 x List.mem_cons_self)
  have hblank : ∀ x ∈ ([0x20] ++ (b ++ tail)).head?, (!isSpace x) = false := by
    intro x hx
    rw [← Option.some.inj hx]
    decide
  obtain ⟨hfirst, hmore⟩ := span_append (hinside ha.2) hblank
  obtain ⟨hsecond, hrest⟩ := span_append (hinside hb.2) fun x hx => by rw [htail x hx, Bool.not_true]
  have hstart := hblanks [] ha (by simp) ([0x20] ++ (b ++ tail))
  have hbetween := hblanks [0x20] hb (List.forall_mem_singleton.mpr rfl) tail
  unfold words
  simp only [List.append_assoc, List.nil_append] at hstart hfirst hmore hbetween ⊢
  simp only [hstart, hfirst, hmore, hbetween, hsecond, hrest]

/-- A line does not begin with what it does not begin with. -/
theorem after?_cons_of_ne {x y : UInt8} (h : x ≠ y) (start b : Bytes) :
    after? (x :: start) (y :: b) = none := by
  rw [after?, if_neg h]

/-- The letters of octets that are some are letters. -/
theorem encode_ne_nil {b : Bytes} (h : b ≠ []) : Base64.encode b ≠ [] := by
  intro hnil
  have hdecode := Base64.decodeLenient?_encode b
  rw [hnil] at hdecode
  exact h (Option.some.inj hdecode).symm

/-- The octets of a name and of a base64 text after it are in ASCII and end no line. -/
theorem of_mem_line {name b : Bytes} (hvisible : ∀ x ∈ name, IsVisible x) :
    ∀ x ∈ name ++ [0x20] ++ Base64.encode b, x < 0x80 ∧ x ≠ 0x0A := by
  have hplain {x : UInt8} (h : IsVisible x) : x < 0x80 ∧ x ≠ 0x0A :=
    ⟨UInt8.lt_of_le_of_lt h.2 (by decide), ne_lineFeed_of_isVisible h⟩
  intro x hx
  rcases List.mem_append.mp hx with hx | hx
  · rcases List.mem_append.mp hx with hx | hx
    · exact hplain (hvisible x hx)
    · rw [List.mem_singleton.mp hx]
      decide
  · exact hplain (Base64.visible_of_mem_encode x hx)

/-- The comment that a line with the rest `tail` after its two words holds. -/
def tailComment? (tail : Bytes) : Option Bytes :=
  if (tail.dropWhile isSpace).isEmpty then none else some (tail.dropWhile isSpace)

/-- The line of a name and of octets in base64 holds them, and what follows as the comment. -/
theorem keyLine?_encode {name b tail : Bytes} {names : List Bytes} (hne : name ≠ [])
    (hvisible : ∀ x ∈ name, IsVisible x) (hmem : name ∈ names) (hb : b ≠ [])
    (htail : ∀ x ∈ tail.head?, isSpace x = true) :
    keyLine? names (name ++ [0x20] ++ Base64.encode b ++ tail) =
      some (.line name b (tailComment? tail)) := by
  have htext : (Base64.encode b).isEmpty = false :=
    List.isEmpty_eq_false_iff.mpr (encode_ne_nil hb)
  have hname : names.contains name = true := List.contains_iff_mem.mpr hmem
  unfold keyLine?
  rw [words_append ⟨hne, hvisible⟩ ⟨encode_ne_nil hb, fun x => Base64.visible_of_mem_encode x⟩ htail]
  dsimp only
  rw [htext, hname, Base64.decodeLenient?_encode]
  rfl

section

variable {kind b rest tail : Bytes} {names : List Bytes} {c : UInt8}

theorem ne_of_lt_letter (hc : 0x61 ≤ c) {x : UInt8} (hx : x < 0x61) : x ≠ c := by
  rintro rfl
  exact absurd hc (UInt8.not_le.mpr hx)

/-- The search stops at a line that was written: it begins with a small letter, so no block begins
there. -/
theorem search_line_append (hc : 0x61 ≤ c) (hvisible : ∀ x ∈ c :: rest, IsVisible x)
    (hmem : c :: rest ∈ names) (hb : b ≠ []) (htail : ∀ x ∈ tail.head?, isSpace x = true)
    (below : List Bytes) :
    search kind (some names) ((c :: rest ++ [0x20] ++ Base64.encode b ++ tail) :: below) =
      some (.line (c :: rest) b (tailComment? (trimRight tail))) := by
  have hpem (t : Bytes) : pemLabel? kind (c :: t) = none := by
    rw [pemLabel?, show ofString "-----BEGIN " = 0x2D :: ofString "----BEGIN " from rfl,
      after?_cons_of_ne (ne_of_lt_letter hc (by decide))]
    rfl
  have hblock (t : Bytes) : c :: t ≠ blockHeader :=
    fun heq => ne_of_lt_letter hc (by decide) (List.cons.inj heq).1.symm
  have hkey := keyLine?_encode (List.cons_ne_nil c rest) hvisible hmem hb
    fun x hx => htail x (mem_head?_of_isPrefix (trimRight_isPrefix tail) x hx)
  rw [search, trimRight_append_of_isVisible _ (encode_ne_nil hb) fun x => Base64.visible_of_mem_encode x]
  simp only [List.cons_append] at hkey ⊢
  rw [hpem]
  dsimp only
  rw [if_neg (hblock _), hkey]

/-- A line that was written is found, and its packet in it, whatever follows the two in the line. -/
theorem find?_line_append (hc : 0x61 ≤ c) (hvisible : ∀ x ∈ c :: rest, IsVisible x)
    (hmem : c :: rest ∈ names) (hb : b ≠ []) (htail : ∀ x ∈ tail.head?, isSpace x = true)
    (hfeed : ∀ x ∈ tail, x ≠ 0x0A) :
    find? kind (some names) (c :: rest ++ [0x20] ++ Base64.encode b ++ tail) =
      some (.line (c :: rest) b (tailComment? (trimRight tail))) := by
  -- no octet of it ends a line
  have hlines : lines (c :: rest ++ [0x20] ++ Base64.encode b ++ tail) =
      [c :: rest ++ [0x20] ++ Base64.encode b ++ tail] := by
    refine lines_of_forall_ne fun x hx => ?_
    rcases List.mem_append.mp hx with hx | hx
    · exact (of_mem_line hvisible x hx).2
    · exact hfeed x hx
  -- a DER value does not begin with a small letter
  have hder : (c :: rest ++ [0x20] ++ Base64.encode b ++ tail).head? ≠ some 0x30 :=
    fun heq => ne_of_lt_letter hc (by decide) (Option.some.inj heq).symm
  unfold find?
  rw [if_neg hder, hlines, search_line_append hc hvisible hmem hb htail]

/-- A line of two words is found. -/
theorem find?_line (hc : 0x61 ≤ c) (hvisible : ∀ x ∈ c :: rest, IsVisible x)
    (hmem : c :: rest ∈ names) (hb : b ≠ []) :
    find? kind (some names) (c :: rest ++ [0x20] ++ Base64.encode b) =
      some (.line (c :: rest) b none) := by
  rw [← List.append_nil (c :: rest ++ [0x20] ++ Base64.encode b)]
  exact find?_line_append hc hvisible hmem hb (by simp) (by simp)

end

/-! ### Comments -/

/-- The comment that comes with what was found. -/
def Content.comment? : Content → Option Bytes
  | .block _ comment => comment
  | .line _ _ comment => comment
  | _ => none

/-- The value of a header stands in the lines. -/
theorem headerLines_sublist (ls : List Bytes) :
    ∀ header ∈ (headerLines ls).1, header.2.Sublist ls.flatten := by
  induction ls with
  | nil => simp [headerLines]
  | cons line rest ih =>
    rw [headerLines, List.flatten_cons]
    split
    · intro header hmem
      rcases List.mem_cons.mp hmem with rfl | hmem
      · -- the value is the end of its line
        exact ((trim_sublist _).trans ((List.drop_sublist 1 _).trans (List.dropWhile_sublist _))).trans
          (List.sublist_append_left line rest.flatten)
      · exact (ih header hmem).trans (List.sublist_append_right line rest.flatten)
    · simp

/-- Joining lines only drops octets. -/
theorem flatten_unfoldLines_sublist (ls : List Bytes) :
    (unfoldLines ls).flatten.Sublist ls.flatten := by
  induction ls using unfoldLines.induct with
  | case1 => exact .refl _
  | case2 line => exact .refl _
  | case3 line next rest hfold hnil ih => simp [unfoldLines, hfold, hnil]
  | case4 line next rest hfold joined more heq ih =>
    rw [unfoldLines, if_pos hfold, heq, List.flatten_cons, List.flatten_cons]
    rw [heq, List.flatten_cons] at ih
    rw [List.append_assoc]
    exact (List.dropLast_sublist line).append ih
  | case5 line next rest hfold ih =>
    rw [unfoldLines, if_neg hfold, List.flatten_cons, List.flatten_cons]
    exact (List.Sublist.refl line).append ih

theorem flatten_map_trimRight_sublist (ls : List Bytes) :
    (ls.map trimRight).flatten.Sublist ls.flatten := by
  induction ls with
  | nil => exact .refl _
  | cons line rest ih => exact (trimRight_sublist line).append ih

theorem flatten_sublist_of_upTo? {footer : Bytes} {ls inner : List Bytes}
    (h : upTo? footer ls = some inner) : inner.flatten.Sublist ls.flatten := by
  induction ls generalizing inner with
  | nil => cases h
  | cons line rest ih =>
    rw [upTo?] at h
    split at h
    · cases h
      exact List.nil_sublist _
    · obtain ⟨inner, hinner, rfl⟩ := Option.map_eq_some_iff.mp h
      exact (List.Sublist.refl line).append (ih hinner)

theorem comment?_sublist {headers : List (Bytes × Bytes)} {comment : Bytes}
    (h : comment? headers = some comment) : ∃ header ∈ headers, comment.Sublist header.2 := by
  obtain ⟨⟨name, value⟩, hfound, rfl⟩ := Option.map_eq_some_iff.mp h
  refine ⟨(name, value), List.mem_reverse.mp (List.mem_of_find?_eq_some hfound), ?_⟩
  dsimp only
  split
  · exact List.nil_sublist _
  · split
    · exact (List.dropLast_sublist _).trans (List.sublist_cons_self _ _)
    · exact .refl _
  · exact .refl _

theorem comment_sublist_of_keyLine? {names : List Bytes} {line : Bytes} {content : Content}
    (h : keyLine? names line = some content) :
    ∀ comment ∈ content.comment?, comment.Sublist line := by
  unfold keyLine? at h
  dsimp only at h
  split at h
  · cases h
  · obtain ⟨body, -, rfl⟩ := Option.map_eq_some_iff.mp h
    intro comment hcomment
    -- the rest of a line is its end
    have htail : (words line).2.2.Sublist line :=
      (List.dropWhile_sublist _).trans ((List.dropWhile_sublist _).trans
        ((List.dropWhile_sublist _).trans
          ((List.dropWhile_sublist _).trans (List.dropWhile_sublist _))))
    change (if (words line).2.2.isEmpty then none else some (words line).2.2) = some comment at hcomment
    split at hcomment <;> cases hcomment
    exact htail

/-- What the search in lines finds has its comment from the lines. -/
theorem comment_sublist_of_search {kind : Bytes} {names : Option (List Bytes)} {ls : List Bytes}
    {content : Content} (h : search kind names ls = some content) :
    ∀ comment ∈ content.comment?, comment.Sublist ls.flatten := by
  induction ls with
  | nil =>
    cases h
    intro comment hcomment
    cases hcomment
  | cons raw rest ih =>
    -- what is found in the lines below is in the lines
    have hbelow {b : Bytes} (hb : b.Sublist rest.flatten) : b.Sublist (raw :: rest).flatten :=
      hb.trans (List.sublist_append_right raw rest.flatten)
    unfold search at h
    dsimp only at h
    split at h
    · -- a PEM block has no comment
      split at h
      · cases h
      · obtain ⟨octets, -, rfl⟩ := Option.map_eq_some_iff.mp h
        intro comment hcomment
        cases hcomment
    · split at h
      · exact fun comment hcomment => hbelow (ih h comment hcomment)
      · split at h
        · split at h
          · cases h
          · next inner hinner =>
            obtain ⟨octets, -, rfl⟩ := Option.map_eq_some_iff.mp h
            intro comment hcomment
            obtain ⟨header, hheader, hsublist⟩ := comment?_sublist hcomment
            exact hbelow ((hsublist.trans (headerLines_sublist _ header hheader)).trans
              ((flatten_unfoldLines_sublist _).trans
                ((flatten_map_trimRight_sublist inner).trans (flatten_sublist_of_upTo? hinner))))
        · split at h
          · next found hfound =>
            cases h
            intro comment hcomment
            exact ((comment_sublist_of_keyLine? hfound comment hcomment).trans
              (trimRight_sublist raw)).trans (List.sublist_append_left raw rest.flatten)
          · exact fun comment hcomment => hbelow (ih h comment hcomment)

/-- A comment is what is left of the text after dropping octets, all line feeds among them. -/
theorem comment_sublist_of_find? {kind : Bytes} {names : Option (List Bytes)} {text : Bytes}
    {content : Content} (h : find? kind names text = some content) :
    ∀ comment ∈ content.comment?, comment.Sublist (text.filter (· ≠ 0x0A)) := by
  unfold find? at h
  dsimp only at h
  split at h
  · cases h
    intro comment hcomment
    cases hcomment
  · rw [← flatten_lines]
    exact comment_sublist_of_search h

end Armor

end SshAuthority
