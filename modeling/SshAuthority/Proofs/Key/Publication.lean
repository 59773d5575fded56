/-
SshAuthority/Proofs/Key/Publication.lean

The line by which a public key is made known.

The line is the name of the key, its encoding in base64 and its comment. The first two are
visible ASCII whatever the key is, so the comment alone decides whether the line is a text.
The first word begins and the second ends with what is no blank; so all that is trimmed off
is the end of the comment, and a search for keys comes to the two words again.

Main results: `toAscii?_line`, for every key, and `publishes_trim_line`, for the keys that
are imported.
-/
import SshAuthority.Proofs.Key.Import
import SshAuthority.Proofs.Encoding.Bytes
import SshAuthority.Proofs.Text.Blank

namespace SshAuthority

/-! ### Octets as code points -/

theorem CodePoint.isBlank_ofByte {x : UInt8} (h : Bytes.IsVisible x) : (ofByte x).isBlank = false := by
  have hlow : 0x21 ≤ (ofByte x).val := UInt8.le_iff_toNat_le.mp h.1
  have hhigh : (ofByte x).val ≤ 0x7E := UInt8.le_iff_toNat_le.mp h.2
  unfold isBlank
  simp only [Bool.or_eq_false_iff, Bool.and_eq_false_iff, decide_eq_false_iff_not,
    beq_eq_false_iff_ne]
  omega

/-- What is left of the text of octets when it is trimmed is the text of octets. -/
theorem Bytes.exists_trimRight_toLatin (b : Bytes) :
    ∃ b', b' <+: b ∧ Text.trimRight (toLatin b) = toLatin b' := by
  obtain ⟨b', hprefix, heq⟩ := List.prefix_map_iff.mp (Text.dropRight_isPrefix CodePoint.isBlank (toLatin b))
  exact ⟨b', hprefix, heq⟩

/-- A text of octets has a line feed only if they have. -/
theorem Bytes.lineFeed_notMem_toLatin {b : Bytes} (h : ∀ x ∈ b, x ≠ 0x0A) : 0x0A ∉ toLatin b := by
  intro hmem
  obtain ⟨x, hx, heq⟩ := List.mem_map.mp hmem
  have hnat : (CodePoint.ofByte x).val = (0x0A : CodePoint).val := by rw [heq]
  exact h x hx (UInt8.toNat_inj.mp hnat)

namespace PublicKey

variable {k : PublicKey}

/-! ### The parts of the line -/

/-- The two words of the line of a key. -/
def words (k : PublicKey) : Bytes := k.algorithm.name ++ [0x20] ++ Base64.encode k.blob

/-- What follows them: the comment after a blank, or nothing. -/
def tail (k : PublicKey) : Bytes :=
  match k.comment with
  | some (c :: rest) => 0x20 :: c :: rest
  | _ => []

theorem line_eq (k : PublicKey) : k.line = k.words ++ k.tail := rfl

/-- What is so of blanks and of all octets of the comment is so of what follows the words. -/
theorem forall_mem_tail {P : UInt8 → Prop} (hblank : P 0x20)
    (hcomment : ∀ comment ∈ k.comment, ∀ x ∈ comment, P x) : ∀ x ∈ k.tail, P x := by
  unfold tail
  split
  · next c rest heq => exact List.forall_mem_cons.mpr ⟨hblank, hcomment _ heq⟩
  · simp

/-- The octets of the comment follow the words. -/
theorem mem_tail {comment : Bytes} (h : comment ∈ k.comment) {x : UInt8} (hx : x ∈ comment) :
    x ∈ k.tail := by
  unfold tail
  rw [Option.mem_def.mp h]
  rcases comment with - | ⟨c, rest⟩
  · cases hx
  · exact List.mem_cons_of_mem _ hx

/-- What follows the words begins with a blank. -/
theorem isSpace_of_mem_head?_tail : ∀ x ∈ k.tail.head?, Bytes.isSpace x = true := by
  unfold tail
  split
  · intro x hx
    rw [← Option.some.inj hx]
    decide
  · simp

theorem blob_ne_nil (k : PublicKey) : k.blob ≠ [] := by
  intro hnil
  have hlength := congrArg List.length hnil
  rw [blob, List.length_append, Wire.length_putString] at hlength
  simp at hlength

/-- The words are in ASCII and end no line. -/
theorem of_mem_words : ∀ x ∈ k.words, x < 0x80 ∧ x ≠ 0x0A := by
  obtain ⟨-, -, -, -, hvisible⟩ :=
    KeyAlgorithm.exists_cons_of_mem_lineNames k.algorithm.name_mem_lineNames
  exact Armor.of_mem_line hvisible

/-- Nothing of the words is trimmed off the text of the line. -/
theorem trim_toLatin_line (k : PublicKey) :
    (Bytes.toLatin k.line).trim = Bytes.toLatin k.words ++ Text.trimRight (Bytes.toLatin k.tail) := by
  obtain ⟨c, rest, hname, -, hvisible⟩ :=
    KeyAlgorithm.exists_cons_of_mem_lineNames k.algorithm.name_mem_lineNames
  have hbase : Base64.encode k.blob ≠ [] := Armor.encode_ne_nil k.blob_ne_nil
  have hwords : k.words = c :: (rest ++ [0x20] ++ Base64.encode k.blob) := by
    rw [words, hname]
    rfl
  rw [line_eq, Bytes.toLatin, List.map_append]
  refine Text.trim_append ?_ (fun d hd => ?_) (fun d hd => ?_) _
  · rw [hwords]
    exact List.cons_ne_nil _ _
  · rw [hwords] at hd
    rw [← Option.some.inj hd]
    exact CodePoint.isBlank_ofByte (hvisible c (hname ▸ List.mem_cons_self))
  · rw [words, List.getLast?_map, List.getLast?_append, List.getLast?_eq_some_getLast hbase] at hd
    rw [← Option.some.inj hd]
    exact CodePoint.isBlank_ofByte (Base64.visible_of_mem_encode _ (List.getLast_mem hbase))

/-- The comment, if there is one, is in ASCII. -/
def HasAsciiComment (k : PublicKey) : Prop := ∀ comment ∈ k.comment, ∀ x ∈ comment, x < 0x80

instance : DecidablePred HasAsciiComment := fun k =>
  inferInstanceAs (Decidable (∀ comment ∈ k.comment, ∀ x ∈ comment, x < 0x80))

/-- The line is a text if the comment is in ASCII, and otherwise it is none. -/
theorem toAscii?_line (k : PublicKey) :
    (k.HasAsciiComment → Bytes.toAscii? k.line = some (Bytes.toLatin k.line)) ∧
      (¬k.HasAsciiComment → Bytes.toAscii? k.line = none) := by
  unfold Bytes.toAscii?
  constructor
  · intro h
    refine if_pos (List.all_eq_true.mpr fun x hx => decide_eq_true ?_)
    rcases List.mem_append.mp hx with hx | hx
    · exact (of_mem_words x hx).1
    · exact forall_mem_tail (by decide) h x hx
  · intro h
    refine if_neg fun hall => h fun comment hcomment x hx => ?_
    have hmem : x ∈ k.line := List.mem_append_right k.words (mem_tail hcomment hx)
    exact of_decide_eq_true (List.all_eq_true.mp hall x hmem)

/-! ### The text -/

/-- A text that makes the key known: one line of ASCII, trimmed, of which everything is the name of
the key, its encoding, and the comment. A key comes of it again, with the name and the encoding, if
the lengths of its strings can be written; else the key has no encoding. -/
structure Publishes (k : PublicKey) (t : Text) : Prop where
  text : t = Bytes.toLatin (k.algorithm.name ++ [0x20] ++ Base64.encode k.blob) ++
    Text.trimRight (Bytes.toLatin k.tail)
  ascii : t.isAscii = true
  line : 0x0A ∉ t
  trimmed : t.trim = t
  imports : k.material.strings.all Wire.fits = true →
    ∃ k', ofText t = .ok k' ∧ k'.algorithm = k.algorithm ∧ k'.blob = k.blob

/-- The words of a sound key are imported again, with any comment after them. -/
theorem exists_ofBytes_words (hk : k.Sound) (hstrings : k.material.strings.all Wire.fits = true)
    {tail : Bytes} (htail : ∀ x ∈ tail.head?, Bytes.isSpace x = true) (hfeed : ∀ x ∈ tail, x ≠ 0x0A) :
    ∃ k', ofBytes (k.words ++ tail) = .ok k' ∧ k'.algorithm = k.algorithm ∧ k'.blob = k.blob := by
  have hmem := k.algorithm.name_mem_lineNames
  obtain ⟨c, rest, hname, hc, hvisible⟩ := KeyAlgorithm.exists_cons_of_mem_lineNames hmem
  obtain ⟨inner, hinner, halgorithm, hmaterial⟩ := exists_ofBlob_blob hk hstrings
  rw [hname] at hvisible hmem
  have hfind : Armor.find? "PUBLIC KEY" (some KeyAlgorithm.lineNames) (k.words ++ tail) =
      some (.line k.algorithm.name k.blob (Armor.tailComment? (Bytes.trimRight tail))) := by
    rw [words, hname]
    exact Armor.find?_line_append hc hvisible hmem k.blob_ne_nil htail hfeed
  refine ⟨{ inner with comment := Armor.tailComment? (Bytes.trimRight tail) }, ?_, halgorithm,
    blob_congr halgorithm hmaterial⟩
  unfold ofBytes
  rw [hfind]
  refine Except.bind_eq_ok_iff.mpr ⟨inner, hinner, ?_⟩
  rw [if_pos (by rw [halgorithm])]

/-- The trimmed line of a sound key makes the key known, if the comment is in ASCII and has no line
feed. -/
theorem publishes_trim_line (hk : k.Sound) (hascii : k.HasAsciiComment)
    (hfeed : ∀ comment ∈ k.comment, ∀ x ∈ comment, x ≠ 0x0A) :
    k.Publishes (Bytes.toLatin k.line).trim := by
  -- what is left of the tail is the beginning of it
  obtain ⟨tail, hprefix, htail⟩ := Bytes.exists_trimRight_toLatin k.tail
  have hmem {x : UInt8} (hx : x ∈ tail) : x ∈ k.tail := hprefix.subset hx
  have heq : (Bytes.toLatin k.line).trim = Bytes.toLatin (k.words ++ tail) := by
    rw [trim_toLatin_line, htail, Bytes.toLatin, Bytes.toLatin, Bytes.toLatin, List.map_append]
  have hlow : ∀ x ∈ k.words ++ tail, x < 0x80 := by
    intro x hx
    rcases List.mem_append.mp hx with hx | hx
    · exact (of_mem_words x hx).1
    · exact forall_mem_tail (by decide) hascii x (hmem hx)
  have htailFeed : ∀ x ∈ tail, x ≠ 0x0A := fun x hx =>
    forall_mem_tail (by decide) hfeed x (hmem hx)
  constructor
  · exact trim_toLatin_line k
  · rw [heq]
    exact Bytes.isAscii_toLatin hlow
  · rw [heq]
    refine Bytes.lineFeed_notMem_toLatin fun x hx => ?_
    rcases List.mem_append.mp hx with hx | hx
    · exact (of_mem_words x hx).2
    · exact htailFeed x hx
  · exact Text.trim_trim _
  · intro hstrings
    have hhead : ∀ x ∈ tail.head?, Bytes.isSpace x = true := fun x hx =>
      isSpace_of_mem_head?_tail x (Bytes.mem_head?_of_isPrefix hprefix x hx)
    unfold ofText
    rw [heq, Bytes.ofAscii?_toLatin hlow]
    exact exists_ofBytes_words hk hstrings hhead htailFeed

end PublicKey

end SshAuthority
