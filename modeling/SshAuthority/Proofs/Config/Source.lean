/-
SshAuthority/Proofs/Config/Source.lean

Configurations as they are written.

A source is a list of blocks, each a name with entries, after entries of its own that
stand before the first header. It is written line by line, with any number of blank lines
and remarks between (`Source.Writes`). A name may head several blocks and a key may come
several times, so what a section holds is said here without a reader: its entries are
those of all blocks of its name, in order, and of the entries of a key the last counts.

Every line of a source is told from the others by the line alone: a gap is blank or a
remark, a header gives its name, and an entry gives its key and its value.

Main results: `ofText_of_isGap`, `ofText_header` and `ofText_entry`; `Source.writes_text`, that
every source is written by some text.
-/
import SshAuthority.Config.Ini
import SshAuthority.Proofs.Table
import SshAuthority.Proofs.Text.Blank

namespace SshAuthority.Ini

/-! ### Sources -/

/-- A key with its value, both on one line and without blanks around them. -/
structure Entry where
  key : Text
  value : Text
  key_ne_nil : key ≠ []
  key_trim : key.trim = key
  key_no_equals : 0x3D ∉ key
  key_no_lineFeed : 0x0A ∉ key
  /-- The key begins neither a remark nor a header. -/
  key_head : ∀ c ∈ key.head?, c ≠ 0x23 ∧ c ≠ 0x3B ∧ c ≠ 0x5B
  value_trim : value.trim = value
  value_no_lineFeed : 0x0A ∉ value

/-- A section's name with entries. -/
structure Block where
  name : Text
  entries : List Entry
  name_ne_nil : name ≠ []
  name_no_bracket : 0x5D ∉ name
  name_no_lineFeed : 0x0A ∉ name
  name_ne_shared : name ≠ sharedName

/-- Entries before the first header, and blocks. -/
structure Source where
  opening : List Entry
  blocks : List Block

/-- Key and value. -/
def Entry.pair (e : Entry) : Text × Text := (e.key, e.value)

/-- What stands on a line that counts. -/
inductive Item where
  | header (b : Block)
  | entry (e : Entry)

/-- The line of an item. -/
def Item.line : Item → Text
  | .header b => 0x5B :: (b.name ++ [0x5D])
  | .entry e => e.key ++ [0x20, 0x3D, 0x20] ++ e.value

/-- A block line by line. -/
def Block.items (b : Block) : List Item := .header b :: b.entries.map .entry

/-- A line that counts for nothing: blank, or a remark from its first code point on. -/
def isGap (l : Text) : Bool := l.isBlank || l.head?.any fun c => c = 0x23 || c = 0x3B

namespace Source

/-- The source line by line. -/
def items (s : Source) : List Item := s.opening.map .entry ++ s.blocks.flatMap Block.items

/-- The text is the source in lines, with gaps anywhere between them. -/
def Writes (s : Source) (t : Text) : Prop :=
  ∃ ls, t = Text.join [0x0A] ls ∧ (∀ l ∈ ls, 0x0A ∉ l) ∧
    ls.filter (!isGap ·) = s.items.map Item.line

/-- The entries of all blocks of a name, in order; the opening belongs to `DEFAULT`. -/
def entries (s : Source) (name : Text) : List Entry :=
  (if name = initialName then s.opening else []) ++
    (s.blocks.filter (·.name = name)).flatMap (·.entries)

/-- The last value of a key under a name. -/
def value? (s : Source) (name key : Text) : Option Text :=
  Table.last? key ((s.entries name).map Entry.pair)

/-- The keys under a name, in the order in which they came first. -/
def keys (s : Source) (name : Text) : List Text := ((s.entries name).map (·.key)).eraseDups

/-- The names of blocks but `DEFAULT`, in the order in which they came first. -/
def groups (s : Source) : List Text := ((s.blocks.map (·.name)).filter (· ≠ initialName)).eraseDups

/-- The value of a key for a group: its own last one, else the last one under `DEFAULT`. -/
def setting (s : Source) (name key : Text) : Text :=
  (s.value? name key).getD ((s.value? initialName key).getD [])

end Source

/-! ### Lines -/

/-- A text up to its first line feed is its first line. -/
theorem lines_append (l t : Text) (h : 0x0A ∉ l) :
    lines (l ++ 0x0A :: t) = (l ++ [0x0A]) :: lines t := by
  induction l with
  | nil => rfl
  | cons c l ih =>
    have hne : c ≠ 0x0A := fun heq => h (heq ▸ List.mem_cons_self)
    rw [List.cons_append, lines, if_neg hne, ih fun hmem => h (List.mem_cons_of_mem c hmem)]
    rfl

/-- A text without line feeds is one line, if it is anything. -/
theorem lines_of_not_mem {l : Text} (h : 0x0A ∉ l) : lines l = if l = [] then [] else [l] := by
  induction l with
  | nil => rfl
  | cons c l ih =>
    have hne : c ≠ 0x0A := fun heq => h (heq ▸ List.mem_cons_self)
    rw [lines, if_neg hne, ih fun hmem => h (List.mem_cons_of_mem c hmem),
      if_neg (List.cons_ne_nil c l)]
    by_cases hnil : l = []
    · rw [if_pos hnil, hnil]
    · rw [if_neg hnil]

/-- The line feed at the end of a line says nothing. -/
theorem ofText_concat_lineFeed (l : Text) : Line.ofText (l ++ [0x0A]) = Line.ofText l := by
  have htrim : (l ++ [0x0A] : Text).trim = l.trim := Text.trim_concat_blank l (by decide)
  unfold Line.ofText
  rw [htrim]
  rcases hbody : l.trim with - | ⟨c, rest⟩
  · rfl
  · -- what is left after trimming is not blank, so the blanks in front end before it
    have hnot : l.all CodePoint.isBlank = false := by
      rcases hall : l.all CodePoint.isBlank with - | -
      · rfl
      · rw [Text.trim_of_isBlank hall] at hbody
        cases hbody
    have hindent : (l ++ [0x0A]).takeWhile CodePoint.isBlank = l.takeWhile CodePoint.isBlank := by
      rw [List.takeWhile_append]
      split
      · next hlength =>
        have hwhole : l.takeWhile CodePoint.isBlank = l :=
          (List.takeWhile_prefix _).eq_of_length hlength
        rw [← hwhole, List.all_takeWhile] at hnot
        cases hnot
      · rfl
    rw [hindent]

/-- A gap is no line of content. -/
theorem ofText_of_isGap {l : Text} (h : isGap l = true) :
    Line.ofText l = .blank ∨ Line.ofText l = .comment := by
  unfold Line.ofText
  rcases Bool.or_eq_true_iff.mp h with hblank | hremark
  · rw [Text.trim_of_isBlank hblank]
    exact .inl rfl
  · rcases l with - | ⟨c, l⟩
    · cases hremark
    · have hc : c = 0x23 ∨ c = 0x3B := by simpa using hremark
      have hmark : c.isBlank = false := by
        rcases hc with rfl | rfl <;> decide
      rw [Text.trim_of_head l hmark]
      right
      dsimp only
      rw [if_pos (by simpa using hc)]

/-- A name in brackets is content, and read as the header of the name. -/
theorem ofText_bracketed {name : Text} (h : name ≠ []) :
    Line.ofText (0x5B :: (name ++ [0x5D])) = .content 0 (0x5B :: (name ++ [0x5D])) ∧
      header? (0x5B :: (name ++ [0x5D])) = some name := by
  have htrim : Text.trim (0x5B :: (name ++ [0x5D])) = 0x5B :: (name ++ [0x5D]) := by
    rw [Text.trim_of_head _ (by decide)]
    exact congrArg (0x5B :: ·) (Text.dropRight_append_of_neg name [] (by decide))
  constructor
  · unfold Line.ofText
    rw [htrim]
    rfl
  · unfold header?
    dsimp only
    rw [if_neg (by simp), Text.cutLast?_concat]
    dsimp only
    rw [if_neg (by simpa using h)]

/-- The line of a header is content, and read as the header. -/
theorem ofText_header (b : Block) :
    Line.ofText (Item.header b).line = .content 0 (Item.header b).line ∧
      header? (Item.header b).line = some b.name :=
  ofText_bracketed b.name_ne_nil

/-- The line of an entry without the blanks at its end. -/
def Entry.body (e : Entry) : Text := e.key ++ [0x20] ++ 0x3D :: Text.trimRight (0x20 :: e.value)

/-- An entry's line begins with the first code point of its key, which marks it as such. -/
theorem Entry.exists_head (e : Entry) :
    ∃ c key, e.key = c :: key ∧ c.isBlank = false ∧ c ≠ 0x23 ∧ c ≠ 0x3B ∧ c ≠ 0x5B := by
  obtain ⟨c, key, hkey⟩ := List.exists_cons_of_ne_nil e.key_ne_nil
  have hblank : c.isBlank = false :=
    Text.isBlank_head_of_trim_eq (by rw [← hkey]; exact e.key_trim)
  exact ⟨c, key, hkey, hblank, e.key_head c (by rw [hkey]; exact rfl)⟩

theorem Entry.trim_line (e : Entry) : (Item.entry e).line.trim = e.body := by
  obtain ⟨c, key, hkey, hblank, -⟩ := e.exists_head
  have hline : (Item.entry e).line = c :: ((key ++ [0x20]) ++ 0x3D :: 0x20 :: e.value) := by
    show e.key ++ [0x20, 0x3D, 0x20] ++ e.value = _
    rw [hkey]
    simp
  unfold Entry.body
  rw [hline, hkey, Text.trim_of_head _ hblank]
  exact congrArg (c :: ·) (Text.dropRight_append_of_neg (key ++ [0x20]) _ (by decide))

/-- The line of an entry is content, is no header, and is read as the entry. -/
theorem ofText_entry (e : Entry) :
    Line.ofText (Item.entry e).line = .content 0 e.body ∧ header? e.body = none ∧
      option? e.body = some (e.key, e.value) := by
  obtain ⟨c, key, hkey, hblank, hremark, hremark', hheader⟩ := e.exists_head
  have hbody : e.body = c :: (key ++ [0x20] ++ 0x3D :: Text.trimRight (0x20 :: e.value)) := by
    unfold Entry.body
    rw [hkey]
    rfl
  refine ⟨?_, ?_, ?_⟩
  · have hindent : (Item.entry e).line.takeWhile CodePoint.isBlank = [] := by
      show (e.key ++ [0x20, 0x3D, 0x20] ++ e.value).takeWhile CodePoint.isBlank = []
      rw [hkey, List.cons_append, List.cons_append,
        List.takeWhile_cons_of_neg (by rw [hblank]; decide)]
    unfold Line.ofText
    rw [e.trim_line, hbody]
    dsimp only
    rw [if_neg (by simp [hremark, hremark']), hindent]
    rfl
  · rw [hbody]
    unfold header?
    dsimp only
    rw [if_pos hheader]
  · -- the first equals sign is the one between key and value, with a blank on each side
    have hnot : 0x3D ∉ e.key ++ [0x20] := by
      intro hmem
      rcases List.mem_append.mp hmem with hmem | hmem
      · exact e.key_no_equals hmem
      · exact absurd (List.mem_singleton.mp hmem) (by decide)
    have hblanks : ∀ c ∈ ([0x20] : Text), c.isBlank = true := fun c hc => by
      rw [List.mem_singleton.mp hc]
      decide
    have hkey : Text.trimRight (e.key ++ [0x20]) = e.key :=
      (Text.dropRight_append_of_pos e.key hblanks).trans (Text.trimRight_of_trim_eq e.key_trim)
    have hvalue : Text.trim (Text.trimRight (0x20 :: e.value)) = e.value := by
      by_cases hnil : e.value = []
      · rw [hnil]
        rfl
      · have hright : Text.trimRight (0x20 :: e.value) = 0x20 :: e.value :=
          Text.trimRight_append_of_trim_eq [0x20] hnil e.value_trim
        rw [hright, Text.trim_blank_cons _ (by decide), e.value_trim]
    unfold option? Entry.body
    rw [Text.cut?_append _ hnot, Option.map_some]
    dsimp only
    rw [hkey, hvalue]

/-! ### Every source is written by some text -/

/-- A line that counts is no gap. -/
theorem isGap_line (i : Item) : isGap i.line = false := by
  have hcontent : ∃ body, Line.ofText i.line = .content 0 body := by
    cases i with
    | header b => exact ⟨_, (ofText_header b).1⟩
    | entry e => exact ⟨_, (ofText_entry e).1⟩
  obtain ⟨body, hbody⟩ := hcontent
  rcases hgap : isGap i.line with - | -
  · rfl
  · rcases ofText_of_isGap hgap with h | h <;> rw [hbody] at h <;> cases h

/-- An item stands on one line. -/
theorem not_mem_line (i : Item) : 0x0A ∉ i.line := by
  cases i with
  | header b =>
    have hname := b.name_no_lineFeed
    show 0x0A ∉ 0x5B :: (b.name ++ [0x5D])
    simp [hname]
  | entry e =>
    have hkey := e.key_no_lineFeed
    have hvalue := e.value_no_lineFeed
    show 0x0A ∉ e.key ++ [0x20, 0x3D, 0x20] ++ e.value
    simp [hkey, hvalue]

/-- The source in lines without gaps. -/
def Source.text (s : Source) : Text := Text.join [0x0A] (s.items.map Item.line)

theorem Source.writes_text (s : Source) : s.Writes s.text := by
  refine ⟨s.items.map Item.line, rfl, fun l hl => ?_, List.filter_eq_self.mpr fun l hl => ?_⟩
  · obtain ⟨i, -, rfl⟩ := List.mem_map.mp hl
    exact not_mem_line i
  · obtain ⟨i, -, rfl⟩ := List.mem_map.mp hl
    rw [isGap_line]
    rfl

end SshAuthority.Ini
