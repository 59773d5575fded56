/-
SshAuthority/Proofs/Config/Reading.lean

What is read of a source.

The reader keeps more than what comes of it: the lines of each value, the open option, the
indentation. Of these only the open section and the values so far decide what comes of the
rest (`Reading.document`). Between two lines of a source the reader is in good order
(`Reading.Sound`); a gap then changes neither, and a header or an entry changes them as
`Item.apply` says. So what is read is the items of the source applied one after the other,
and those of a block put its entries into its section at once.

Main results: `read_of_writes`; `options_document`, `groups_document` and `setting_document`
say what the document of a source holds.
-/
import SshAuthority.Config.Load
import SshAuthority.Proofs.Config.Source
import SshAuthority.Proofs.Text.Append

namespace SshAuthority.Ini

/-! ### Values -/

/-- A value of one line is that line. -/
theorem joinValue_singleton (line : Text) : joinValue [line] = line.trimRight := rfl

/-- A blank line at the end does not show. -/
theorem joinValue_concat_nil (value : List Text) : joinValue (value ++ [[]]) = joinValue value := by
  rcases value with - | ⟨line, value⟩
  · rfl
  · have hblank : ∀ c ∈ ([0x0A] : Text), c.isBlank = true := fun c hc => by
      rw [List.mem_singleton.mp hc]
      decide
    unfold joinValue
    rw [Text.join_concat _ (List.cons_ne_nil _ _), List.append_nil]
    exact Text.dropRight_append_of_pos _ hblank

/-! ### The reader between lines -/

namespace Reading

variable {r : Reading} (number : Nat) {line : Text}

/-- The values so far. -/
def document (r : Reading) : Document :=
  r.sections.map fun (name, options) =>
    (name, options.map fun (key, value) => (key, joinValue value))

/-- The open section and its open option are there. -/
structure Placed (r : Reading) : Prop where
  current : (Table.get? r.current r.sections).isSome = true
  option : r.option ≠ [] → (Table.get? r.option r.options).isSome = true

/-- The reader in good order: no faults, no indentation, and the open section and its open option
are there. -/
structure Sound (r : Reading) : Prop where
  faults : r.faults = []
  indent : r.indent = 0
  current : (Table.get? r.current r.sections).isSome = true
  option : r.option ≠ [] → (Table.get? r.option r.options).isSome = true

theorem Sound.placed (h : r.Sound) : r.Placed := ⟨h.current, h.option⟩

theorem sound_start : start.Sound where
  faults := rfl
  indent := rfl
  current := rfl
  option h := absurd rfl h

/-- The values of the open section. -/
theorem own_document (r : Reading) :
    r.document.own r.current = r.options.map fun (key, value) => (key, joinValue value) := by
  unfold Document.own document options
  rw [Table.get?_map]
  rcases Table.get? r.current r.sections with - | options <;> rfl

/-- The values of a section that is there. -/
theorem Placed.get?_document (h : r.Placed) :
    Table.get? r.current r.document = some (r.document.own r.current) := by
  obtain ⟨options, hoptions⟩ := Option.isSome_iff_exists.mp h.current
  unfold Document.own document
  rw [Table.get?_map, hoptions]
  rfl

/-- An option that is set has its value in the open section. -/
theorem document_set (r : Reading) (key : Text) (value : List Text) :
    (r.set key value).document =
      r.document.put r.current ((r.document.own r.current).put key (joinValue value)) := by
  rw [own_document]
  unfold document set
  dsimp only
  rw [Table.map_put, Table.map_put]

/-- An option that is set is there. -/
theorem placed_set (r : Reading) (key : Text) (value : List Text) :
    ({ r.set key value with option := key } : Reading).Placed where
  current := by
    show (Table.get? r.current (r.sections.put r.current _)).isSome = true
    rw [Table.get?_put_self]
    rfl
  option _ := by
    show (Table.get? key ((Table.get? r.current (r.sections.put r.current _)).getD [])).isSome = true
    rw [Table.get?_put_self, Option.getD_some, Table.get?_put_self]
    rfl

/-- An option may be open once it is set. -/
theorem Sound.set (h : r.Sound) (key : Text) (value : List Text) :
    ({ r.set key value with option := key } : Reading).Sound :=
  ⟨h.faults, h.indent, (placed_set r key value).current, (placed_set r key value).option⟩

theorem Placed.extend (h : r.Placed) (line : Text) : (r.extend line).Placed := by
  unfold Reading.extend
  split
  · exact h
  · exact placed_set r r.option _

/-- A blank line changes no value: it is added to one that is there, and does not show in it. -/
theorem Placed.document_extend_nil (h : r.Placed) : (r.extend []).document = r.document := by
  unfold Reading.extend
  split
  · rfl
  · next hopen =>
    obtain ⟨value, hvalue⟩ :=
      Option.isSome_iff_exists.mp (h.option fun hnil => hopen (by rw [hnil]; rfl))
    have hold : Table.get? r.option (r.document.own r.current) = some (joinValue value) := by
      rw [own_document, Table.get?_map, hvalue]
      rfl
    rw [hvalue, Option.getD_some, document_set, joinValue_concat_nil, Table.put_of_get? hold,
      Table.put_of_get? h.get?_document]

/-- A line more leaves everything but the value of the open option as it is. -/
theorem extend_eq (r : Reading) (line : Text) :
    r.extend line = { r with sections := (r.extend line).sections } := by
  unfold extend
  split <;> rfl

/-- A blank line leaves the reader in good order, with the same values. -/
theorem extend_nil (h : r.Sound) :
    (r.extend []).Sound ∧ (r.extend []).document = r.document ∧
      (r.extend []).current = r.current := by
  have hplaced := h.placed.extend []
  refine ⟨⟨?_, ?_, hplaced.current, hplaced.option⟩, h.placed.document_extend_nil, ?_⟩
  · rw [extend_eq]
    exact h.faults
  · rw [extend_eq]
    exact h.indent
  · rw [extend_eq]

/-- A gap changes no value. -/
theorem step_gap (h : r.Sound) (hline : Line.ofText line = .blank ∨ Line.ofText line = .comment) :
    (r.step number line).Sound ∧ (r.step number line).document = r.document ∧
      (r.step number line).current = r.current := by
  unfold step
  rcases hline with hline | hline
  · rw [hline]
    exact extend_nil h
  · rw [hline]
    exact ⟨h, rfl, rfl⟩

/-- A line of content without indentation is no continuation. -/
theorem step_content (h : r.Sound) {body : Text} (hline : Line.ofText line = .content 0 body) :
    r.step number line = r.begin number line body := by
  have hsame : ({ r with indent := 0 } : Reading) = r := by
    rw [← h.indent]
  unfold step
  rw [hline]
  dsimp only
  rw [if_neg (by rw [h.indent]; simp), hsame]

end Reading

/-! ### Items -/

/-- The open section and the values after an item. -/
def Item.apply (state : Text × Document) : Item → Text × Document
  | .header b => (b.name, state.2.put b.name (state.2.own b.name))
  | .entry e => (state.1, state.2.put state.1 ((state.2.own state.1).put e.key e.value))

namespace Reading

variable {r : Reading} (number : Nat) {line : Text}

/-- The line of an item changes the values as the item says. -/
theorem step_item (h : r.Sound) (i : Item) (hline : Line.ofText line = Line.ofText i.line) :
    (r.step number line).Sound ∧
      ((r.step number line).current, (r.step number line).document) =
        i.apply (r.current, r.document) := by
  cases i with
  | header b =>
    obtain ⟨hcontent, hheader⟩ := ofText_header b
    have hstep : r.step number line = r.enter b.name := by
      rw [step_content number h (hline.trans hcontent)]
      unfold begin
      rw [hheader]
    rw [hstep]
    refine ⟨⟨h.faults, h.indent, ?_, fun hnil => absurd rfl hnil⟩, Prod.ext rfl ?_⟩
    · show (Table.get? b.name (r.sections.put b.name _)).isSome = true
      rw [Table.get?_put_self]
      rfl
    · show (r.enter b.name).document = r.document.put b.name (r.document.own b.name)
      unfold Document.own document enter
      dsimp only
      rw [Table.map_put, Table.get?_map]
      rcases Table.get? b.name r.sections with - | options <;> rfl
  | entry e =>
    obtain ⟨hcontent, hheader, hoption⟩ := ofText_entry e
    have hstep : r.step number line = { r.set e.key [e.value] with option := e.key } := by
      rw [step_content number h (hline.trans hcontent)]
      unfold begin
      rw [hheader, hoption]
      dsimp only
      rw [if_neg (by simpa using e.key_ne_nil)]
    rw [hstep]
    refine ⟨h.set e.key [e.value], Prod.ext rfl ?_⟩
    show (r.set e.key [e.value]).document = _
    rw [document_set, joinValue_singleton, Text.trimRight_of_trim_eq e.value_trim]
    rfl

/-- A line changes the values as the item on it says, if one stands there; the items of the lines
after it are still to come. `line` is the text of the line as the reader gets it. -/
theorem step_line (h : r.Sound) {l : Text} {rest : List Text} {is : List Item}
    (hline : Line.ofText line = Line.ofText l)
    (hls : (l :: rest).filter (!isGap ·) = is.map Item.line) :
    ∃ is' : List Item, rest.filter (!isGap ·) = is'.map Item.line ∧ (r.step number line).Sound ∧
      is'.foldl Item.apply ((r.step number line).current, (r.step number line).document) =
        is.foldl Item.apply (r.current, r.document) := by
  rcases hgap : isGap l with - | -
  · rw [List.filter_cons_of_pos (by rw [hgap]; rfl)] at hls
    rcases is with - | ⟨i, is⟩
    · cases hls
    · obtain ⟨rfl, hrest⟩ := List.cons.inj hls
      obtain ⟨hsound, hstate⟩ := step_item number h i hline
      exact ⟨is, hrest, hsound, by rw [hstate]; rfl⟩
  · rw [List.filter_cons_of_neg (by rw [hgap]; decide)] at hls
    obtain ⟨hsound, hdocument, hcurrent⟩ :=
      step_gap number h (hline ▸ ofText_of_isGap hgap)
    exact ⟨is, hls, hsound, by rw [hdocument, hcurrent]⟩

/-- Lines that are items with gaps between change the values as the items say, one after the
other. -/
theorem steps_items {ls : List Text} {is : List Item} (h : r.Sound)
    (hfeeds : ∀ l ∈ ls, 0x0A ∉ l) (hls : ls.filter (!isGap ·) = is.map Item.line) :
    (r.steps number (lines (Text.join [0x0A] ls))).Sound ∧
      ((r.steps number (lines (Text.join [0x0A] ls))).current,
        (r.steps number (lines (Text.join [0x0A] ls))).document) =
        is.foldl Item.apply (r.current, r.document) := by
  induction ls generalizing r number is with
  | nil =>
    obtain rfl := List.map_eq_nil_iff.mp hls.symm
    exact ⟨h, rfl⟩
  | cons l rest ih =>
    rcases rest with - | ⟨next, rest⟩
    · -- the last line is no line at all if nothing stands on it
      have hlast : lines (Text.join [0x0A] [l]) = if l = [] then [] else [l] :=
        lines_of_not_mem (hfeeds l (List.mem_singleton_self l))
      rw [hlast]
      by_cases hnil : l = []
      · subst hnil
        obtain rfl := List.map_eq_nil_iff.mp hls.symm
        exact ⟨h, rfl⟩
      · obtain ⟨is', hrest, hsound, hstate⟩ := step_line number h rfl hls
        obtain rfl := List.map_eq_nil_iff.mp hrest.symm
        rw [if_neg hnil]
        exact ⟨hsound, hstate⟩
    · have hfirst : lines (Text.join [0x0A] (l :: next :: rest)) =
          (l ++ [0x0A]) :: lines (Text.join [0x0A] (next :: rest)) := by
        rw [← lines_append _ _ (hfeeds l List.mem_cons_self)]
        simp [Text.join]
      rw [hfirst]
      obtain ⟨is', hrest, hsound, hstate⟩ :=
        step_line number h (ofText_concat_lineFeed l) hls
      rw [← hstate]
      exact ih _ hsound (fun l hl => hfeeds l (List.mem_cons_of_mem _ hl)) hrest

end Reading

/-! ### Documents of sources -/

/-- The document with entries put into a section. -/
def Document.add (d : Document) (name : Text) (entries : List Entry) : Document :=
  d.put name (Table.putAll (d.own name) (entries.map Entry.pair))

/-- The entries of the opening and of the blocks, put into their sections one after the other. -/
def Source.document (s : Source) : Document :=
  s.blocks.foldl (fun d b => d.add b.name b.entries)
    (Document.add [(initialName, [])] initialName s.opening)

namespace Document

variable (d : Document) (name : Text)

@[simp]
theorem own_put_self (options : Table Text) : Document.own (d.put name options) name = options := by
  unfold Document.own
  rw [Table.get?_put_self]
  rfl

/-- The items of entries put them into the open section, which is there. -/
theorem foldl_entries (options : Table Text) (entries : List Entry) :
    (entries.map Item.entry).foldl Item.apply (name, d.put name options) =
      (name, d.put name (Table.putAll options (entries.map Entry.pair))) := by
  induction entries generalizing options with
  | nil => rfl
  | cons e entries ih =>
    show (entries.map Item.entry).foldl Item.apply (name, Table.put name
      (Table.put e.key e.value (Document.own (d.put name options) name)) (d.put name options)) = _
    rw [own_put_self, Table.put_put, ih]
    rfl

/-- The items of blocks put the entries of each into its section. -/
theorem foldl_blocks (bs : List Block) :
    ((bs.flatMap Block.items).foldl Item.apply (name, d)).2 =
      bs.foldl (fun d b => d.add b.name b.entries) d := by
  induction bs generalizing d name with
  | nil => rfl
  | cons b bs ih =>
    rw [List.flatMap_cons, List.foldl_append]
    show (List.foldl Item.apply ((b.entries.map Item.entry).foldl Item.apply
      (b.name, d.put b.name (d.own b.name))) _).2 = _
    rw [foldl_entries, ih]
    rfl

end Document

/-- What is read of a source is its document. -/
theorem read_of_writes {s : Source} {t : Text} (h : s.Writes t) : read t = .ok s.document := by
  obtain ⟨ls, rfl, hfeeds, hls⟩ := h
  obtain ⟨hsound, hstate⟩ := Reading.steps_items 2 Reading.sound_start hfeeds hls
  have hopening : (s.opening.map Item.entry).foldl Item.apply
      (initialName, [(initialName, [])]) =
        (initialName, Document.add [(initialName, [])] initialName s.opening) :=
    Document.foldl_entries [] initialName [] s.opening
  have hdocument := congrArg Prod.snd hstate
  rw [show Reading.start.document = [(initialName, [])] from rfl] at hdocument
  unfold Source.items at hdocument
  rw [List.foldl_append, show Reading.start.current = initialName from rfl, hopening,
    Document.foldl_blocks] at hdocument
  unfold read
  dsimp only
  rw [hsound.faults, if_pos List.isEmpty_nil]
  exact congrArg Except.ok hdocument

/-! ### What the document holds -/

namespace Document

variable (d : Document) (name : Text)

theorem own_add (other : Text) (entries : List Entry) :
    (d.add other entries).own name =
      Table.putAll (d.own name) ((if other = name then entries else []).map Entry.pair) := by
  unfold add
  by_cases h : other = name
  · subst h
    rw [own_put_self, if_pos rfl]
  · unfold own
    rw [Table.get?_put_of_ne h, if_neg h]
    rfl

/-- A section gets the entries of the blocks of its name. -/
theorem own_foldl_add (bs : List Block) :
    (bs.foldl (fun d b => d.add b.name b.entries) d).own name =
      Table.putAll (d.own name)
        (((bs.filter (·.name = name)).flatMap (·.entries)).map Entry.pair) := by
  induction bs generalizing d with
  | nil => rfl
  | cons b bs ih =>
    rw [List.foldl_cons, ih, own_add, ← Table.putAll_append, ← List.map_append]
    by_cases h : b.name = name <;> simp [h]

end Document

namespace Source

variable (s : Source) (name key : Text)

/-- A section has the entries of its name. -/
theorem own_document :
    s.document.own name = Table.putAll [] ((s.entries name).map Entry.pair) := by
  have hstart : Document.own [(initialName, [])] name = [] := by
    unfold Document.own
    by_cases h : initialName = name <;> simp [Table.get?, h]
  unfold document entries
  rw [Document.own_foldl_add, Document.own_add, hstart, ← Table.putAll_append, ← List.map_append]
  simp only [eq_comm]

/-- There are no shared options. -/
theorem shared_document : s.document.shared = [] := by
  have hnone : s.entries sharedName = [] := by
    have hblocks : s.blocks.filter (·.name = sharedName) = [] :=
      List.filter_eq_nil_iff.mpr fun b _ => by simpa using b.name_ne_shared
    unfold entries
    rw [hblocks, if_neg (by decide)]
    rfl
  show s.document.own sharedName = []
  rw [own_document, hnone]
  rfl

/-- The options of a section are the entries of its name: each key where it came first, with the
value that came last. -/
theorem options_document :
    s.document.options name = Table.putAll [] ((s.entries name).map Entry.pair) := by
  unfold Document.options
  rw [shared_document, List.filter_nil, List.append_nil, own_document]

theorem get?_options_document : Table.get? key (s.document.options name) = s.value? name key := by
  rw [options_document, Table.get?_putAll]
  exact Option.or_none

/-- The sections but the initial one are the groups. -/
theorem groups_document : s.document.names.filter (· ≠ initialName) = s.groups := by
  have hnames : Table.names s.document = initialName :: s.groups := by
    have hfold := Table.names_foldl_put (·.name)
      (fun (d : Document) b => Table.putAll (d.own b.name) (b.entries.map Entry.pair))
      (Document.add [(initialName, [])] initialName s.opening) s.blocks
    have hstart : Table.names (Document.add [(initialName, [])] initialName s.opening) =
        [initialName] := rfl
    rw [hstart] at hfold
    have hnew : (s.blocks.map (·.name)).removeAll [initialName] =
        (s.blocks.map (·.name)).filter (· ≠ initialName) :=
      List.filter_congr fun name _ => by by_cases h : name = initialName <;> simp [h]
    rw [hnew] at hfold
    exact hfold
  have hgroup : ∀ name ∈ s.groups, name ≠ sharedName ∧ name ≠ initialName := by
    intro name hname
    obtain ⟨hmem, hne⟩ := List.mem_filter.mp (List.mem_eraseDups.mp hname)
    obtain ⟨b, -, rfl⟩ := List.mem_map.mp hmem
    exact ⟨b.name_ne_shared, of_decide_eq_true hne⟩
  unfold Document.names
  rw [hnames, List.filter_filter]
  refine (List.filter_cons_of_neg (by simp)).trans (List.filter_eq_self.mpr fun name hname => ?_)
  obtain ⟨hshared, hinitial⟩ := hgroup name hname
  simp [hshared, hinitial]

/-- The values of entries are what they are without blanks around them. -/
theorem trim_value?_getD {otherwise : Text} (h : otherwise.trim = otherwise) :
    ((s.value? name key).getD otherwise).trim = (s.value? name key).getD otherwise := by
  rcases hvalue : s.value? name key with - | value
  · exact h
  · obtain ⟨e, -, he⟩ := List.mem_map.mp (Table.mem_of_last? hvalue)
    obtain rfl := congrArg Prod.snd he
    exact e.value_trim

/-- A setting of a section is that of the source. -/
theorem setting_document : Config.setting s.document name key = s.setting name key := by
  have hfallback : ((s.value? initialName key).getD []).trim = (s.value? initialName key).getD [] :=
    s.trim_value?_getD initialName key rfl
  unfold Config.setting setting
  dsimp only
  rw [get?_options_document, get?_options_document, hfallback]
  exact s.trim_value?_getD name key hfallback

end Source

end SshAuthority.Ini
