/-
SshAuthority/Proofs/Config/Extension.lean

Sections that are appended to a configuration.

A text may end anywhere: within a value, in a remark, with or without a line feed. A line
feed ends its last line and else is a blank line, which shows in no value. A header at the
start of the next line is read as one whatever is open and however deep that was indented,
because nothing is less deep than it; from there on the lines work on the section that it
opened, as long as none of them opens another one. So of a new name the sections before it
are as they were (`read_append`), each group is built from what it was built from, and the
keys that are loaded for the new group come after all others.

Main result: `conserved_of_append`.
-/
import SshAuthority.Proofs.Config.Reading
import SshAuthority.Proofs.Config.Regular

namespace SshAuthority

namespace Ini

/-! ### Lines -/

/-- A line feed ends the first of two texts, and the lines of the other one follow. -/
theorem lines_append_lineFeed (s t : Text) :
    lines (s ++ 0x0A :: t) = lines (s ++ [0x0A]) ++ lines t := by
  induction s with
  | nil => rfl
  | cons c s ih =>
    rw [List.cons_append, List.cons_append, lines, lines, ih]
    split
    · rfl
    · rcases hs : lines (s ++ [0x0A]) with - | ⟨line, more⟩
      · -- there is a line that ends in the line feed
        have hne : lines (s ++ [0x0A]) ≠ [] := by
          rcases s with - | ⟨d, s⟩
          · exact List.cons_ne_nil _ _
          · rw [List.cons_append, lines]
            split
            · exact List.cons_ne_nil _ _
            · split <;> exact List.cons_ne_nil _ _
        exact absurd hs hne
      · rfl

/-- A line feed at the end is a blank line, or ends the last line. -/
theorem lines_concat_lineFeed (t : Text) :
    lines (t ++ [0x0A]) = lines t ++ [[0x0A]] ∨
      ∃ before last, lines t = before ++ [last] ∧ lines (t ++ [0x0A]) = before ++ [last ++ [0x0A]] := by
  induction t with
  | nil => exact .inl rfl
  | cons c t ih =>
    rw [List.cons_append, lines, lines]
    split
    · rcases ih with ih | ⟨before, last, ht, ih⟩
      · exact .inl (by rw [ih]; rfl)
      · exact .inr ⟨[c] :: before, last, by rw [ht]; rfl, by rw [ih]; rfl⟩
    · rcases ih with ih | ⟨before, last, ht, ih⟩
      · rcases ht : lines t with - | ⟨line, more⟩
        · rw [ih, ht]
          exact .inr ⟨[], [c], rfl, rfl⟩
        · rw [ih, ht]
          exact .inl rfl
      · rcases before with - | ⟨line, before⟩
        · rw [ht, ih]
          exact .inr ⟨[], c :: last, rfl, rfl⟩
        · rw [ht, ih]
          exact .inr ⟨(c :: line) :: before, last, rfl, rfl⟩

namespace Reading

variable {r r' : Reading} {number number' : Nat} {line : Text} {ls : List Text}

theorem steps_append (r : Reading) (number : Nat) (ls more : List Text) :
    r.steps number (ls ++ more) = (r.steps number ls).steps (number + ls.length) more := by
  induction ls generalizing r number with
  | nil => rfl
  | cons line ls ih =>
    show (r.step number line).steps (number + 1) (ls ++ more) = _
    rw [ih, List.length_cons, Nat.add_assoc, Nat.add_comm 1]
    rfl

/-! ### The end of a text -/

/-- Whatever the line, the open section and its open option are there after it. -/
theorem Placed.step (h : r.Placed) (number : Nat) (line : Text) : (r.step number line).Placed := by
  unfold Reading.step
  split
  · exact h
  · exact h.extend []
  · next indent body _ =>
    split
    · exact h.extend body
    unfold begin
    split
    · next name _ =>
      refine ⟨?_, fun hnil => absurd rfl hnil⟩
      show (Table.get? name (r.sections.put name _)).isSome = true
      rw [Table.get?_put_self]
      rfl
    · split
      · exact ⟨h.current, h.option⟩
      · next key value _ =>
        have hset := placed_set { r with indent } key [value]
        dsimp only
        split
        · exact ⟨hset.current, hset.option⟩
        · exact hset

theorem Placed.steps (h : r.Placed) (number : Nat) (ls : List Text) : (r.steps number ls).Placed := by
  induction ls generalizing r number with
  | nil => exact h
  | cons line ls ih => exact ih (h.step number line) (number + 1)

/-- Of a line that is no continuation the text is kept only where it is a fault. -/
theorem begin_of_faults {body line' : Text} (h : (r.begin number line body).faults = []) :
    r.begin number line' body = r.begin number line body := by
  have hfault (faults : List (Nat × Text)) : faults ++ [(number, line)] ≠ [] :=
    List.append_ne_nil_of_right_ne_nil faults (List.cons_ne_nil _ _)
  revert h
  unfold begin
  rcases header? body with - | name
  · rcases option? body with - | ⟨key, value⟩
    · exact fun h => absurd h (hfault _)
    · dsimp only
      split
      · exact fun h => absurd h (hfault _)
      · exact fun _ => rfl
  · exact fun _ => rfl

/-- So it is of every line. -/
theorem step_of_ofText {line' : Text} (hline : Line.ofText line' = Line.ofText line)
    (h : (r.step number line).faults = []) : r.step number line' = r.step number line := by
  revert h
  unfold step
  rw [hline]
  rcases Line.ofText line with - | - | ⟨indent, body⟩
  · exact fun _ => rfl
  · exact fun _ => rfl
  · dsimp only
    split
    · exact fun _ => rfl
    · exact begin_of_faults

/-- After a line feed more at the end, the values are the same. -/
theorem document_steps_concat_lineFeed (hr : r.Placed) (number : Nat) (t : Text)
    (h : (r.steps number (lines t)).faults = []) :
    (r.steps number (lines (t ++ [0x0A]))).document = (r.steps number (lines t)).document := by
  rcases lines_concat_lineFeed t with hlines | ⟨before, last, ht, hlines⟩
  · rw [hlines, steps_append]
    exact (hr.steps number (lines t)).document_extend_nil
  · rw [ht, steps_append] at h ⊢
    rw [hlines, steps_append]
    exact congrArg document (step_of_ofText (ofText_concat_lineFeed last) h)

/-! ### Lines that open no section -/

/-- The section that a line opens, if it opens one. -/
def opened? (r : Reading) (line : Text) : Option Text :=
  match Line.ofText line with
  | .content indent body => if r.indent < indent && !r.option.isEmpty then none else header? body
  | _ => none

/-- None of the lines opens a section, from first to last. The number of a line makes no difference. -/
def Keeps : Reading → List Text → Prop
  | _, [] => True
  | r, line :: rest => r.opened? line = none ∧ (r.step 0 line).Keeps rest

/-- What a line opens goes by the indentation and the open option, and these are after it as the line
makes them of what they were. -/
theorem step_indent_option (hindent : r'.indent = r.indent) (hoption : r'.option = r.option)
    (number number' : Nat) (line : Text) :
    (r'.step number' line).indent = (r.step number line).indent ∧
      (r'.step number' line).option = (r.step number line).option := by
  unfold step
  rcases Line.ofText line with - | - | ⟨indent, body⟩
  · exact ⟨hindent, hoption⟩
  · dsimp only
    rw [extend_eq r', extend_eq r]
    exact ⟨hindent, hoption⟩
  · dsimp only
    rw [hindent, hoption]
    split
    · rw [extend_eq r', extend_eq r]
      exact ⟨hindent, hoption⟩
    · unfold begin
      rcases header? body with - | name
      · rcases option? body with - | ⟨key, value⟩
        · exact ⟨rfl, rfl⟩
        · dsimp only
          split <;> exact ⟨rfl, rfl⟩
      · exact ⟨rfl, rfl⟩

theorem Keeps.congr (h : r.Keeps ls) (hindent : r'.indent = r.indent) (hoption : r'.option = r.option) :
    r'.Keeps ls := by
  induction ls generalizing r r' with
  | nil => trivial
  | cons line rest ih =>
    obtain ⟨hopened, hrest⟩ := h
    obtain ⟨hindent', hoption'⟩ := step_indent_option hindent hoption 0 0 line
    refine ⟨?_, ih hrest hindent' hoption'⟩
    unfold opened? at hopened ⊢
    rw [hindent, hoption]
    exact hopened

/-- Where no line is a header by itself, none opens a section. -/
theorem keeps_of_header? (r : Reading) (h : ∀ line ∈ ls, header? line.trim = none) : r.Keeps ls := by
  induction ls generalizing r with
  | nil => trivial
  | cons line rest ih =>
    refine ⟨?_, ih _ fun l hl => h l (List.mem_cons_of_mem line hl)⟩
    have hline := h line List.mem_cons_self
    unfold opened? Line.ofText
    rcases htrim : line.trim with - | ⟨c, body⟩
    · rfl
    · rw [htrim] at hline
      dsimp only
      by_cases hremark : (c = 0x23 || c = 0x3B) = true
      · rw [if_pos hremark]
      · rw [if_neg hremark]
        dsimp only
        rw [hline, ite_self]

/-- The last section is the open one, and those before it are the given ones. -/
structure Within (before : Table (Table (List Text))) (name : Text) (r : Reading) : Prop where
  sections : ∃ options, r.sections = before ++ [(name, options)]
  current : r.current = name

variable {before : Table (Table (List Text))} {name : Text}

theorem Within.set (h : r.Within before name) (hnew : name ∉ Table.names before) (key : Text)
    (value : List Text) : (r.set key value).Within before name := by
  obtain ⟨options, hoptions⟩ := h.sections
  refine ⟨⟨r.options.put key value, ?_⟩, h.current⟩
  show r.sections.put r.current _ = _
  rw [hoptions, h.current, Table.put_append_of_not_mem hnew]

theorem Within.extend (h : r.Within before name) (hnew : name ∉ Table.names before) (line : Text) :
    (r.extend line).Within before name := by
  unfold Reading.extend
  split
  · exact h
  · exact h.set hnew _ _

/-- A line that opens no section works on the last one. -/
theorem Within.step (h : r.Within before name) (hnew : name ∉ Table.names before)
    (hopened : r.opened? line = none) (number : Nat) : (r.step number line).Within before name := by
  revert hopened
  unfold opened? Reading.step
  rcases Line.ofText line with - | - | ⟨indent, body⟩
  · exact fun _ => h
  · exact fun _ => h.extend hnew []
  · dsimp only
    split
    · exact fun _ => h.extend hnew body
    · intro hheader
      unfold begin
      rw [hheader]
      dsimp only
      rcases option? body with - | ⟨key, value⟩
      · exact ⟨h.sections, h.current⟩
      · have hset : ({ r with indent } : Reading).Within before name := ⟨h.sections, h.current⟩
        dsimp only
        split <;> exact ⟨(hset.set hnew key [value]).sections, (hset.set hnew key [value]).current⟩

/-- So do all lines of which none does. -/
theorem Within.steps (h : r.Within before name) (hnew : name ∉ Table.names before) (hkeeps : r.Keeps ls)
    (number : Nat) : (r.steps number ls).Within before name := by
  induction ls generalizing r number with
  | nil => exact h
  | cons line rest ih =>
    obtain ⟨hopened, hrest⟩ := hkeeps
    obtain ⟨hindent, hoption⟩ := step_indent_option (r := r) rfl rfl 0 number line
    exact ih (h.step hnew hopened number) (hrest.congr hindent hoption) (number + 1)

/-- A header without indentation is read as one whatever is open, and a new one comes last. -/
theorem step_header (r : Reading) (hne : name ≠ []) (hnew : name ∉ Table.names r.sections)
    (hline : Line.ofText line = Line.ofText (0x5B :: (name ++ [0x5D]))) (number : Nat) :
    (r.step number line).Within r.sections name ∧
      (r.step number line).indent = 0 ∧ (r.step number line).option = [] := by
  obtain ⟨hcontent, hheader⟩ := ofText_bracketed hne
  have hstep : r.step number line = ({ r with indent := 0 } : Reading).enter name := by
    unfold step
    rw [hline, hcontent]
    dsimp only
    rw [if_neg (by simp)]
    unfold begin
    rw [hheader]
  have hput : (({ r with indent := 0 } : Reading).enter name).sections =
      r.sections ++ [(name, (Table.get? name r.sections).getD [])] :=
    Table.put_of_not_mem hnew _
  rw [hstep]
  exact ⟨⟨⟨_, hput⟩, rfl⟩, rfl, rfl⟩

end Reading

/-! ### Sections at the end -/

/-- A section as it is appended: a header, and after it nothing or a line feed and any lines of which none
opens another section. -/
structure Appendix where
  name : Text
  rest : Text
  name_ne_nil : name ≠ []
  name_no_lineFeed : 0x0A ∉ name
  rest_head : rest = [] ∨ rest.head? = some 0x0A
  keeps : (Reading.start.enter name).Keeps (lines rest.tail)

/-- The text of the section. -/
def Appendix.text (a : Appendix) : Text := 0x5B :: (a.name ++ [0x5D]) ++ a.rest

/-- The first line of the section is its header, and the others are those of what follows. -/
theorem Appendix.lines_text (a : Appendix) :
    ∃ header, Line.ofText header = Line.ofText (0x5B :: (a.name ++ [0x5D])) ∧
      lines a.text = header :: lines a.rest.tail := by
  have hfeed : 0x0A ∉ (0x5B :: (a.name ++ [0x5D]) : Text) := by
    have hname := a.name_no_lineFeed
    simp [hname]
  unfold text
  rcases hrest : a.rest with - | ⟨c, rest⟩
  · refine ⟨_, rfl, ?_⟩
    rw [List.append_nil, lines_of_not_mem hfeed, if_neg (List.cons_ne_nil _ _)]
    rfl
  · obtain rfl : c = 0x0A := by
      have hhead := a.rest_head.resolve_left (by rw [hrest]; exact List.cons_ne_nil _ _)
      rw [hrest] at hhead
      exact Option.some.inj hhead
    exact ⟨_, ofText_concat_lineFeed _, lines_append _ _ hfeed⟩

theorem names_document (r : Reading) : Table.names r.document = Table.names r.sections := by
  unfold Reading.document Table.names
  rw [List.map_map]
  rfl

theorem read_eq_ok_iff {t : Text} {d : Document} :
    read t = .ok d ↔ (Reading.start.steps 2 (lines t)).faults = [] ∧
      (Reading.start.steps 2 (lines t)).document = d := by
  unfold read
  dsimp only
  split
  · next h =>
    rw [Except.ok.injEq]
    exact ⟨fun heq => ⟨List.isEmpty_iff.mp h, heq⟩, fun heq => heq.2⟩
  · next h =>
    exact ⟨nofun, fun heq => absurd (List.isEmpty_iff.mpr heq.1) h⟩

/-- Of a text with a new section at the end the document is that of the text, and the new section. -/
theorem read_append {t : Text} {a : Appendix} {d d' : Document} (h : read t = .ok d)
    (hnew : a.name ∉ Table.names d) (h' : read (t ++ 0x0A :: a.text) = .ok d') :
    ∃ own, d' = d ++ [(a.name, own)] := by
  obtain ⟨hfaults, rfl⟩ := read_eq_ok_iff.mp h
  obtain ⟨-, rfl⟩ := read_eq_ok_iff.mp h'
  obtain ⟨header, hheader, hlines⟩ := a.lines_text
  have hdocument := Reading.document_steps_concat_lineFeed Reading.sound_start.placed 2 t hfaults
  rw [lines_append_lineFeed, Reading.steps_append, hlines]
  rw [← hdocument, names_document] at hnew
  rw [← hdocument]
  obtain ⟨hwithin, hindent, hoption⟩ := Reading.step_header
    (Reading.start.steps 2 (lines (t ++ [0x0A]))) a.name_ne_nil hnew hheader
    (2 + (lines (t ++ [0x0A])).length)
  have hkeeps := a.keeps.congr hindent hoption
  obtain ⟨options, hoptions⟩ := (hwithin.steps hnew hkeeps
    (2 + (lines (t ++ [0x0A])).length + 1)).sections
  refine ⟨options.map fun o => (o.1, joinValue o.2), ?_⟩
  show List.map _ (Reading.steps _ _ (lines a.rest.tail)).sections = _
  rw [hoptions, List.map_append]
  rfl

/-! ### What the sections before it hold -/

namespace Document

variable {d : Document} {name other : Text} (own : Table Text)

theorem own_append (h : other ≠ name) : Document.own (d ++ [(name, own)]) other = d.own other := by
  have hlast : Table.get? other [(name, own)] = none := if_neg (Ne.symm h)
  unfold Document.own
  rw [Table.get?_append, hlast, Option.or_none]

/-- The options of another section are as they were, if the new one is not shared. -/
theorem options_append (h : other ≠ name) (hshared : name ≠ sharedName) :
    Document.options (d ++ [(name, own)]) other = d.options other := by
  have hsame : Document.shared (d ++ [(name, own)]) = d.shared := own_append own (Ne.symm hshared)
  unfold Document.options
  rw [own_append own h, hsame]

theorem names_append (hshared : name ≠ sharedName) :
    Document.names (d ++ [(name, own)]) = d.names ++ [name] := by
  have hlast : [name].filter (· ≠ sharedName) = [name] := by simp [hshared]
  unfold Document.names Table.names
  rw [List.map_append, List.filter_append]
  exact congrArg _ hlast

end Document

end Ini

namespace Config

/-! ### Groups -/

variable {files : FileTree} {d : Ini.Document} {name other : Text} (own : Table Text)

/-- A setting is as it was for every other section, since the defaults are as they were. -/
theorem setting_append (h : other ≠ name) (hshared : name ≠ Ini.sharedName)
    (hinitial : name ≠ Ini.initialName) (key : Text) :
    setting (d ++ [(name, own)]) other key = setting d other key := by
  unfold setting
  rw [Ini.Document.options_append own h hshared,
    Ini.Document.options_append own (Ne.symm hinitial) hshared]

theorem outline_append (h : other ≠ name) (hshared : name ≠ Ini.sharedName)
    (hinitial : name ≠ Ini.initialName) :
    outline (d ++ [(name, own)]) other = outline d other := by
  have hsetting : setting (d ++ [(name, own)]) other = setting d other :=
    funext (setting_append own h hshared hinitial)
  unfold outline missing
  rw [hsetting, Ini.Document.options_append own h hshared]

/-- The group of another section is built as it was. -/
theorem group_append (h : other ≠ name) (hshared : name ≠ Ini.sharedName)
    (hinitial : name ≠ Ini.initialName) :
    group files (d ++ [(name, own)]) other = group files d other := by
  unfold group
  rw [outline_append own h hshared hinitial]

/-- Steps that are the same for all elements are the same together. -/
theorem mapM_load_congr {α β : Type} {f f' : α → Load β} {l : List α} (h : ∀ a ∈ l, f a = f' a) :
    l.mapM f = l.mapM f' := by
  induction l with
  | nil => rfl
  | cons a l ih =>
    rw [List.mapM_cons, List.mapM_cons, h a List.mem_cons_self,
      ih fun b hb => h b (List.mem_cons_of_mem a hb)]

/-- The groups of a configuration are what the run over its sections has built. -/
theorem exists_run_of_parse {t : Text} {s : Loading} {c : Config} (hread : Ini.read t = .ok d)
    (h : ((parse files t).run.run s).1 = .ok c) :
    ∃ s', ((d.names.filter (· ≠ Ini.initialName)).mapM (group files d)).run.run s =
      (.ok c.groups, s') := by
  unfold parse at h
  rw [hread] at h
  dsimp only at h
  rw [Load.run_bind] at h
  rcases hrun : ((d.names.filter (· ≠ Ini.initialName)).mapM (group files d)).run.run s with
    ⟨f | groups, s'⟩
  · rw [hrun] at h
    cases h
  · rw [hrun] at h
    obtain rfl : (⟨groups⟩ : Config) = c := Except.ok.inj h
    exact ⟨s', rfl⟩

/-- The groups before a new section are built before it, from what they were built from and with what
was loaded for them. -/
theorem groups_append {t t' : Text} {s : Loading} {c c' : Config} {own : Table Text}
    (hread : Ini.read t = .ok d) (hread' : Ini.read t' = .ok (d ++ [(name, own)]))
    (hnew : name ∉ Table.names d) (hshared : name ≠ Ini.sharedName)
    (hinitial : name ≠ Ini.initialName) (h : ((parse files t).run.run s).1 = .ok c)
    (h' : ((parse files t').run.run s).1 = .ok c') :
    ∃ groups, c'.groups = c.groups ++ groups := by
  obtain ⟨middle, hrun⟩ := exists_run_of_parse hread h
  obtain ⟨last, hrun'⟩ := exists_run_of_parse hread' h'
  have hsame : (d.names.filter (· ≠ Ini.initialName)).mapM (group files (d ++ [(name, own)])) =
      (d.names.filter (· ≠ Ini.initialName)).mapM (group files d) := by
    refine mapM_load_congr fun other hother => group_append own ?_ hshared hinitial
    rintro rfl
    exact hnew (List.mem_filter.mp (List.mem_filter.mp hother).1).1
  rw [Ini.Document.names_append own hshared, List.filter_append, List.mapM_append, Load.run_bind,
    hsame, hrun] at hrun'
  dsimp only at hrun'
  rw [Load.run_bind] at hrun'
  split at hrun'
  · next groups s' _ =>
    obtain heq : Except.ok (c.groups ++ groups) = Except.ok c'.groups := (Prod.mk.inj hrun').1
    exact ⟨groups, (Except.ok.inj heq).symm⟩
  · cases (Prod.mk.inj hrun').1

/-- With a group more at the end, hosts that belonged to a group belong to it as before, and others belong
to the new one if one of its patterns covers them. -/
theorem resolve?_append (c : Config) (g : HostGroup) (host : Text) :
    resolve? ⟨c.groups ++ [g]⟩ host = (c.resolve? host).or (g.resolve? host) := by
  unfold resolve?
  rw [List.findSome?_append, List.findSome?_singleton]

/-- A section with a new name at the end of a text adds its group to those of the text, which are as they
were: hosts that belonged to one of them belong to it as before, and every other host belongs to the
new group by one of its patterns or is still unknown. -/
theorem conserved_of_append {t : Text} {a : Ini.Appendix} {c c' : Config}
    (h : ((parse files t).run.run {}).1 = .ok c) (hnew : a.name ∉ c.names)
    (hshared : a.name ≠ Ini.sharedName) (hinitial : a.name ≠ Ini.initialName)
    (h' : ((parse files (t ++ 0x0A :: a.text)).run.run {}).1 = .ok c') :
    ∃ g, g.name = a.name ∧ c'.groups = c.groups ++ [g] ∧
      (∀ host info, c.resolve host = .ok info → c'.resolve host = .ok info) ∧
      ∀ host f, c.resolve host = .error f →
        (∃ pattern url, (pattern, url) ∈ g.hosts ∧ Pattern.covers pattern host = true ∧
          c'.resolve host = .ok (g.info pattern url)) ∨
        c'.resolve host = .error (.unknownHost host) := by
  obtain ⟨d, hread, hnames, -⟩ := exists_document_of_parse h
  obtain ⟨d', hread', hnames', -⟩ := exists_document_of_parse h'
  have hnot : a.name ∉ Table.names d := by
    intro hmem
    rw [hnames] at hnew
    exact hnew (List.mem_filter.mpr ⟨List.mem_filter.mpr ⟨hmem, decide_eq_true hshared⟩,
      decide_eq_true hinitial⟩)
  -- the longer text reads as the shorter one with a section more, so there are groups more
  obtain ⟨own, rfl⟩ := Ini.read_append hread hnot hread'
  obtain ⟨groups, hgroups⟩ := groups_append hread hread' hnot hshared hinitial h h'
  -- there is one, as the names of the groups tell
  obtain ⟨g, rfl, hg⟩ : ∃ g, groups = [g] ∧ g.name = a.name := by
    have hlast : [a.name].filter (· ≠ Ini.initialName) = [a.name] := by simp [hinitial]
    rw [Ini.Document.names_append own hshared, List.filter_append, ← hnames, hlast] at hnames'
    unfold names at hnames'
    rw [hgroups, List.map_append] at hnames'
    exact List.map_eq_singleton_iff.mp (List.append_cancel_left hnames')
  have hresolve (host : Text) : c'.resolve? host = (c.resolve? host).or (g.resolve? host) := by
    rw [← resolve?_append, ← hgroups]
  refine ⟨g, hg, hgroups, fun host info hinfo => ?_, fun host f hf => ?_⟩
  · rw [resolve_eq_ok_iff] at hinfo ⊢
    rw [hresolve, hinfo, Option.some_or]
  · obtain ⟨hold, -⟩ := resolve_eq_error_iff.mp hf
    have hnext : c'.resolve? host = g.resolve? host := by rw [hresolve, hold, Option.none_or]
    rcases hfound : g.resolve? host with - | info
    · exact .inr (resolve_eq_error_iff.mpr ⟨hnext.trans hfound, rfl⟩)
    · obtain ⟨⟨pattern, url⟩, hfind, rfl⟩ := Option.map_eq_some_iff.mp hfound
      exact .inl ⟨pattern, url, List.mem_of_find?_eq_some hfind,
        List.find?_some (p := fun e : Text × Text => Pattern.covers e.1 host) hfind,
        resolve_eq_ok_iff.mpr (hnext.trans hfound)⟩

/-- A group of one host, with the keys and the validity of the defaults. -/
def Sample.annex : Ini.Appendix where
  name := "annex"
  rest := "\nannex.example.net = https://mc.example.net\n"
  name_ne_nil := by decide
  name_no_lineFeed := by decide
  rest_head := .inr rfl
  keeps := Ini.Reading.keeps_of_header? _ (by decide)

/-- The two groups stay as they are when a third one is appended, and its host belongs to it. -/
theorem conserved_sample :
    ∃ (c c' : Config) (g : HostGroup),
      ((parse Service.Sample.files Sample.twoGroups).run.run {}).1 = .ok c ∧
      ((parse Service.Sample.files (Sample.twoGroups ++ 0x0A :: Sample.annex.text)).run.run {}).1 =
        .ok c' ∧
      c.names = [Text.ofString "site", Text.ofString "campus"] ∧ g.name = "annex" ∧
      c'.groups = c.groups ++ [g] ∧
      (∀ host info, c.resolve host = .ok info → c'.resolve host = .ok info) ∧
      ∀ host f, c.resolve host = .error f →
        (∃ pattern url, (pattern, url) ∈ g.hosts ∧ Pattern.covers pattern host = true ∧
          c'.resolve host = .ok (g.info pattern url)) ∨
        c'.resolve host = .error (.unknownHost host) := by
  have hnames : ((parse Service.Sample.files Sample.twoGroups).run.run {}).1.toOption.map names =
      some [Text.ofString "site", Text.ofString "campus"] := by
    decide +kernel
  have hextended : ((parse Service.Sample.files (Sample.twoGroups ++ 0x0A ::
      Sample.annex.text)).run.run {}).1.toOption.isSome = true := by
    decide +kernel
  obtain ⟨c, hc, hnames⟩ := Option.map_eq_some_iff.mp hnames
  obtain ⟨c', hc'⟩ := Option.isSome_iff_exists.mp hextended
  have hparse := Except.toOption_eq_some_iff.mp hc
  have hparse' := Except.toOption_eq_some_iff.mp hc'
  obtain ⟨g, hg, hgroups, hkept, hothers⟩ :=
    conserved_of_append hparse (by rw [hnames]; decide) (by decide) (by decide) hparse'
  exact ⟨c, c', g, hparse, hparse', hnames, hg, hgroups, hkept, hothers⟩

end Config

end SshAuthority
