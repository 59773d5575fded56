/-
SshAuthority/Proofs/Url/Below.lean

Paths that are put after a URL.

Whoever asks for a path below a URL puts the one after the other and reads the result. This
does what it should where the URL has a server and neither query nor fragment: the path is
put after the path of the URL, also where that has dots to be taken out or code points to be
escaped, and nothing else changes (`read_append_below`). Where it has one of these, the path
goes there instead (`front_append_of_mem`).

Main results: `read_append_below` and `not_mem_of_read_append`.
-/
import SshAuthority.Outcome
import SshAuthority.Proofs.Text.Append
import SshAuthority.Proofs.Text.Blank
import SshAuthority.Url.Basic

namespace SshAuthority

/-! ### Escapes -/

/-- What is safe is not escaped. -/
theorem Percent.encode?_of_safe {safe : CodePoint → Bool} {t : Text} (h : ∀ c ∈ t, safe c = true) :
    encode? safe t = some t := by
  have hpoints : (t.mapM fun c =>
      if safe c then some [c]
      else if c.isSurrogate then none
      else some ((Utf8.encodePoint c).flatMap escape)) = some (t.map ([·])) := by
    induction t with
    | nil => rfl
    | cons c t ih =>
      rw [List.mapM_cons, if_pos (h c List.mem_cons_self), ih fun d hd => h d (List.mem_cons_of_mem _ hd)]
      rfl
  unfold encode?
  rw [hpoints, Option.map_some]
  exact congrArg some (List.flatMap_singleton' t)

/-- Text that is put after another one is escaped on its own. -/
theorem Percent.encode?_append (safe : CodePoint → Bool) (s t : Text) :
    encode? safe (s ++ t) = (encode? safe s).bind fun a => (encode? safe t).map (a ++ ·) := by
  unfold encode?
  rw [List.mapM_append]
  rcases List.mapM _ s with - | a
  · rfl
  rcases List.mapM _ t with - | b
  · rfl
  · exact congrArg some List.flatten_append

namespace Url

variable {idna : Host.Idna} {t rest : Text} {u : Url} {p : Parts}

theorem quote_append {safe : CodePoint → Bool} {q s : Text} (ht : quote safe t = .ok q)
    (hs : ∀ c ∈ s, safe c = true) : quote safe (t ++ s) = .ok (q ++ s) := by
  unfold quote at ht ⊢
  rw [Percent.encode?_append, Percent.encode?_of_safe hs]
  split at ht
  · next heq =>
    cases ht
    rw [heq]
    rfl
  · cases ht

/-! ### Parts -/

/-- What stands before query and fragment. -/
def front (t : Text) : Text := (cutAt 0x3F (cutAt 0x23 t).1).1

/-- Scheme, authority and path go by what stands before query and fragment. -/
theorem Parts.ofText_of_front {s : Text} (h : front s = front t) :
    Parts.ofText s = { Parts.ofText t with
      query := (cutAt 0x3F (cutAt 0x23 s).1).2, fragment := (cutAt 0x23 s).2 } := by
  revert h
  unfold front Parts.ofText
  rcases cutAt 0x23 s with ⟨s, fragment⟩
  rcases cutAt 0x23 t with ⟨t, fragment'⟩
  dsimp only
  rcases cutAt 0x3F s with ⟨s, query⟩
  rcases cutAt 0x3F t with ⟨t, query'⟩
  dsimp only
  rintro rfl
  rcases Text.cut? 0x3A s with - | ⟨scheme, rest⟩
  · dsimp only
    rcases Text.after? "//" s with - | rest <;> rfl
  · by_cases hscheme : isScheme scheme = true
    · simp only [if_pos hscheme]
      rcases Text.after? "//" rest with - | rest <;> rfl
    · simp only [if_neg hscheme]
      rcases Text.after? "//" s with - | rest <;> rfl

theorem cutAt_of_not_mem {sep : CodePoint} (h : sep ∉ t) : cutAt sep t = (t, none) := by
  unfold cutAt
  rw [Text.cut?_eq_none_iff.mpr h]

theorem cutAt_append_of_mem {sep : CodePoint} (h : sep ∈ t) (s : Text) :
    (cutAt sep (t ++ s)).1 = (cutAt sep t).1 := by
  rcases hcut : Text.cut? sep t with - | ⟨before, after⟩
  · exact absurd h (Text.cut?_eq_none_iff.mp hcut)
  · unfold cutAt
    rw [Text.cut?_append_of_eq_some hcut, hcut]

/-- What is put after a query or a fragment belongs to it. -/
theorem front_append_of_mem (h : 0x23 ∈ t ∨ 0x3F ∈ t) {s : Text} (hs : 0x23 ∉ s) :
    front (t ++ s) = front t := by
  unfold front
  by_cases hfragment : 0x23 ∈ t
  · rw [cutAt_append_of_mem hfragment]
  · have hquery : 0x3F ∈ t := h.resolve_left hfragment
    have hboth : 0x23 ∉ t ++ s := fun hmem => (List.mem_append.mp hmem).elim hfragment hs
    rw [cutAt_of_not_mem hfragment, cutAt_of_not_mem hboth]
    exact cutAt_append_of_mem hquery s

/-- The parts of a text with a scheme and two slashes, without query and fragment. -/
theorem Parts.ofText_web {scheme : Text} (hscheme : isScheme scheme = true) (hcolon : 0x3A ∉ scheme)
    (hfragment : 0x23 ∉ scheme ++ Text.ofString "://" ++ rest)
    (hquery : 0x3F ∉ scheme ++ Text.ofString "://" ++ rest) :
    Parts.ofText (scheme ++ Text.ofString "://" ++ rest) =
      ⟨scheme, rest.takeWhile (· ≠ 0x2F), rest.drop (rest.takeWhile (· ≠ 0x2F)).length, none, none⟩ := by
  have hcut : Text.cut? 0x3A (scheme ++ Text.ofString "://" ++ rest) =
      some (scheme, Text.ofString "//" ++ rest) := by
    rw [List.append_assoc]
    exact Text.cut?_append _ hcolon
  have hafter : Text.after? "//" (Text.ofString "//" ++ rest) = some rest :=
    Text.after?_eq_some_iff.mpr rfl
  unfold Parts.ofText
  rw [cutAt_of_not_mem hfragment]
  dsimp only
  rw [cutAt_of_not_mem hquery]
  dsimp only
  rw [hcut]
  dsimp only
  rw [if_pos hscheme]
  dsimp only
  rw [hafter]

/-! ### From parts to a URL -/

/-- A URL is made of its parts one by one. -/
theorem ofParts_eq_ok_iff :
    ofParts idna p = .ok u ↔
      quote isUserSafe (splitAuthority p.authority).1 = .ok u.userInfo ∧
      Host.normalize idna (splitAuthority p.authority).2.1 = .ok u.host ∧
      port? p.scheme (splitAuthority p.authority).2.2 = .ok u.port ∧
      pathFits (!p.scheme.isEmpty) (!u.userInfo.isEmpty || !u.host.isEmpty || u.port.isSome)
        p.path = true ∧
      quote isPathSafe (if !p.scheme.isEmpty || (!u.userInfo.isEmpty || !u.host.isEmpty ||
        u.port.isSome) then normalizePath p.path else p.path) = .ok u.path ∧
      quoteOptional isQuerySafe p.query = .ok u.query ∧
      quoteOptional isFragmentSafe p.fragment = .ok u.fragment ∧
      u.scheme = Text.lowerAscii p.scheme := by
  unfold ofParts
  rcases splitAuthority p.authority with ⟨userInfo, host, port⟩
  dsimp only
  constructor
  · intro h
    obtain ⟨userInfo', huser, h⟩ := Except.bind_eq_ok_iff.mp h
    obtain ⟨host', hhost, h⟩ := Except.bind_eq_ok_iff.mp h
    obtain ⟨port', hport, h⟩ := Except.bind_eq_ok_iff.mp h
    -- the path is looked at when the server is known, and escaped after that
    split at h
    · cases h
    next hfits =>
    obtain ⟨path, hpath, h⟩ := Except.bind_eq_ok_iff.mp h
    obtain ⟨query, hquery, h⟩ := Except.bind_eq_ok_iff.mp h
    obtain ⟨fragment, hfragment, h⟩ := Except.bind_eq_ok_iff.mp h
    obtain rfl := Except.pure_eq_ok_iff.mp h
    refine ⟨huser, hhost, hport, ?_, hpath, hquery, hfragment, rfl⟩
    simpa using hfits
  · rintro ⟨huser, hhost, hport, hfits, hpath, hquery, hfragment, hscheme⟩
    rw [huser, hhost, hport]
    show (if !pathFits _ _ _ then _ else _) = _
    rw [hfits]
    show (quote isPathSafe _ >>= _) = _
    rw [hpath]
    show (quoteOptional isQuerySafe _ >>= _) = _
    rw [hquery]
    show (quoteOptional isFragmentSafe _ >>= _) = _
    rw [hfragment, hscheme.symm]
    rfl

/-- A text that is not too long and has no control characters is read part by part. -/
theorem read_eq_ok_iff :
    read idna t = .ok u ↔
      t.length ≤ maxLength ∧ t.any isControl = false ∧ ofParts idna (Parts.ofText t) = .ok u := by
  unfold read
  by_cases hlength : t.length ≤ maxLength
  · have hshort : decide (maxLength < t.length) = false := decide_eq_false (Nat.not_lt.mpr hlength)
    rw [hshort, Bool.false_or]
    rcases t.any isControl with - | - <;> simp [hlength]
  · have hlong : decide (maxLength < t.length) = true := decide_eq_true (Nat.not_le.mp hlength)
    rw [hlong, Bool.true_or, if_pos rfl]
    exact ⟨nofun, fun h => absurd h.1 hlength⟩

/-! ### Dots -/

/-- A segment that is put after a path as it is. -/
structure Plain (segment : Text) : Prop where
  isPathSafe : ∀ c ∈ segment, isPathSafe c = true
  noSlash : 0x2F ∉ segment
  ne_dot : segment ≠ "."
  ne_dots : segment ≠ ".."

/-- The path of segments, each with a slash before it. -/
def below (segments : List Text) : Text := segments.flatMap fun s => 0x2F :: s

/-- The path begins with a slash, if it is not empty. -/
def Rooted (path : Text) : Prop := path = [] ∨ path.head? = some 0x2F

theorem dropDots_append (done a b : List Text) :
    dropDots done (a ++ b) = dropDots (dropDots done a) b := by
  induction a generalizing done with
  | nil => rfl
  | cons s a ih =>
    rw [List.cons_append, dropDots, dropDots]
    split
    · exact ih _
    · split <;> exact ih _

/-- The empty segment before the first slash is not taken back. -/
theorem exists_dropDots_cons (done l : List Text) :
    ∃ more, dropDots ([] :: done) l = [] :: more := by
  induction l generalizing done with
  | nil => exact ⟨done, rfl⟩
  | cons s l ih =>
    rw [dropDots]
    split
    · exact ih done
    · split
      · split
        · exact ih done
        · next hne =>
          rcases done with - | ⟨d, done⟩
          · exact absurd (by decide) hne
          · exact ih _
      · exact ih _

theorem dropDots_ne_nil {path : Text} (h : Rooted path) : dropDots [] (Text.splitOn 0x2F path) ≠ [] := by
  obtain ⟨more, hmore⟩ : ∃ more, Text.splitOn 0x2F path = [] :: more := by
    rcases path with - | ⟨c, path⟩
    · exact ⟨[], rfl⟩
    · obtain rfl : c = 0x2F := by
        rcases h with h | h
        · cases h
        · exact Option.some.inj h
      exact ⟨_, if_pos rfl⟩
  obtain ⟨rest, hrest⟩ := exists_dropDots_cons [] more
  rw [hmore]
  show dropDots [[]] more ≠ []
  rw [hrest]
  exact List.cons_ne_nil _ _

/-- A plain segment stays behind what is left of the path before it. -/
theorem normalizePath_append {path s : Text} (hpath : Rooted path) (hs : Plain s) :
    normalizePath (path ++ 0x2F :: s) = normalizePath path ++ 0x2F :: s := by
  have hlast (done : List Text) : dropDots done [s] = done ++ [s] := by
    rw [dropDots, if_neg hs.ne_dot, if_neg hs.ne_dots]
    rfl
  unfold normalizePath
  rw [Text.splitOn_append_cons, Text.splitOn_of_not_mem hs.noSlash, dropDots_append, hlast,
    Text.join_concat _ (dropDots_ne_nil hpath), List.append_assoc]
  rfl

theorem Rooted.append {path : Text} (h : Rooted path) (s : Text) : Rooted (path ++ 0x2F :: s) := by
  rcases path with - | ⟨c, path⟩
  · exact .inr rfl
  · exact .inr (h.resolve_left (List.cons_ne_nil _ _))

theorem normalizePath_append_below {path : Text} (hpath : Rooted path) {segments : List Text}
    (h : ∀ s ∈ segments, Plain s) :
    normalizePath (path ++ below segments) = normalizePath path ++ below segments := by
  induction segments generalizing path with
  | nil => rw [below, List.flatMap_nil, List.append_nil, List.append_nil]
  | cons s segments ih =>
    have hcons : below (s :: segments) = 0x2F :: s ++ below segments := rfl
    have hs := h s List.mem_cons_self
    rw [hcons, ← List.append_assoc, ih (hpath.append s) fun r hr => h r (List.mem_cons_of_mem _ hr),
      normalizePath_append hpath hs, List.append_assoc]

/-! ### Paths below a URL -/

/-- The path of plain segments is safe. -/
theorem isPathSafe_below {segments : List Text} (h : ∀ s ∈ segments, Plain s) :
    ∀ c ∈ below segments, isPathSafe c = true := by
  intro c hc
  obtain ⟨s, hs, hc⟩ := List.mem_flatMap.mp hc
  rcases List.mem_cons.mp hc with rfl | hc
  · decide
  · exact (h s hs).isPathSafe c hc

theorem rooted_below (segments : List Text) : Rooted (below segments) := by
  rcases segments with - | ⟨s, segments⟩
  · exact .inl rfl
  · exact .inr rfl

theorem Rooted.append_rooted {path more : Text} (h : Rooted path) (hmore : Rooted more) :
    Rooted (path ++ more) := by
  rcases path with - | ⟨c, path⟩
  · exact hmore
  · exact .inr (h.resolve_left (List.cons_ne_nil _ _))

/-- Behind an authority a path fits if it is rooted. -/
theorem pathFits_iff {hasScheme : Bool} {path : Text} :
    pathFits hasScheme true path = true ↔ Rooted path := by
  unfold pathFits Rooted
  simp

/-- What is safe in a path is no control character. -/
theorem isControl_of_isPathSafe {c : CodePoint} (h : isPathSafe c = true) : isControl c = false := by
  unfold isPathSafe isVisibleBut at h
  unfold isControl
  simp only [Bool.and_eq_true, decide_eq_true_eq] at h
  simp only [Bool.or_eq_false_iff, decide_eq_false_iff_not]
  omega

/-- What a rooted path follows has the same authority, and the path behind it. -/
theorem takeWhile_append_rooted {more : Text} (h : Rooted more) :
    (rest ++ more).takeWhile (· ≠ 0x2F) = rest.takeWhile (· ≠ 0x2F) := by
  rw [List.takeWhile_append]
  split
  · next hall =>
    have hmore : more.takeWhile (· ≠ 0x2F) = [] := by
      rcases more with - | ⟨c, more⟩
      · rfl
      · obtain rfl : c = 0x2F := Option.some.inj (h.resolve_left (List.cons_ne_nil _ _))
        rfl
    have hrest : rest.takeWhile (· ≠ 0x2F) = rest :=
      (List.takeWhile_sublist _).eq_of_length hall
    rw [hmore, hrest, List.append_nil]
  · rfl

/-- The path of plain segments is put after the path of a URL with a server that has no query and no
fragment. -/
theorem read_append_below {scheme : Text} {base : Url} {segments : List Text}
    (hscheme : isScheme scheme = true) (hcolon : 0x3A ∉ scheme)
    (hfragment : 0x23 ∉ scheme ++ Text.ofString "://" ++ rest)
    (hquery : 0x3F ∉ scheme ++ Text.ofString "://" ++ rest)
    (hread : read idna (scheme ++ Text.ofString "://" ++ rest) = .ok base) (hhost : base.host ≠ [])
    (hsegments : ∀ s ∈ segments, Plain s)
    (hlength : (scheme ++ Text.ofString "://" ++ rest ++ below segments).length ≤ maxLength) :
    read idna (scheme ++ Text.ofString "://" ++ rest ++ below segments) =
      .ok { base with path := base.path ++ below segments } := by
  have hsafe := isPathSafe_below hsegments
  have hnot (mark : CodePoint) (hmark : isPathSafe mark = false)
      (h : mark ∉ scheme ++ Text.ofString "://" ++ rest) :
      mark ∉ scheme ++ Text.ofString "://" ++ (rest ++ below segments) := by
    rw [← List.append_assoc]
    intro hmem
    rcases List.mem_append.mp hmem with hmem | hmem
    · exact h hmem
    · rw [hsafe mark hmem] at hmark
      cases hmark
  -- the parts of the URL itself, each of which but the path is one of the longer URL too
  obtain ⟨-, hcontrol, hparts⟩ := read_eq_ok_iff.mp hread
  rw [Parts.ofText_web hscheme hcolon hfragment hquery] at hparts
  obtain ⟨huser, hhost', hport, hfits, hpath, hquery', hfragment', hlower⟩ :=
    ofParts_eq_ok_iff.mp hparts
  dsimp only at huser hhost' hport hfits hpath hquery' hfragment' hlower
  have hserver : (!base.userInfo.isEmpty || !base.host.isEmpty || base.port.isSome) = true := by
    rw [List.isEmpty_eq_false_iff.mpr hhost]
    simp
  rw [hserver] at hfits hpath
  have hrooted := pathFits_iff.mp hfits
  refine read_eq_ok_iff.mpr ⟨hlength, ?_, ?_⟩
  · rw [List.any_append, hcontrol, Bool.false_or, List.any_eq_false]
    exact fun c hc => Bool.eq_false_iff.mp (isControl_of_isPathSafe (hsafe c hc))
  · rw [List.append_assoc, Parts.ofText_web hscheme hcolon (hnot 0x23 (by decide) hfragment)
      (hnot 0x3F (by decide) hquery), takeWhile_append_rooted (rooted_below segments),
      List.drop_append_of_le_length (List.takeWhile_sublist _).length_le]
    refine ofParts_eq_ok_iff.mpr ⟨huser, hhost', hport, ?_, ?_, hquery', hfragment', hlower⟩
    · dsimp only
      rw [hserver]
      exact pathFits_iff.mpr (hrooted.append_rooted (rooted_below segments))
    · dsimp only
      rw [Bool.or_true, if_pos rfl] at hpath
      rw [hserver, Bool.or_true, if_pos rfl, normalizePath_append_below hrooted hsegments]
      exact quote_append hpath hsafe

/-- Where the path is put after the path, there was neither query nor fragment to take it. -/
theorem not_mem_of_read_append {base : Url} {s : Text} (hread : read idna t = .ok base) (hne : s ≠ [])
    (hs : 0x23 ∉ s) (happend : read idna (t ++ s) = .ok { base with path := base.path ++ s }) :
    0x23 ∉ t ∧ 0x3F ∉ t := by
  have hnot : ¬(0x23 ∈ t ∨ 0x3F ∈ t) := by
    intro hmark
    obtain ⟨-, -, hparts⟩ := read_eq_ok_iff.mp hread
    obtain ⟨-, -, happend⟩ := read_eq_ok_iff.mp happend
    rw [Parts.ofText_of_front (front_append_of_mem hmark hs)] at happend
    obtain ⟨-, -, -, -, hpath, -⟩ := ofParts_eq_ok_iff.mp hparts
    obtain ⟨-, -, -, -, hpath', -⟩ := ofParts_eq_ok_iff.mp happend
    dsimp only at hpath hpath'
    rw [hpath] at hpath'
    exact hne (List.append_right_eq_self.mp (Except.ok.inj hpath').symm)
  exact not_or.mp hnot

end Url

end SshAuthority
