/-
SshAuthority/Proofs/Config/Pattern.lean

What patterns of host names reach.

A pattern with a star covers what ends in its domain and is longer. The hosts below the
domain are among these, with a label or more and a point before it; but so are hosts with
no point there (`IsStray`), which belong to somebody else's domain. With this exception a
host that belongs to a group is named by one of its patterns or lies below a domain that
one of them names.

Main results: `covers_iff_reaches`, and `reach_of_resolve` for the hosts of a
configuration; `stray_resolved` shows that the exception is there.
-/
import SshAuthority.Proofs.Config.Regular
import SshAuthority.Proofs.Text.Append

namespace SshAuthority

namespace Pattern

/-! ### Domains -/

/-- The pattern of a domain: a star and a point before it. -/
def wildcard (domain : Text) : Text := Text.ofString "*." ++ domain

/-- A host below a domain: one label or more, a point, and the domain. -/
def IsBelow (domain host : Text) : Prop :=
  ∃ labels, labels ≠ [] ∧ host = labels ++ 0x2E :: domain

/-- A host that ends in a domain and is neither the domain nor below it: what stands before the
domain is a point alone, or does not end in one. -/
def IsStray (domain host : Text) : Prop :=
  ∃ lead, lead ≠ [] ∧ host = lead ++ domain ∧ (lead = [0x2E] ∨ lead.getLast? ≠ some 0x2E)

/-- What a pattern reaches: one of a domain what ends in the domain, any other itself. -/
def Reaches (pattern host : Text) : Prop :=
  (∃ domain, pattern = wildcard domain ∧ (IsBelow domain host ∨ IsStray domain host)) ∨
    ((∀ domain, pattern ≠ wildcard domain) ∧ host = pattern)

/-- No host is on both sides of the point. -/
theorem not_isBelow_of_isStray {domain host : Text} (h : IsStray domain host) :
    ¬IsBelow domain host := by
  rintro ⟨labels, hlabels, heq⟩
  obtain ⟨lead, -, hhost, hlead⟩ := h
  -- what stands before the domain is determined, and below the domain it ends in a point
  have hparts : lead ++ domain = (labels ++ [0x2E]) ++ domain := by
    rw [← hhost, heq, List.append_assoc]
    rfl
  obtain rfl : lead = labels ++ [0x2E] := List.append_cancel_right hparts
  rcases hlead with hlead | hlast
  · have hlength := congrArg List.length hlead
    rw [List.length_append] at hlength
    exact hlabels (List.length_eq_zero_iff.mp (Nat.succ.inj hlength))
  · exact hlast List.getLast?_concat

/-- What ends in a domain and is longer is below it or stray. -/
theorem isBelow_or_isStray_iff {domain host : Text} :
    IsBelow domain host ∨ IsStray domain host ↔ ∃ lead, lead ≠ [] ∧ host = lead ++ domain := by
  constructor
  · rintro (⟨labels, -, rfl⟩ | ⟨lead, hne, heq, -⟩)
    · refine ⟨labels ++ [0x2E], by simp, ?_⟩
      rw [List.append_assoc]
      rfl
    · exact ⟨lead, hne, heq⟩
  · rintro ⟨lead, hne, rfl⟩
    by_cases hlast : lead.getLast? = some 0x2E
    · obtain ⟨labels, rfl⟩ := List.getLast?_eq_some_iff.mp hlast
      by_cases hlabels : labels = []
      · subst hlabels
        exact .inr ⟨_, hne, rfl, .inl rfl⟩
      · refine .inl ⟨labels, hlabels, ?_⟩
        rw [List.append_assoc]
        rfl
    · exact .inr ⟨lead, hne, rfl, .inr hlast⟩

/-! ### Patterns -/

/-- The pattern of a domain covers what ends in the domain and is longer. -/
theorem covers_wildcard_iff {domain host : Text} :
    covers (wildcard domain) host = true ↔ IsBelow domain host ∨ IsStray domain host := by
  have hafter : Text.after? "*." (wildcard domain) = some domain := Text.after?_eq_some_iff.mpr rfl
  unfold covers
  rw [hafter, isBelow_or_isStray_iff]
  dsimp only
  rw [Bool.and_eq_true, Text.endsWith_iff, decide_eq_true_iff]
  constructor
  · rintro ⟨⟨lead, rfl⟩, hne⟩
    exact ⟨lead, fun hnil => hne (by rw [hnil, List.nil_append]), rfl⟩
  · rintro ⟨lead, hne, rfl⟩
    exact ⟨⟨lead, rfl⟩, fun heq => hne (List.append_left_eq_self.mp heq)⟩

/-- Any other pattern covers the host of that name alone. -/
theorem covers_iff_eq {pattern host : Text} (h : ∀ domain, pattern ≠ wildcard domain) :
    covers pattern host = true ↔ host = pattern := by
  unfold covers
  rcases hafter : Text.after? "*." pattern with - | domain
  · exact decide_eq_true_iff
  · exact absurd (Text.after?_eq_some_iff.mp hafter) (h domain)

/-- A pattern covers what it reaches. -/
theorem covers_iff_reaches {pattern host : Text} :
    covers pattern host = true ↔ Reaches pattern host := by
  unfold Reaches
  by_cases h : ∃ domain, pattern = wildcard domain
  · obtain ⟨domain, rfl⟩ := h
    rw [covers_wildcard_iff]
    constructor
    · exact fun hends => .inl ⟨domain, rfl, hends⟩
    · rintro (⟨domain', heq, hends⟩ | ⟨hno, -⟩)
      · rw [List.append_cancel_left heq]
        exact hends
      · exact absurd rfl (hno domain)
  · have hno : ∀ domain, pattern ≠ wildcard domain := fun domain heq => h ⟨domain, heq⟩
    rw [covers_iff_eq hno]
    constructor
    · exact fun heq => .inr ⟨hno, heq⟩
    · rintro (⟨domain, heq, -⟩ | ⟨-, heq⟩)
      · exact absurd heq (hno domain)
      · exact heq

end Pattern

/-! ### Configurations -/

namespace Config

open Pattern (Reaches IsBelow IsStray wildcard)

/-- A host is unknown where no pattern covers it. -/
theorem exists_resolve_eq_error_iff {c : Config} {host : Text} :
    (∃ f, c.resolve host = .error f) ↔
      ∀ g ∈ c.groups, ∀ e ∈ g.hosts, Pattern.covers e.1 host = false := by
  simp only [resolve_eq_error_iff, exists_and_left, exists_eq, and_true]
  unfold resolve?
  simp only [List.findSome?_eq_none_iff, HostGroup.resolve?_eq_none_iff]

/-- The host of what a configuration resolves is reached by the pattern that it was found by, which
is one of the group's, and a host that no pattern reaches is unknown. A pattern without a star
reaches the host of its name; one of a domain reaches all hosts below the domain and, beside these,
only the stray ones, none of which is below it. -/
theorem reach_of_resolve (c : Config) (host : Text) :
    (∀ info, c.resolve host = .ok info →
      ∃ g ∈ c.groups, (info.pattern, info.endpoint) ∈ g.hosts ∧
        info = g.info info.pattern info.endpoint ∧ Reaches info.pattern host) ∧
    ((∃ f, c.resolve host = .error f) ↔
      ∀ g ∈ c.groups, ∀ e ∈ g.hosts, ¬Reaches e.1 host) ∧
    (∀ pattern, Pattern.covers pattern host = true ↔ Reaches pattern host) ∧
    ∀ domain, IsStray domain host → ¬IsBelow domain host := by
  refine ⟨fun info hinfo => ?_, ?_, fun pattern => Pattern.covers_iff_reaches,
    fun domain => Pattern.not_isBelow_of_isStray⟩
  · obtain ⟨g, pattern, heq, hg, pattern', hmem, hcovers, hresolve⟩ := assigns_of_resolve hinfo
    -- the entry that was found and the one that the result shows are one
    obtain rfl : pattern' = info.pattern := by
      rw [resolve_eq_ok_iff, hresolve] at hinfo
      exact congrArg HostInfo.pattern (Option.some.inj hinfo)
    refine ⟨g, hg, hmem, ?_, Pattern.covers_iff_reaches.mp hcovers⟩
    obtain rfl : info.pattern = pattern := congrArg HostInfo.pattern heq
    exact heq
  · rw [exists_resolve_eq_error_iff]
    simp only [← Pattern.covers_iff_reaches, Bool.not_eq_true]

/-- A host of another domain, whose name merely ends in the letters of a configured one, is not below
it and has no pattern of its own, but belongs to the group of the configured domain. -/
theorem stray_resolved :
    ∃ c info, ((parse Service.Sample.files Sample.twoGroups).run.run {}).1 = .ok c ∧
      c.resolve "badexample.org" = .ok info ∧ info.group = "campus" ∧
      info.pattern = wildcard "example.org" ∧ ¬IsBelow "example.org" "badexample.org" ∧
      ∀ g ∈ c.groups, ∀ e ∈ g.hosts, e.1 ≠ "badexample.org" := by
  have hfound : ((parse Service.Sample.files Sample.twoGroups).run.run {}).1.toOption.map
      (fun c => ((c.resolve "badexample.org").toOption.map fun info => (info.group, info.pattern),
        c.groups.flatMap fun g => g.hosts.map (·.1))) =
      some (some (Text.ofString "campus", wildcard "example.org"),
        [Text.ofString "login.example.org", wildcard "example.org"]) := by
    decide +kernel
  obtain ⟨c, hc, hfound⟩ := Option.map_eq_some_iff.mp hfound
  obtain ⟨hresolve, hpatterns⟩ := Prod.mk.inj hfound
  obtain ⟨info, hinfo, hentry⟩ := Option.map_eq_some_iff.mp hresolve
  obtain ⟨hgroup, hpattern⟩ := Prod.mk.inj hentry
  refine ⟨c, info, Except.toOption_eq_some_iff.mp hc, Except.toOption_eq_some_iff.mp hinfo, hgroup,
    hpattern, Pattern.not_isBelow_of_isStray ⟨"bad", by decide, rfl, .inr (by decide)⟩, ?_⟩
  intro g hg e he heq
  have hmem : e.1 ∈ c.groups.flatMap fun g => g.hosts.map (·.1) :=
    List.mem_flatMap.mpr ⟨g, hg, List.mem_map_of_mem he⟩
  rw [hpatterns, heq] at hmem
  exact absurd hmem (by decide)

end Config

end SshAuthority
