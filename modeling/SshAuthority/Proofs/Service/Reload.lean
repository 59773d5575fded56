/-
SshAuthority/Proofs/Service/Reload.lean

What comes of a reload.

A reload says whether it has put a configuration in force. It says so wherever loading
comes to a configuration or to an error of its own; a defect of loading comes out of the
reload as it is, and the service stays as it was.

Main result: `reload_of_load`.
-/
import SshAuthority.Proofs.Config.Fault
import SshAuthority.Proofs.Service.Issuance

namespace SshAuthority.Service

variable {s : Service} {files : FileTree}

/-- What loading the configuration of the service comes to, with no key loaded before. -/
def loadOutcome (s : Service) (files : FileTree) : Except Failure Config :=
  ((Config.load files s.settings.configPath).run.run {}).1

/-! ### The three ends of a reload -/

theorem reload_of_ok {c : Config} (h : s.loadOutcome files = .ok c) :
    (s.reload files).1 = { s with config := c } ∧ (s.reload files).2.1 = .ok true := by
  unfold loadOutcome at h
  unfold reload
  rcases hrun : (Config.load files s.settings.configPath).run.run {} with ⟨f' | c', loading⟩ <;>
    rw [hrun] at h
  · cases h
  · cases h
    exact ⟨rfl, rfl⟩

theorem reload_of_isOwn {f : Failure} (h : s.loadOutcome files = .error f) (hown : f.IsOwn) :
    (s.reload files).1 = s ∧ (s.reload files).2.1 = .ok false := by
  unfold loadOutcome at h
  unfold reload
  rcases hrun : (Config.load files s.settings.configPath).run.run {} with ⟨f' | c', loading⟩ <;>
    rw [hrun] at h
  · cases h
    rcases hown with ⟨fault, rfl⟩ | ⟨fault, rfl⟩ <;> exact ⟨rfl, rfl⟩
  · cases h

theorem reload_of_defect {d : Defect} (h : s.loadOutcome files = .error (.defect d)) :
    (s.reload files).1 = s ∧ (s.reload files).2.1 = .error d := by
  unfold loadOutcome at h
  unfold reload
  rcases hrun : (Config.load files s.settings.configPath).run.run {} with ⟨f' | c', loading⟩ <;>
    rw [hrun] at h
  · cases h
    exact ⟨rfl, rfl⟩
  · cases h

/-! ### Reloads -/

/-- Loading ends in a configuration, in an error of its own, or in a defect, the last exactly where
the file breaks. A reload answers accordingly, and a reload that does not succeed changes
nothing. -/
theorem reload_of_load (s : Service) (files : FileTree) :
    (∀ f, s.loadOutcome files = .error f →
      f.IsOwn ∨ ∃ d, f = .defect d ∧ Config.Breaks files s.settings.configPath d) ∧
    ((s.reload files).2.1 = .ok true ↔ ∃ c, s.loadOutcome files = .ok c) ∧
    ((s.reload files).2.1 = .ok false ↔ ∃ f, s.loadOutcome files = .error f ∧ f.IsOwn) ∧
    (∀ d, (s.reload files).2.1 = .error d ↔ Config.Breaks files s.settings.configPath d) ∧
    (∀ c, s.loadOutcome files = .ok c → (s.reload files).1 = { s with config := c }) ∧
    ∀ f, s.loadOutcome files = .error f → (s.reload files).1 = s := by
  have hbreaks : ∀ d, Config.Breaks files s.settings.configPath d ↔
      s.loadOutcome files = .error (.defect d) := fun d => Config.load_eq_defect_iff.symm
  simp only [hbreaks]
  rcases hload : s.loadOutcome files with f | c
  · rcases Config.ofLoading_of_load hload with hown | ⟨d, rfl⟩
    · obtain ⟨hservice, hanswer⟩ := reload_of_isOwn hload hown
      have hdefect : ∀ d, f ≠ .defect d := by
        rintro d rfl
        rcases hown with ⟨fault, h⟩ | ⟨fault, h⟩ <;> cases h
      simp [hservice, hanswer, hown, hdefect]
    · obtain ⟨hservice, hanswer⟩ := reload_of_defect hload
      have hown : ¬(Failure.defect d).IsOwn := by
        rintro (⟨fault, h⟩ | ⟨fault, h⟩) <;> cases h
      simp [hservice, hanswer, hown]
  · obtain ⟨hservice, hanswer⟩ := reload_of_ok hload
    simp [hservice, hanswer]

/-! ### A file that is no text -/

/-- A configuration file of one octet that begins no code point. -/
def Sample.strayFiles : FileTree where
  working := []
  homes := ⟨"/root", []⟩
  entries := [([Bytes.ofString "config.ini"], .file [0xFF])]

/-- Loading that file is neither a configuration nor an error of its own, and the reload answers
neither yes nor no. -/
theorem reload_stray :
    (Sample.service Sample.plain).loadOutcome Sample.strayFiles = .error (.defect .undecodable) ∧
      ¬(Failure.defect .undecodable).IsOwn ∧
      ((Sample.service Sample.plain).reload Sample.strayFiles).2.1 = .error .undecodable := by
  have hread : Sample.strayFiles.read (Path.ofText "config.ini") = .ok [0xFF] :=
    Except.toOption_eq_some_iff.mp (by decide)
  have hload : (Sample.service Sample.plain).loadOutcome Sample.strayFiles =
      .error (.defect .undecodable) :=
    Config.load_eq_defect_iff.mpr (.octets hread (by decide))
  refine ⟨hload, ?_, (reload_of_defect hload).2⟩
  rintro (⟨fault, h⟩ | ⟨fault, h⟩) <;> cases h

end SshAuthority.Service
