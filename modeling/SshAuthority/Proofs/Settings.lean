/-
SshAuthority/Proofs/Settings.lean

Which environments the service starts in, and what is known of its settings then.

Four things are looked at, in this order: that the port is a whole number, that the timeout
is a number, that the command has more than blanks, and that the timeout is not at most
zero. Each has its fault, and an environment gives either settings that pass or the fault of
the first that is wrong (`Environment.Refuses`). Settings that pass have a command that is
not blank; their timeout is above zero unless it is `nan`, which is on no side of zero, and
it is `nan` exactly if its variable names it.

Main results: `fit_of_check`, `nan_accepted`.
-/
import SshAuthority.Service.Basic
import SshAuthority.Outcome
import SshAuthority.Proofs.Number.Sign

namespace SshAuthority

/-! ### The variables that are checked -/

namespace Environment

variable (env : Environment)

/-- The text that the port is read from. -/
def portText : Text := env.value "OINIT_CA_PORT" "8080"

/-- The text that the timeout is read from. -/
def timeoutText : Text := env.value "OINIT_CA_UPSTREAM_TIMEOUT" "10"

/-- The command forced on every certificate. -/
def commandText : Text := env.value "OINIT_CA_FORCE_COMMAND" "oinit-switch"

/-- The first thing that is wrong with the variables. -/
inductive Refuses : ConfigFault → Prop
  | port {fault : Decimal.Fault} (h : Decimal.read env.portText = .error fault) :
      Refuses (.badPort fault)
  | timeout {port : Int} (hport : Decimal.read env.portText = .ok port)
      (h : Real64.read? env.timeoutText = none) : Refuses (.badTimeout env.timeoutText)
  | command {port : Int} {x : Real64} (hport : Decimal.read env.portText = .ok port)
      (hx : Real64.read? env.timeoutText = some x)
      (h : ∀ c ∈ env.commandText, c.isBlank = true) : Refuses .blankCommand
  | sign {port : Int} {x : Real64} (hport : Decimal.read env.portText = .ok port)
      (hx : Real64.read? env.timeoutText = some x)
      (hcommand : ∃ c ∈ env.commandText, c.isBlank = false)
      (hpositive : ¬x.IsPositive) (hnan : x ≠ .nan) : Refuses .shortTimeout

end Environment

namespace Settings

variable {env : Environment} {s : Settings}

/-! ### Reading -/

theorem ofEnvironment_of_badPort {fault : Decimal.Fault}
    (h : Decimal.read env.portText = .error fault) :
    ofEnvironment env = .error (.badPort fault) := by
  unfold ofEnvironment
  rw [show Decimal.read (env.value "OINIT_CA_PORT" "8080") = .error fault from h]
  rfl

theorem ofEnvironment_of_badTimeout {port : Int} (hport : Decimal.read env.portText = .ok port)
    (h : Real64.read? env.timeoutText = none) :
    ofEnvironment env = .error (.badTimeout env.timeoutText) := by
  unfold ofEnvironment
  rw [show Decimal.read (env.value "OINIT_CA_PORT" "8080") = .ok port from hport]
  dsimp only
  rw [show Real64.read? (env.value "OINIT_CA_UPSTREAM_TIMEOUT" "10") = none from h]
  rfl

/-- Numbers that can be read are in the settings, and the command as it stands. -/
theorem exists_ofEnvironment {port : Int} {x : Real64}
    (hport : Decimal.read env.portText = .ok port) (hx : Real64.read? env.timeoutText = some x) :
    ∃ s, ofEnvironment env = .ok s ∧ s.timeout = x ∧ s.forceCommand = env.commandText := by
  unfold ofEnvironment
  rw [show Decimal.read (env.value "OINIT_CA_PORT" "8080") = .ok port from hport]
  dsimp only
  rw [show Real64.read? (env.value "OINIT_CA_UPSTREAM_TIMEOUT" "10") = some x from hx]
  exact ⟨_, rfl, rfl, rfl⟩

/-- Settings come from variables whose numbers can be read. -/
theorem timeout_of_ofEnvironment (h : ofEnvironment env = .ok s) :
    Real64.read? env.timeoutText = some s.timeout := by
  rcases hport : Decimal.read env.portText with fault | port
  · rw [ofEnvironment_of_badPort hport] at h
    cases h
  · rcases hx : Real64.read? env.timeoutText with - | x
    · rw [ofEnvironment_of_badTimeout hport hx] at h
      cases h
    · obtain ⟨s', hs, htimeout, -⟩ := exists_ofEnvironment hport hx
      obtain rfl := Except.ok.inj (hs.symm.trans h)
      rw [htimeout]

/-! ### Checking -/

theorem isBlank_eq_false_iff {t : Text} : t.isBlank = false ↔ ∃ c ∈ t, c.isBlank = false := by
  unfold Text.isBlank
  rw [List.all_eq_false]
  simp only [Bool.not_eq_true]

/-- Settings pass if the command is not blank and the timeout is not at most zero. -/
theorem check_eq_ok_iff :
    s.check = .ok () ↔ (∃ c ∈ s.forceCommand, c.isBlank = false) ∧
      (s.timeout.IsPositive ∨ s.timeout = .nan) := by
  rw [← isBlank_eq_false_iff, ← Real64.isNonPositive_eq_false_iff]
  unfold check
  split
  · next hblank => simp [hblank]
  · next hblank =>
    split
    · next hsign => simp [hsign]
    · next hsign => simp [hblank, hsign]

theorem check_of_blank (h : ∀ c ∈ s.forceCommand, c.isBlank = true) :
    s.check = .error .blankCommand :=
  if_pos (List.all_eq_true.mpr h)

theorem check_of_not_isPositive (hcommand : ∃ c ∈ s.forceCommand, c.isBlank = false)
    (hpositive : ¬s.timeout.IsPositive) (hnan : s.timeout ≠ .nan) :
    s.check = .error .shortTimeout := by
  have hsign : s.timeout.isNonPositive = true := by
    rw [← Bool.not_eq_false, Real64.isNonPositive_eq_false_iff]
    exact not_or.mpr ⟨hpositive, hnan⟩
  unfold check
  rw [isBlank_eq_false_iff.mpr hcommand, if_neg Bool.false_ne_true, if_pos hsign]

/-! ### Accepted or refused -/

/-- What is wrong with the variables is what reading and checking them ends in. -/
theorem refused_of_refuses {fault : ConfigFault} (h : env.Refuses fault) :
    (ofEnvironment env >>= check) = .error fault := by
  cases h with
  | port hport =>
    rw [ofEnvironment_of_badPort hport]
    rfl
  | timeout hport hx =>
    rw [ofEnvironment_of_badTimeout hport hx]
    rfl
  | command hport hx hblank =>
    obtain ⟨s, hs, -, hcommand⟩ := exists_ofEnvironment hport hx
    rw [hs]
    exact check_of_blank (hcommand ▸ hblank)
  | sign hport hx hcommand hpositive hnan =>
    obtain ⟨s, hs, rfl, hs'⟩ := exists_ofEnvironment hport hx
    rw [hs]
    exact check_of_not_isPositive (hs' ▸ hcommand) hpositive hnan

/-- Variables with which nothing is wrong give settings that pass. -/
theorem accepted_or_refuses (env : Environment) :
    (∃ s, ofEnvironment env = .ok s ∧ s.check = .ok ()) ∨ ∃ fault, env.Refuses fault := by
  rcases hport : Decimal.read env.portText with fault | port
  · exact .inr ⟨_, .port hport⟩
  rcases hx : Real64.read? env.timeoutText with - | x
  · exact .inr ⟨_, .timeout hport hx⟩
  rcases hblank : Text.isBlank env.commandText with - | -
  · have hcommand := isBlank_eq_false_iff.mp hblank
    by_cases hsign : x.IsPositive ∨ x = .nan
    · obtain ⟨s, hs, rfl, hs'⟩ := exists_ofEnvironment hport hx
      exact .inl ⟨s, hs, check_eq_ok_iff.mpr ⟨hs' ▸ hcommand, hsign⟩⟩
    · obtain ⟨hpositive, hnan⟩ := not_or.mp hsign
      exact .inr ⟨_, .sign hport hx hcommand hpositive hnan⟩
  · exact .inr ⟨_, .command hport hx (List.all_eq_true.mp hblank)⟩

/-- The service does not start with settings that do not pass. -/
theorem start_of_refuses {fault : ConfigFault} (h : env.Refuses fault) (platform : Platform)
    (files : FileTree) : Service.start platform env files = .error (.config fault) := by
  have hconfigure : Service.configure env = .error (.config fault) := by
    rcases Except.bind_eq_error_iff.mp (refused_of_refuses h) with h | ⟨s, hs, h⟩
    · unfold Service.configure
      rw [h]
      rfl
    · unfold Service.configure
      rw [hs]
      show ((s.check.mapError Failure.config) >>= fun _ => _) = _
      rw [h]
      rfl
  unfold Service.start
  rw [hconfigure]
  rfl

/-- Settings that pass have a command with more than blanks in it, and a timeout that is above
zero unless its variable names the undefined number; an environment gives such settings or
one of four faults, by what is wrong with its variables, and then the service does not
start. -/
theorem fit_of_check (env : Environment) :
    (∀ s, ofEnvironment env = .ok s → s.check = .ok () →
      (∃ c ∈ s.forceCommand, c.isBlank = false) ∧
      (s.timeout.IsPositive ↔ ¬Real64.SpellsNan env.timeoutText) ∧
      (¬s.timeout.IsPositive → s.timeout = .nan)) ∧
    ((∃ s, ofEnvironment env = .ok s ∧ s.check = .ok ()) ∨
      ∃ fault, env.Refuses fault ∧ (ofEnvironment env >>= check) = .error fault ∧
        ∀ platform files, Service.start platform env files = .error (.config fault)) := by
  constructor
  · intro s hs hcheck
    obtain ⟨hcommand, hsign⟩ := check_eq_ok_iff.mp hcheck
    refine ⟨hcommand, ?_, fun h => hsign.resolve_left h⟩
    rw [← Real64.read?_eq_nan_iff, timeout_of_ofEnvironment hs, Option.some.injEq]
    constructor
    · intro hpositive hnan
      rw [hnan] at hpositive
      exact Real64.not_isPositive_nan hpositive
    · exact fun hnan => hsign.resolve_right hnan
  · rcases accepted_or_refuses env with h | ⟨fault, h⟩
    · exact .inl h
    · exact .inr ⟨fault, h, refused_of_refuses h, start_of_refuses h⟩

/-- An environment that sets nothing gives settings that pass, with a timeout above zero. -/
theorem fit_sample : ∃ s, ofEnvironment [] = .ok s ∧ s.check = .ok () ∧
    (∃ c ∈ s.forceCommand, c.isBlank = false) ∧ s.timeout.IsPositive := by
  obtain ⟨s, hs, hcheck⟩ : ∃ s, ofEnvironment [] = .ok s ∧ s.check = .ok () := ⟨_, rfl, rfl⟩
  obtain ⟨hcommand, hpositive, -⟩ := (fit_of_check []).1 s hs hcheck
  refine ⟨s, hs, hcheck, hcommand, hpositive.mpr fun hnan => ?_⟩
  have hten : Real64.read? (Environment.timeoutText []) ≠ some .nan := by decide
  exact hten (Real64.read?_eq_nan_iff.mpr hnan)

/-- The negative zero is refused as zero is. -/
example : (ofEnvironment [("OINIT_CA_UPSTREAM_TIMEOUT", " -0_0.0 ")] >>= check) =
    .error .shortTimeout := rfl

/-- A timeout of the undefined number passes, and is not above zero. -/
theorem nan_accepted : ∃ s, ofEnvironment [("OINIT_CA_UPSTREAM_TIMEOUT", "nan")] = .ok s ∧
    s.check = .ok () ∧ ¬s.timeout.IsPositive :=
  ⟨_, rfl, rfl, Real64.not_isPositive_nan⟩

end Settings

end SshAuthority
