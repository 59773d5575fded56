/-
SshAuthority/Log/Line.lean

Log records as lines.

In JSON a record is one object, written in printable ASCII, so no text in it can
begin a new line. In plain text it is time, level, logger and message, and the
trouble it reports on lines of its own.
-/
import SshAuthority.Log.Record
import SshAuthority.Json.Writer

namespace SshAuthority.Log

/-- The two forms of lines. -/
inductive Form where
  | json
  | plain
  deriving DecidableEq

/-- The form of a setting: JSON if it says so, plain otherwise. -/
def Form.ofSetting (t : Text) : Form := if t = "json" then .json else .plain

/-- An exception in words. -/
def raisedText (kind text : Text) : Text :=
  if text.isEmpty then kind else kind ++ [0x3A, 0x20] ++ text

/-- The exception that a record reports, as an entry. -/
def Trouble.entries : Trouble → Table Json
  | .raised kind text => [("exception", .text (raisedText kind text))]
  | _ => []

/-- The JSON object of a record. -/
def Record.toJson (timestamp : Text) (r : Record) : Json :=
  let always : Table Json :=
    [("timestamp", .text timestamp), ("level", .text r.level.text), ("logger", .text r.logger),
      ("message", .text r.message)]
  .object (always ++ r.trouble.entries ++ r.extras.entries)

/-- The line of a record in JSON. -/
def Record.jsonLine (timestamp : Text) (r : Record) : Text := (r.toJson timestamp).write

/-- The line of a record in JSON; there is none if a whole number in it is too long to be
written. -/
def Record.jsonLine? (timestamp : Text) (r : Record) : Except Defect Text :=
  if (r.toJson timestamp).isWritable then .ok (r.jsonLine timestamp) else .error .badValue

/-! ### Plain lines -/

/-- Year, month and day of the day with the given number, counted from 1970-01-01. -/
def civilDate (day : Int) : Int × Nat × Nat :=
  -- years begin in March and are grouped into eras of 400, so leap days come last
  let shifted := day + 719468
  let era := shifted.fdiv 146097
  let dayOfEra := (shifted.fmod 146097).toNat
  let yearOfEra :=
    (dayOfEra - dayOfEra / 1460 + dayOfEra / 36524 - dayOfEra / 146096) / 365
  let dayOfYear := dayOfEra - (365 * yearOfEra + yearOfEra / 4 - yearOfEra / 100)
  let monthFromMarch := (5 * dayOfYear + 2) / 153
  let dayOfMonth := dayOfYear - (153 * monthFromMarch + 2) / 5 + 1
  let month := if monthFromMarch < 10 then monthFromMarch + 3 else monthFromMarch - 9
  let year := (yearOfEra : Int) + era * 400 + (if month ≤ 2 then 1 else 0)
  (year, month, dayOfMonth)

/-- Date and time of day of a second counted from 1970, in universal time. -/
def timeText (second : Int) : Text :=
  let (year, month, day) := civilDate (second.fdiv 86400)
  let rest := (second.fmod 86400).toNat
  let date := Text.join "-" [Decimal.ofInt year, Decimal.padded 2 month, Decimal.padded 2 day]
  let time := Text.join ":" ([rest / 3600, rest / 60 % 60, rest % 60].map (Decimal.padded 2))
  date ++ [0x20] ++ time

/-- The line and what follows it, on a line of its own. -/
def withTrouble (line : Text) : Trouble → Text
  | .none => line
  | .absent => onNewLine "NoneType: None"
  | .raised kind text => onNewLine (raisedText kind text)
where
  /-- The text after the line, set off by one line feed. -/
  onNewLine (text : Text) : Text :=
    if line.getLast? = some 0x0A then line ++ text else line ++ [0x0A] ++ text

/-- The plain line of a record made at the given second. -/
def Record.plainLine (second : Int) (r : Record) : Text :=
  let level := r.level.text
  withTrouble
    (timeText second ++ [0x20] ++ level ++ List.replicate (8 - level.length) 0x20 ++ [0x20] ++
      r.logger ++ [0x3A, 0x20] ++ r.message)
    r.trouble

/-! ### The setting -/

/-- What the log is set to. -/
structure Setting where
  level : Level
  form : Form
  deriving DecidableEq

/-- The setting of two texts. -/
def Setting.ofTexts (level form : Text) : Except Defect Setting := do
  return ⟨← Level.ofSetting level, .ofSetting form⟩

/-- Whether records of the level are kept; everything is at level zero. -/
def Setting.keeps (s : Setting) (level : Level) : Bool := s.level ≤ level

/-- Loggers of libraries that speak up from warnings on only. -/
def quietLoggers : Table Level :=
  [("asyncssh", Level.warning), ("httpx", Level.warning), ("uvicorn.access", Level.warning)]

end SshAuthority.Log
