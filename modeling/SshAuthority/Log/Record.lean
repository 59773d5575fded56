/-
SshAuthority/Log/Record.lean

Log records, their levels, and the setting that says which are kept.

A record carries its message and up to four fields that a reader of the log can
search for: the requested host, the host group, the certificate's serial number
and the reason of a rejection.
-/
import SshAuthority.Json.Value
import SshAuthority.Text.Capital
import SshAuthority.Defect

namespace SshAuthority.Log

/-! ### Levels -/

/-- How grave a record is. -/
abbrev Level := Int

namespace Level

/-- Details of single steps. -/
def debug : Level := 10

/-- What the service did. -/
def info : Level := 20

/-- What went wrong elsewhere. -/
def warning : Level := 30

/-- What went wrong here. -/
def error : Level := 40

/-- What ends the service. -/
def critical : Level := 50

/-- The level as lines show it. -/
def text (level : Level) : Text :=
  if level = critical then "CRITICAL"
  else if level = error then "ERROR"
  else if level = warning then "WARNING"
  else if level = info then "INFO"
  else if level = debug then "DEBUG"
  else if level = 0 then "NOTSET"
  else "Level " ++ Decimal.ofInt level

/-- The names that a setting may give to levels. -/
def names : Table Level :=
  [("CRITICAL", critical), ("FATAL", critical), ("ERROR", error), ("WARNING", warning),
    ("WARN", warning), ("INFO", info), ("DEBUG", debug), ("NOTSET", 0)]

/-- The level of a setting, in letters of any case; names that mean nothing give
`info`. Two words are reserved and no levels. -/
def ofSetting (t : Text) : Except Defect Level :=
  match t.asciiCapital? with
  | none => .ok info
  | some name =>
    if name = "BASIC_FORMAT" then .error .badValue
    else if name = "_STYLES" then .error .wrongType
    else .ok ((Table.get? name names).getD info)

end Level

/-! ### Records -/

/-- The fields of a record beside its message. -/
structure Extras where
  host : Option Json := none
  group : Option Json := none
  serial : Option Json := none
  reason : Option Json := none

/-- A named field, if it is there. -/
def extraEntry (name : Text) (value : Option Json) : Table Json :=
  (value.map (name, ·)).toList

/-- The fields that are there, by name. -/
def Extras.entries (extras : Extras) : Table Json :=
  extraEntry "host" extras.host ++ extraEntry "group" extras.group ++
    extraEntry "serial" extras.serial ++ extraEntry "reason" extras.reason

/-- The trouble that a record reports. -/
inductive Trouble where
  | none
  /-- There was room for it, but there was none. -/
  | absent
  /-- An exception of a kind, with its text. -/
  | raised (kind text : Text)

/-- A log record. -/
structure Record where
  level : Level
  logger : Text
  message : Text
  extras : Extras := {}
  trouble : Trouble := .none

end SshAuthority.Log
