/-
SshAuthority/Service/RateLimit.lean

How often a client may ask for certificates on one path.

Calls are counted in windows. A window opens with the first call for its client
and path, and is over when its time has passed; the next call opens another. All
calls count, those that are refused too.
-/
import SshAuthority.Text.CodePoint

namespace SshAuthority

/-- Whose calls are counted together. -/
structure RateKey where
  client : Text
  path : Text
  deriving DecidableEq

/-- The calls counted so far. -/
structure RateWindow where
  key : RateKey
  /-- The first moment at which the window is over. -/
  expires : Rat
  count : Nat
  deriving DecidableEq

/-- The windows that were opened, at most one for a key. -/
abbrev RateWindows := List RateWindow

/-- How often a client may ask. -/
structure Quota where
  /-- The calls that one window admits. -/
  limit : Nat
  /-- The length of a window in seconds. -/
  period : Rat
  deriving DecidableEq

/-- The quota where nothing else is said. -/
def Quota.standard : Quota := ⟨30, 60⟩

namespace RateWindows

/-- The open window of a key. -/
def find? (windows : RateWindows) (now : Rat) (key : RateKey) : Option RateWindow :=
  List.find? (fun w => w.key = key && now < w.expires) windows

/-- The window of a key after one call more. -/
def next (windows : RateWindows) (now : Rat) (key : RateKey) (quota : Quota) : RateWindow :=
  match windows.find? now key with
  | some w => { w with count := w.count + 1 }
  | none => ⟨key, now + quota.period, 1⟩

/-- The windows after a call. -/
def hit (windows : RateWindows) (now : Rat) (key : RateKey) (quota : Quota) : RateWindows :=
  windows.next now key quota :: List.filter (·.key ≠ key) windows

/-- Whether a call is admitted. -/
def admits (windows : RateWindows) (now : Rat) (key : RateKey) (quota : Quota) : Bool :=
  (windows.next now key quota).count ≤ quota.limit

end RateWindows

end SshAuthority
