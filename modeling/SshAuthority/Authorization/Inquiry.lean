/-
SshAuthority/Authorization/Inquiry.lean

Computations that put one question to an authorization service.

The service knows nothing of a reply but what comes back, so the computation is
given as the request, if there is one, and a function of the reply. Whatever it
has read before it asks is part of that function; a change of the surroundings
while the reply is under way does not reach it.
-/
import SshAuthority.Failure
import SshAuthority.Log.Record
import SshAuthority.Number.RealText

namespace SshAuthority

/-- A request to an authorization service; the method is always GET. -/
structure Outgoing where
  url : Text
  /-- The header that names who asks. -/
  authorization : Option Text
  /-- How many seconds to wait for the reply. -/
  timeout : Real64
  deriving DecidableEq

/-- What comes back. -/
inductive Reply where
  /-- Nothing: the request or the reply was lost. The words are those of the fault, which may be
  any; some transports repeat in them what they were to send. -/
  | lost (words : Text)
  | response (status : Nat) (body : Bytes)
  deriving DecidableEq

/-- Whether the status of a response means success. -/
def isSuccess (status : Nat) : Bool := 200 ≤ status && status < 300

/-- A result with the records written on the way. -/
structure Logged (α : Type) where
  result : Except Failure α
  records : List Log.Record

namespace Logged

variable {α β : Type}

/-- A result without records. -/
def pure (value : α) : Logged α := ⟨.ok value, []⟩

/-- A failure without records. -/
def fail (f : Failure) : Logged α := ⟨.error f, []⟩

/-- What follows on a result, with the records of both; nothing follows on a failure. -/
def andThen (a : Logged α) (next : α → Logged β) : Logged β :=
  match a.result with
  | .ok value => ⟨(next value).result, a.records ++ (next value).records⟩
  | .error f => ⟨.error f, a.records⟩

end Logged

/-- A computation that asks at most once. -/
inductive Inquiry (α : Type) where
  | done (value : α)
  | ask (request : Outgoing) (next : Reply → α)

namespace Inquiry

/-- The computation with a function applied to what it yields. -/
def map {α β : Type} (f : α → β) : Inquiry α → Inquiry β
  | done value => done (f value)
  | ask request next => ask request (f ∘ next)

/-- What the computation yields if questions are answered in this way. -/
def run {α : Type} (answer : Outgoing → Reply) : Inquiry α → α
  | done value => value
  | ask request next => next (answer request)

/-- The requests that the computation sends: one or none. -/
def requests {α : Type} : Inquiry α → List Outgoing
  | done _ => []
  | ask request _ => [request]

@[simp]
theorem run_map {α β : Type} (f : α → β) (answer : Outgoing → Reply) (q : Inquiry α) :
    (q.map f).run answer = f (q.run answer) := by
  cases q <;> rfl

@[simp]
theorem requests_map {α β : Type} (f : α → β) (q : Inquiry α) :
    (q.map f).requests = q.requests := by
  cases q <;> rfl

end Inquiry

end SshAuthority
