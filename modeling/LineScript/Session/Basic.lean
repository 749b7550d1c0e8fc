import LineScript.Double.Arithmetic
import LineScript.Features
import LineScript.Namespace
import LineScript.Value.Operation

/-!
# Sessions

What a run changes: the names, the output, the pauses made and the clock. Every step ends in an
`Outcome`, which keeps the session also when the step stops the run, so that nothing done before is
lost. New lists take their identity from a counter.
-/

namespace LineScript

/-- How many rounds the loops may make, and how long a single pause may be. -/
structure Limits where
  during : Int := 1000
  loop : Int := 10000
  /-- In milliseconds. -/
  wait : Int := 3600000
deriving DecidableEq

/-- What a run may do. -/
structure Rules where
  features : Features := {}
  limits : Limits := {}

/-- The state of a run. -/
structure Session where
  names : Namespace := {}
  output : Array Text := #[]
  /-- The pauses made, in seconds. -/
  sleeps : Array Double := #[]
  /-- The seconds on the clock. -/
  clock : Double := Double.zero false
  /-- The identity of the next list. -/
  nextList : Nat := 0

/-- The session after a step, and why the run stops there, if it does. -/
structure Outcome where
  session : Session
  stop : Option Stop := none

namespace Session

/-- Goes on with a result, or stops. -/
@[inline] def proceed {α : Type} (s : Session) (result : Except Stop α) (next : α → Outcome) :
    Outcome :=
  match result with
  | .ok a => next a
  | .error stop => ⟨s, some stop⟩

/-- Goes on with a result, or fails. -/
@[inline] def attempt {α : Type} (s : Session) (result : Except Failure α) (next : α → Outcome) :
    Outcome :=
  s.proceed (Failure.lift result) next

/-- Adds a line to the output. -/
def write (s : Session) (line : Text) : Session := { s with output := s.output.push line }

/-- Adds a value to the output. -/
def emit [Host] (s : Session) (v : Value) : Outcome :=
  s.proceed (Fault.lift v.render?) fun line => ⟨s.write line, none⟩

/-- Gives a name a value. -/
def assign (s : Session) (name : Text) (v : Value) : Session :=
  { s with names := s.names.set name v }

/-- Gives a name a new list. -/
def assignList (s : Session) (name : Text) (items : List Value) : Session :=
  { s with names := s.names.set name (.list s.nextList items), nextList := s.nextList + 1 }

/-- The session after a pause. -/
def afterPause (s : Session) (seconds : Double) : Session :=
  { s with sleeps := s.sleeps.push seconds, clock := s.clock.add seconds }

/-- Lets time pass, if the host makes the pause. -/
def sleep [Host] (s : Session) (seconds : Double) : Outcome :=
  match Host.refusal? seconds with
  | some message => ⟨s, some (.exception (.pause message))⟩
  | none => ⟨s.afterPause seconds, none⟩

/-- The whole milliseconds on the clock. -/
def milliseconds? (s : Session) : Except Exception Int :=
  let ms := s.clock.mul (.ofInt 1000)
  Exception.ofOption (.clock ms.isInfinite) ms.truncate?

end Session

end LineScript
