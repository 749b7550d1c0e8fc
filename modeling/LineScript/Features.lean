import LineScript.Failure
import LineScript.Text.Scan

/-!
# Features

A directive is a line that begins with `!implement`, in any case, and a blank. What follows names a
feature; a directive with another name does nothing. The features of a script are those that any of
its lines asks for.
-/

namespace LineScript

/-- The features that a script asks for. -/
structure Features where
  conditions : Bool := false
  looping : Bool := false
  time : Bool := false
  fast : Bool := false
deriving DecidableEq

namespace Features

/-- The features of both. -/
def union (a b : Features) : Features :=
  ⟨a.conditions || b.conditions, a.looping || b.looping, a.time || b.time, a.fast || b.fast⟩

/-- What follows `!implement` and blanks at the beginning of a line. -/
def directive? (line : Text) : Option Text :=
  (Text.afterAnyCase? "!implement".toList line).bind Text.afterBlanks?

/-- Whether a line is a directive, apart from the blanks at its ends. -/
def isDirective (line : Text) : Bool := (directive? (Text.trim line)).isSome

/-- Whether the text begins with a keyword, in any case. -/
def begins (keyword s : Text) : Bool := (Text.afterAnyCase? keyword s).isSome

/-- What follows `condition` and blanks. -/
def condition? (s : Text) : Option Text :=
  (Text.afterAnyCase? "condition".toList s).bind Text.afterBlanks?

/-- The feature that the rest of a directive names. -/
def ofName (s : Text) : Features :=
  if (condition? s).any (begins "normal".toList) then { conditions := true }
  else if (condition? s).any (begins "looping".toList) then { looping := true }
  else if begins "time".toList s then { time := true }
  else if begins "fastmode".toList s then { fast := true }
  else {}

/-- The feature that a line asks for. -/
def ofLine (line : Text) : Features := ((directive? (Text.trim line)).map ofName).getD {}

/-- The features that the lines ask for. -/
def ofLines (lines : List Text) : Features := lines.foldl (fun f line => f.union (ofLine line)) {}

/-- Whether the statements behind a gate may run. -/
def allows (f : Features) : Gate → Bool
  | .conditions => f.conditions
  | .looping => f.looping
  | .time => f.time

/-- Fails at a gate that is closed. -/
def require (f : Features) (gate : Gate) : Except Failure Unit :=
  if f.allows gate then .ok () else .error (.disabled gate)

end Features

end LineScript
