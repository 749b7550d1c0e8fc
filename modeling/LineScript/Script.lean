import LineScript.Session.Run

/-!
# Scripts

A script is run from an empty session, in the dialect and under the features that its own lines ask
for. A failure is reported and also written as the last line of the output.
-/

namespace LineScript

/-- What a run of a script gives. -/
structure Report where
  features : Features
  /-- The lines written, and the line about the failure if there is one. -/
  lines : List Text
  failure : Option Failure
  sleeps : List Double

namespace Report

/-- The lines as one text. -/
def text (r : Report) : Text := ['\n'].intercalate r.lines

/-- The line that is written about a failure. -/
def failureLine (f : Failure) : Text := "Error: ".toList ++ f.message

/-- The report of a run that ended so. An exception is not reported. -/
def ofOutcome (features : Features) (o : Outcome) : Except Exception Report :=
  let s := o.session
  match o.stop with
  | none => .ok ⟨features, s.output.toList, none, s.sleeps.toList⟩
  | some (.failure f) =>
    .ok ⟨features, (s.write (failureLine f)).output.toList, some f, s.sleeps.toList⟩
  | some (.exception e) => .error e

end Report

namespace Script

/-- The lines of a script. -/
def lines (code : Text) : List Text := code.splitOn '\n'

/-- Runs a script under limits, from a time on the clock. -/
def run [Host] (limits : Limits) (clock : Double) (code : Text) : Except Exception Report :=
  let features := Features.ofLines (lines code)
  let rules : Rules := ⟨features, limits⟩
  let start : Session := { clock := clock }
  Report.ofOutcome features
    (if features.fast then start.runFast rules (lines code)
      else start.runStandard rules (lines code))

end Script

end LineScript
