import LineScript.Double.Basic
import LineScript.Failure

/-!
# Lines

What one line of a script can be: a complete statement, or the header of a block. Each keeps the
line as it was written, without the blanks at its ends.
-/

namespace LineScript

/-- The operands of a condition, which holds if they are loosely equal. -/
structure Condition where
  left : Text
  right : Text
deriving DecidableEq

/-- The control part of a loop with a counter: the name set to `start` at first, and the name that
the loop compares with `stop` before each round. -/
structure Counter where
  name : Text
  start : Text
  check : Text
  stop : Text
deriving DecidableEq

/-- A statement that is complete on its line. -/
inductive Statement
  /-- A blank line, a comment or a directive. -/
  | skip (line : Text)
  | assign (name value : Text) (line : Text)
  | assignList (name : Text) (items : List Text) (line : Text)
  /-- The declaration of a global name. -/
  | declare (kind name value : Text) (line : Text)
  | log (argument : Text) (line : Text)
  /-- A pause of so many milliseconds. -/
  | wait (ms : Double) (line : Text)
  | forLoop (counter : Counter) (body : Statement) (line : Text)
  | invalid (line : Text) (problem : LineProblem)
deriving DecidableEq

namespace Statement

/-- How many loops are one inside the other. -/
def loopDepth : Statement → Nat
  | .forLoop _ body _ => body.loopDepth + 1
  | _ => 0

end Statement

/-- What a header opens. -/
inductive Head
  | ifEqual (c : Condition)
  | elseIfEqual (c : Condition)
  | otherwise
  | during (c : Condition)
deriving DecidableEq

/-- A line that opens a block. The block is on the lines that follow, unless its only statement is
on the line. -/
structure Header where
  head : Head
  inline : Option Text
  line : Text
deriving DecidableEq

/-- A line of a script. -/
inductive Line
  | statement (s : Statement)
  | header (h : Header)
deriving DecidableEq

end LineScript
