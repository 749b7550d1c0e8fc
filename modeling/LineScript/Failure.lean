import LineScript.Number.Layout
import LineScript.Text.Quoted

/-!
# Failures

Why a script stops, as causes. Each cause has a stable code and a message, and some name the line at
fault. An exception of the host is no cause of this kind: it leaves the run (`Stop`), unless an
expression makes it a failure of its own.
-/

namespace LineScript

/-- A group of statements that a script has to ask for. -/
inductive Gate
  | conditions
  | looping
  | time
deriving DecidableEq

/-- What is wrong with a line. -/
inductive LineProblem
  /-- It has the form of no statement. -/
  | unknown
  /-- It opens a block where a loop has its single statement. -/
  | loopBody
  /-- The block that `header` opens, at the line or in its chain, is never closed. -/
  | unclosed (header : Text)
deriving DecidableEq

/-- What is wrong with an expression. -/
inductive ExpressionProblem
  /-- No token begins with `c`. -/
  | character (c : Char)
  | empty
  | ended
  /-- The token written `token` cannot stand where it does. -/
  | unexpected (token : Text)
  /-- A bracket is not closed here. -/
  | bracket
  /-- An exception was raised, one that expressions report. -/
  | exception (e : Exception) (reported : e.isReported = true)
deriving DecidableEq

/-- A pause that is longer than the limit. -/
structure LongPause where
  ms : Double
  limit : Int
deriving DecidableEq

/-- Why a script stops. -/
inductive Failure
  | undefinedVariable (name : Text)
  | undefinedList (name : Text)
  /-- An item was asked of a value that is no list. -/
  | notAList (name index : Text)
  | outOfRange (name index : Text) (length : Nat)
  | disabled (gate : Gate)
  | waitTooLong (pause : LongPause)
  /-- An `Else` or `Else If` that follows no `If`. -/
  | dangling (line : Text) (elseIf : Bool)
  | invalid (line : Text) (problem : LineProblem)
  /-- No line from the one at `start` on opens a block. -/
  | noBlock (start : Nat)
  /-- An expression, the argument of a statement if `argument` is given, is wrong at a column. -/
  | expression (argument : Option Text) (problem : ExpressionProblem) (column : Option Nat)
  | tooDeep
deriving DecidableEq

/-- Why an operation on values has no result. -/
inductive Fault
  | tooDeep
  | exception (e : Exception)
deriving DecidableEq

/-- Why a run stops: a failure of the script, which is reported, or an exception, which leaves the
run. -/
inductive Stop
  | failure (f : Failure)
  | exception (e : Exception)
deriving DecidableEq

namespace Gate

def message : Gate → Text
  | .conditions => "Normal conditions not enabled! Use !implement condition normal".toList
  | .looping => "Looping conditions not enabled! Use !implement condition looping".toList
  | .time => "Time features not enabled! Use !implement time".toList

end Gate

namespace LineProblem

/-- The message about `line`. -/
def message (line : Text) : LineProblem → Text
  | .unknown => "Unknown instruction or syntax: \"".toList ++ line ++ ['"']
  | .loopBody => "For loop body must be a single statement: \"".toList ++ line ++ ['"']
  | .unclosed header => "Missing closing '\x7d' for block: ".toList ++ header

end LineProblem

namespace ExpressionProblem

def message : ExpressionProblem → Text
  | .character c => "Unexpected character ".toList ++ Text.quote [c]
  | .empty => "Empty expression".toList
  | .ended => "Unexpected end of expression".toList
  | .unexpected token => "Unexpected ".toList ++ Text.quote token
  | .bracket => "Expected ')'".toList
  | .exception e _ => e.message

end ExpressionProblem

namespace Failure

def message : Failure → Text
  | .undefinedVariable name => "Variable [".toList ++ name ++ "] is not defined.".toList
  | .undefinedList name => "List /".toList ++ name ++ "/ is not defined.".toList
  | .notAList name index =>
    '/' :: name ++ "/ is not a list; cannot read index ".toList ++ index ++ ['.']
  | .outOfRange name index length =>
    "Index ".toList ++ index ++ " is out of range for list /".toList ++ name ++
      "/ (length ".toList ++ Text.ofNat length ++ ").".toList
  | .disabled gate => gate.message
  | .waitTooLong pause =>
    "wait() duration exceeds the maximum of ".toList ++ Text.ofInt pause.limit ++ " ms.".toList
  | .dangling _ elseIf =>
    (if elseIf then "Else If" else "Else").toList ++ " without preceding If block!".toList
  | .invalid line problem => problem.message line
  | .noBlock start => "No block opens at line ".toList ++ Text.ofNat (start + 1)
  | .expression none problem _ => problem.message
  | .expression (some argument) problem _ =>
    "Error evaluating log argument: ".toList ++ argument ++ ": ".toList ++ problem.message
  | .tooDeep => "Blocks are nested too deeply.".toList

/-- The stable name of the kind of failure. -/
def code : Failure → Text
  | .undefinedVariable _ => "UNDEFINED_VARIABLE".toList
  | .undefinedList _ => "UNDEFINED_LIST".toList
  | .notAList _ _ | .outOfRange _ _ _ => "INDEX_OUT_OF_RANGE".toList
  | .disabled _ => "FEATURE_NOT_ENABLED".toList
  | .waitTooLong _ => "WAIT_LIMIT".toList
  | .dangling _ _ => "DANGLING_BRANCH".toList
  | .invalid _ _ | .noBlock _ | .tooDeep => "SYNTAX_ERROR".toList
  | .expression _ _ _ => "EXPRESSION_ERROR".toList

/-- The line at fault, where the failure is about a line. -/
def line? : Failure → Option Text
  | .dangling line _ | .invalid line _ => some line
  | _ => none

end Failure

namespace Failure

/-- A result, with its failure as what stops the run. -/
def lift {α : Type} (result : Except Failure α) : Except Stop α := result.mapError .failure

end Failure

namespace Fault

def stop : Fault → Stop
  | .tooDeep => .failure .tooDeep
  | .exception e => .exception e

/-- A result, with its fault as what stops the run. -/
def lift {α : Type} (result : Except Fault α) : Except Stop α := result.mapError stop

end Fault

namespace Stop

/-- What an expression makes of a stop inside it: an exception that it reports is its own failure,
without a column. -/
def ofExpression : Stop → Stop
  | .failure f => .failure f
  | .exception e =>
    if h : e.isReported then .failure (.expression none (.exception e h) none) else .exception e

/-- What stops the run at a pause that is longer than the limit. The message about it has the limit
in it, which may have too many digits. -/
def longPause [Host] (pause : LongPause) : Stop :=
  match Text.write? pause.limit with
  | .ok _ => .failure (.waitTooLong pause)
  | .error e => .exception e

end Stop

end LineScript
