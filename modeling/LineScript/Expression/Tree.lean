import LineScript.Expression.Token
import LineScript.Value.Operation

/-!
# Expressions

An expression is a tree over numerals, quoted texts, words and references. Where the tokens cannot
be continued the tree has a stop, so that every list of tokens has a tree; evaluation goes from left
to right and stops at the first stop, unknown name or exception that it meets.
-/

namespace LineScript

inductive Operator
  | add
  | sub
  | mul
  | div
  | rem
deriving DecidableEq

namespace Operator

def apply [Host] : Operator → Value → Value → Except Fault Value
  | .add => Value.add
  | .sub => Value.sub
  | .mul => Value.mul
  | .div => Value.div
  | .rem => Value.rem

end Operator

inductive Expression
  | number (n : Numeral)
  | text (s : Text)
  | word (w : Word)
  | reference (r : Reference)
  | signed (sign : Sign) (operand : Expression)
  | binary (op : Operator) (left right : Expression)
  /-- The evaluation stops here. -/
  | stop (f : Failure)
  /-- The evaluation stops after the expression. -/
  | stopAfter (e : Expression) (f : Failure)
deriving DecidableEq

namespace Expression

/-- A number under a sign. -/
def applySign : Sign → Number → Number
  | .plus, n => n
  | .minus, n => n.neg

/-- The value of an expression. -/
def eval [Host] (ns : Namespace) : Expression → Except Stop Value
  | .number n => .ok (.number (n.toNumber none))
  | .text s => .ok (.text s)
  | .word w => .ok w.value
  | .reference r => Failure.lift (r.read ns)
  | .signed sign operand => do
    let v ← operand.eval ns
    let n ← Fault.lift v.number?
    return .number (applySign sign n)
  | .binary op left right => do
    let v ← left.eval ns
    let w ← right.eval ns
    Fault.lift (op.apply v w)
  | .stop f => .error (.failure f)
  | .stopAfter e f => do
    let _ ← e.eval ns
    throw (.failure f)

end Expression

end LineScript
