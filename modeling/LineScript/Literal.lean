import LineScript.Reference

/-!
# Literals

The right-hand side of an assignment, the items of a list and the operands of a condition are
literals. The forms are tried in the order of `Literal`; every text is a literal, since what has no
other form denotes itself.
-/

namespace LineScript

inductive Literal
  | reference (r : Reference)
  /-- The double at the beginning of the text between two bars. -/
  | real (s : Text)
  /-- The integer at the beginning of the text between two stars. -/
  | integer (s : Text)
  | flag (b : Bool)
  | null
  | quoted (s : Text)
  /-- Nothing counts as zero. -/
  | nothing
  | numeric (n : Numeric)
  | bare (s : Text)

namespace Literal

/-- The form of a text without blanks at its ends. -/
def ofTrimmed (s : Text) : Literal :=
  match Reference.ofText? s with
  | some r => .reference r
  | none =>
  match Text.enclosed? '|' s with
  | some inside => .real inside
  | none =>
  match Text.enclosed? '*' s with
  | some inside => .integer inside
  | none =>
  if s = "_true_".toList then .flag true
  else if s = "_false_".toList then .flag false
  else if s = "_maybe_".toList then .null
  else
  match Text.enclosed? '\x27' s <|> Text.enclosed? '"' s with
  | some inside => .quoted inside
  | none =>
  if s.isEmpty then .nothing
  else
  match Numeric.ofText? s with
  | some n => .numeric n
  | none => .bare s

def ofText (s : Text) : Literal := ofTrimmed (Text.trim s)

def eval (ns : Namespace) : Literal → Except Failure Value
  | .reference r => r.read ns
  | .real s => .ok (.number (.real (Number.readReal s)))
  | .integer s => .ok (.number (Number.readInteger s))
  | .flag b => .ok (.flag b)
  | .null => .ok .null
  | .quoted s => .ok (.text s)
  | .nothing => .ok (.number (.int 0))
  | .numeric n => .ok (.number n.toNumber)
  | .bare s => .ok (.text s)

/-- The value of the literal that a text is. -/
def evalText (ns : Namespace) (s : Text) : Except Failure Value := (ofText s).eval ns

/-- The items between the two marks of a list, without the blanks around them. -/
def splitItems (s : Text) : List Text := (s.splitOn ',').map Text.trim

/-- The items of a list, none if there is nothing between its marks. -/
def listItems (s : Text) : List Text := if (Text.trim s).isEmpty then [] else splitItems s

/-- The values of the items of a list, in order. -/
def evalItems (ns : Namespace) : List Text → Except Failure (List Value)
  | [] => .ok []
  | s :: items => do
    let v ← evalText ns s
    let vs ← evalItems ns items
    return v :: vs

end Literal

end LineScript
