import LineScript.Features
import LineScript.Line.Basic
import LineScript.Literal
import LineScript.Text.Word

/-!
# The forms of lines

A recogniser for each form. All are given a text without blanks at its ends. Blanks between the
parts of a form may hold line feeds; a part that takes whatever stands there may not.
-/

namespace LineScript.Line

/-! ## Conditions and headers -/

/-- What follows the brace that opens a block, on the same line. -/
def afterBrace? (s : Text) : Option Text :=
  match Text.trimStart s with
  | '\x7b' :: rest => if rest.contains '\n' then none else some rest
  | _ => none

/-- The operand on the right, up to the last angle that a brace follows, and what follows the
brace. -/
def rightOperand? (s : Text) : Option (Text × Text) := do
  let r ← Text.after? "=?".toList (Text.trimStart s)
  match Text.trimStart r with
  | '<' :: r => Text.longest? '>' afterBrace? r
  | _ => none

/-- A condition and what follows the brace after it. The operand on the left ends at the first angle
that the rest of a condition follows. -/
def condition? (s : Text) : Option (Condition × Text) :=
  match Text.trimStart s with
  | '<' :: r =>
    (Text.shortest? '>' rightOperand? r).map fun (left, right, rest) =>
      (⟨Text.trim left, Text.trim right⟩, rest)
  | _ => none

def ifHead? (s : Text) : Option (Head × Text) := do
  let r ← Text.after? "If".toList s
  (condition? r).map fun (c, rest) => (.ifEqual c, rest)

def elseIfHead? (s : Text) : Option (Head × Text) := do
  let r ← Text.after? "Else".toList s
  let r ← Text.afterBlanks? r
  let r ← Text.after? "If".toList r
  (condition? r).map fun (c, rest) => (.elseIfEqual c, rest)

def elseHead? (s : Text) : Option (Head × Text) := do
  let r ← Text.after? "Else".toList s
  (afterBrace? r).map fun rest => (.otherwise, rest)

def duringHead? (s : Text) : Option (Head × Text) := do
  let r ← Text.after? "During".toList s
  (condition? r).map fun (c, rest) => (.during c, rest)

/-- A head and what follows its brace. -/
def head? (s : Text) :
    Option (Head × Text) := ifHead? s <|> elseIfHead? s <|> elseHead? s <|> duringHead? s

/-- The body of a block from what follows its brace: on the lines that follow if there is nothing,
else the statement before a closing brace. Without that the line is malformed. -/
def inline? (rest : Text) : Option (Option Text) :=
  let t := Text.trim rest
  if t.isEmpty then some none
  else if t.getLast? = some '\x7d' then some (some (Text.trim t.dropLast))
  else none

/-- The line that a head and what follows its brace make. -/
def ofHead (line : Text) (head : Head) (rest : Text) : Line :=
  match inline? rest with
  | some inline => .header ⟨head, inline, line⟩
  | none => .statement (.invalid line .unknown)

/-! ## Statements -/

/-- A value that takes the rest of the line. -/
def rest? (s : Text) : Option Text :=
  let t := Text.trimStart s
  if t.isEmpty || t.contains '\n' then none else some (Text.trim t)

/-- A name between square brackets, and what follows it. -/
def name? (s : Text) : Option (Text × Text) := Text.bracketed? '[' ']' s

/-- What follows an equals sign. -/
def afterEquals? (s : Text) : Option Text := Text.after? ['='] (Text.trimStart s)

def assignment? (s : Text) : Option (Text × Text) := do
  let (name, r) ← name? s
  let r ← afterEquals? r
  if r.head? = some '?' then none
  let value ← rest? r
  return (name, value)

def letAssignment? (s : Text) : Option (Text × Text) := do
  let r ← Text.after? "Let".toList s
  let (name, r) ← name? (Text.trimStart r)
  let r ← afterEquals? r
  let value ← rest? r
  return (name, value)

def listAssignment? (s : Text) : Option (Text × List Text) := do
  let (name, r) ← Text.bracketed? '/' '/' s
  let r ← afterEquals? r
  let items ← Text.enclosedLine? '#' (Text.trimStart r)
  return (name, Literal.listItems items)

def log? (s : Text) : Option Text := do
  let r ← Text.after? "log(".toList s
  if r.getLast? = some ')' ∧ ¬ r.dropLast.contains '\n' then some (Text.trim r.dropLast) else none

/-- The milliseconds of a pause; so many digits that they are beyond the doubles are an infinite
pause. -/
def wait? (s : Text) : Option Double := do
  let r ← Text.after? "wait(".toList s
  let r := Text.trimStart r
  let digits := r.takeWhile Text.isDigit
  if digits.isEmpty ∨ Text.trimStart (r.dropWhile Text.isDigit) ≠ [')'] then none
  else some (Numeral.toDouble none ⟨digits, none, none⟩)

/-- The statements that both dialects have, one complete line each. -/
def simple? (s : Text) : Option Statement :=
  (log? s).map (.log · s)
    <|> (wait? s).map (.wait · s)
    <|> (assignment? s <|> letAssignment? s).map (fun (name, value) => .assign name value s)
    <|> (listAssignment? s).map (fun (name, items) => .assignList name items s)

/-- The same statements, in the order in which the fast dialect tries them. -/
def fastSimple? (s : Text) : Option Statement :=
  (assignment? s <|> letAssignment? s).map (fun (name, value) => .assign name value s)
    <|> (listAssignment? s).map (fun (name, items) => .assignList name items s)
    <|> (log? s).map (.log · s)
    <|> (wait? s).map (.wait · s)

/-- The comparison of a loop: the name to compare, and what follows the sign. -/
def check? (s : Text) : Option (Text × Text) := do
  let (check, r) ← name? (Text.trimStart s)
  let r ← Text.after? "=?".toList (Text.trimStart r)
  return (check, r)

/-- The second half of a loop: the name to compare, what to compare it with, and the body. -/
def loopRest? (s : Text) : Option (Text × Text × Text) := do
  let (check, r) ← check? s
  let (stop, body) ← Text.givingBlanksBack (Text.shortest? ',' rest?) r
  return (check, stop, body)

/-- The counter of a loop and its body. Start and stop end at the first comma that the rest of a
loop follows; they are blank if nothing but blanks stands before it. -/
def forLoop? (s : Text) : Option (Counter × Text) := do
  let r ← Text.after? "For".toList s
  let (name, r) ← name? (Text.trimStart r)
  let r ← afterEquals? r
  let (start, check, stop, body) ← Text.givingBlanksBack (Text.shortest? ',' loopRest?) r
  return (⟨name, Text.trim start, check, Text.trim stop⟩, body)

/-- Whether the line is blank, a comment or a directive. -/
def isInert (s : Text) : Bool :=
  s.isEmpty || "++".toList.isPrefixOf s || "--".toList.isPrefixOf s ||
    (Features.directive? s).isSome

/-! ## Declarations of the fast dialect -/

/-- Whether the text begins as the declaration of a group does, from the equals sign on. -/
def declaresGroup (s : Text) : Bool :=
  match s with
  | '=' :: r =>
    ["action".toList, "runner".toList, "storage".toList].any fun kind =>
      ((Text.afterAnyCase? kind (Text.trimStart r)).bind
        (Text.afterAnyCase? "(grouplet)".toList)).isSome
  | _ => false

/-- Whether a group is declared somewhere in the text. -/
def holdsGroup : Text → Bool
  | [] => false
  | c :: s => declaresGroup (c :: s) || holdsGroup s

/-- Whether the line describes the structure of a program, which is not executed. -/
def isStructural (s : Text) : Bool :=
  holdsGroup s || "Process(".toList.isPrefixOf s || "Connect(".toList.isPrefixOf s

/-- A word, and what follows it. -/
def word? (s : Text) : Option (Text × Text) :=
  let word := s.takeWhile Text.isWord
  if word.isEmpty then none else some (word, s.dropWhile Text.isWord)

/-- The kind, the name and the value of a global name. -/
def declaration? (s : Text) : Option (Text × Text × Text) := do
  let r ← Text.afterAnyCase? "glb".toList s
  let r ← Text.afterBlanks? r
  let (kind, r) ← word? r
  let r ← Text.afterBlanks? r
  let (name, r) ← word? r
  let r ← afterEquals? r
  let value ← rest? r
  return (kind, name, value)

end LineScript.Line
