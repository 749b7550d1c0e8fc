import LineScript.Expression.Tree

/-!
# Reading expressions

Sums of products of factors, each operator grouping to the left. A factor is a sign and a factor, an
operand, or a sum between brackets; `factor` descends at most `depth` signs and brackets. A reader
returns the tree and the tokens after it, no more than it was given.
-/

namespace LineScript.Expression

/-- What a reader of at most `bound` tokens returns: a tree and the tokens after it. -/
abbrev Reading (bound : Nat) := Expression × { rest : List Token // rest.length ≤ bound }

/-- A reader of expressions. -/
abbrev Reader := (tokens : List Token) → Reading tokens.length

def sumOperator? : Symbol → Option Operator
  | .plus => some .add
  | .minus => some .sub
  | _ => none

def productOperator? : Symbol → Option Operator
  | .times => some .mul
  | .over => some .div
  | .modulo => some .rem
  | _ => none

/-- The operator, of those given, that the tokens begin with, and the tokens after it. -/
def operator? (operators : Symbol → Option Operator) : List Token → Option (Operator × List Token)
  | ⟨.symbol s, _⟩ :: rest => (operators s).map (·, rest)
  | _ => none

theorem length_lt_of_operator? {operators : Symbol → Option Operator} {tokens rest : List Token}
    {op : Operator} (h : operator? operators tokens = some (op, rest)) :
    rest.length < tokens.length := by
  unfold operator? at h
  split at h
  · simp only [Option.map_eq_some_iff, Prod.mk.injEq] at h
    obtain ⟨_, _, _, rfl⟩ := h
    simp
  · simp at h

/-- The rest of a chain: operators, each with its right operand, applied to what was read so far. -/
def chainFrom (operators : Symbol → Option Operator) (operand : Reader) {bound : Nat}
    (left : Expression) (tokens : List Token) (h : tokens.length ≤ bound) : Reading bound :=
  match ho : operator? operators tokens with
  | none => (left, ⟨tokens, h⟩)
  | some (op, rest) =>
    let right := operand rest
    have hr : right.2.1.length < tokens.length :=
      Nat.lt_of_le_of_lt right.2.2 (length_lt_of_operator? ho)
    chainFrom operators operand (.binary op left right.1) right.2.1
      (Nat.le_of_lt (Nat.lt_of_lt_of_le hr h))
termination_by tokens.length

/-- Operands with operators between them. -/
def chain (operators : Symbol → Option Operator) (operand : Reader) : Reader := fun tokens =>
  let first := operand tokens
  chainFrom operators operand first.1 first.2.1 first.2.2

/-- A sum of products of factors. -/
def sum (factor : Reader) : Reader := chain sumOperator? (chain productOperator? factor)

/-- The failure at the next token, or at the end. -/
def failureAt (problem : ExpressionProblem) (endColumn : Nat) (tokens : List Token) : Failure :=
  .expression none problem (some (tokens.head?.elim endColumn Token.column))

/-- The failure at a token that cannot stand where it does. -/
def unexpected (token : Token) : Failure :=
  .expression none (.unexpected token.lexeme.text) (some token.column)

/-- The tokens after a closing bracket, if the tokens begin with one. -/
def closing? : List Token → Option (List Token)
  | ⟨.symbol .closing, _⟩ :: rest => some rest
  | _ => none

theorem length_lt_of_closing? {tokens rest : List Token} (h : closing? tokens = some rest) :
    rest.length < tokens.length := by
  unfold closing? at h
  split at h
  · simp only [Option.some.injEq] at h
    subst h
    simp
  · simp at h

/-- A sum read after an opening bracket, closed. -/
def closeBracket (endColumn : Nat) {bound : Nat} (inside : Reading bound) : Reading bound :=
  match h : closing? inside.2.1 with
  | some rest =>
    (inside.1, ⟨rest, Nat.le_trans (Nat.le_of_lt (length_lt_of_closing? h)) inside.2.2⟩)
  | none => (.stopAfter inside.1 (failureAt .bracket endColumn inside.2.1), inside.2)

/-- The same reading among more tokens. -/
def Reading.weaken {m n : Nat} (h : m ≤ n) (r : Reading m) : Reading n :=
  (r.1, ⟨r.2.1, Nat.le_trans r.2.2 h⟩)

/-- A factor, with at most `depth` signs and brackets one inside the other. -/
def factor (endColumn : Nat) : (depth : Nat) → Reader
  | 0, tokens => (.stop .tooDeep, ⟨tokens, Nat.le_refl _⟩)
  | _ + 1, [] => (.stop (failureAt .ended endColumn []), ⟨[], Nat.le_refl _⟩)
  | depth + 1, token :: rest =>
    let operand (e : Expression) : Reading (rest.length + 1) := (e, ⟨rest, Nat.le_succ _⟩)
    let signed (sign : Sign) : Reading (rest.length + 1) :=
      let r := factor endColumn depth rest
      (.signed sign r.1, ⟨r.2.1, Nat.le_succ_of_le r.2.2⟩)
    match token.lexeme with
    | .number n => operand (.number n)
    | .quoted _ content => operand (.text content)
    | .reference r => operand (.reference r)
    | .word w => operand (.word w)
    | .symbol .plus => signed .plus
    | .symbol .minus => signed .minus
    | .symbol .opening =>
      (closeBracket endColumn (sum (factor endColumn depth) rest)).weaken (Nat.le_succ _)
    | .symbol _ => operand (.stop (unexpected token))

/-- The tree of all the tokens; it stops at the first that is left over. -/
def ofTokens [Host] (endColumn : Nat) (tokens : List Token) : Expression :=
  match sum (factor endColumn Host.brackets) tokens with
  | (e, ⟨[], _⟩) => e
  | (e, ⟨token :: _, _⟩) => .stopAfter e (unexpected token)

/-- The value of the expression that a text without blanks at its ends is. -/
def evalTrimmed [Host] (ns : Namespace) (s : Text) : Except Stop Value := do
  match ← Failure.lift (Token.scan s) with
  | [] => throw (.failure (failureAt .empty (s.length + 1) []))
  | tokens => (ofTokens (s.length + 1) tokens).eval ns

/-- The value of the expression that a text is, without the blanks at its ends. An exception inside
is a failure of the expression, if it is one that expressions report. -/
def evalText [Host] (ns : Namespace) (s : Text) : Except Stop Value :=
  (evalTrimmed ns (Text.trim s)).mapError .ofExpression

end LineScript.Expression
