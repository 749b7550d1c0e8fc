import LineScript.Expression.Tree

/-!
# The grammar of expressions

A sum is made of products joined by `+` and `-`, a product of factors joined by `*`, `/` and `%`,
and a factor is one token, a sign before a factor, or a sum between brackets. The types here are the
derivations of that grammar: each has the tokens that it derives (`tokens`), the number of signs and
brackets one inside the other (`depth`), and its meaning once the references have values (`denote`).
Joined operands stand to the left, so that operators group to the left.
-/

namespace LineScript

namespace Sign

def symbol : Sign → Symbol
  | .plus => .plus
  | .minus => .minus

/-- The operator that the sign between two operands is. -/
def operator : Sign → Operator
  | .plus => .add
  | .minus => .sub

end Sign

namespace Grammar

/-- The signs between factors. -/
inductive Scale
  | times
  | over
  | modulo
deriving DecidableEq

namespace Scale

def symbol : Scale → Symbol
  | .times => .times
  | .over => .over
  | .modulo => .modulo

def operator : Scale → Operator
  | .times => .mul
  | .over => .div
  | .modulo => .rem

end Scale

/-- An operand that is one token. -/
inductive Atom
  | number (n : Numeral)
  | quoted (mark : Char) (content : Text)
  | word (w : Word)
  | reference (r : Reference)
deriving DecidableEq

namespace Atom

def lexeme : Atom → Lexeme
  | .number n => .number n
  | .quoted mark content => .quoted mark content
  | .word w => .word w
  | .reference r => .reference r

/-- The value of an operand, from the values of references. -/
def denote (value : Reference → Value) : Atom → Value
  | .number n => .number (n.toNumber none)
  | .quoted _ content => .text content
  | .word w => w.value
  | .reference r => value r

end Atom

mutual

inductive Sum
  | product (p : Product)
  | join (left : Sum) (sign : Sign) (column : Nat) (right : Product)

inductive Product
  | factor (f : Factor)
  | join (left : Product) (scale : Scale) (column : Nat) (right : Factor)

inductive Factor
  | atom (a : Atom) (column : Nat)
  | signed (sign : Sign) (column : Nat) (operand : Factor)
  | bracketed (opening : Nat) (inside : Sum) (closing : Nat)

end

mutual

/-- The tokens that the derivation of a sum derives. -/
def Sum.tokens : Sum → List Token
  | .product p => p.tokens
  | .join left sign column right => left.tokens ++ ⟨.symbol sign.symbol, column⟩ :: right.tokens

def Product.tokens : Product → List Token
  | .factor f => f.tokens
  | .join left scale column right => left.tokens ++ ⟨.symbol scale.symbol, column⟩ :: right.tokens

def Factor.tokens : Factor → List Token
  | .atom a column => [⟨a.lexeme, column⟩]
  | .signed sign column operand => ⟨.symbol sign.symbol, column⟩ :: operand.tokens
  | .bracketed opening inside closing =>
    ⟨.symbol .opening, opening⟩ :: (inside.tokens ++ [⟨.symbol .closing, closing⟩])

end

mutual

/-- How many signs and brackets are one inside the other, the operand in them counted too. -/
def Sum.depth : Sum → Nat
  | .product p => p.depth
  | .join left _ _ right => max left.depth right.depth

def Product.depth : Product → Nat
  | .factor f => f.depth
  | .join left _ _ right => max left.depth right.depth

def Factor.depth : Factor → Nat
  | .atom _ _ => 1
  | .signed _ _ operand => operand.depth + 1
  | .bracketed _ inside _ => inside.depth + 1

end

mutual

/-- The meaning of a sum, from the values of references: operands from left to right, then the
operator. -/
def Sum.denote [Host] (value : Reference → Value) : Sum → Except Fault Value
  | .product p => p.denote value
  | .join left sign _ right => do
    let v ← left.denote value
    let w ← right.denote value
    sign.operator.apply v w

def Product.denote [Host] (value : Reference → Value) : Product → Except Fault Value
  | .factor f => f.denote value
  | .join left scale _ right => do
    let v ← left.denote value
    let w ← right.denote value
    scale.operator.apply v w

/-- The meaning of a factor; a sign applies to the operand as a number. -/
def Factor.denote [Host] (value : Reference → Value) : Factor → Except Fault Value
  | .atom a _ => .ok (a.denote value)
  | .signed .plus _ operand => do
    let v ← operand.denote value
    return .number (← v.number?)
  | .signed .minus _ operand => do
    let v ← operand.denote value
    return .number (← v.number?).neg
  | .bracketed _ inside _ => inside.denote value

end

/-- The tokens are those of a sum. -/
def Derivable (tokens : List Token) : Prop := ∃ d : Sum, d.tokens = tokens

/-- The references among tokens, in their order. -/
def references (tokens : List Token) : List Reference :=
  tokens.filterMap fun token =>
    match token.lexeme with
    | .reference r => some r
    | _ => none

end Grammar

end LineScript
