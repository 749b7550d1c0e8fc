import LineScript.Failure
import LineScript.Value.Basic

/-!
# Operations on values

The binary operators and the comparison of guards, as they run on a host: a list that is nested too
deep, or an integer of too many digits, cannot be written, and arithmetic may raise an exception.
-/

namespace LineScript

/-- A number in script output. -/
def Number.write? [Host] : Number → Except Exception Text
  | .int n => Text.write? n
  | x => .ok x.text

namespace Value

variable [Host]

mutual

/-- The value in script output, with lists nested at most `depth` deep. -/
def renderWithin? : (depth : Nat) → Value → Except Fault Text
  | _, .number n => n.write?.mapError .exception
  | 0, .list _ _ => .error .tooDeep
  | depth + 1, .list _ items => do return [','].intercalate (← renderItemsWithin? depth items)
  | _, v => .ok v.render

/-- The items of a list in script output, from the first on. -/
def renderItemsWithin? : (depth : Nat) → List Value → Except Fault (List Text)
  | _, [] => .ok []
  | depth, .null :: items => do return [] :: (← renderItemsWithin? depth items)
  | depth, item :: items => do
    let s ← renderWithin? depth item
    return s :: (← renderItemsWithin? depth items)

end

/-- The value in script output. -/
def render? (v : Value) : Except Fault Text := v.renderWithin? Host.lists

/-- The value as a number; a list has to be rendered. -/
def number? : Value → Except Fault Number
  | .list identity items => do return textNumber (← render? (.list identity items))
  | v => .ok v.toNumber

/-- What a value is compared as: a flag as its number, a list as its text. -/
def plain? : Value → Except Fault Value
  | .flag b => .ok (.number (flagNumber b))
  | .list identity items => do return .text (← render? (.list identity items))
  | v => .ok v

/-- Equality of plain values: texts are compared as they are, all else by number. -/
def plainEquals : Value → Value → Bool
  | .text s, .text t => s == t
  | v, w => v.toNumber.equal w.toNumber

/-- Equality across kinds: null equals null only, two lists are equal if they are the same list, and
all else is compared as plain values. -/
def looselyEquals? (v w : Value) : Except Fault Bool :=
  if v.isNull || w.isNull then .ok (v.isNull && w.isNull)
  else
    match v.identity?, w.identity? with
    | some a, some b => .ok (a == b)
    | _, _ => do return plainEquals (← v.plain?) (← w.plain?)

/-- A numeric operator on values. -/
def numeric (op : Number → Number → Except Exception Number) (v w : Value) :
    Except Fault Value := do
  let x ← v.number?
  let y ← w.number?
  return .number (← (op x y).mapError .exception)

/-- The sum, or the texts joined if one of the two is a text or a list. -/
protected def add (v w : Value) : Except Fault Value :=
  if v.isText || v.isList || w.isText || w.isList then do
    let s ← v.render?
    let t ← w.render?
    return .text (s ++ t)
  else numeric Number.add v w

protected def sub : Value → Value → Except Fault Value := numeric Number.sub

protected def mul : Value → Value → Except Fault Value := numeric Number.mul

protected def div : Value → Value → Except Fault Value := numeric Number.div

protected def rem : Value → Value → Except Fault Value := numeric Number.rem

end Value

end LineScript
