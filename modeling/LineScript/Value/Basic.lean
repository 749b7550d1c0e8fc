import LineScript.Number.Layout
import LineScript.Number.Numeral

/-!
# Values

What a name can hold. A list carries an identity: two lists are the same list if and only if they
have the same one, whatever their items. Rendering (`Value.render`) and coercion to a number
(`Value.toNumber`) are defined for all values, however deep their lists are nested.
-/

namespace LineScript

inductive Value
  | null
  | flag (b : Bool)
  | number (n : Number)
  | text (s : Text)
  | list (identity : Nat) (items : List Value)
deriving Inhabited

namespace Value

/-- What a flag is as a number. -/
def flagNumber (b : Bool) : Number := .int (if b then 1 else 0)

mutual

/-- The value in script output. -/
def render : Value → Text
  | .null => "null".toList
  | .flag b => (if b then "true" else "false").toList
  | .number n => n.text
  | .text s => s
  | .list _ items => [','].intercalate (renderItems items)

/-- The items of a list in script output; null is written as nothing there. -/
def renderItems : List Value → List Text
  | [] => []
  | .null :: items => [] :: renderItems items
  | item :: items => render item :: renderItems items

end

/-- The number that a text denotes between its blanks: zero if there is nothing, a NaN if there is
no numeral. -/
def textNumber (s : Text) : Number :=
  let t := Text.trim s
  if t.isEmpty then .int 0
  else
    match Numeric.ofText? t with
    | some n => n.toNumber
    | none => .nan

/-- The value as a number; a list counts as its text. -/
def toNumber : Value → Number
  | .null => .int 0
  | .flag b => flagNumber b
  | .number n => n
  | .text s => textNumber s
  | .list identity items => textNumber (render (.list identity items))

def isList : Value → Bool
  | .list _ _ => true
  | _ => false

def isNull : Value → Bool
  | .null => true
  | _ => false

def isText : Value → Bool
  | .text _ => true
  | _ => false

/-- The identity of a list. -/
def identity? : Value → Option Nat
  | .list identity _ => some identity
  | _ => none

end Value

end LineScript
