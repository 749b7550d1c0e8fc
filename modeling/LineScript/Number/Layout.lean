import LineScript.Double.Decimal
import LineScript.Number.Basic

/-!
# Written numbers

A double is written with the fewest digits that read back, positionally while its decimal exponent
is moderate and with an exponent otherwise. `Layout` holds the decisions of a format. Script output
rewrites the text in which a double reads back; the result has the format `Number.layout`.
-/

namespace LineScript

/-- The decisions of a format for doubles. -/
structure Layout where
  /-- The least and the greatest decimal exponent of the first digit that is written
  positionally. -/
  least : Int
  greatest : Int
  /-- Whether a whole number in positional form ends in `.0`. -/
  pointZero : Bool
  /-- The least number of digits of an exponent. -/
  exponentWidth : Nat
  /-- Whether a negative zero has a minus. -/
  signedZero : Bool
  nan : Text
  infinity : Text

namespace Layout

/-- The digits with a point before those of negative weight; `exponent` is the weight of the last
one. -/
def positional (f : Layout) (digits : Text) (exponent : Int) : Text :=
  match exponent with
  | .ofNat e => digits ++ List.replicate e '0' ++ (if f.pointZero then ".0".toList else [])
  | .negSucc k =>
    let places := k + 1
    if places < digits.length then
      digits.take (digits.length - places) ++ '.' :: digits.drop (digits.length - places)
    else '0' :: '.' :: List.replicate (places - digits.length) '0' ++ digits

/-- The digits with a point after the first and the exponent of the first. -/
def scientific (f : Layout) (digits : Text) (first : Int) : Text :=
  let fraction := digits.drop 1
  let power := Text.ofNat first.natAbs
  digits.take 1 ++ (if fraction.isEmpty then [] else '.' :: fraction) ++
    'e' :: (if first < 0 then '-' else '+') ::
      List.replicate (f.exponentWidth - power.length) '0' ++ power

/-- A decimal in this format. -/
def decimal (f : Layout) (d : Decimal) : Text :=
  let digits := Text.ofNat d.digits
  let first := d.exponent + (digits.length - 1)
  if f.least ≤ first ∧ first ≤ f.greatest then f.positional digits d.exponent
    else f.scientific digits first

/-- A double in this format. -/
def double (f : Layout) : Double → Text
  | .nan => f.nan
  | .infinite negative => if negative then '-' :: f.infinity else f.infinity
  | .finite negative m =>
    if m.units = 0 then
      let text := f.decimal ⟨0, 0⟩
      if negative && f.signedZero then '-' :: text else text
    else
      let text := f.decimal m.shortest
      if negative then '-' :: text else text

end Layout

/-- The format in which a double reads back: positional from `0.0001` to below `10 ^ 16`, always
with a point or an exponent. -/
def Double.layout : Layout where
  least := -4
  greatest := 15
  pointZero := true
  exponentWidth := 2
  signedZero := true
  nan := "nan".toList
  infinity := "inf".toList

namespace Number

/-- Script output: positional from `0.000001` to below `10 ^ 21`. -/
def layout : Layout where
  least := -6
  greatest := 20
  pointZero := false
  exponentWidth := 1
  signedZero := false
  nan := "NaN".toList
  infinity := "Infinity".toList

/-- The integer that an exponent is, written with its sign. -/
def exponentOf : Text → Int
  | '-' :: digits => -Text.digitsValue digits
  | '+' :: digits => Text.digitsValue digits
  | digits => Text.digitsValue digits

/-- The text of a number with an exponent, written without: `mantissa` times `10 ^ exponent`. -/
def expand (mantissa : Text) (exponent : Int) : Text :=
  let digits := mantissa.dropWhile (· == '-')
  let fraction := (digits.dropWhile (· != '.')).drop 1
  mantissa.takeWhile (· == '-') ++
    layout.positional (digits.filter (· != '.')) (exponent - fraction.length)

/-- A double as script output has it, from the text in which it reads back: a fraction `.0` is left
out, an exponent from `-6` to `20` is expanded, and any other has no leading zeros. -/
def reformat (s : Text) : Text :=
  match s.dropWhile (· != 'e') with
  | [] => if ".0".toList.isSuffixOf s then s.take (s.length - 2) else s
  | _ :: power =>
    let mantissa := s.takeWhile (· != 'e')
    let exponent := exponentOf power
    if -7 < exponent ∧ exponent < 21 then expand mantissa exponent
    else
      mantissa ++ 'e' :: (if 0 < exponent then '+' else '-') :: Text.ofNat exponent.natAbs

/-- A number in script output. A whole double that is safe is written as the integer it is. -/
def text : Number → Text
  | .int n => Text.ofInt n
  | .real .nan => "NaN".toList
  | .real (.infinite negative) => (if negative then "-Infinity" else "Infinity").toList
  | .real d =>
    match d.whole? with
    | some n => if isSafe n then Text.ofInt n else reformat (Double.layout.double d)
    | none => reformat (Double.layout.double d)

end Number

end LineScript
