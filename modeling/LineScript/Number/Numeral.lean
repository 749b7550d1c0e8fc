import LineScript.Double.Decimal
import LineScript.Number.Basic
import LineScript.Text.Digit
import LineScript.Text.Scan

/-!
# Numerals

The written forms of numbers: digits with an optional point and an optional exponent, after an
optional sign, or the word `Infinity`. Digits of all scripts count. A numeral keeps its digits as
they were written, so that `Numeral.text` gives back what `Numeral.scan?` took; its value is the
double nearest to it, settled only if it is written without point and exponent.
-/

namespace LineScript

inductive Sign
  | plus
  | minus
deriving DecidableEq

namespace Sign

def char : Sign → Char
  | .plus => '+'
  | .minus => '-'

/-- The sign a text may begin with, and the rest. -/
def scan : Text → Option Sign × Text
  | '+' :: s => (some .plus, s)
  | '-' :: s => (some .minus, s)
  | s => (none, s)

/-- A sign that may be missing. -/
def optionText : Option Sign → Text
  | some sign => [sign.char]
  | none => []

theorem optionText_append_scan (s : Text) : optionText (scan s).1 ++ (scan s).2 = s := by
  unfold scan
  split <;> rfl

end Sign

/-- The exponent of a numeral. -/
structure Exponent where
  /-- The letter before it, in the case it was written in. -/
  mark : Char
  sign : Option Sign
  digits : Text
deriving DecidableEq

namespace Exponent

def text (e : Exponent) : Text := e.mark :: Sign.optionText e.sign ++ e.digits

def value (e : Exponent) : Int :=
  if e.sign = some .minus then -(Text.digitsValue e.digits : Int) else Text.digitsValue e.digits

/-- The exponent a text may begin with, and the rest. -/
def scan (s : Text) : Option Exponent × Text :=
  match s with
  | [] => (none, s)
  | mark :: r =>
    if mark = 'e' ∨ mark = 'E' then
      let signed := Sign.scan r
      let digits := signed.2.takeWhile Text.isDigit
      if digits.isEmpty then (none, s)
        else (some ⟨mark, signed.1, digits⟩, signed.2.dropWhile Text.isDigit)
    else (none, s)

theorem text_append_scan (s : Text) : ((scan s).1.map text).getD [] ++ (scan s).2 = s := by
  unfold scan
  split
  · rfl
  · next mark r =>
    split
    · dsimp only
      split
      · rfl
      · have h := Sign.optionText_append_scan r
        simp only [Option.map_some, Option.getD_some, text, List.cons_append, List.append_assoc,
          List.takeWhile_append_dropWhile, h]
    · rfl

end Exponent

/-- An unsigned number in digits. -/
structure Numeral where
  /-- The digits before the point. -/
  whole : Text
  /-- The digits after the point, if there is a point. -/
  fraction : Option Text
  exponent : Option Exponent
deriving DecidableEq

namespace Numeral

def text (n : Numeral) : Text :=
  n.whole ++ (n.fraction.map ('.' :: ·)).getD [] ++ (n.exponent.map Exponent.text).getD []

/-- Whether the numeral has neither point nor exponent. -/
def isInteger (n : Numeral) : Bool := n.fraction.isNone && n.exponent.isNone

/-- The decimal that the numeral denotes. -/
def decimal (n : Numeral) : Decimal :=
  let fraction := n.fraction.getD []
  ⟨Text.digitsValue (n.whole ++ fraction), (n.exponent.map Exponent.value).getD 0 - fraction.length⟩

/-- The longest numeral a text begins with, and the rest. -/
def scan? (s : Text) : Option (Numeral × Text) :=
  let whole := s.takeWhile Text.isDigit
  match s.dropWhile Text.isDigit with
  | '.' :: r =>
    let fraction := r.takeWhile Text.isDigit
    if whole.isEmpty && fraction.isEmpty then none
    else
      let scaled := Exponent.scan (r.dropWhile Text.isDigit)
      some (⟨whole, some fraction, scaled.1⟩, scaled.2)
  | r =>
    if whole.isEmpty then none
    else
      let scaled := Exponent.scan r
      some (⟨whole, none, scaled.1⟩, scaled.2)

/-- A scanned numeral is what its text took from the front, and it took something. -/
theorem eq_append_of_scan? {s rest : Text} {n : Numeral} (h : scan? s = some (n, rest)) :
    s = n.text ++ rest ∧ n.text ≠ [] := by
  have hs := List.takeWhile_append_dropWhile (p := Text.isDigit) (l := s)
  unfold scan? at h
  split at h
  · next r hr =>
    rw [hr] at hs
    dsimp only at h
    split at h
    · simp at h
    · simp only [Option.some.injEq, Prod.mk.injEq] at h
      obtain ⟨rfl, rfl⟩ := h
      have he := Exponent.text_append_scan (r.dropWhile Text.isDigit)
      refine ⟨?_, by simp [text]⟩
      rw [text, List.append_assoc, List.append_assoc, he]
      simp [hs]
  · next r hr =>
    dsimp only at h
    split at h
    · simp at h
    · next hw =>
      simp only [Option.some.injEq, Prod.mk.injEq] at h
      obtain ⟨rfl, rfl⟩ := h
      have he := Exponent.text_append_scan (s.dropWhile Text.isDigit)
      refine ⟨?_, by simp_all [text]⟩
      rw [text, List.append_assoc, List.append_assoc, he]
      simp [hs]

/-- The double nearest to the numeral under a sign. -/
def toDouble (sign : Option Sign) (n : Numeral) : Double :=
  .ofDecimal (sign = some .minus) n.decimal

/-- The number that the numeral denotes under a sign. -/
def toNumber (sign : Option Sign) (n : Numeral) : Number :=
  if n.isInteger then .ofDouble (n.toDouble sign) else .real (n.toDouble sign)

end Numeral

/-- A numeral or the word for infinity. -/
inductive Amount
  | numeral (n : Numeral)
  | infinity
deriving DecidableEq

/-- A number as it is written, with an optional sign. -/
structure Numeric where
  sign : Option Sign
  amount : Amount
deriving DecidableEq

namespace Numeric

def infinityWord : Text := "Infinity".toList

def text (n : Numeric) : Text :=
  Sign.optionText n.sign ++
    match n.amount with
    | .numeral m => m.text
    | .infinity => infinityWord

/-- The longest written number a text begins with, and the rest. -/
def scan? (s : Text) : Option (Numeric × Text) :=
  let signed := Sign.scan s
  match Text.after? infinityWord signed.2 with
  | some rest => some (⟨signed.1, .infinity⟩, rest)
  | none => (Numeral.scan? signed.2).map fun (m, rest) => (⟨signed.1, .numeral m⟩, rest)

/-- The number that the whole text is. -/
def ofText? (s : Text) : Option Numeric :=
  match scan? s with
  | some (n, []) => some n
  | _ => none

def toDouble (n : Numeric) : Double :=
  match n.amount with
  | .numeral m => m.toDouble n.sign
  | .infinity => .infinite (n.sign = some .minus)

def toNumber (n : Numeric) : Number :=
  match n.amount with
  | .numeral m => m.toNumber n.sign
  | .infinity => .real n.toDouble

end Numeric

namespace Number

/-- The double at the beginning of a text, after blanks; a NaN if there is none. -/
def readReal (s : Text) : Double :=
  match Numeric.scan? (Text.trimStart s) with
  | some (n, _) => n.toDouble
  | none => .nan

/-- The integer at the beginning of a text, after blanks; a NaN if there is none. -/
def readInteger (s : Text) : Number :=
  let signed := Sign.scan (Text.trimStart s)
  let digits := signed.2.takeWhile Text.isDigit
  if digits.isEmpty then nan else Numeral.toNumber signed.1 ⟨digits, none, none⟩

end Number

end LineScript
