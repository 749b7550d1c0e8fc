import LineScript.Double.Basic

/-!
# Doubles and decimals

`Double.ofDecimal` reads a decimal number correctly rounded. `Magnitude.shortest` goes the other
way: of the decimals that read back as the magnitude it takes one with the fewest digits and, among
those, the nearest. A decimal with few digits lies on a coarse grid of powers of ten, so the grids
are tried from the coarsest one down; on each it is enough to look at the two neighbours of the
magnitude.
-/

namespace LineScript

/-- The decimal number `digits * 10 ^ exponent`. -/
structure Decimal where
  digits : Nat
  exponent : Int
deriving DecidableEq

/-- The double nearest to a decimal. Powers of ten that would put it beyond the largest magnitude or
below half the least one are not computed. -/
def Double.ofDecimal (negative : Bool) (d : Decimal) : Double :=
  if d.digits = 0 then zero negative
  else
    match d.exponent with
    | .ofNat e =>
      if 309 ≤ e then .infinite negative else ofRatio negative (d.digits * Nat.pow 10 e) 1
    | .negSucc k =>
      if d.digits.log2 + 325 ≤ k then zero negative
        else ofRatio negative d.digits (Nat.pow 10 (k + 1))

/-- The decimal of the same value without trailing zeros among its digits. -/
def Decimal.normalize (d : Decimal) : Decimal :=
  if d.digits ≠ 0 ∧ d.digits % 10 = 0 then Decimal.normalize ⟨d.digits / 10, d.exponent + 1⟩ else d
termination_by d.digits
decreasing_by
  rename_i h
  exact Nat.div_lt_self (by omega) (by decide)

namespace Magnitude

/-- The magnitude divided by `10 ^ j`, as a numerator and a denominator. -/
def overPowerOfTen (m : Magnitude) : Int → Nat × Nat
  | .ofNat e => (m.units, Double.one * Nat.pow 10 e)
  | .negSucc k => (m.units * Nat.pow 10 (k + 1), Double.one)

/-- Whether a decimal reads back as the magnitude. -/
def reads (m : Magnitude) (d : Decimal) : Bool := Double.ofDecimal false d = .finite false m

/-- The nearest multiple of `10 ^ j` that reads back, one of the two next to the magnitude; a tie
goes to the even one. -/
def onGrid? (m : Magnitude) (j : Int) : Option Decimal :=
  let (num, den) := m.overPowerOfTen j
  let below : Decimal := ⟨num / den, j⟩
  let above : Decimal := ⟨num / den + 1, j⟩
  match m.reads below, m.reads above with
  | true, true => some ⟨roundDiv num den, j⟩
  | true, false => some below
  | false, true => some above
  | false, false => none

/-- The first grid, from `10 ^ j` down, with a decimal that reads back; the exact value after
`tries` grids. -/
def shortestFrom (m : Magnitude) : (tries : Nat) → (j : Int) → Decimal
  | 0, _ => ⟨m.units * Nat.pow 5 Double.unitBits, -Double.unitBits⟩
  | tries + 1, j =>
    match m.onGrid? j with
    | some d => d
    | none => m.shortestFrom tries (j - 1)

/-- An exponent of ten that is not below the magnitude's own, from its exponent of two. -/
def topGrid (m : Magnitude) : Int := ((m.units.log2 : Int) - Double.unitBits) * 30103 / 100000 + 1

/-- The shortest decimal that reads back as the magnitude. -/
def shortest (m : Magnitude) : Decimal := (m.shortestFrom 20 m.topGrid).normalize

end Magnitude

end LineScript
