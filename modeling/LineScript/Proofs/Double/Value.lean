import LineScript.Double.Arithmetic
import Mathlib.Data.Rat.Floor

/-!
# The values of doubles

A finite double has a rational value, `Double.value?`. To truncate it is to cut off the fraction of
that value, toward zero (`Double.truncate?_eq_some_iff`).
-/

namespace LineScript

/-- The whole part of a rational number, toward zero. -/
def truncate (q : Rat) : Int := if q < 0 then ⌈q⌉ else ⌊q⌋

theorem truncate_of_nonneg {q : Rat} (h : 0 ≤ q) : truncate q = ⌊q⌋ := if_neg (not_lt.2 h)

theorem truncate_neg {q : Rat} (h : 0 ≤ q) : truncate (-q) = -⌊q⌋ := by
  unfold truncate
  split
  · exact Int.ceil_neg
  · next hneg =>
    have hzero : q = 0 := le_antisymm (by simpa using hneg) h
    simp [hzero]

namespace Double

theorem one_pos : 0 < one := by
  unfold one
  exact Magnitude.two_pow_pos unitBits

/-- The value of a finite double. -/
def value? (d : Double) : Option Rat := d.units?.map fun u => (u : Rat) / (one : Rat)

theorem value?_positive (m : Magnitude) :
    (finite false m).value? = some ((m.units : Rat) / (one : Rat)) := by
  simp [value?, units?, signedUnits]

theorem value?_negative (m : Magnitude) :
    (finite true m).value? = some (-((m.units : Rat) / (one : Rat))) := by
  simp [value?, units?, signedUnits, neg_div]

/-- Whole numbers are cut off doubles by cutting off the fractions of their values. -/
theorem truncate?_eq_some_iff {d : Double} {n : Int} :
    d.truncate? = some n ↔ ∃ q : Rat, d.value? = some q ∧ n = truncate q := by
  cases d with
  | nan | infinite => simp [truncate?, value?, units?]
  | finite negative m =>
    have hfloor : ⌊(m.units : Rat) / (one : Rat)⌋ = ((m.units / one : Nat) : Int) :=
      Rat.floor_natCast_div_natCast _ _
    have hnonneg : 0 ≤ (m.units : Rat) / (one : Rat) :=
      div_nonneg (Nat.cast_nonneg _) (Nat.cast_nonneg _)
    cases negative with
    | false => simp [truncate?, value?_positive, truncate_of_nonneg hnonneg, hfloor, eq_comm]
    | true => simp [truncate?, value?_negative, truncate_neg hnonneg, hfloor, eq_comm]

end Double

end LineScript
