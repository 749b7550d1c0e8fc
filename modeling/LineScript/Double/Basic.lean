/-!
# Doubles

Binary floating-point numbers with a significand of 53 bits, as exact values. A finite magnitude is
counted in units of `2 ^ -1074`, the least positive one, so that every finite double is a whole
number of units. Around `u` units neighbouring magnitudes are `Magnitude.step u` units apart, and a
magnitude is a multiple of the step around it (`Magnitude.step_dvd`). `Double.ofUnits` is the one
place where a value is rounded: to the nearest magnitude, a tie to the even significand, and to an
infinity beyond the largest.
-/

namespace LineScript

/-- The distance, in units, of neighbouring magnitudes around `u` units. -/
def Magnitude.step (u : Nat) : Nat := Nat.pow 2 (u.log2 - 52)

/-- The most bits that the units of a finite magnitude have. -/
def Magnitude.bits : Nat := 2098

/-- The first number of units beyond the finite magnitudes. -/
@[irreducible] def Magnitude.bound : Nat := Nat.pow 2 Magnitude.bits

/-- A finite magnitude, as a number of units. -/
structure Magnitude where
  /-- How many times `2 ^ -1074` it is. -/
  units : Nat
  step_dvd : Magnitude.step units ∣ units
  units_lt : units < Magnitude.bound
deriving DecidableEq

namespace Magnitude

/-- The whole number nearest to `num / den`; a tie goes to the even one. -/
def roundDiv (num den : Nat) : Nat :=
  if 2 * (num % den) < den ∨ 2 * (num % den) = den ∧ num / den % 2 = 0 then num / den
    else num / den + 1

theorem roundDiv_eq_or (num den : Nat) :
    roundDiv num den = num / den ∨ roundDiv num den = num / den + 1 := by
  unfold roundDiv
  split
  · exact .inl rfl
  · exact .inr rfl

/-- The number of units nearest to `num / den` units among those that a magnitude can have. -/
def roundUnits (num den : Nat) : Nat :=
  let shift := (num / den).log2 - 52
  roundDiv num (den * Nat.pow 2 shift) * Nat.pow 2 shift

theorem step_eq_one {u : Nat} (h : u < Nat.pow 2 53) : step u = 1 := by
  have : u.log2 ≤ 52 := by
    by_cases hu : u = 0
    · simp [hu]
    · have := (Nat.log2_lt hu).2 h
      omega
  rw [step, Nat.sub_eq_zero_of_le this, Nat.pow_eq, Nat.pow_zero]

theorem step_two_pow (k : Nat) : step (Nat.pow 2 k) ∣ Nat.pow 2 k := by
  simp only [step, Nat.pow_eq, Nat.log2_two_pow]
  exact Nat.pow_dvd_pow 2 (Nat.sub_le _ _)

/-- A significand of at most 53 bits, shifted, is a magnitude if it has all 53 or is not shifted. -/
theorem step_dvd_shifted {m s : Nat} (hm : m ≤ Nat.pow 2 53) (hs : s = 0 ∨ Nat.pow 2 52 ≤ m) :
    step (m * Nat.pow 2 s) ∣ m * Nat.pow 2 s := by
  rcases Nat.lt_or_eq_of_le hm with hlt | heq
  · rcases hs with rfl | hfull
    · rw [Nat.pow_eq, Nat.pow_zero, Nat.mul_one, step_eq_one hlt]
      exact Nat.one_dvd m
    · have hpos : 0 < Nat.pow 2 s := Nat.two_pow_pos s
      have hfull' : 0 < Nat.pow 2 52 := Nat.two_pow_pos 52
      have hne : m * Nat.pow 2 s ≠ 0 := Nat.mul_ne_zero (by omega) (by omega)
      have hup : (m * Nat.pow 2 s).log2 < 53 + s := by
        rw [Nat.log2_lt hne, Nat.pow_add]
        exact Nat.mul_lt_mul_of_pos_right hlt hpos
      have : step (m * Nat.pow 2 s) ∣ Nat.pow 2 s := Nat.pow_dvd_pow 2 (by omega)
      exact Nat.dvd_trans this (Nat.dvd_mul_left _ _)
  · have : m * Nat.pow 2 s = Nat.pow 2 (53 + s) := by rw [heq]; exact (Nat.pow_add 2 53 s).symm
    rw [this]
    exact step_two_pow _

theorem step_dvd_roundUnits (num den : Nat) : step (roundUnits num den) ∣ roundUnits num den := by
  unfold roundUnits
  generalize hq : num / den = q
  have hround := roundDiv_eq_or num (den * Nat.pow 2 (q.log2 - 52))
  rw [← Nat.div_div_eq_div_mul, hq] at hround
  have hpos : 0 < Nat.pow 2 (q.log2 - 52) := Nat.two_pow_pos _
  have hlt : q / Nat.pow 2 (q.log2 - 52) < Nat.pow 2 53 := by
    rw [Nat.div_lt_iff_lt_mul hpos]
    refine Nat.lt_of_lt_of_le Nat.lt_log2_self ?_
    exact Nat.le_trans (Nat.pow_le_pow_right (by decide) (by omega))
      (Nat.le_of_eq (Nat.pow_add 2 53 _))
  apply step_dvd_shifted
  · omega
  · by_cases hs : q.log2 ≤ 52
    · exact .inl (Nat.sub_eq_zero_of_le hs)
    · right
      have hne : q ≠ 0 := by
        rintro rfl
        simp at hs
      have : Nat.pow 2 52 ≤ q / Nat.pow 2 (q.log2 - 52) := by
        rw [Nat.le_div_iff_mul_le hpos]
        refine Nat.le_trans (Nat.le_of_eq (Nat.pow_add 2 52 _).symm) ?_
        rw [show 52 + (q.log2 - 52) = q.log2 by omega]
        exact Nat.log2_self_le hne
      omega

/-- The magnitude nearest to `num / den` units, unless it is beyond the largest. -/
def nearest? (num den : Nat) : Option Magnitude :=
  if h : roundUnits num den < bound then some ⟨roundUnits num den, step_dvd_roundUnits num den, h⟩
    else none

theorem two_pow_pos (k : Nat) : 0 < Nat.pow 2 k := Nat.two_pow_pos k

theorem bound_pos : 0 < bound := by
  unfold bound
  exact two_pow_pos bits

/-- The magnitude zero. -/
def zero : Magnitude := ⟨0, by simp, bound_pos⟩

end Magnitude

/-- A binary floating-point number; zeros and infinities have a sign. -/
inductive Double
  | nan
  | infinite (negative : Bool)
  | finite (negative : Bool) (magnitude : Magnitude)
deriving DecidableEq

namespace Double

/-- How many halvings lead from one to the unit. -/
def unitBits : Nat := 1074

/-- How many units make one. -/
@[irreducible] def one : Nat := Nat.pow 2 unitBits

/-- The double nearest to `num / den` units, with the sign given. -/
def ofUnits (negative : Bool) (num den : Nat) : Double :=
  match Magnitude.nearest? num den with
  | some m => .finite negative m
  | none => .infinite negative

/-- The double nearest to `num / den`, with the sign given. -/
def ofRatio (negative : Bool) (num den : Nat) : Double := ofUnits negative (num * one) den

/-- The double nearest to an integer. -/
def ofInt (n : Int) : Double := ofRatio (n < 0) n.natAbs 1

/-- The zero of a sign. -/
def zero (negative : Bool) : Double := .finite negative .zero

/-- The units of a magnitude, with the sign given. -/
def signedUnits (negative : Bool) (m : Magnitude) : Int := if negative then -m.units else m.units

/-- The value of a finite double, in units. -/
def units? : Double → Option Int
  | .finite negative m => some (signedUnits negative m)
  | _ => none

def isNan : Double → Bool
  | .nan => true
  | _ => false

def isInfinite : Double → Bool
  | .infinite _ => true
  | _ => false

/-- Whether the sign is negative; a NaN has none. -/
def isNegative : Double → Bool
  | .nan => false
  | .infinite negative => negative
  | .finite negative _ => negative

/-- Equality of values: the two zeros are equal, and a NaN equals nothing. -/
def equal : Double → Double → Bool
  | .infinite a, .infinite b => a == b
  | .finite a x, .finite b y => signedUnits a x == signedUnits b y
  | _, _ => false

/-- The integer that a whole double is. -/
def whole? : Double → Option Int
  | .finite negative m =>
    if m.units % one = 0 then
      some (if negative then -(m.units / one : Nat) else (m.units / one : Nat)) else none
  | _ => none

/-- The integer part of a finite double. -/
def truncate? : Double → Option Int
  | .finite negative m => some (if negative then -(m.units / one : Nat) else (m.units / one : Nat))
  | _ => none

end Double

end LineScript
