import LineScript.Proofs.Double.Value
import Mathlib.Algebra.Order.Field.Basic
import Mathlib.Tactic.Linarith
import Mathlib.Tactic.Positivity

/-!
# Correct rounding

`Double.Rounds` says what it means that a double is the nearest one to a rational number, with ties
to the even significand. Ratios that do not overflow are rounded so (`Double.rounds_ofRatio`).

The argument has two levels. A quotient is rounded to the nearest whole number
(`Magnitude.distance_roundDiv_lt`); and the magnitudes near it are the multiples of
`Magnitude.spacing`, all other ones being farther away (`Magnitude.distance_lt_of_not_dvd`), so that
among magnitudes, too, none is nearer (`Magnitude.distance_roundUnits_lt`).
-/

namespace LineScript

namespace Magnitude

/-- How far `m` is from `num / den`, times `den`. -/
def distance (num den m : Nat) : Nat := ((m * den : Nat) - num : Int).natAbs

theorem distance_mul (num den m scale : Nat) :
    distance num den (m * scale) = distance num (den * scale) m := by
  unfold distance
  rw [Nat.mul_assoc, Nat.mul_comm scale]

variable {num den : Nat}

/-! ## Whole numbers -/

/-- A rounded quotient is off by half at most. -/
theorem two_mul_distance_roundDiv_le (hden : 0 < den) :
    2 * distance num den (roundDiv num den) ≤ den := by
  have hnum := Nat.div_add_mod' num den
  have hmod := Nat.mod_lt num hden
  unfold distance roundDiv
  split
  · omega
  · rw [Nat.add_mul, Nat.one_mul]
    omega

/-- A whole number is the last one up to a quotient, the next one, or farther away than both. -/
theorem whole_cases (num den k : Nat) :
    k = num / den ∨ k = num / den + 1 ∨ k * den + den ≤ num / den * den ∨
      num / den * den + 2 * den ≤ k * den := by
  rcases Nat.lt_trichotomy k (num / den) with hlt | rfl | hgt
  · right; right; left
    rw [← Nat.succ_mul]
    exact Nat.mul_le_mul_right den hlt
  · exact .inl rfl
  · rcases Nat.lt_or_eq_of_le hgt with hfar | rfl
    · right; right; right
      rw [← Nat.add_mul]
      exact Nat.mul_le_mul_right den hfar
    · exact .inr (.inl rfl)

/-- All other whole numbers are farther from a quotient than the rounded one, or as far, and then
that one is even. -/
theorem distance_roundDiv_lt (hden : 0 < den) {k : Nat} (hk : k ≠ roundDiv num den) :
    distance num den (roundDiv num den) < distance num den k ∨
      distance num den (roundDiv num den) = distance num den k ∧ roundDiv num den % 2 = 0 := by
  have hnum := Nat.div_add_mod' num den
  have hmod := Nat.mod_lt num hden
  have hcases := whole_cases num den k
  unfold distance
  unfold roundDiv at *
  split at hk
  · next h =>
    rw [if_pos h]
    rcases hcases with rfl | rfl | hfar | hfar
    · omega
    · rw [Nat.add_mul, Nat.one_mul]
      omega
    · omega
    · omega
  · next h =>
    rw [if_neg h, Nat.add_mul, Nat.one_mul]
    rcases hcases with rfl | rfl | hfar | hfar <;> omega

/-! ## Magnitudes -/

/-- The units between neighbouring magnitudes around a quotient. -/
def spacing (num den : Nat) : Nat := Nat.pow 2 ((num / den).log2 - 52)

/-- The number of spacings that a quotient is rounded to. -/
def significand (num den : Nat) : Nat := roundDiv num (den * spacing num den)

theorem roundUnits_eq (num den : Nat) :
    roundUnits num den = significand num den * spacing num den := rfl

theorem spacing_pos (num den : Nat) : 0 < spacing num den := two_pow_pos _

/-- The power of two up to a quotient is a multiple of the spacing. -/
theorem two_pow_log2_eq (h : 52 ≤ (num / den).log2) :
    Nat.pow 2 (num / den).log2 = Nat.pow 2 52 * spacing num den := by
  rw [spacing, Nat.pow_eq, Nat.pow_eq, Nat.pow_eq, ← Nat.pow_add, Nat.add_sub_of_le h]

theorem two_pow_log2_le (h : 52 ≤ (num / den).log2) : Nat.pow 2 (num / den).log2 ≤ num / den := by
  apply Nat.log2_self_le
  intro hzero
  rw [hzero] at h
  simp at h

/-- The spacing is one unit, or small against the quotient. -/
theorem spacing_eq_one_or (num den : Nat) :
    spacing num den = 1 ∨ Nat.pow 2 52 * spacing num den ≤ num / den := by
  rcases Nat.le_total (num / den).log2 52 with hle | hge
  · left
    rw [spacing, Nat.sub_eq_zero_of_le hle, Nat.pow_eq, Nat.pow_zero]
  · right
    rw [← two_pow_log2_eq hge]
    exact two_pow_log2_le hge

theorem significand_le (num den : Nat) : significand num den ≤ Nat.pow 2 53 := by
  have hround := roundDiv_eq_or num (den * spacing num den)
  have hlt : num / (den * spacing num den) < Nat.pow 2 53 := by
    rw [← Nat.div_div_eq_div_mul, Nat.div_lt_iff_lt_mul (spacing_pos num den)]
    refine Nat.lt_of_lt_of_le Nat.lt_log2_self ?_
    rw [spacing, Nat.pow_eq, Nat.pow_eq, ← Nat.pow_add]
    exact Nat.pow_le_pow_right (by decide) (by omega)
  unfold significand
  omega

/-- A magnitude that is no multiple of the spacing is farther from the quotient than what it is
rounded to. -/
theorem distance_lt_of_not_dvd (hden : 0 < den) {u : Nat} (hu : step u ∣ u)
    (h : ¬ spacing num den ∣ u) :
    distance num den (roundUnits num den) < distance num den u := by
  have hlog : u.log2 < (num / den).log2 ∧ 52 ≤ (num / den).log2 := by
    by_contra hge
    refine h (Nat.dvd_trans (Nat.pow_dvd_pow 2 ?_) hu)
    omega
  -- The power of two up to the quotient is nearer than `u`, and what the quotient is rounded to is
  -- at least as near.
  have hbelow : u < Nat.pow 2 (num / den).log2 := by
    rcases Nat.eq_zero_or_pos u with rfl | hpos
    · exact two_pow_pos _
    · exact (Nat.log2_lt (by omega)).1 hlog.1
  have hle : Nat.pow 2 (num / den).log2 * den ≤ num :=
    Nat.le_trans (Nat.mul_le_mul_right den (two_pow_log2_le hlog.2)) (Nat.div_mul_le_self num den)
  have hlt := Nat.mul_lt_mul_of_pos_right hbelow hden
  have hfarther : distance num den (Nat.pow 2 (num / den).log2) < distance num den u := by
    unfold distance
    omega
  refine Nat.lt_of_le_of_lt ?_ hfarther
  rw [roundUnits_eq, two_pow_log2_eq hlog.2, distance_mul, distance_mul, significand]
  by_cases heq : Nat.pow 2 52 = roundDiv num (den * spacing num den)
  · rw [heq]
  · have hround := distance_roundDiv_lt (Nat.mul_pos hden (spacing_pos num den)) heq
    omega

/-- The step around a number of fewer than 53 bits that is shifted divides the shift. -/
theorem step_dvd_two_pow {n : Nat} (hpos : 0 < n) (hn : n < Nat.pow 2 53) (k : Nat) :
    step (n * Nat.pow 2 k) ∣ Nat.pow 2 k := by
  have hne : n * Nat.pow 2 k ≠ 0 :=
    Nat.mul_ne_zero (Nat.ne_of_gt hpos) (Nat.ne_of_gt (two_pow_pos k))
  have hlog : (n * Nat.pow 2 k).log2 < 53 + k := by
    rw [Nat.log2_lt hne, Nat.pow_add]
    exact Nat.mul_lt_mul_of_pos_right hn (two_pow_pos k)
  exact Nat.pow_dvd_pow 2 (by omega)

/-- Whether a magnitude is an even number of steps. -/
def IsEven (u : Nat) : Prop := 2 * step u ∣ u

theorem isEven_roundUnits (h : significand num den % 2 = 0) : IsEven (roundUnits num den) := by
  obtain ⟨half, hhalf⟩ := Nat.dvd_of_mod_eq_zero h
  rw [IsEven, roundUnits_eq]
  rcases Nat.eq_zero_or_pos (significand num den) with hzero | hpos
  · rw [hzero, Nat.zero_mul]
    exact Nat.dvd_zero _
  rcases Nat.lt_or_eq_of_le (significand_le num den) with hlt | heq
  · have hstep : step (significand num den * spacing num den) ∣ spacing num den :=
      step_dvd_two_pow hpos hlt _
    refine Nat.dvd_trans (Nat.mul_dvd_mul_left 2 hstep) ⟨half, ?_⟩
    rw [hhalf, Nat.mul_right_comm]
  · -- Rounded up to the next power of two, around which the step is twice the spacing.
    have hpower : Nat.pow 2 53 * spacing num den = 2 ^ (53 + ((num / den).log2 - 52)) :=
      (Nat.pow_add 2 53 _).symm
    rw [heq, hpower, step, Nat.log2_two_pow, Nat.pow_eq, ← Nat.pow_succ']
    exact Nat.pow_dvd_pow 2 (by omega)

/-- All other magnitudes are farther from a quotient than the rounded one, or as far, and then that
one is even. -/
theorem distance_roundUnits_lt (hden : 0 < den) {u : Nat} (hu : step u ∣ u)
    (hne : u ≠ roundUnits num den) :
    distance num den (roundUnits num den) < distance num den u ∨
      distance num den (roundUnits num den) = distance num den u ∧ IsEven (roundUnits num den) := by
  by_cases h : spacing num den ∣ u
  · obtain ⟨k, rfl⟩ := h
    rw [Nat.mul_comm, roundUnits_eq, distance_mul, distance_mul]
    have hk : k ≠ significand num den := by
      rintro rfl
      exact hne (Nat.mul_comm _ _)
    rcases distance_roundDiv_lt (Nat.mul_pos hden (spacing_pos num den)) hk with hlt | ⟨heq, heven⟩
    · exact .inl hlt
    · exact .inr ⟨heq, isEven_roundUnits heven⟩
  · exact .inl (distance_lt_of_not_dvd hden hu h)

/-- A quotient that is a magnitude is not changed. -/
theorem roundUnits_mul (hden : 0 < den) {u : Nat} (hu : step u ∣ u) :
    roundUnits (u * den) den = u := by
  by_contra hne
  have hself : distance (u * den) den u = 0 := by
    unfold distance
    omega
  have hnear := distance_roundUnits_lt hden hu (Ne.symm hne)
  have hzero : distance (u * den) den (roundUnits (u * den) den) = 0 := by omega
  unfold distance at hzero
  exact hne (Nat.eq_of_mul_eq_mul_right hden (by omega))

theorem roundUnits_zero (hden : 0 < den) : roundUnits 0 den = 0 := by
  have h := roundUnits_mul hden (u := 0) (Nat.dvd_zero _)
  rwa [Nat.zero_mul] at h

/-- A whole number below `2 ^ 53`, shifted, is a magnitude. -/
theorem step_dvd_mul_two_pow {n : Nat} (hn : n < Nat.pow 2 53) (k : Nat) :
    step (n * Nat.pow 2 k) ∣ n * Nat.pow 2 k := by
  rcases Nat.eq_zero_or_pos n with rfl | hpos
  · rw [Nat.zero_mul]
    exact Nat.dvd_zero _
  · exact Nat.dvd_mul_left_of_dvd (step_dvd_two_pow hpos hn k) n

end Magnitude

/-! ## Doubles -/

namespace Double

/-- Whole numbers below `2 ^ 53` are doubles. -/
theorem step_dvd_mul_one {n : Nat} (hn : n < Nat.pow 2 53) :
    Magnitude.step (n * one) ∣ n * one := by
  have h := Magnitude.step_dvd_mul_two_pow hn unitBits
  unfold one
  exact h

/-- A result that is not infinite has the rounded units. -/
theorem exists_of_isInfinite {negative : Bool} {num den : Nat}
    (h : (ofUnits negative num den).isInfinite = false) :
    ∃ m : Magnitude, ofUnits negative num den = .finite negative m ∧
      m.units = Magnitude.roundUnits num den := by
  unfold ofUnits at *
  split at h
  · next m hm =>
    unfold Magnitude.nearest? at hm
    split at hm
    · cases hm
      exact ⟨_, rfl, rfl⟩
    · cases hm
  · cases h

/-- A number with the sign given. -/
def signed (negative : Bool) (x : Rat) : Rat := if negative then -x else x

theorem value?_finite (negative : Bool) (m : Magnitude) :
    (finite negative m).value? = some (signed negative ((m.units : Rat) / one)) := by
  cases negative
  · exact value?_positive m
  · exact value?_negative m

/-- Whether the significand of a finite double is even. -/
def IsEven : Double → Prop
  | .finite _ m => Magnitude.IsEven m.units
  | _ => False

/-- `d` is the double nearest to `q`; of two that are as near, it is the one with the even
significand. -/
def Rounds (q : Rat) (d : Double) : Prop :=
  ∃ v, d.value? = some v ∧
    ∀ (e : Double) (w : Rat), e.value? = some w →
      |v - q| ≤ |w - q| ∧ (|v - q| = |w - q| → w = v ∨ d.IsEven)

theorem abs_signed_sub (a b : Bool) {x y : Rat} (hx : 0 ≤ x) (hy : 0 ≤ y) :
    |signed b y - signed a x| = if a = b then |y - x| else y + x := by
  have hsum : |y + x| = y + x := abs_of_nonneg (add_nonneg hy hx)
  cases a <;> cases b
  · simp [signed]
  · simp only [signed, Bool.false_eq_true, if_false, if_true]
    rw [← neg_add', abs_neg, hsum]
  · simp [signed, hsum]
  · simp only [signed, if_true]
    rw [neg_sub_neg, abs_sub_comm]

/-- The sign of another number can only take it farther away. -/
theorem abs_sub_le_signed (a b : Bool) {x y : Rat} (hx : 0 ≤ x) (hy : 0 ≤ y) :
    |y - x| ≤ |signed b y - signed a x| := by
  rw [abs_signed_sub a b hx hy]
  split
  · exact le_refl _
  · rw [abs_le]
    constructor <;> linarith

theorem eq_zero_of_abs_sub {x y : Rat} (h : |y - x| = y + x) : x = 0 ∨ y = 0 := by
  rcases abs_choice (y - x) with habs | habs
  · left
    linarith
  · right
    linarith

variable {num den : Nat}

theorem abs_value_sub (num : Nat) (hden : 0 < den) (u : Nat) :
    |(u : Rat) / one - num / den| = Magnitude.distance (num * one) den u / (one * den) := by
  have hone : (one : Rat) ≠ 0 := Nat.cast_ne_zero.2 (Nat.ne_of_gt one_pos)
  have hd : (den : Rat) ≠ 0 := Nat.cast_ne_zero.2 (Nat.ne_of_gt hden)
  have habs : |(one : Rat) * den| = one * den := abs_of_nonneg (by positivity)
  rw [Magnitude.distance, div_sub_div _ _ hone hd, abs_div, Nat.cast_natAbs, habs]
  congr 1
  push_cast
  rw [mul_comm (one : Rat)]

theorem abs_roundUnits_sub_lt (hden : 0 < den) {u : Nat} (hu : Magnitude.step u ∣ u)
    (hne : u ≠ Magnitude.roundUnits (num * one) den) :
    |(Magnitude.roundUnits (num * one) den : Rat) / one - num / den| <
      |(u : Rat) / one - num / den| ∨
      |(Magnitude.roundUnits (num * one) den : Rat) / one - num / den| =
        |(u : Rat) / one - num / den| ∧
        Magnitude.IsEven (Magnitude.roundUnits (num * one) den) := by
  have hpos : (0 : Rat) < one * den := by
    have := one_pos
    positivity
  rw [abs_value_sub num hden, abs_value_sub num hden]
  rcases Magnitude.distance_roundUnits_lt hden hu hne with hlt | ⟨heq, heven⟩
  · left
    exact div_lt_div_of_pos_right (Nat.cast_lt.2 hlt) hpos
  · right
    exact ⟨by rw [heq], heven⟩

/-- A ratio that is not rounded to an infinity is rounded correctly. -/
theorem rounds_ofRatio (negative : Bool) (hden : 0 < den)
    (h : (ofRatio negative num den).isInfinite = false) :
    Rounds (signed negative (num / den)) (ofRatio negative num den) := by
  obtain ⟨m, hm, hunits⟩ := exists_of_isInfinite h
  have hratio : ofRatio negative num den = .finite negative m := hm
  rw [hratio]
  refine ⟨_, value?_finite negative m, ?_⟩
  intro e w hw
  cases e with
  | nan | infinite => cases hw
  | finite negative' m' =>
    rw [value?_finite, Option.some.injEq] at hw
    subst hw
    have hx : 0 ≤ (num : Rat) / den := by positivity
    have hy : 0 ≤ (m.units : Rat) / one := by positivity
    have hz : 0 ≤ (m'.units : Rat) / one := by positivity
    have hfar := abs_sub_le_signed negative negative' hx hz
    rw [abs_signed_sub negative negative hx hy, if_pos rfl]
    by_cases hsame : m'.units = m.units
    · rw [hsame] at hfar ⊢
      refine ⟨hfar, fun htie => .inl ?_⟩
      by_cases hsign : negative = negative'
      · rw [hsign]
      · -- Of doubles with different signs only the two zeros are as near.
        rw [abs_signed_sub negative negative' hx hy, if_neg hsign] at htie
        have hzero : (m.units : Rat) / one = 0 := by
          rcases eq_zero_of_abs_sub htie with hnum | hzero
          · have hden' : (den : Rat) ≠ 0 := by positivity
            rw [div_eq_zero_iff, or_iff_left hden', Nat.cast_eq_zero] at hnum
            rw [hunits, hnum, Nat.zero_mul, Magnitude.roundUnits_zero hden, Nat.cast_zero, zero_div]
          · exact hzero
        rw [hzero]
        simp [signed]
    · have hnear := abs_roundUnits_sub_lt hden m'.step_dvd (hunits ▸ hsame)
      rw [← hunits] at hnear
      rcases hnear with hlt | ⟨heq, heven⟩
      · have hlt' := lt_of_lt_of_le hlt hfar
        exact ⟨le_of_lt hlt', fun htie => absurd htie (ne_of_lt hlt')⟩
      · exact ⟨heq ▸ hfar, fun _ => .inr heven⟩

end Double

end LineScript
