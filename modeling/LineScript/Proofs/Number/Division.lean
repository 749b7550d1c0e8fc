import LineScript.Proofs.Double.Rounding
import LineScript.Proofs.Value.Safe
import Mathlib.Data.Nat.Cast.Field
import Mathlib.Tactic.Ring

/-!
# Division of safe integers

A quotient of integers is rounded to a double before it is looked at whether it is whole. Below
`2 ^ 53` this does no harm: the result is an integer if and only if the division leaves no remainder
(`Value.div_int`).

The reason is that a quotient that is not whole is at least one part of the divisor away from the
next whole numbers, and rounding moves it by less, since neighbouring magnitudes there are less than
two parts of the divisor apart (`Double.mul_spacing_lt`).
-/

namespace LineScript

namespace Double

variable {n den : Nat}

theorem two_pow_le_one : Nat.pow 2 53 ≤ one := by
  have h : ∀ k, 53 ≤ k → Nat.pow 2 53 ≤ Nat.pow 2 k := fun k => Nat.pow_le_pow_right (by decide)
  unfold one
  exact h unitBits (by decide)

/-- Around a quotient of safe integers neighbouring magnitudes are less than two parts of the
divisor apart. -/
theorem mul_spacing_lt (hn : n < Nat.pow 2 53) (hden : den < Nat.pow 2 53) :
    den * Magnitude.spacing (n * one) den < 2 * one := by
  rcases Magnitude.spacing_eq_one_or (n * one) den with hunit | hsmall
  · have := two_pow_le_one
    rw [hunit]
    omega
  · have hle : Nat.pow 2 52 * (den * Magnitude.spacing (n * one) den) ≤ n * one :=
      calc Nat.pow 2 52 * (den * Magnitude.spacing (n * one) den)
          = Nat.pow 2 52 * Magnitude.spacing (n * one) den * den := by ring
        _ ≤ n * one / den * den := Nat.mul_le_mul_right den hsmall
        _ ≤ n * one := Nat.div_mul_le_self _ _
    have hlt : n * one < Nat.pow 2 52 * (2 * one) :=
      calc n * one < Nat.pow 2 53 * one := Nat.mul_lt_mul_of_pos_right hn one_pos
        _ = Nat.pow 2 52 * (2 * one) := by rw [← Nat.mul_assoc]
    exact Nat.lt_of_mul_lt_mul_left (Nat.lt_of_le_of_lt hle hlt)

/-- A quotient of safe integers that is not whole is rounded to what is between the same whole
numbers. -/
theorem roundUnits_between (hn : n < Nat.pow 2 53) (hpos : 0 < den) (hden : den < Nat.pow 2 53)
    (h : ¬ den ∣ n) :
    n / den * one < Magnitude.roundUnits (n * one) den ∧
      Magnitude.roundUnits (n * one) den < (n / den + 1) * one := by
  have hspacing := mul_spacing_lt hn hden
  have hscale : 0 < den * Magnitude.spacing (n * one) den :=
    Nat.mul_pos hpos (Magnitude.spacing_pos _ _)
  have hnear : 2 * Magnitude.distance (n * one) den (Magnitude.roundUnits (n * one) den) ≤
      den * Magnitude.spacing (n * one) den := by
    rw [Magnitude.roundUnits_eq, Magnitude.distance_mul]
    exact Magnitude.two_mul_distance_roundDiv_le hscale
  have hdiv := Nat.div_add_mod n den
  have hmod := Nat.mod_lt n hpos
  have hrest := mt Nat.dvd_of_mod_eq_zero h
  have hbelow : n / den * one * den + one ≤ n * one :=
    calc n / den * one * den + one = (den * (n / den) + 1) * one := by ring
      _ ≤ n * one := Nat.mul_le_mul_right one (by omega)
  have habove : n * one + one ≤ (n / den + 1) * one * den :=
    calc n * one + one = (n + 1) * one := by ring
      _ ≤ (den * (n / den) + den) * one := Nat.mul_le_mul_right one (by omega)
      _ = (n / den + 1) * one * den := by ring
  unfold Magnitude.distance at hnear
  constructor
  · refine Nat.lt_of_mul_lt_mul_right (a := den) ?_
    omega
  · refine Nat.lt_of_mul_lt_mul_right (a := den) ?_
    omega

theorem whole?_of_units (negative : Bool) {m : Magnitude} (h : m.units = n * one) :
    (finite negative m).whole? = some (if negative then -(n : Int) else n) := by
  have hmod : m.units % one = 0 := by rw [h, Nat.mul_mod_left]
  have hdiv : m.units / one = n := by rw [h, Nat.mul_div_cancel _ one_pos]
  simp only [whole?, hmod, hdiv, if_true]

theorem whole?_of_between (negative : Bool) {m : Magnitude} (hlow : n * one < m.units)
    (hhigh : m.units < (n + 1) * one) : (finite negative m).whole? = none := by
  have hmod : m.units % one ≠ 0 := by
    intro hzero
    obtain ⟨k, hk⟩ := Nat.dvd_of_mod_eq_zero hzero
    rw [hk, Nat.mul_comm one] at hlow hhigh
    have h1 := Nat.lt_of_mul_lt_mul_right hlow
    have h2 := Nat.lt_of_mul_lt_mul_right hhigh
    omega
  simp only [whole?, hmod, if_false]

/-- A safe integer is the double nearest to it, and to a ratio of that value. -/
theorem exists_ofRatio_mul (negative : Bool) (hn : n < Nat.pow 2 53) (hpos : 0 < den) :
    ∃ m : Magnitude, ofRatio negative (n * den) den = .finite negative m ∧ m.units = n * one := by
  have hbound : n < ratioBound := Number.natAbs_lt_ratioBound (n := (n : Int)) hn
  have hlt : n * den < den * ratioBound := by
    rw [Nat.mul_comm]
    exact Nat.mul_lt_mul_of_pos_left hbound hpos
  obtain ⟨m, hm, hunits⟩ := exists_of_isInfinite (isInfinite_ofRatio negative hlt)
  refine ⟨m, hm, ?_⟩
  rw [hunits, Nat.mul_right_comm, Magnitude.roundUnits_mul hpos (step_dvd_mul_one hn)]

theorem exists_ofInt {a : Int} (ha : a.natAbs < Nat.pow 2 53) :
    ∃ m : Magnitude, ofInt a = .finite (a < 0) m ∧ m.units = a.natAbs * one := by
  have h := exists_ofRatio_mul (decide (a < 0)) ha Nat.one_pos
  rwa [Nat.mul_one] at h

end Double

namespace Number

variable {a b : Int}

theorem ofDouble_whole {d : Double} {n : Int} (h : d.whole? = some n)
    (hn : n.natAbs < Nat.pow 2 53) :
    ofDouble d = .int n := by
  have hsafe : isSafe n = true := decide_eq_true_iff.2 hn
  simp only [ofDouble, h, hsafe, if_true]

theorem ofDouble_not_whole {d : Double} (h : d.whole? = none) : ofDouble d = .real d := by
  simp only [ofDouble, h]

/-! ## Signs -/

/-- A quotient of integers is that of their absolute values, negative if one of the two is. -/
theorem cast_div_eq_signed (a b : Int) :
    (a : Rat) / b = Double.signed ((a < 0) != (b < 0)) ((a.natAbs : Rat) / b.natAbs) := by
  have hneg : ∀ x : Int, x < 0 → |(x : Rat)| = -x := fun x hx => abs_of_neg (Int.cast_lt_zero.2 hx)
  have hpos : ∀ x : Int, ¬ x < 0 → |(x : Rat)| = x :=
    fun x hx => abs_of_nonneg (Int.cast_nonneg (not_lt.1 hx))
  rw [Nat.cast_natAbs, Nat.cast_natAbs, Int.cast_abs, Int.cast_abs]
  by_cases ha : a < 0 <;> by_cases hb : b < 0
  · simp [Double.signed, ha, hb, hneg]
  · simp [Double.signed, ha, hb, hneg, hpos, neg_div]
  · simp [Double.signed, ha, hb, hneg, hpos, div_neg]
  · simp [Double.signed, ha, hb, hpos]

theorem signed_natAbs_div (hb : b ≠ 0) (h : b ∣ a) :
    (if ((a < 0) != (b < 0)) = true then -((a.natAbs / b.natAbs : Nat) : Int)
      else (a.natAbs / b.natAbs : Nat)) = a / b := by
  have hb' : (b.natAbs : Rat) ≠ 0 := Nat.cast_ne_zero.2 (Int.natAbs_ne_zero.2 hb)
  have hrat := cast_div_eq_signed a b
  rw [← Nat.cast_div (Int.natAbs_dvd_natAbs.2 h) hb',
    ← Int.cast_div h (Int.cast_ne_zero.2 hb)] at hrat
  apply Int.cast_injective (α := Rat)
  rw [hrat]
  generalize a.natAbs / b.natAbs = n
  unfold Double.signed
  split <;> simp

theorem signed_natAbs_mod (a b : Int) :
    (if decide (a < 0) = true then -((a.natAbs % b.natAbs : Nat) : Int)
      else (a.natAbs % b.natAbs : Nat)) = a.tmod b := by
  cases a <;> cases b <;> simp [Int.tmod]

/-! ## Whole numbers next to a quotient -/

theorem floor_and_ceil {n k : Nat} (hk : 0 < k) (h : ¬ k ∣ n) :
    ⌊(n : Rat) / k⌋ = ((n / k : Nat) : Int) ∧ ⌈(n : Rat) / k⌉ = ((n / k : Nat) : Int) + 1 := by
  refine ⟨Rat.floor_natCast_div_natCast n k, ?_⟩
  have hdiv := Nat.div_add_mod' n k
  have hmod := Nat.mod_lt n hk
  have hrest := mt Nat.dvd_of_mod_eq_zero h
  have hlow : n / k * k < n := by omega
  have hhigh : n ≤ (n / k + 1) * k := by
    rw [Nat.add_mul]
    omega
  have hk' : (0 : Rat) < k := Nat.cast_pos.2 hk
  generalize n / k = f at *
  rw [Int.ceil_eq_iff]
  push_cast
  rw [add_sub_cancel_right, lt_div_iff₀ hk', div_le_iff₀ hk']
  exact ⟨by exact_mod_cast hlow, by exact_mod_cast hhigh⟩

theorem floor_lt_signed {n k : Nat} {y : Rat} (negative : Bool) (hk : 0 < k) (h : ¬ k ∣ n)
    (hlow : ((n / k : Nat) : Rat) < y) (hhigh : y < ((n / k : Nat) : Rat) + 1) :
    (⌊Double.signed negative ((n : Rat) / k)⌋ : Rat) < Double.signed negative y ∧
      Double.signed negative y < (⌈Double.signed negative ((n : Rat) / k)⌉ : Rat) := by
  obtain ⟨hfloor, hceil⟩ := floor_and_ceil hk h
  generalize n / k = f at *
  cases negative
  · simp only [Double.signed, Bool.false_eq_true, if_false, hfloor, hceil]
    push_cast
    exact ⟨hlow, hhigh⟩
  · simp only [Double.signed, if_true, Int.floor_neg, Int.ceil_neg, hfloor, hceil]
    push_cast
    exact ⟨neg_lt_neg hhigh, neg_lt_neg hlow⟩

/-! ## Quotients and remainders -/

theorem isInfinite_quotient (ha : a.natAbs < Nat.pow 2 53) (hb : b ≠ 0) :
    (Double.ofRatio ((a < 0) != (b < 0)) a.natAbs b.natAbs).isInfinite = false := by
  have hpos : 1 ≤ b.natAbs := Int.natAbs_pos.2 hb
  apply Double.isInfinite_ofRatio
  exact Nat.lt_of_lt_of_le (natAbs_lt_ratioBound ha) (Nat.le_mul_of_pos_left _ hpos)

theorem div_int_eq (ha : a.natAbs < Nat.pow 2 53) (hb : b ≠ 0) :
    Number.div (.int a) (.int b) =
      .ok (ofDouble (.ofRatio ((a < 0) != (b < 0)) a.natAbs b.natAbs)) := by
  rw [Number.div, if_neg (mt isZero_int_iff.1 hb)]
  show ofQuotient a b = _
  unfold ofQuotient
  rw [if_neg hb, check_eq_ok (isInfinite_quotient ha hb)]
  rfl

theorem div_int_of_dvd (ha : a.natAbs < Nat.pow 2 53) (hb : b ≠ 0) (h : b ∣ a) :
    Number.div (.int a) (.int b) = .ok (.int (a / b)) := by
  have hn : a.natAbs / b.natAbs < Nat.pow 2 53 := Nat.lt_of_le_of_lt (Nat.div_le_self _ _) ha
  have hmul : a.natAbs / b.natAbs * b.natAbs = a.natAbs :=
    Nat.div_mul_cancel (Int.natAbs_dvd_natAbs.2 h)
  obtain ⟨m, hm, hunits⟩ := Double.exists_ofRatio_mul ((a < 0) != (b < 0)) hn (Int.natAbs_pos.2 hb)
  have hwhole := Double.whole?_of_units ((a < 0) != (b < 0)) hunits
  rw [signed_natAbs_div hb h] at hwhole
  rw [hmul] at hm
  rw [div_int_eq ha hb, hm, ofDouble_whole hwhole]
  exact Nat.lt_of_le_of_lt (Int.natAbs_ediv_le_natAbs _ _) ha

theorem div_int_of_not_dvd (ha : a.natAbs < Nat.pow 2 53) (hb : b.natAbs < Nat.pow 2 53)
    (hb' : b ≠ 0) (h : ¬ b ∣ a) :
    ∃ d v, Number.div (.int a) (.int b) = .ok (.real d) ∧ d.Rounds (a / b) ∧ d.value? = some v ∧
      (⌊(a : Rat) / b⌋ : Rat) < v ∧ v < (⌈(a : Rat) / b⌉ : Rat) := by
  have hpos : 0 < b.natAbs := Int.natAbs_pos.2 hb'
  have hndvd : ¬ b.natAbs ∣ a.natAbs := mt Int.natAbs_dvd_natAbs.1 h
  have hfinite := isInfinite_quotient ha hb'
  have hrounds := Double.rounds_ofRatio _ hpos hfinite
  obtain ⟨m, hm, hunits⟩ := Double.exists_of_isInfinite hfinite
  obtain ⟨hlow, hhigh⟩ := Double.roundUnits_between ha hpos hb hndvd
  rw [← Double.ofRatio] at hm
  rw [← hunits] at hlow hhigh
  rw [← cast_div_eq_signed, hm] at hrounds
  refine ⟨_, _, ?_, hrounds, Double.value?_finite _ m, ?_⟩
  · rw [div_int_eq ha hb', hm, ofDouble_not_whole (Double.whole?_of_between _ hlow hhigh)]
  · have hone : (0 : Rat) < Double.one := Nat.cast_pos.2 Double.one_pos
    rw [cast_div_eq_signed]
    apply floor_lt_signed _ hpos hndvd
    · rw [lt_div_iff₀ hone]
      exact_mod_cast hlow
    · rw [div_lt_iff₀ hone]
      exact_mod_cast hhigh

theorem rem_int (ha : a.natAbs < Nat.pow 2 53) (hb : b.natAbs < Nat.pow 2 53) (hb' : b ≠ 0) :
    Number.rem (.int a) (.int b) = .ok (.int (a.tmod b)) := by
  obtain ⟨x, hx, hxunits⟩ := Double.exists_ofInt ha
  obtain ⟨y, hy, hyunits⟩ := Double.exists_ofInt hb
  have hmod : x.units % y.units = a.natAbs % b.natAbs * Double.one := by
    rw [hxunits, hyunits, Nat.mul_mod_mul_right]
  have hlt : a.natAbs % b.natAbs < Nat.pow 2 53 := Nat.lt_of_le_of_lt (Nat.mod_le _ _) ha
  obtain ⟨m, hm, hunits⟩ := Double.exists_ofRatio_mul (a < 0) hlt Nat.one_pos
  rw [Nat.mul_one, Double.ofRatio, ← hmod] at hm
  have hyne : y.units ≠ 0 := by
    rw [hyunits]
    exact Nat.mul_ne_zero (Int.natAbs_ne_zero.2 hb') (Nat.ne_of_gt Double.one_pos)
  have hrem : (Double.ofInt a).rem? (.ofInt b) = some (.finite (a < 0) m) := by
    rw [hx, hy, Double.rem?, if_neg hyne, hm]
  have hwhole := Double.whole?_of_units (a < 0) hunits
  rw [signed_natAbs_mod] at hwhole
  have hsafe : (a.tmod b).natAbs < Nat.pow 2 53 := by rwa [Int.natAbs_tmod]
  have hzero : (int b).isZero = false := Bool.eq_false_iff.2 (mt isZero_int_iff.1 hb')
  rw [rem_eq hzero (toDouble_int (natAbs_lt_ratioBound ha)) (toDouble_int (natAbs_lt_ratioBound hb))
    (Double.isInfinite_ofInt (natAbs_lt_ratioBound ha)) hrem, ofDouble_whole hwhole hsafe]

end Number

namespace Value

theorem numeric_number [Host] (op : Number → Number → Except Exception Number) {x y n : Number}
    (h : op x y = .ok n) :
    numeric op (.number x) (.number y) = .ok (.number n) := by
  show ((op x y).mapError Fault.exception >>= fun n => pure (number n)) = _
  rw [h]
  rfl

/-- The quotient of safe integers is an integer exactly if it is whole, and else a double strictly
between the two integers next to it, the nearest to the quotient. So it is an integer exactly if the
remainder is zero. -/
theorem div_int [Host] {a b : Int} (ha : a.natAbs < 2 ^ 53) (hb : b.natAbs < 2 ^ 53) (hb' : b ≠ 0) :
    ((∃ n, Value.div (.number (.int a)) (.number (.int b)) = .ok (.number (.int n))) ↔ b ∣ a) ∧
      (∀ n, Value.div (.number (.int a)) (.number (.int b)) = .ok (.number (.int n)) → a = b * n) ∧
      (¬ b ∣ a → ∃ d v, Value.div (.number (.int a)) (.number (.int b)) = .ok (.number (.real d)) ∧
        d.Rounds (a / b) ∧ d.value? = some v ∧ (⌊(a : Rat) / b⌋ : Rat) < v ∧
          v < (⌈(a : Rat) / b⌉ : Rat)) ∧
      ((∃ n, Value.div (.number (.int a)) (.number (.int b)) = .ok (.number (.int n))) ↔
        Value.rem (.number (.int a)) (.number (.int b)) = .ok (.number (.int 0))) := by
  have hwhole : b ∣ a →
      Value.div (.number (.int a)) (.number (.int b)) = .ok (.number (.int (a / b))) :=
    fun h => numeric_number _ (Number.div_int_of_dvd ha hb' h)
  have hbetween : ¬ b ∣ a →
      ∃ d v, Value.div (.number (.int a)) (.number (.int b)) = .ok (.number (.real d)) ∧
      d.Rounds (a / b) ∧ d.value? = some v ∧ (⌊(a : Rat) / b⌋ : Rat) < v ∧
        v < (⌈(a : Rat) / b⌉ : Rat) := by
    intro h
    obtain ⟨d, v, hd, hv⟩ := Number.div_int_of_not_dvd ha hb hb' h
    exact ⟨d, v, numeric_number _ hd, hv⟩
  have hdvd : ∀ n, Value.div (.number (.int a)) (.number (.int b)) = .ok (.number (.int n)) →
      b ∣ a := by
    intro n hn
    by_contra h
    obtain ⟨d, v, hd, -⟩ := hbetween h
    rw [hn] at hd
    cases hd
  have hiff : (∃ n, Value.div (.number (.int a)) (.number (.int b)) = .ok (.number (.int n))) ↔
      b ∣ a :=
    ⟨fun ⟨n, hn⟩ => hdvd n hn, fun h => ⟨_, hwhole h⟩⟩
  have hrem : Value.rem (.number (.int a)) (.number (.int b)) = .ok (.number (.int (a.tmod b))) :=
    numeric_number _ (Number.rem_int ha hb hb')
  refine ⟨hiff, ?_, hbetween, ?_⟩
  · intro n hn
    have h := hdvd n hn
    rw [hwhole h] at hn
    cases hn
    exact (Int.mul_ediv_cancel' h).symm
  · rw [hiff, hrem, Int.dvd_iff_tmod_eq_zero]
    simp

/-- The two greatest safe integers: their quotient is as near to one as any, and still no
integer. -/
theorem div_int_nearlyOne :
    (9007199254740990 : Int).natAbs < 2 ^ 53 ∧ (9007199254740991 : Int).natAbs < 2 ^ 53 ∧
      ¬ (9007199254740991 : Int) ∣ 9007199254740990 ∧
      ∃ d v, Value.div (.number (.int 9007199254740990)) (.number (.int 9007199254740991)) =
        .ok (.number (.real d)) ∧
        d.Rounds (((9007199254740990 : Int) : Rat) / ((9007199254740991 : Int) : Rat)) ∧
          d.value? = some v ∧
        (⌊((9007199254740990 : Int) : Rat) / ((9007199254740991 : Int) : Rat)⌋ : Rat) < v ∧
        v < (⌈((9007199254740990 : Int) : Rat) / ((9007199254740991 : Int) : Rat)⌉ : Rat) :=
  ⟨by decide, by decide, by decide, (div_int (by decide) (by decide) (by decide)).2.2.1 (by decide)⟩

end Value

end LineScript
