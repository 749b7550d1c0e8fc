import LineScript.Double.Decimal
import LineScript.Proofs.Double.Rounding
import Mathlib.Algebra.Order.Field.Power
import Mathlib.Tactic.FieldSimp
import Mathlib.Tactic.Ring

/-!
# Decimals and the doubles nearest to them

A decimal is a ratio, and the double that is read for it is the one nearest to that ratio: the
powers of ten that are not computed are those of ratios that are rounded to an infinity or to zero
(`Double.ofDecimal_eq`). So two decimals of the same value are read as the same double
(`Double.ofDecimal_congr`). `Double.Nearest` says what the nearest double is, also beyond the
largest one.

The decimal that a magnitude is written as reads back as the magnitude
(`Magnitude.ofDecimal_shortest`), and for whole numbers below `2 ^ 53` it is the number itself
(`Magnitude.value_shortest`).
-/

namespace LineScript

namespace Magnitude

variable {num den : Nat}

/-! ## Ratios -/

theorem roundDiv_mul_right (num den : Nat) {k : Nat} (hk : 0 < k) :
    roundDiv (num * k) (den * k) = roundDiv num den := by
  have hlt : 2 * (num % den * k) < den * k ↔ 2 * (num % den) < den := by
    rw [← Nat.mul_assoc, Nat.mul_lt_mul_right hk]
  have heq : 2 * (num % den * k) = den * k ↔ 2 * (num % den) = den := by
    rw [← Nat.mul_assoc, Nat.mul_left_inj (Nat.ne_of_gt hk)]
  simp only [roundDiv, Nat.mul_mod_mul_right, Nat.mul_div_mul_right _ _ hk, hlt, heq]

theorem roundUnits_mul_right (num den : Nat) {k : Nat} (hk : 0 < k) :
    roundUnits (num * k) (den * k) = roundUnits num den := by
  simp only [roundUnits, Nat.mul_div_mul_right _ _ hk, Nat.mul_right_comm den k,
    roundDiv_mul_right _ _ hk]

/-- What a ratio is rounded to depends on its value only. -/
theorem roundUnits_congr {num' den' : Nat} (hden : 0 < den) (hden' : 0 < den')
    (h : num * den' = num' * den) :
    roundUnits num den = roundUnits num' den' := by
  rw [← roundUnits_mul_right num den hden', h, Nat.mul_comm den, roundUnits_mul_right _ _ hden]

/-! ## Bounds -/

/-- Rounding does not go below a magnitude. -/
theorem le_roundUnits (hden : 0 < den) {u : Nat} (hu : step u ∣ u) (h : u * den ≤ num) :
    u ≤ roundUnits num den := by
  by_contra hlt
  have hmul := Nat.mul_lt_mul_of_pos_right (Nat.lt_of_not_le hlt) hden
  have hnear := distance_roundUnits_lt hden hu (Nat.ne_of_gt (Nat.lt_of_not_le hlt))
  unfold distance at hnear
  omega

theorem roundUnits_eq_zero (h : 2 * num < den) : roundUnits num den = 0 := by
  have hdiv : num / den = 0 := Nat.div_eq_of_lt (by omega)
  have hmod : num % den = num := Nat.mod_eq_of_lt (by omega)
  simp [roundUnits, roundDiv, hdiv, hmod, h]

theorem step_of_log2 {u k : Nat} (h : u.log2 = k + 53) : step u = 2 * 2 ^ k := by
  rw [step, h, show k + 53 - 52 = k + 1 by omega, Nat.pow_eq, Nat.pow_succ, Nat.mul_comm]

/-- A magnitude below a power of two lies at least one step below it. -/
theorem le_of_lt_two_pow {u k : Nat} (hu : step u ∣ u) (h : u < 2 ^ 54 * 2 ^ k) :
    u ≤ (2 ^ 54 - 2) * 2 ^ k := by
  by_cases hlog : u.log2 = k + 53
  · rw [step_of_log2 hlog] at hu
    obtain ⟨c, rfl⟩ := hu
    have hc : 2 * c < 2 ^ 54 := by
      refine Nat.lt_of_mul_lt_mul_right (a := 2 ^ k) ?_
      rwa [Nat.mul_right_comm]
    rw [Nat.mul_right_comm]
    exact Nat.mul_le_mul_right _ (by omega)
  · have hhalf : u < 2 ^ 53 * 2 ^ k := by
      rcases Nat.eq_zero_or_pos u with rfl | hpos
      · exact Nat.mul_pos (by decide) (Nat.two_pow_pos k)
      · rw [← Nat.pow_add, ← Nat.log2_lt (Nat.ne_of_gt hpos)] at h ⊢
        omega
    exact Nat.le_trans (Nat.le_of_lt hhalf) (Nat.mul_le_mul_right _ (by decide))

theorem log2_last (k : Nat) : ((2 ^ 54 - 2) * 2 ^ k).log2 = k + 53 := by
  have hpos : 0 < 2 ^ k := Nat.two_pow_pos k
  rw [Nat.log2_eq_iff (Nat.ne_of_gt (Nat.mul_pos (by decide) hpos)), Nat.add_comm k,
    Nat.add_right_comm, Nat.pow_add, Nat.pow_add]
  exact ⟨Nat.mul_le_mul_right _ (by decide), Nat.mul_lt_mul_of_pos_right (by decide) hpos⟩

theorem step_dvd_last (k : Nat) : step ((2 ^ 54 - 2) * 2 ^ k) ∣ (2 ^ 54 - 2) * 2 ^ k := by
  rw [step_of_log2 (log2_last k)]
  exact ⟨2 ^ 53 - 1, by ring⟩

/-- The last magnitude below a power of two has an odd significand. -/
theorem not_isEven_last (k : Nat) : ¬ IsEven ((2 ^ 54 - 2) * 2 ^ k) := by
  rw [IsEven, step_of_log2 (log2_last k)]
  rintro ⟨c, hc⟩
  have hfour : 2 ^ 54 - 2 = 4 * c := by
    refine Nat.eq_of_mul_eq_mul_right (Nat.two_pow_pos k) ?_
    rw [hc]
    ring
  omega

/-- Rounding stays below a power of two exactly below the middle of the last step before it. -/
theorem roundUnits_lt_iff (hden : 0 < den) (k : Nat) :
    roundUnits num den < 2 ^ 54 * 2 ^ k ↔ num < (2 ^ 54 - 1) * 2 ^ k * den := by
  have hpos : 0 < 2 ^ k * den := Nat.mul_pos (Nat.two_pow_pos k) hden
  have htop : step (2 ^ 54 * 2 ^ k) ∣ 2 ^ 54 * 2 ^ k := by
    rw [← Nat.pow_add]
    exact step_two_pow _
  constructor
  · intro h
    by_contra hge
    -- The power of two is nearer than the last magnitude, or as near, and that one is odd.
    have hle := le_of_lt_two_pow (step_dvd_roundUnits num den) h
    have hmul := Nat.mul_le_mul_right den hle
    have hnear := distance_roundUnits_lt hden htop (Nat.ne_of_gt h)
    rw [Nat.mul_assoc] at hge hmul
    unfold distance at hnear
    rw [Nat.mul_assoc] at hnear
    rcases hnear with hlt | ⟨heq, heven⟩
    · omega
    · have hround : roundUnits num den * den = (2 ^ 54 - 2) * (2 ^ k * den) := by omega
      rw [← Nat.mul_assoc] at hround
      rw [Nat.eq_of_mul_eq_mul_right hden hround] at heven
      exact not_isEven_last k heven
  · intro h
    by_contra hge
    have hmul := Nat.mul_le_mul_right den (Nat.le_of_not_lt hge)
    have hne : (2 ^ 54 - 2) * 2 ^ k ≠ roundUnits num den := by
      intro heq
      rw [← heq] at hge
      exact hge (Nat.mul_lt_mul_of_pos_right (by decide) (Nat.two_pow_pos k))
    have hnear := distance_roundUnits_lt hden (step_dvd_last k) hne
    rw [Nat.mul_assoc] at h hmul
    unfold distance at hnear
    rw [Nat.mul_assoc (2 ^ 54 - 2)] at hnear
    omega

end Magnitude

/-! ## The nearest double -/

namespace Double

variable {num den : Nat}

theorem ofUnits_eq_finite (negative : Bool) {m : Magnitude}
    (h : Magnitude.roundUnits num den = m.units) :
    ofUnits negative num den = .finite negative m := by
  have hlt : Magnitude.roundUnits num den < Magnitude.bound := h ▸ m.units_lt
  obtain ⟨units, hstep, hunits⟩ := m
  dsimp only at h
  subst h
  rw [ofUnits, Magnitude.nearest?, dif_pos hlt]

theorem ofUnits_eq_infinite (negative : Bool)
    (h : ¬ Magnitude.roundUnits num den < Magnitude.bound) :
    ofUnits negative num den = .infinite negative := by
  rw [ofUnits, Magnitude.nearest?, dif_neg h]

theorem ofUnits_congr (negative : Bool) {num' den' : Nat}
    (h : Magnitude.roundUnits num den = Magnitude.roundUnits num' den') :
    ofUnits negative num den = ofUnits negative num' den' := by
  by_cases hlt : Magnitude.roundUnits num' den' < Magnitude.bound
  · rw [ofUnits_eq_finite negative (m := ⟨_, Magnitude.step_dvd_roundUnits num' den', hlt⟩) h,
      ofUnits_eq_finite negative (m := ⟨_, Magnitude.step_dvd_roundUnits num' den', hlt⟩) rfl]
  · rw [ofUnits_eq_infinite negative hlt, ofUnits_eq_infinite negative (h ▸ hlt)]

theorem ofUnits_eq_finite_iff {negative : Bool} {m : Magnitude} :
    ofUnits negative num den = .finite negative m ↔ Magnitude.roundUnits num den = m.units := by
  refine ⟨fun h => ?_, ofUnits_eq_finite negative⟩
  have hfinite : (ofUnits negative num den).isInfinite = false := by
    rw [h]
    rfl
  obtain ⟨m', hm', hunits⟩ := exists_of_isInfinite hfinite
  rw [h] at hm'
  cases hm'
  exact hunits.symm

/-- The double nearest to a ratio depends on its value only. -/
theorem ofRatio_congr (negative : Bool) {num' den' : Nat} (hden : 0 < den) (hden' : 0 < den')
    (h : num * den' = num' * den) : ofRatio negative num den = ofRatio negative num' den' := by
  refine ofUnits_congr negative (Magnitude.roundUnits_congr hden hden' ?_)
  rw [Nat.mul_right_comm, h, Nat.mul_right_comm]

/-- The exponent of two of half a step below the largest power of two. -/
def halfBits : Nat := 970

theorem bound_eq_mul : Magnitude.bound = 2 ^ 54 * 2 ^ (halfBits + unitBits) := by
  have hbits : Magnitude.bits = 54 + (halfBits + unitBits) := rfl
  unfold Magnitude.bound
  rw [hbits, Nat.pow_eq, Nat.pow_add]

theorem one_eq_two_pow : one = 2 ^ unitBits := by
  have hpow : ∀ k, Nat.pow 2 k = 2 ^ k := fun _ => Nat.pow_eq
  unfold one
  rw [hpow]

/-- Ratios are rounded to a finite double exactly below the middle of the step after the largest
one. -/
theorem roundUnits_lt_bound_iff (hden : 0 < den) :
    Magnitude.roundUnits (num * one) den < Magnitude.bound ↔
      num < (2 ^ 54 - 1) * 2 ^ halfBits * den := by
  rw [bound_eq_mul, Magnitude.roundUnits_lt_iff hden, Nat.pow_add, ← one_eq_two_pow,
    ← Nat.mul_assoc, Nat.mul_right_comm _ one, Nat.mul_lt_mul_right one_pos]

/-- `d` is the double nearest to `q`: from the middle of the step after the largest double on it is
an infinity. -/
def Nearest (q : Rat) (d : Double) : Prop :=
  (|q| < 2 ^ 1024 - 2 ^ 970 → d.Rounds q) ∧ (2 ^ 1024 - 2 ^ 970 ≤ |q| → d = .infinite (q < 0))

theorem abs_signed (negative : Bool) {x : Rat} (h : 0 ≤ x) : |signed negative x| = x := by
  cases negative
  · exact abs_of_nonneg h
  · rw [signed, if_pos rfl, abs_neg, abs_of_nonneg h]

theorem signed_lt_zero_iff (negative : Bool) {x : Rat} (h : 0 < x) :
    signed negative x < 0 ↔ negative = true := by
  cases negative
  · simp [signed, h.le]
  · simp [signed, h]

theorem div_lt_range_iff (hden : 0 < den) :
    (num : Rat) / den < 2 ^ 1024 - 2 ^ 970 ↔ num < (2 ^ 54 - 1) * 2 ^ halfBits * den := by
  have hrange : (2 ^ 1024 - 2 ^ 970 : Rat) = (((2 ^ 54 - 1) * 2 ^ halfBits : Nat) : Rat) := by
    have hpow : (2 : Rat) ^ 1024 = 2 ^ 54 * 2 ^ halfBits := (pow_add 2 54 halfBits)
    have hhalf : (2 : Rat) ^ 970 = 2 ^ halfBits := rfl
    rw [hpow, hhalf]
    push_cast
    ring
  rw [hrange, div_lt_iff₀ (Nat.cast_pos.2 hden)]
  exact_mod_cast Iff.rfl

/-- A ratio is rounded to the double nearest to it. -/
theorem nearest_ofRatio (negative : Bool) (num : Nat) (hden : 0 < den) :
    Nearest (signed negative (num / den)) (ofRatio negative num den) := by
  have hnonneg : 0 ≤ (num : Rat) / den := by positivity
  rw [Nearest, abs_signed negative hnonneg]
  constructor
  · intro hlt
    rw [div_lt_range_iff hden, ← roundUnits_lt_bound_iff hden] at hlt
    refine rounds_ofRatio negative hden ?_
    rw [ofRatio, ofUnits_eq_finite negative (m := ⟨_, Magnitude.step_dvd_roundUnits _ _, hlt⟩) rfl]
    rfl
  · intro hge
    have hpos : (0 : Rat) < num / den := by
      refine lt_of_lt_of_le ?_ hge
      exact sub_pos.2 (pow_lt_pow_right₀ (by norm_num) (by norm_num))
    rw [← not_lt, div_lt_range_iff hden, ← roundUnits_lt_bound_iff hden] at hge
    rw [ofRatio, ofUnits_eq_infinite negative hge]
    simp [signed_lt_zero_iff negative hpos]

end Double

/-! ## Decimals -/

namespace Decimal

/-- The rational number that a decimal is. -/
def value (d : Decimal) : Rat := d.digits * 10 ^ d.exponent

/-- The value of a decimal is `numerator / denominator`. -/
def numerator (d : Decimal) : Nat := d.digits * 10 ^ d.exponent.toNat

def denominator (d : Decimal) : Nat := 10 ^ (-d.exponent).toNat

theorem denominator_pos (d : Decimal) : 0 < d.denominator := Nat.pow_pos (by decide)

theorem value_eq (d : Decimal) : d.value = d.numerator / d.denominator := by
  obtain ⟨digits, exponent⟩ := d
  cases exponent with
  | ofNat e => simp [value, numerator, denominator]
  | negSucc k => simp [value, numerator, denominator, zpow_negSucc, div_eq_mul_inv]

/-- Decimals of the same value are the same ratio. -/
theorem mul_denominator_eq {d e : Decimal} (h : d.value = e.value) :
    d.numerator * e.denominator = e.numerator * d.denominator := by
  have hd : (d.denominator : Rat) ≠ 0 := Nat.cast_ne_zero.2 (Nat.ne_of_gt d.denominator_pos)
  have he : (e.denominator : Rat) ≠ 0 := Nat.cast_ne_zero.2 (Nat.ne_of_gt e.denominator_pos)
  rw [value_eq, value_eq, div_eq_div_iff hd he] at h
  exact_mod_cast h

/-- Dropping zeros at the end of the digits keeps the value. -/
theorem value_normalize (d : Decimal) : d.normalize.value = d.value := by
  fun_induction normalize d with
  | case1 d h ih =>
    have hdigits : (d.digits : Rat) = ((d.digits / 10 : Nat) : Rat) * 10 := by
      exact_mod_cast (Nat.div_mul_cancel (Nat.dvd_of_mod_eq_zero h.2)).symm
    rw [ih, value, value, hdigits, zpow_add_one₀ (by norm_num)]
    ring
  | case2 d h => rfl

end Decimal

namespace Double

theorem range_le_ten_pow {e : Nat} (h : 309 ≤ e) : (2 ^ 54 - 1) * 2 ^ halfBits ≤ 10 ^ e := by
  have hle : (2 ^ 54 - 1) * 2 ^ halfBits ≤ 10 ^ 309 := by decide +kernel
  exact Nat.le_trans hle (pow_le_pow_right₀ (by decide) h)

/-- Less than half a unit. -/
theorem two_mul_lt_ten_pow {n k : Nat} (h : n.log2 + 325 ≤ k) : 2 * (n * one) < 10 ^ (k + 1) := by
  have hunit : 4 * 2 ^ unitBits ≤ 10 ^ 326 := by decide +kernel
  rw [← one_eq_two_pow] at hunit
  calc 2 * (n * one) < 2 * (2 ^ (n.log2 + 1) * one) :=
        Nat.mul_lt_mul_of_pos_left
          (Nat.mul_lt_mul_of_pos_right Nat.lt_log2_self one_pos) (by decide)
    _ = 2 ^ n.log2 * (4 * one) := by ring
    _ ≤ 10 ^ n.log2 * 10 ^ 326 := Nat.mul_le_mul (Nat.pow_le_pow_left (by decide) _) hunit
    _ = 10 ^ (n.log2 + 326) := (pow_add 10 _ _).symm
    _ ≤ 10 ^ (k + 1) := pow_le_pow_right₀ (by decide) (by omega)

/-- A decimal is read as the double nearest to its ratio, also where a power of ten is not
computed. -/
theorem ofDecimal_eq (negative : Bool) (d : Decimal) :
    ofDecimal negative d = ofRatio negative d.numerator d.denominator := by
  obtain ⟨digits, exponent⟩ := d
  by_cases hzero : digits = 0
  · subst hzero
    have hround : Magnitude.roundUnits (0 * one) (Decimal.denominator ⟨0, exponent⟩) = 0 := by
      rw [Nat.zero_mul, Magnitude.roundUnits_zero (Decimal.denominator_pos _)]
    rw [ofDecimal, if_pos rfl, ofRatio, Decimal.numerator, Nat.zero_mul,
      ofUnits_eq_finite negative (m := Magnitude.zero) hround]
    rfl
  rw [ofDecimal, if_neg hzero]
  have hpos : 1 ≤ digits := Nat.one_le_iff_ne_zero.2 hzero
  cases exponent with
  | ofNat e =>
    dsimp only
    split
    · next hlarge =>
      rw [ofRatio, ofUnits_eq_infinite]
      rw [roundUnits_lt_bound_iff (Decimal.denominator_pos _), Nat.not_lt]
      calc (2 ^ 54 - 1) * 2 ^ halfBits * Decimal.denominator ⟨digits, .ofNat e⟩
          = 1 * ((2 ^ 54 - 1) * 2 ^ halfBits) := by simp [Decimal.denominator]
        _ ≤ digits * 10 ^ e := Nat.mul_le_mul hpos (range_le_ten_pow hlarge)
    · simp [Decimal.numerator, Decimal.denominator]
  | negSucc k =>
    dsimp only
    split
    · next hsmall =>
      rw [ofRatio, ofUnits_eq_finite negative (m := Magnitude.zero)]
      · rfl
      · refine Magnitude.roundUnits_eq_zero ?_
        simpa [Decimal.numerator, Decimal.denominator] using two_mul_lt_ten_pow hsmall
    · simp [Decimal.numerator, Decimal.denominator]

/-- A decimal is read as the double nearest to it. -/
theorem nearest_ofDecimal (negative : Bool) (d : Decimal) :
    Nearest (signed negative d.value) (ofDecimal negative d) := by
  rw [ofDecimal_eq, d.value_eq]
  exact nearest_ofRatio negative d.numerator d.denominator_pos

/-- Decimals of the same value are read as the same double. -/
theorem ofDecimal_congr (negative : Bool) {d e : Decimal} (h : d.value = e.value) :
    ofDecimal negative d = ofDecimal negative e := by
  rw [ofDecimal_eq, ofDecimal_eq]
  exact ofRatio_congr negative d.denominator_pos e.denominator_pos (Decimal.mul_denominator_eq h)

end Double

/-! ## Writing magnitudes -/

namespace Magnitude

variable {m : Magnitude}

theorem reads_iff {d : Decimal} :
    m.reads d = true ↔ roundUnits (d.numerator * Double.one) d.denominator = m.units := by
  rw [reads, decide_eq_true_iff, Double.ofDecimal_eq, Double.ofRatio, Double.ofUnits_eq_finite_iff]

/-- A decimal that reads back does so under both signs. -/
theorem ofDecimal_of_reads (negative : Bool) {d : Decimal} (h : m.reads d = true) :
    Double.ofDecimal negative d = .finite negative m := by
  rw [Double.ofDecimal_eq, Double.ofRatio, Double.ofUnits_eq_finite_iff]
  exact reads_iff.1 h

/-- What is found on a grid reads back and lies on the grid. -/
theorem reads_of_onGrid? {j : Int} {d : Decimal} (h : m.onGrid? j = some d) :
    m.reads d = true ∧ d.exponent = j := by
  unfold onGrid? at h
  generalize m.overPowerOfTen j = ratio at h
  obtain ⟨num, den⟩ := ratio
  dsimp only at h
  split at h
  · next hbelow habove =>
    cases h
    rcases roundDiv_eq_or num den with heq | heq <;> rw [heq]
    · exact ⟨hbelow, rfl⟩
    · exact ⟨habove, rfl⟩
  · next hbelow _ =>
    cases h
    exact ⟨hbelow, rfl⟩
  · next _ habove =>
    cases h
    exact ⟨habove, rfl⟩
  · cases h

theorem reads_exact (m : Magnitude) :
    m.reads ⟨m.units * Nat.pow 5 Double.unitBits, -Double.unitBits⟩ = true := by
  have hten : 5 ^ Double.unitBits * Double.one = 10 ^ Double.unitBits := by
    rw [Double.one_eq_two_pow, ← Nat.mul_pow]
  rw [reads_iff]
  have hnum : Decimal.numerator ⟨m.units * Nat.pow 5 Double.unitBits, -Double.unitBits⟩ *
      Double.one = m.units * 10 ^ Double.unitBits := by
    rw [← hten]
    simp [Decimal.numerator, Nat.mul_assoc]
  have hden : Decimal.denominator ⟨m.units * Nat.pow 5 Double.unitBits, -Double.unitBits⟩ =
      10 ^ Double.unitBits := by
    simp [Decimal.denominator]
  rw [hnum, hden, roundUnits_mul (Nat.pow_pos (by decide)) m.step_dvd]

theorem reads_shortestFrom (m : Magnitude) (tries : Nat) (j : Int) :
    m.reads (m.shortestFrom tries j) = true := by
  induction tries generalizing j with
  | zero => exact m.reads_exact
  | succ tries ih =>
    rw [shortestFrom]
    split
    · next d hd => exact (reads_of_onGrid? hd).1
    · exact ih (j - 1)

/-- The decimal that a magnitude is written as reads back. -/
theorem ofDecimal_shortest (negative : Bool) (m : Magnitude) :
    Double.ofDecimal negative m.shortest = .finite negative m := by
  rw [shortest, Double.ofDecimal_congr negative (Decimal.value_normalize _)]
  exact ofDecimal_of_reads negative (m.reads_shortestFrom _ _)

/-! ## Writing whole numbers -/

theorem roundUnits_whole {n : Nat} (hn : n < Nat.pow 2 53) :
    roundUnits (n * Double.one) 1 = n * Double.one := by
  have h := roundUnits_mul Nat.one_pos (Double.step_dvd_mul_one hn)
  rwa [Nat.mul_one] at h

/-- What is rounded from `2 ^ 53` on stays there. -/
theorem le_roundUnits_whole {n : Nat} (hn : Nat.pow 2 53 ≤ n) :
    Nat.pow 2 53 * Double.one ≤ roundUnits (n * Double.one) 1 := by
  have hshifted : ∀ s, step (Nat.pow 2 53 * 2 ^ s) ∣ Nat.pow 2 53 * 2 ^ s :=
    fun s => step_dvd_shifted (Nat.le_refl _) (.inr (by decide))
  have hstep : step (Nat.pow 2 53 * Double.one) ∣ Nat.pow 2 53 * Double.one := by
    rw [Double.one_eq_two_pow]
    exact hshifted _
  refine le_roundUnits Nat.one_pos hstep ?_
  rw [Nat.mul_one]
  exact Nat.mul_le_mul_right _ hn

/-- A whole number that is rounded to one below `2 ^ 53` is that number. -/
theorem eq_of_roundUnits_whole {k n : Nat} (hn : n < Nat.pow 2 53)
    (h : roundUnits (k * Double.one) 1 = n * Double.one) :
    k = n := by
  rcases Nat.lt_or_ge k (Nat.pow 2 53) with hk | hk
  · rw [roundUnits_whole hk] at h
    exact Nat.eq_of_mul_eq_mul_right Double.one_pos h
  · have hround := le_roundUnits_whole hk
    rw [h] at hround
    exact absurd (Nat.le_of_mul_le_mul_right hround Double.one_pos) (Nat.not_le.2 hn)

variable {n : Nat}

theorem reads_below_eq_false {j : Int} (h : m.onGrid? j = none) :
    m.reads ⟨(m.overPowerOfTen j).1 / (m.overPowerOfTen j).2, j⟩ = false := by
  unfold onGrid? at h
  generalize m.overPowerOfTen j = ratio at h ⊢
  obtain ⟨num, den⟩ := ratio
  dsimp only at h ⊢
  split at h
  · cases h
  · cases h
  · cases h
  · next hbelow _ => exact hbelow

theorem overPowerOfTen_zero (m : Magnitude) :
    m.overPowerOfTen 0 = (m.units, Double.one * Nat.pow 10 0) := rfl

/-- A whole number is found at the latest on the grid of the whole numbers. -/
theorem onGrid?_zero_ne_none (hn : n < Nat.pow 2 53) (h : m.units = n * Double.one) :
    m.onGrid? 0 ≠ none := by
  have hreads : m.reads ⟨n, 0⟩ = true := by
    have hnum : Decimal.numerator ⟨n, 0⟩ = n := Nat.mul_one n
    have hden : Decimal.denominator ⟨n, 0⟩ = 1 := rfl
    rw [reads_iff, h, hnum, hden, roundUnits_whole hn]
  intro hnone
  have hbelow := reads_below_eq_false hnone
  rw [overPowerOfTen_zero, h, Nat.pow_eq, Nat.pow_zero, Nat.mul_one,
    Nat.mul_div_cancel _ Double.one_pos, hreads] at hbelow
  cases hbelow

theorem shortestFrom_exponent_nonneg (hn : n < Nat.pow 2 53) (h : m.units = n * Double.one)
    {tries : Nat} {j : Int} (hj : 0 ≤ j) (htries : j < tries) :
    0 ≤ (m.shortestFrom tries j).exponent := by
  induction tries generalizing j with
  | zero => omega
  | succ tries ih =>
    rw [shortestFrom]
    split
    · next d hd =>
      rw [(reads_of_onGrid? hd).2]
      exact hj
    · next hnone =>
      have hne : j ≠ 0 := by
        rintro rfl
        exact onGrid?_zero_ne_none hn h hnone
      exact ih (by omega) (by omega)

theorem log2_shifted_bounds (hpos : 0 < n) (hn : n < Nat.pow 2 53) (k : Nat) :
    k ≤ (n * 2 ^ k).log2 ∧ (n * 2 ^ k).log2 < 53 + k := by
  have hne : n * 2 ^ k ≠ 0 := Nat.mul_ne_zero (Nat.ne_of_gt hpos) (Nat.ne_of_gt (Nat.two_pow_pos _))
  rw [Nat.le_log2 hne, Nat.log2_lt hne, Nat.pow_add]
  exact ⟨Nat.le_mul_of_pos_left _ hpos, Nat.mul_lt_mul_of_pos_right hn (Nat.two_pow_pos _)⟩

theorem topGrid_bounds (hpos : 0 < n) (hn : n < Nat.pow 2 53) (h : m.units = n * Double.one) :
    0 ≤ m.topGrid ∧ m.topGrid < 20 := by
  have hbits := log2_shifted_bounds hpos hn Double.unitBits
  rw [← Double.one_eq_two_pow, ← h] at hbits
  rw [topGrid]
  generalize m.units.log2 = bits at *
  generalize Double.unitBits = unitBits at *
  omega

/-- A whole number below `2 ^ 53` is written as itself. -/
theorem value_shortest (hpos : 0 < n) (hn : n < Nat.pow 2 53) (h : m.units = n * Double.one) :
    m.shortest.value = n := by
  obtain ⟨hlow, hhigh⟩ := topGrid_bounds hpos hn h
  have hexponent := shortestFrom_exponent_nonneg hn h hlow hhigh
  have hreads := reads_iff.1 (m.reads_shortestFrom 20 m.topGrid)
  rw [shortest, Decimal.value_normalize, Decimal.value_eq]
  generalize m.shortestFrom 20 m.topGrid = d at *
  have hden : d.denominator = 1 := by
    rw [Decimal.denominator, Int.toNat_of_nonpos (by omega), Nat.pow_zero]
  rw [hden, h] at hreads
  rw [hden, eq_of_roundUnits_whole hn hreads, Nat.cast_one, div_one]

end Magnitude

end LineScript
