import LineScript.Number.Numeral
import LineScript.Proofs.Double.Value

/-!
# Arithmetic on safe integers

A number is safe if it is a double or an integer below `2 ^ 53` in absolute value. Every number that
is read from text is safe, and the operations are closed on the safe numbers (`Number.Closed`): they
have a result, which is safe again. None of them overflows there, because the exact results stay far
below the largest double (`Double.isInfinite_ofRatio`).
-/

namespace LineScript

namespace Magnitude

theorem two_pow_shift_le (q : Nat) : Nat.pow 2 (q.log2 - 52) ≤ q + 1 := by
  rcases Nat.eq_zero_or_pos q with rfl | hq
  · simp
  · calc Nat.pow 2 (q.log2 - 52) ≤ Nat.pow 2 q.log2 :=
      Nat.pow_le_pow_right (by decide) (Nat.sub_le _ _)
      _ ≤ q := Nat.log2_self_le (by omega)
      _ ≤ q + 1 := Nat.le_succ q

/-- Rounding at most doubles a magnitude. -/
theorem roundUnits_le (num den : Nat) : roundUnits num den ≤ 2 * (num / den) + 1 := by
  unfold roundUnits
  dsimp only
  generalize hq : num / den = q
  have hround := roundDiv_eq_or num (den * Nat.pow 2 (q.log2 - 52))
  rw [← Nat.div_div_eq_div_mul, hq] at hround
  have hshift := two_pow_shift_le q
  generalize Nat.pow 2 (q.log2 - 52) = step at *
  have hle : roundDiv num (den * step) ≤ q / step + 1 := by omega
  calc roundDiv num (den * step) * step ≤ (q / step + 1) * step := Nat.mul_le_mul_right _ hle
    _ = q / step * step + step := by rw [Nat.add_mul, Nat.one_mul]
    _ ≤ q + step := Nat.add_le_add_right (Nat.div_mul_le_self q step) step
    _ ≤ 2 * q + 1 := by omega

/-- What is at least one unit is not rounded to zero. -/
theorem roundUnits_pos {num den : Nat} (h : 0 < num / den) : 0 < roundUnits num den := by
  unfold roundUnits
  dsimp only
  generalize hq : num / den = q at h ⊢
  have hround := roundDiv_eq_or num (den * Nat.pow 2 (q.log2 - 52))
  rw [← Nat.div_div_eq_div_mul, hq] at hround
  have hle : Nat.pow 2 (q.log2 - 52) ≤ q :=
    Nat.le_trans (Nat.pow_le_pow_right (by decide) (Nat.sub_le _ _)) (Nat.log2_self_le (by omega))
  have hpos := two_pow_pos (q.log2 - 52)
  have hquotient : 0 < q / Nat.pow 2 (q.log2 - 52) := Nat.div_pos hle hpos
  exact Nat.mul_pos (by omega) hpos

end Magnitude

namespace Double

/-- Ratios of at most so many bits are not huge. -/
def ratioBits : Nat := 1022

/-- Ratios below this are not huge. -/
@[irreducible] def ratioBound : Nat := Nat.pow 2 ratioBits

theorem isInfinite_ofUnits {negative : Bool} {num den : Nat}
    (h : 2 * (num / den) + 1 < Magnitude.bound) :
    (ofUnits negative num den).isInfinite = false := by
  have hlt := Nat.lt_of_le_of_lt (Magnitude.roundUnits_le num den) h
  unfold ofUnits
  split
  · rfl
  · next hn =>
    unfold Magnitude.nearest? at hn
    split at hn
    · cases hn
    · next hge => exact absurd hlt hge

theorem bound_eq : Magnitude.bound = ratioBound * one * Nat.pow 2 2 := by
  have hbits : Magnitude.bits = ratioBits + unitBits + 2 := rfl
  unfold Magnitude.bound ratioBound one
  rw [hbits]
  simp only [Nat.pow_eq, Nat.pow_add]

theorem units_lt_bound {u : Nat} (h : u < ratioBound * one) : 2 * u + 1 < Magnitude.bound := by
  rw [bound_eq]
  generalize ratioBound * one = b at *
  simp only [Nat.pow_eq]
  omega

/-- A ratio that is not huge is rounded to a finite double. -/
theorem isInfinite_ofRatio (negative : Bool) {num den : Nat} (h : num < den * ratioBound) :
    (ofRatio negative num den).isInfinite = false := by
  have hone : 0 < one := by
    unfold one
    exact Magnitude.two_pow_pos unitBits
  have hden : 0 < den := by
    rcases Nat.eq_zero_or_pos den with rfl | hd
    · rw [Nat.zero_mul] at h
      omega
    · exact hd
  apply isInfinite_ofUnits
  apply units_lt_bound
  rw [Nat.div_lt_iff_lt_mul hden]
  calc num * one < den * ratioBound * one := Nat.mul_lt_mul_of_pos_right h hone
    _ = ratioBound * one * den := by rw [Nat.mul_comm den, Nat.mul_right_comm]

theorem isInfinite_ofInt {n : Int} (h : n.natAbs < ratioBound) : (ofInt n).isInfinite = false :=
  isInfinite_ofRatio _ (by rwa [Nat.one_mul])

theorem units?_ofUnits {negative : Bool} {num den : Nat} (h : 0 < num / den) :
    (ofUnits negative num den).units? ≠ some 0 := by
  have hround := Magnitude.roundUnits_pos h
  unfold ofUnits
  split
  · next m hm =>
    unfold Magnitude.nearest? at hm
    split at hm
    · cases hm
      simp only [units?, signedUnits, ne_eq, Option.some.injEq]
      split <;> omega
    · cases hm
  · simp [units?]

/-- An integer that is not zero is not rounded to zero. -/
theorem units?_ofInt {n : Int} (h : n ≠ 0) : (ofInt n).units? ≠ some 0 := by
  apply units?_ofUnits
  rw [Nat.div_one]
  exact Nat.mul_pos (Int.natAbs_pos.2 h) one_pos

theorem div?_eq {d e : Double} (h : e.units? ≠ some 0) : d.div? e = some (d.div e) := by
  cases e with
  | nan | infinite => rfl
  | finite b y =>
    have hy : y.units ≠ 0 := fun hzero => h (by simp [units?, signedUnits, hzero])
    rw [Double.div?, if_neg hy]

/-- Only an infinite dividend and a divisor zero have no remainder. -/
theorem exists_rem? {d e : Double} (hd : d.isInfinite = false) (he : e.units? ≠ some 0) :
    ∃ r, d.rem? e = some r := by
  cases d with
  | infinite => cases hd
  | nan => exact ⟨_, rfl⟩
  | finite a x =>
    cases e with
    | nan | infinite => exact ⟨_, rfl⟩
    | finite b y =>
      have hy : y.units ≠ 0 := fun hzero => he (by simp [units?, signedUnits, hzero])
      exact ⟨_, by rw [Double.rem?, if_neg hy]⟩

end Double

/-- A double that passes the check is the double that was checked. -/
theorem Exception.eq_of_check {e : Exception} {d r : Double} (h : e.check d = .ok r) : r = d := by
  cases d with
  | infinite => cases h
  | nan | finite =>
    cases h
    rfl

namespace Number

/-- A double, or an integer below `2 ^ 53` in absolute value. -/
def Safe : Number → Prop
  | .int n => n.natAbs < 2 ^ 53
  | .real _ => True

instance : DecidablePred Safe
  | .int n => inferInstanceAs (Decidable (n.natAbs < 2 ^ 53))
  | .real _ => .isTrue trivial

theorem safe_int {n : Int} : (int n).Safe ↔ n.natAbs < safeBound := Iff.rfl

theorem safe_of_isSafe {n : Int} (h : isSafe n = true) : (int n).Safe := by
  unfold isSafe at h
  exact decide_eq_true_iff.1 h

@[simp] theorem safe_real (d : Double) : (real d).Safe := trivial

theorem safe_ofDouble (d : Double) : (ofDouble d).Safe := by
  unfold ofDouble
  split
  · split
    · next h => exact safe_of_isSafe h
    · exact safe_real d
  · exact safe_real d

theorem safe_neg {n : Number} (h : n.Safe) : n.neg.Safe := by
  cases n with
  | int n =>
    rw [Number.neg, safe_int, Int.natAbs_neg]
    exact safe_int.1 h
  | real d => exact safe_real _

/-! ## Written numbers -/

theorem safe_numeral (sign : Option Sign) (n : Numeral) : (n.toNumber sign).Safe := by
  unfold Numeral.toNumber
  split
  · exact safe_ofDouble _
  · exact safe_real _

theorem safe_numeric (n : Numeric) : n.toNumber.Safe := by
  unfold Numeric.toNumber
  split
  · exact safe_numeral _ _
  · exact safe_real _

theorem safe_readInteger (s : Text) : (readInteger s).Safe := by
  unfold readInteger
  dsimp only
  split
  · exact safe_real _
  · exact safe_numeral _ _

/-! ## Arithmetic -/

/-- An operation that has a safe result on safe numbers. -/
def Closed (op : Number → Number → Except Exception Number) : Prop :=
  ∀ x y, x.Safe → y.Safe → ∃ n, op x y = .ok n ∧ n.Safe

theorem check_eq_ok {e : Exception} {d : Double} (h : d.isInfinite = false) :
    e.check d = .ok d := by
  cases d with
  | infinite => cases h
  | nan | finite => rfl

theorem toDouble_int {n : Int} (h : n.natAbs < Double.ratioBound) :
    toDouble (.int n) = .ok (.ofInt n) :=
  check_eq_ok (Double.isInfinite_ofInt h)

theorem safeBound_lt : safeBound * safeBound < Double.ratioBound := by
  unfold safeBound Double.ratioBound
  simp only [Nat.pow_eq, ← Nat.pow_add]
  exact Nat.pow_lt_pow_right (by decide) (by decide)

theorem natAbs_lt_ratioBound {n : Int} (h : n.natAbs < safeBound) :
    n.natAbs < Double.ratioBound := by
  calc n.natAbs < safeBound := h
    _ ≤ safeBound * safeBound := Nat.le_mul_self _
    _ < Double.ratioBound := safeBound_lt

theorem add_lt_ratioBound {a b : Nat} (ha : a < safeBound) (hb : b < safeBound) :
    a + b < Double.ratioBound := by
  have hdouble : 2 * safeBound ≤ safeBound * safeBound := Nat.mul_le_mul_right _ (by decide)
  have hlt := safeBound_lt
  omega

theorem toDouble_of_safe {n : Number} (h : n.Safe) : ∃ d, n.toDouble = .ok d := by
  cases n with
  | int n => exact ⟨_, toDouble_int (natAbs_lt_ratioBound (safe_int.1 h))⟩
  | real d => exact ⟨d, rfl⟩

theorem exists_ofInt {n : Int} (h : n.natAbs < Double.ratioBound) :
    ∃ m, ofInt n = .ok m ∧ m.Safe := by
  unfold ofInt
  split
  · next hs => exact ⟨_, rfl, safe_of_isSafe hs⟩
  · exact ⟨.real (.ofInt n), by rw [toDouble_int h]; rfl, safe_real _⟩

/-- Sums, differences and products: the exact result of two safe integers is not huge. -/
theorem closed_combine {exact : Int → Int → Int} (rounded : Double → Double → Double)
    (h : ∀ a b : Int, a.natAbs < safeBound → b.natAbs < safeBound →
      (exact a b).natAbs < Double.ratioBound) :
    Closed (combine exact rounded) := by
  intro x y hx hy
  obtain ⟨d, hd⟩ := toDouble_of_safe hx
  obtain ⟨e, he⟩ := toDouble_of_safe hy
  unfold combine
  split
  · exact exists_ofInt (h _ _ (safe_int.1 hx) (safe_int.1 hy))
  · rw [hd, he]
    exact ⟨_, rfl, safe_ofDouble _⟩

theorem closed_add : Closed Number.add := by
  refine closed_combine _ fun a b ha hb => ?_
  exact Nat.lt_of_le_of_lt (Int.natAbs_add_le a b) (add_lt_ratioBound ha hb)

theorem closed_sub : Closed Number.sub := by
  refine closed_combine _ fun a b ha hb => ?_
  exact Nat.lt_of_le_of_lt (Int.natAbs_sub_le a b) (add_lt_ratioBound ha hb)

theorem closed_mul : Closed Number.mul := by
  refine closed_combine _ fun a b ha hb => ?_
  rw [Int.natAbs_mul]
  exact Nat.lt_trans (Nat.mul_lt_mul'' ha hb) safeBound_lt

theorem isZero_int_iff {b : Int} : (int b).isZero = true ↔ b = 0 := by simp [isZero, equal]

/-- A number that is not zero is not zero as a double. -/
theorem units?_ne_zero {x : Number} {d : Double} (hx : x.isZero = false) (hd : x.toDouble = .ok d) :
    d.units? ≠ some 0 := by
  cases x with
  | int n =>
    have hn : n ≠ 0 := fun h => by simp [isZero_int_iff.2 h] at hx
    rw [Exception.eq_of_check hd]
    exact Double.units?_ofInt hn
  | real e =>
    cases hd
    simpa [isZero, equal] using hx

theorem div_eq {x y : Number} {d e : Double} (hy : y.isZero = false) (hd : x.toDouble = .ok d)
    (he : y.toDouble = .ok e) (hreal : ∀ a b, x = .int a → y ≠ .int b) :
    x.div y = .ok (ofDouble (d.div e)) := by
  have hdiv := Double.div?_eq (units?_ne_zero hy he) (d := d)
  simp [Number.div, hy, hd, he, hdiv, Exception.ofOption, bind, Except.bind, pure, Except.pure]

theorem rem_eq {x y : Number} {d e r : Double} (hy : y.isZero = false) (hd : x.toDouble = .ok d)
    (he : y.toDouble = .ok e) (hfinite : d.isInfinite = false) (hr : d.rem? e = some r) :
    x.rem y = .ok (ofDouble r) := by
  simp [Number.rem, hy, hd, he, hfinite, hr, Exception.ofOption, bind, Except.bind, pure,
    Except.pure]

theorem exists_ofQuotient {a b : Int} (ha : a.natAbs < safeBound) (hb : b ≠ 0) :
    ∃ n, ofQuotient a b = .ok n ∧ n.Safe := by
  have hpos : 1 ≤ b.natAbs := Int.natAbs_pos.2 hb
  have hlt : a.natAbs < b.natAbs * Double.ratioBound :=
    Nat.lt_of_lt_of_le (natAbs_lt_ratioBound ha) (Nat.le_mul_of_pos_left _ hpos)
  have hf := Double.isInfinite_ofRatio ((a < 0) != (b < 0)) hlt
  unfold ofQuotient
  rw [if_neg hb, check_eq_ok hf]
  exact ⟨_, rfl, safe_ofDouble _⟩

theorem exists_overZero {x : Number} (negative : Bool) (hx : x.Safe) :
    ∃ n, overZero x negative = .ok n ∧ n.Safe := by
  obtain ⟨d, hd⟩ := toDouble_of_safe hx
  unfold overZero
  split
  · exact ⟨_, rfl, safe_real _⟩
  · rw [hd]
    cases hn : d.isNan
    · exact ⟨_, by simp [bind, Except.bind, hn]; rfl, safe_real _⟩
    · exact ⟨_, by simp [bind, Except.bind, hn]; rfl, safe_real _⟩

theorem closed_div : Closed Number.div := by
  intro x y hx hy
  obtain ⟨d, hd⟩ := toDouble_of_safe hx
  obtain ⟨e, he⟩ := toDouble_of_safe hy
  cases hz : y.isZero with
  | true =>
    unfold Number.div
    rw [if_pos hz]
    exact exists_overZero _ hx
  | false =>
    by_cases hints : ∃ a b, x = .int a ∧ y = .int b
    · obtain ⟨a, b, rfl, rfl⟩ := hints
      have hb : b ≠ 0 := fun h => by simp [isZero_int_iff.2 h] at hz
      simp only [Number.div, hz, Bool.false_eq_true, if_false]
      exact exists_ofQuotient (safe_int.1 hx) hb
    · have hreal : ∀ a b, x = .int a → y ≠ .int b := fun a b ha hb => hints ⟨a, b, ha, hb⟩
      exact ⟨_, div_eq hz hd he hreal, safe_ofDouble _⟩

theorem closed_rem : Closed Number.rem := by
  intro x y hx hy
  obtain ⟨d, hd⟩ := toDouble_of_safe hx
  obtain ⟨e, he⟩ := toDouble_of_safe hy
  cases hz : y.isZero with
  | true => exact ⟨nan, by simp [Number.rem, hz], safe_real _⟩
  | false =>
    cases hi : d.isInfinite with
    | true => exact ⟨nan, by simp [Number.rem, hz, hd, hi, bind, Except.bind]; rfl, safe_real _⟩
    | false =>
      obtain ⟨r, hr⟩ := Double.exists_rem? hi (units?_ne_zero hz he)
      exact ⟨_, rem_eq hz hd he hi hr, safe_ofDouble _⟩

end Number

end LineScript
