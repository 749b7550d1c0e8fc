import LineScript.Proofs.Number.Division

/-!
# Sums, differences, products and remainders of safe integers

Two integers are computed with exactly, and only the result is rounded, if it is not safe. The
remainder takes the way through doubles; since safe integers are doubles and so is the remainder, it
is exact as well, and an integer in every case. `Value.arithmetic_int` says this of the four
operators.
-/

namespace LineScript

namespace Double

theorem signed_natAbs (n : Int) : signed (n < 0) n.natAbs = n := by
  rw [Nat.cast_natAbs, Int.cast_abs, signed]
  by_cases h : n < 0
  · rw [if_pos (decide_eq_true h), abs_of_neg (Int.cast_lt_zero.2 h), neg_neg]
  · rw [if_neg (by simpa using h), abs_of_nonneg (Int.cast_nonneg (not_lt.1 h))]

/-- An integer that is not huge is rounded correctly. -/
theorem rounds_ofInt {n : Int} (h : n.natAbs < ratioBound) : Rounds n (ofInt n) := by
  have hrounds := rounds_ofRatio (n < 0) Nat.one_pos (isInfinite_ofInt h)
  rwa [Nat.cast_one, div_one, signed_natAbs] at hrounds

end Double

namespace Number

variable {a b : Int}

/-- The quotient without its fraction. -/
theorem truncate_div (a b : Int) : truncate ((a : Rat) / b) = a.tdiv b := by
  have hfloor : ⌊(a.natAbs : Rat) / b.natAbs⌋ = ((a.natAbs / b.natAbs : Nat) : Int) :=
    Rat.floor_natCast_div_natCast _ _
  have hnonneg : 0 ≤ (a.natAbs : Rat) / b.natAbs := by positivity
  have htdiv : a.tdiv b =
      if ((a < 0) != (b < 0)) = true then -((a.natAbs / b.natAbs : Nat) : Int)
      else (a.natAbs / b.natAbs : Nat) := by
    have hcast : ∀ n : Nat, ¬ (n : Int) < 0 := fun n => by omega
    cases a <;> cases b <;> simp [Int.tdiv, hcast]
  rw [cast_div_eq_signed, Double.signed, htdiv]
  split
  · rw [truncate_neg hnonneg, hfloor]
  · rw [truncate_of_nonneg hnonneg, hfloor]

/-- The remainder has the sign of the dividend. -/
theorem tmod_sign (a b : Int) : (0 ≤ a → 0 ≤ a.tmod b) ∧ (a ≤ 0 → a.tmod b ≤ 0) := by
  refine ⟨fun h => Int.tmod_nonneg b h, fun h => ?_⟩
  have hneg := Int.tmod_nonneg b (neg_nonneg.2 h)
  rw [Int.neg_tmod] at hneg
  omega

end Number

namespace Value

/-- The result is `n`, as an integer if it is safe and otherwise as the double nearest to it. -/
def Settles (n : Int) (result : Except Fault Value) : Prop :=
  (n.natAbs < 2 ^ 53 → result = .ok (.number (.int n))) ∧
    (2 ^ 53 ≤ n.natAbs → ∃ d : Double, result = .ok (.number (.real d)) ∧ d.Rounds n)

variable {a b : Int}

theorem settles_numeric [Host] {op : Number → Number → Except Exception Number} {n : Int}
    (hn : n.natAbs < Double.ratioBound) (h : op (.int a) (.int b) = Number.ofInt n) :
    Settles n (numeric op (.number (.int a)) (.number (.int b))) := by
  constructor
  · intro hsafe
    refine numeric_number op (h.trans ?_)
    exact if_pos (decide_eq_true hsafe)
  · intro hlarge
    refine ⟨.ofInt n, numeric_number op (h.trans ?_), Double.rounds_ofInt hn⟩
    rw [Number.ofInt, if_neg, Number.toDouble_int hn]
    · rfl
    · rw [Number.isSafe, decide_eq_true_iff]
      exact Nat.not_lt.2 hlarge

/-- Safe integers are added, subtracted and multiplied exactly, and the result is rounded only if it
is not safe. The remainder is always an integer: what is left of the dividend after the whole part
of the quotient is taken, with the sign of the dividend, smaller than the divisor, and zero if the
division leaves nothing. -/
theorem arithmetic_int [Host] (ha : a.natAbs < 2 ^ 53) (hb : b.natAbs < 2 ^ 53) :
    Settles (a + b) (Value.add (.number (.int a)) (.number (.int b))) ∧
      Settles (a - b) (Value.sub (.number (.int a)) (.number (.int b))) ∧
      Settles (a * b) (Value.mul (.number (.int a)) (.number (.int b))) ∧
      (b ≠ 0 → ∃ r : Int, Value.rem (.number (.int a)) (.number (.int b)) = .ok (.number (.int r)) ∧
        r = a - b * truncate (a / b) ∧ (0 ≤ a → 0 ≤ r) ∧ (a ≤ 0 → r ≤ 0) ∧ r.natAbs < b.natAbs ∧
          (b ∣ a → r = 0)) := by
  refine ⟨settles_numeric ?_ rfl, settles_numeric ?_ rfl, settles_numeric ?_ rfl, fun hne => ?_⟩
  · exact Nat.lt_of_le_of_lt (Int.natAbs_add_le a b) (Number.add_lt_ratioBound ha hb)
  · exact Nat.lt_of_le_of_lt (Int.natAbs_sub_le a b) (Number.add_lt_ratioBound ha hb)
  · rw [Int.natAbs_mul]
    exact Nat.lt_trans (Nat.mul_lt_mul'' ha hb) Number.safeBound_lt
  · obtain ⟨hpos, hneg⟩ := Number.tmod_sign a b
    refine ⟨a.tmod b, numeric_number _ (Number.rem_int ha hb hne), ?_, hpos, hneg, ?_,
      Int.tmod_eq_zero_of_dvd⟩
    · rw [Number.truncate_div]
      exact Int.tmod_def a b
    · rw [Int.natAbs_tmod]
      exact Nat.mod_lt _ (Int.natAbs_pos.2 hne)

/-- At the end of the safe integers a sum stays there, a difference is rounded, and a remainder is
exact. -/
theorem arithmetic_int_greatest :
    (-9007199254740991 : Int).natAbs < 2 ^ 53 ∧ (2 : Int).natAbs < 2 ^ 53 ∧
      Value.add (.number (.int (-9007199254740991))) (.number (.int 2)) =
        .ok (.number (.int (-9007199254740989))) ∧
      (∃ d : Double, Value.sub (.number (.int (-9007199254740991))) (.number (.int 2)) =
        .ok (.number (.real d)) ∧ d.Rounds ((-9007199254740993 : Int) : Rat)) ∧
      ∃ r : Int, Value.rem (.number (.int (-9007199254740991))) (.number (.int 2)) =
        .ok (.number (.int r)) ∧ r ≤ 0 ∧ r.natAbs < 2 := by
  have h := arithmetic_int (a := -9007199254740991) (b := 2) (by decide) (by decide)
  obtain ⟨r, hr, -, -, hsign, hlt, -⟩ := h.2.2.2 (by decide)
  exact ⟨by decide, by decide, h.1.1 (by decide), h.2.1.2 (by decide), r, hr,
    hsign (by decide), hlt⟩

end Value

end LineScript
