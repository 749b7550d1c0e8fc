import LineScript.Proofs.Expression.Notation
import LineScript.Proofs.Number.Division

/-!
# Integers in digits

Digits are read as a double, and the double as an integer if it is a safe one. The detour is not
seen: doubles are exact below `2 ^ 53`, and what is rounded from there on stays there
(`Numeric.toNumber_whole`). So a safe integer is written as digits that are read back as the
integer, wherever a number can be written (`Numeric.integer_texts`).
-/

namespace LineScript

namespace Number

variable {n : Nat}

theorem ofDouble_ofRatio_safe (negative : Bool) (hn : n < Nat.pow 2 53) :
    ofDouble (.ofRatio negative n 1) = .int (if negative then -(n : Int) else n) := by
  obtain ⟨m, hm, hunits⟩ := Double.exists_ofRatio_mul negative hn Nat.one_pos
  rw [Nat.mul_one] at hm
  rw [hm]
  refine ofDouble_whole (Double.whole?_of_units negative hunits) ?_
  cases negative <;> simpa using hn

/-- A double that is not below `2 ^ 53` is no safe integer. -/
theorem ofDouble_unsafe (negative : Bool) {m : Magnitude}
    (h : Nat.pow 2 53 * Double.one ≤ m.units) :
    ofDouble (.finite negative m) = .real (.finite negative m) := by
  have hsafe : ∀ n, (Double.finite negative m).whole? = some n → isSafe n = false := by
    intro n hn
    obtain ⟨k, hunits, rfl⟩ := Double.exists_of_whole? hn
    have hk : Nat.pow 2 53 ≤ k := Nat.le_of_mul_le_mul_right (hunits ▸ h) Double.one_pos
    have habs : (if negative then -(k : Int) else k).natAbs = k := by cases negative <;> simp
    rw [isSafe, habs, decide_eq_false_iff_not]
    exact Nat.not_lt.2 hk
  unfold ofDouble
  split
  · next n hn => rw [hsafe n hn, if_neg Bool.false_ne_true]
  · rfl

theorem ofDouble_ofRatio_unsafe (negative : Bool) (hn : Nat.pow 2 53 ≤ n) :
    ofDouble (.ofRatio negative n 1) = .real (.ofRatio negative n 1) := by
  cases hinfinite : (Double.ofRatio negative n 1).isInfinite with
  | true =>
    refine ofDouble_not_whole ?_
    cases hratio : Double.ofRatio negative n 1 with
    | nan | infinite => rfl
    | finite => rw [hratio] at hinfinite; cases hinfinite
  | false =>
    obtain ⟨m, hm, hunits⟩ := Double.exists_of_isInfinite hinfinite
    have hratio : Double.ofRatio negative n 1 = .finite negative m := hm
    -- Rounding cannot carry an unsafe integer down into the safe ones.
    rw [hratio]
    refine ofDouble_unsafe negative ?_
    rw [hunits]
    exact Magnitude.le_roundUnits_whole hn

end Number

namespace Numeric

/-- Digits under a sign. -/
def whole (sign : Option Sign) (digits : Text) : Numeric := ⟨sign, .numeral ⟨digits, none, none⟩⟩

/-- The integer that digits denote under a sign. -/
def integer (sign : Option Sign) (digits : Text) : Int :=
  if sign = some .minus then -(Text.digitsValue digits : Int) else Text.digitsValue digits

variable {sign : Option Sign} {digits : Text}

theorem proper_whole (h : digits.IsDigits) (hne : digits ≠ []) : (whole sign digits).Proper := by
  rintro m ⟨⟩
  exact ⟨h, nofun, by simpa using hne, nofun⟩

theorem text_whole (sign : Option Sign) (digits : Text) :
    (whole sign digits).text = Sign.optionText sign ++ digits := by
  simp [whole, text, Numeral.text]

theorem natAbs_integer (sign : Option Sign) (digits : Text) :
    (integer sign digits).natAbs = Text.digitsValue digits := by
  unfold integer
  split <;> simp

theorem toDouble_whole (sign : Option Sign) (digits : Text) :
    (whole sign digits).toDouble = .ofRatio (sign = some .minus) (Text.digitsValue digits) 1 := by
  have hread : (whole sign digits).toDouble =
      .ofDecimal (sign = some .minus) (Numeral.decimal ⟨digits, none, none⟩) := rfl
  have hnumerator : Decimal.numerator ⟨Text.digitsValue digits, 0⟩ = Text.digitsValue digits :=
    Nat.mul_one _
  rw [hread, Numeral.decimal_whole, Double.ofDecimal_eq, hnumerator]
  rfl

/-- Digits are read as their integer if it is safe, and otherwise as the double nearest to it. -/
theorem toNumber_whole (sign : Option Sign) (digits : Text) :
    ((integer sign digits).natAbs < Nat.pow 2 53 →
      (whole sign digits).toNumber = .int (integer sign digits)) ∧
      (Nat.pow 2 53 ≤ (integer sign digits).natAbs →
        ∃ d : Double, (whole sign digits).toNumber = .real d ∧
          d.Nearest (integer sign digits)) := by
  have hnumber : (whole sign digits).toNumber = .ofDouble (whole sign digits).toDouble := rfl
  rw [natAbs_integer, hnumber, toDouble_whole]
  refine ⟨fun hsafe => ?_, fun hunsafe => ⟨_, Number.ofDouble_ofRatio_unsafe _ hunsafe, ?_⟩⟩
  · rw [Number.ofDouble_ofRatio_safe _ hsafe, integer]
    simp
  · have hnearest := Double.nearest_ofRatio (sign = some .minus)
      (Text.digitsValue digits) Nat.one_pos
    have hvalue : (integer sign digits : Rat) =
        Double.signed (sign = some .minus) (Text.digitsValue digits / (1 : Nat)) := by
      rw [Nat.cast_one, div_one, Double.signed, integer]
      by_cases hsign : sign = some .minus <;> simp [hsign]
    rwa [hvalue]

/-- An integer, as it is written. -/
def ofInt (n : Int) : Numeric := whole (if n < 0 then some .minus else none) (Text.ofNat n.natAbs)

theorem proper_ofInt (n : Int) :
    (ofInt n).Proper := proper_whole (Text.isDigits_ofNat _) (Nat.toDigits_ne_nil)

theorem text_ofInt (n : Int) : (ofInt n).text = Text.ofInt n := by
  rw [ofInt, text_whole, Text.ofInt]
  split <;> rfl

theorem toNumber_ofInt {n : Int} (hn : n.natAbs < Nat.pow 2 53) : (ofInt n).toNumber = .int n := by
  have hinteger : integer (if n < 0 then some .minus else none) (Text.ofNat n.natAbs) = n := by
    rw [integer, Text.digitsValue_ofNat]
    by_cases hneg : n < 0
    · rw [if_pos (if_pos hneg)]
      omega
    · rw [if_neg (by simp [hneg])]
      omega
  have hread := (toNumber_whole (if n < 0 then some .minus else none) (Text.ofNat n.natAbs)).1
  rw [hinteger] at hread
  exact hread hn

end Numeric

namespace Value

/-- A written number counts as the number. -/
theorem textNumber_text {n : Numeric} (h : n.Proper) : textNumber n.text = n.toNumber := by
  have hne := Numeric.text_ne_nil h
  rw [textNumber, Numeric.trim_text h, if_neg (by simpa using hne),
    Numeric.ofText?_eq_some_iff.2 ⟨h, rfl⟩]

theorem number?_text [Host] {n : Numeric} (h : n.Proper) :
    (text n.text).number? = .ok n.toNumber := by
  rw [(Fit.text n.text).number?, toNumber, textNumber_text h]

end Value

namespace Numeric

/-- Digits under a sign, however many, are read as the integer that they denote if it is safe, and
else as the double nearest to it. A safe integer is written so that every notation reads it back: as
a literal, between stars, as an expression, and as a text that counts as a number. -/
theorem integer_texts [Host] :
    (∀ (sign : Option Sign) (digits : Text), digits.IsDigits → digits ≠ [] →
      ∃ w : Numeric, ofText? (Sign.optionText sign ++ digits) = some w ∧
        ((integer sign digits).natAbs < 2 ^ 53 → w.toNumber = .int (integer sign digits)) ∧
        (2 ^ 53 ≤ (integer sign digits).natAbs →
          ∃ d : Double, w.toNumber = .real d ∧ d.Nearest (integer sign digits))) ∧
      ∀ (n : Int) (t : Text), n.natAbs < 2 ^ 53 → t = Value.render (.number (.int n)) →
        (∀ ns : Namespace, Literal.evalText ns t = .ok (.number (.int n)) ∧
          Literal.evalText ns ('*' :: t ++ ['*']) = .ok (.number (.int n)) ∧
          Expression.evalText ns t = .ok (.number (.int n))) ∧
        (Value.text t).number? = .ok (.int n) := by
  refine ⟨fun sign digits h hne => ⟨whole sign digits, ?_, toNumber_whole sign digits⟩, ?_⟩
  · rw [← text_whole]
    exact ofText?_eq_some_iff.2 ⟨proper_whole h hne, rfl⟩
  · rintro n t hn rfl
    have hrender : Value.render (.number (.int n)) = (ofInt n).text := by
      rw [Value.render, text_ofInt, Number.text]
    have hproper := proper_ofInt n
    have htrim := trim_text hproper
    rw [hrender, ← toNumber_ofInt hn]
    refine ⟨fun ns => ⟨literal_evalText ns hproper htrim, ?_, expression_evalText ns hproper htrim⟩,
      Value.number?_text hproper⟩
    refine literal_evalText_stars ns (Text.isDigits_ofNat _) Nat.toDigits_ne_nil ?_
    rw [htrim]
    exact text_whole _ _

/-- The least safe integer, and the greatest negative integer that is no double, after zeros. -/
theorem integer_texts_least :
    (∃ w : Numeric, ofText? "-0009007199254740993".toList = some w ∧
      ∃ d : Double, w.toNumber = .real d ∧ d.Nearest ((-9007199254740993 : Int) : Rat)) ∧
      Literal.evalText {} "-9007199254740991".toList = .ok (.number (.int (-9007199254740991))) ∧
      Literal.evalText {} "*-9007199254740991*".toList = .ok (.number (.int (-9007199254740991))) ∧
      Expression.evalText {} "-9007199254740991".toList = .ok (.number (.int (-9007199254740991))) ∧
      (Value.text "-9007199254740991".toList).number? = .ok (.int (-9007199254740991)) := by
  obtain ⟨hread, hwrite⟩ := integer_texts
  obtain ⟨w, hw, -, hunsafe⟩ :=
    hread (some .minus) "0009007199254740993".toList (by decide +kernel) (by decide)
  have hinteger : integer (some .minus) "0009007199254740993".toList = -9007199254740993 := by
    decide +kernel
  rw [hinteger] at hunsafe
  obtain ⟨heval, hnumber⟩ :=
    hwrite (-9007199254740991) "-9007199254740991".toList (by decide) (by decide +kernel)
  obtain ⟨hliteral, hstars, hexpression⟩ := heval {}
  exact ⟨⟨w, hw, hunsafe (by decide)⟩, hliteral, hstars, hexpression, hnumber⟩

end Numeric

end LineScript
