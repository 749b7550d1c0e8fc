import LineScript.Proofs.Expression.Integer
import LineScript.Proofs.Number.Exact
import LineScript.Proofs.Number.Layout
import LineScript.Proofs.Number.Reformat
import LineScript.Proofs.Value.Equality

/-!
# Rendering numbers

The text of a double in script output denotes the same rational as its plain form, from which the
double is read back; the layouts differ only in where exponents begin and in how whole numbers and
zeros are shown. `Value.render_reads_back` says so, and that every number but a NaN is equal to what
its text counts as.
-/

namespace LineScript

theorem Double.value?_of_whole? {d : Double} {n : Int} (h : d.whole? = some n) :
    d.value? = some (n : Rat) := by
  have hone : (one : Rat) ≠ 0 := Nat.cast_ne_zero.2 (Nat.ne_of_gt one_pos)
  rw [value?, units?_of_whole? h]
  simp [hone]

/-! ## The decimal of a magnitude -/

namespace Magnitude

variable {m : Magnitude}

/-- The decimal that a magnitude is written as. -/
def written (m : Magnitude) : Decimal := if m.units = 0 then ⟨0, 0⟩ else m.shortest

theorem written_of_zero (h : m.units = 0) : m.written = ⟨0, 0⟩ := if_pos h

theorem written_of_ne_zero (h : m.units ≠ 0) : m.written = m.shortest := if_neg h

theorem finite_eq_zero (negative : Bool) (h : m.units = 0) :
    Double.finite negative m = .zero negative := by
  obtain ⟨units, hstep, hlt⟩ := m
  cases h
  rfl

theorem ofDecimal_written (negative : Bool) (m : Magnitude) :
    Double.ofDecimal negative m.written = .finite negative m := by
  by_cases hzero : m.units = 0
  · rw [written_of_zero hzero, finite_eq_zero negative hzero]
    exact if_pos rfl
  · rw [written_of_ne_zero hzero]
    exact m.ofDecimal_shortest negative

theorem digits_written_ne_zero (h : m.units ≠ 0) : m.written.digits ≠ 0 := by
  intro hdigits
  have hread := m.ofDecimal_written false
  rw [Double.ofDecimal, if_pos hdigits] at hread
  cases hread
  exact h rfl

/-- A whole number below `2 ^ 53` is written exactly. -/
theorem value_written {n : Nat} (hn : n < Nat.pow 2 53) (h : m.units = n * Double.one) :
    m.written.value = n := by
  rcases Nat.eq_zero_or_pos n with rfl | hpos
  · rw [written_of_zero (h.trans (Nat.zero_mul _))]
    simp [Decimal.value]
  · rw [written_of_ne_zero (by rw [h]; exact Nat.ne_of_gt (Nat.mul_pos hpos Double.one_pos))]
    exact value_shortest hpos hn h

theorem signed_value_written {negative : Bool} (m : Magnitude) {n : Int}
    (hn : n.natAbs < Nat.pow 2 53) (h : (Double.finite negative m).value? = some (n : Rat)) :
    Double.signed negative m.written.value = n := by
  have hone : (Double.one : Rat) ≠ 0 := Nat.cast_ne_zero.2 (Nat.ne_of_gt Double.one_pos)
  have hsigned : Double.signed negative ((m.units : Rat) / Double.one) = n := by
    rw [Double.value?_finite] at h
    exact Option.some.inj h
  have hnonneg : 0 ≤ (m.units : Rat) / Double.one := by positivity
  have habs : (m.units : Rat) / Double.one = n.natAbs := by
    rw [← Double.abs_signed negative hnonneg, hsigned, Nat.cast_natAbs, Int.cast_abs]
  have hunits : m.units = n.natAbs * Double.one := by
    rw [div_eq_iff hone] at habs
    exact_mod_cast habs
  rw [value_written hn hunits, ← habs, hsigned]

end Magnitude

/-! ## Written numbers -/

namespace Numeric

/-- The rational that a written number denotes, unless it is an infinity. -/
def value? (n : Numeric) : Option Rat :=
  match n.amount with
  | .numeral m => some (Double.signed (n.sign = some .minus) m.decimal.value)
  | .infinity => none

def exponent? (n : Numeric) : Option Exponent :=
  match n.amount with
  | .numeral m => m.exponent
  | .infinity => none

/-- A finite double as it is written in a layout. -/
def ofMagnitude (f : Layout) (negative : Bool) (m : Magnitude) : Numeric :=
  ⟨if negative && (f.signedZero || m.units != 0) then some .minus else none,
    .numeral (f.numeral m.written)⟩

variable (f : Layout) (negative : Bool) (m : Magnitude)

theorem proper_ofMagnitude : (ofMagnitude f negative m).Proper := by
  rintro _ ⟨⟩
  exact f.proper_numeral _

theorem text_ofMagnitude : (ofMagnitude f negative m).text = f.double (.finite negative m) := by
  rw [ofMagnitude, text_eq]
  simp only [Amount.text, Layout.text_numeral, Layout.double]
  by_cases hzero : m.units = 0
  · rw [Magnitude.written_of_zero hzero]
    cases negative <;> cases f.signedZero <;> simp [hzero, Sign.optionText, Sign.char]
  · rw [Magnitude.written_of_ne_zero hzero]
    cases negative <;> simp [hzero, Sign.optionText, Sign.char]

theorem isNegative_ofMagnitude :
    decide ((ofMagnitude f negative m).sign = some .minus) =
      (negative && (f.signedZero || m.units != 0)) := by
  rw [ofMagnitude]
  cases negative && (f.signedZero || m.units != 0) <;> rfl

theorem value?_ofMagnitude :
    (ofMagnitude f negative m).value? = some (Double.signed negative m.written.value) := by
  have hvalue : (ofMagnitude f negative m).value? = some (Double.signed
      (decide ((ofMagnitude f negative m).sign = some .minus))
      (f.numeral m.written).decimal.value) := rfl
  rw [hvalue, isNegative_ofMagnitude, f.value_numeral]
  by_cases hzero : m.units = 0
  · have hwritten : m.written.value = 0 := by simp [Magnitude.written_of_zero hzero, Decimal.value]
    simp [hwritten, Double.signed]
  · rw [bne_iff_ne.2 hzero, Bool.or_true, Bool.and_true]

/-- What is written is read back as the double, unless it is a zero that has lost its sign. -/
theorem toDouble_ofMagnitude {f : Layout} {m : Magnitude} (h : f.signedZero = true ∨ m.units ≠ 0) :
    (ofMagnitude f negative m).toDouble = .finite negative m := by
  have hsign : (f.signedZero || m.units != 0) = true := by simpa using h
  have hread : (ofMagnitude f negative m).toDouble =
      .ofDecimal (decide ((ofMagnitude f negative m).sign = some .minus))
        (f.numeral m.written).decimal := rfl
  rw [hread, isNegative_ofMagnitude, hsign, Bool.and_true,
    Double.ofDecimal_congr negative (f.value_numeral _)]
  exact m.ofDecimal_written negative

end Numeric

/-! ## Script output -/

/-- A double is shown as an integer exactly if it is settled as one. -/
theorem Number.text_real_cases (d : Double) :
    (∃ n, d.whole? = some n ∧ isSafe n = true ∧ text (.real d) = Text.ofInt n) ∨
      ofDouble d = .real d ∧ text (.real d) = layout.double d := by
  cases hwhole : d.whole? with
  | none =>
    refine .inr ⟨by simp only [ofDouble, hwhole], text_of_not_isSafe fun n hn => ?_⟩
    rw [hwhole] at hn
    cases hn
  | some n =>
    cases hsafe : isSafe n with
    | true => exact .inl ⟨n, rfl, hsafe, text_of_isSafe hwhole hsafe⟩
    | false =>
      refine .inr ⟨by simp only [ofDouble, hwhole, hsafe, Bool.false_eq_true, if_false], ?_⟩
      refine text_of_not_isSafe fun k hk => ?_
      rw [hwhole] at hk
      cases hk
      exact hsafe

namespace Numeric

/-- The number `t` is the text of the finite double `v` in script output. It denotes `q`; it has an
exponent exactly if `q` is small or large, and a minus exactly if `q` is negative; and it is equal
to `v`. -/
structure Renders (t : Numeric) (v : Double) (q : Rat) : Prop where
  proper : t.Proper
  text : t.text = Value.render (.number (.real v))
  value : t.value? = some q
  exponent : t.exponent? = none ↔ q = 0 ∨ 10 ^ (-6 : Int) ≤ |q| ∧ |q| < 10 ^ (21 : Int)
  minus : t.sign = some .minus ↔ q < 0
  plus : t.sign ≠ some .plus
  equal : t.toNumber.equal (.real v) = true

variable {negative : Bool} {m : Magnitude}

/-- A double that is no safe integer is shown in the layout of script output. -/
theorem renders_ofMagnitude
    (hreal : Number.ofDouble (.finite negative m) = .real (.finite negative m))
    (htext : Number.text (.real (.finite negative m)) = Number.layout.double (.finite negative m)) :
    (ofMagnitude Number.layout negative m).Renders (.finite negative m)
      (Double.signed negative m.written.value) := by
  -- A zero of either sign is a safe integer, so there is no sign to lose here.
  have hne : m.units ≠ 0 := by
    intro hzero
    have hwhole := Double.whole?_of_units negative (hzero.trans (Nat.zero_mul Double.one).symm)
    rw [Number.ofDouble_whole hwhole (by cases negative <;> decide)] at hreal
    cases hreal
  have hdigits := Magnitude.digits_written_ne_zero hne
  have hpos : 0 < m.written.value :=
    lt_of_lt_of_le (zpow_pos (by norm_num) _) (Layout.value_between hdigits).1
  constructor
  · exact proper_ofMagnitude _ _ _
  · rw [text_ofMagnitude]
    exact htext.symm
  · exact value?_ofMagnitude _ _ _
  · have hexponent := Layout.exponent_numeral Number.layout hdigits
    have hq : Double.signed negative m.written.value ≠ 0 := by
      rw [← abs_ne_zero, Double.abs_signed negative hpos.le]
      exact hpos.ne'
    rw [Double.abs_signed negative hpos.le]
    exact hexponent.trans ⟨.inr, fun h => h.resolve_left hq⟩
  · have hsign := isNegative_ofMagnitude Number.layout negative m
    rw [bne_iff_ne.2 hne, Bool.or_true, Bool.and_true] at hsign
    rw [Double.signed_lt_zero_iff negative hpos]
    refine decide_eq_true_iff.symm.trans ?_
    rw [hsign]
  · rw [ofMagnitude]
    split <;> simp
  · have hdouble := toDouble_ofMagnitude negative (f := Number.layout) (.inr hne)
    have hnumber : (ofMagnitude Number.layout negative m).toNumber =
        .real (.finite negative m) := by
      show (if _ then Number.ofDouble (ofMagnitude Number.layout negative m).toDouble
        else .real (ofMagnitude Number.layout negative m).toDouble) = _
      rw [hdouble, hreal, ite_self]
    rw [hnumber]
    exact Double.equal_self (d := .finite negative m) nofun

theorem value?_ofInt (n : Int) : (ofInt n).value? = some (n : Rat) := by
  have hvalue : (ofInt n).value? = some (Double.signed
      (decide ((if n < 0 then some Sign.minus else none) = some .minus))
      (Numeral.decimal ⟨Text.ofNat n.natAbs, none, none⟩).value) := rfl
  have hsign : decide ((if n < 0 then some Sign.minus else none) = some .minus) =
      decide (n < 0) := by
    by_cases hneg : n < 0 <;> simp [hneg]
  rw [hvalue, Numeral.decimal_whole, Text.digitsValue_ofNat, hsign, Decimal.value,
    zpow_zero, mul_one, Double.signed_natAbs]

/-- A double that is a safe integer is shown as the integer. -/
theorem renders_ofInt {n : Int} (hwhole : (Double.finite negative m).whole? = some n)
    (hsafe : Number.isSafe n = true)
    (htext : Number.text (.real (.finite negative m)) = Text.ofInt n) :
    (ofInt n).Renders (.finite negative m) (Double.signed negative m.written.value) := by
  have hn : n.natAbs < Nat.pow 2 53 := decide_eq_true_iff.1 hsafe
  rw [m.signed_value_written hn (Double.value?_of_whole? hwhole)]
  constructor
  · exact proper_ofInt n
  · rw [text_ofInt]
    exact htext.symm
  · exact value?_ofInt n
  · refine iff_of_true rfl ?_
    by_cases hzero : n = 0
    · left
      rw [hzero, Int.cast_zero]
    · right
      have hlow : (1 : Rat) ≤ |(n : Rat)| := by exact_mod_cast Int.one_le_abs hzero
      have hhigh : |(n : Rat)| < 2 ^ 53 := by
        rw [← Int.cast_abs, ← Int.natCast_natAbs]
        exact_mod_cast hn
      exact ⟨le_trans (by norm_num) hlow, lt_of_lt_of_le hhigh (by norm_num)⟩
  · rw [Int.cast_lt_zero, ofInt, whole]
    split <;> simp [*]
  · rw [ofInt, whole]
    split <;> simp
  · rw [toNumber_ofInt hn, Number.equal, Double.units?_of_whole? hwhole]
    exact beq_self_eq_true _

/-- Every finite double is shown as a number of the value that it is written with. -/
theorem exists_renders (negative : Bool) (m : Magnitude) :
    ∃ t : Numeric, t.Renders (.finite negative m) (Double.signed negative m.written.value) := by
  rcases Number.text_real_cases (.finite negative m) with ⟨n, hwhole, hsafe, htext⟩ | ⟨hreal, htext⟩
  · exact ⟨ofInt n, renders_ofInt hwhole hsafe htext⟩
  · exact ⟨_, renders_ofMagnitude hreal htext⟩

end Numeric

namespace Value

/-- Every number but a NaN is shown as a number that is equal to it. -/
theorem exists_numeric_render {x : Number} (hsafe : x.Safe) (hnan : x ≠ .nan) :
    ∃ t : Numeric, t.Proper ∧ t.text = render (.number x) ∧ t.toNumber.equal x = true := by
  cases x with
  | int n =>
    refine ⟨.ofInt n, Numeric.proper_ofInt n, Numeric.text_ofInt n, ?_⟩
    rw [Numeric.toNumber_ofInt hsafe]
    exact beq_self_eq_true n
  | real d =>
    cases d with
    | nan => exact absurd rfl hnan
    | infinite negative =>
      refine ⟨⟨if negative then some .minus else none, .infinity⟩, nofun, ?_, ?_⟩ <;>
        cases negative <;> rfl
    | finite negative m =>
      obtain ⟨t, ht⟩ := Numeric.exists_renders negative m
      exact ⟨t, ht.proper, ht.text, ht.equal⟩

/-- The text of a finite double in script output is a number of the grammar. It denotes the same
rational as the plain form of the double, which reads back as the double, and the double itself if
that is a safe integer; it has an exponent exactly if the rational has a decimal exponent below `-6`
or above `20`, and keeps the sign, but for a zero. So every safe number but a NaN is equal, and
loosely equal, to its text. -/
theorem render_reads_back [Host] :
    (∀ (negative : Bool) (m : Magnitude), ∃ (t r : Numeric) (q : Rat),
      t.Renders (.finite negative m) q ∧
      r.Proper ∧ r.text = Double.layout.double (.finite negative m) ∧ r.value? = some q ∧
      r.toDouble = .finite negative m ∧ (Double.finite negative m).Nearest q ∧
      ∀ n : Int, n.natAbs < 2 ^ 53 → (Double.finite negative m).value? = some (n : Rat) → q = n) ∧
    ∀ (x : Number) (t : Text), x.Safe → x ≠ .nan → t = render (.number x) →
      (∃ y, (Value.text t).number? = .ok y ∧ y.equal x = true) ∧
      looselyEquals? (.number x) (.text t) = .ok true := by
  constructor
  · intro negative m
    obtain ⟨t, ht⟩ := Numeric.exists_renders negative m
    refine ⟨t, .ofMagnitude Double.layout negative m, _, ht, Numeric.proper_ofMagnitude _ _ _,
      Numeric.text_ofMagnitude _ _ _, Numeric.value?_ofMagnitude _ _ _,
        Numeric.toDouble_ofMagnitude _ (.inl rfl),
      ?_, ?_⟩
    · have hnearest := Double.nearest_ofDecimal negative m.written
      rwa [m.ofDecimal_written negative] at hnearest
    · exact fun n hn hvalue => m.signed_value_written hn hvalue
  · rintro x _ hsafe hnan rfl
    obtain ⟨t, hproper, htext, hequal⟩ := exists_numeric_render hsafe hnan
    rw [← htext]
    refine ⟨⟨t.toNumber, number?_text hproper, hequal⟩, ?_⟩
    show Except.ok (x.equal (textNumber t.text)) = _
    rw [textNumber_text hproper, Number.equal_comm, hequal]

/-- A magnitude between `2 ^ 53` and `10 ^ 21`. -/
def largeMagnitude : Magnitude :=
  ⟨123456789012345683968 * Double.one, by decide +kernel, by decide +kernel⟩

/-- A large double without an exponent where its plain form has one, and a small one with an
exponent. -/
theorem render_reads_back_large :
    (∃ (t r : Numeric) (q : Rat), t.Proper ∧ t.text = "123456789012345680000".toList ∧
      t.value? = some q ∧
      r.text = "1.2345678901234568e+20".toList ∧ r.value? = some q ∧
        r.toDouble = .finite false largeMagnitude) ∧
    (∃ y, (Value.text "-1.5e-7".toList).number? = .ok y ∧
      y.equal (.real (.ofDecimal true ⟨15, -8⟩)) = true) ∧
    looselyEquals? (.number (.real (.ofDecimal true ⟨15, -8⟩))) (.text "-1.5e-7".toList) =
      .ok true := by
  obtain ⟨hdouble, hnumber⟩ := render_reads_back
  obtain ⟨t, r, q, ht, -, hr, hvalue, hread, -⟩ := hdouble false largeMagnitude
  have hlarge : render (.number (.real (.finite false largeMagnitude))) =
      "123456789012345680000".toList := by
    decide +kernel
  have hplain : Double.layout.double (.finite false largeMagnitude) =
      "1.2345678901234568e+20".toList := by
    decide +kernel
  have hsmall := hnumber (.real (.ofDecimal true ⟨15, -8⟩)) "-1.5e-7".toList trivial
    (fun h => Double.ofDecimal_ne_nan true ⟨15, -8⟩ (Number.real.inj h)) (by decide +kernel)
  exact ⟨⟨t, r, q, ht.proper, ht.text.trans hlarge, ht.value, hr.trans hplain, hvalue, hread⟩,
    hsmall⟩

end Value

end LineScript
