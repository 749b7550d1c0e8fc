import LineScript.Number.Layout
import LineScript.Proofs.Double.Decimal
import LineScript.Proofs.Number.Numeral

/-!
# Decimals in a layout

Every layout writes a decimal as a numeral of the grammar that numbers are read in
(`Layout.numeral`). The point, the zeros and the exponent that it adds do not change what the digits
denote (`Layout.value_numeral`), and the exponent is there exactly if the decimal lies outside of
the range that the layout writes positionally (`Layout.exponent_numeral`).
-/

namespace LineScript

theorem Decimal.value_shift (n k : Nat) (e : Int) : value ⟨n * 10 ^ k, e⟩ = value ⟨n, e + k⟩ := by
  rw [value, value, Nat.cast_mul, Nat.cast_pow, Nat.cast_ofNat, mul_assoc, add_comm,
    zpow_add₀ (by norm_num), zpow_natCast]

namespace Layout

variable (f : Layout)

/-- The numeral that `Layout.positional` writes. -/
def positionalNumeral (digits : Text) (exponent : Int) : Numeral :=
  match exponent with
  | .ofNat e => ⟨digits ++ List.replicate e '0', if f.pointZero then some ['0'] else none, none⟩
  | .negSucc k =>
    if k + 1 < digits.length then
      ⟨digits.take (digits.length - (k + 1)), some (digits.drop (digits.length - (k + 1))), none⟩
    else ⟨['0'], some (List.replicate (k + 1 - digits.length) '0' ++ digits), none⟩

/-- The exponent that `Layout.scientific` writes. -/
def exponentOf (first : Int) : Exponent where
  mark := 'e'
  sign := some (if first < 0 then .minus else .plus)
  digits := List.replicate (f.exponentWidth - (Text.ofNat first.natAbs).length) '0' ++
    Text.ofNat first.natAbs

/-- The numeral that `Layout.scientific` writes. -/
def scientificNumeral (digits : Text) (first : Int) : Numeral where
  whole := digits.take 1
  fraction := if (digits.drop 1).isEmpty then none else some (digits.drop 1)
  exponent := some (f.exponentOf first)

/-- The decimal exponent of the first digit. -/
def first (d : Decimal) : Int := d.exponent + ((Text.ofNat d.digits).length - 1)

/-- The numeral that a decimal is written as. -/
def numeral (d : Decimal) : Numeral :=
  if f.least ≤ first d ∧ first d ≤ f.greatest then
    f.positionalNumeral (Text.ofNat d.digits) d.exponent
  else f.scientificNumeral (Text.ofNat d.digits) (first d)

/-! ## Texts -/

theorem text_positionalNumeral (digits : Text) (exponent : Int) :
    (f.positionalNumeral digits exponent).text = f.positional digits exponent := by
  cases exponent with
  | ofNat e =>
    simp only [positionalNumeral, positional, Numeral.text]
    split <;> simp
  | negSucc k =>
    simp only [positionalNumeral, positional]
    split <;> simp [Numeral.text]

theorem text_scientificNumeral (digits : Text) (first : Int) :
    (f.scientificNumeral digits first).text = f.scientific digits first := by
  have hexponent : (f.exponentOf first).text =
      'e' :: (if first < 0 then '-' else '+') :: (f.exponentOf first).digits := by
    unfold exponentOf
    split <;> rfl
  simp only [scientificNumeral, scientific, Numeral.text, Option.map_some,
    Option.getD_some, hexponent]
  split <;> simp [exponentOf]

theorem text_numeral (d : Decimal) : (f.numeral d).text = f.decimal d := by
  unfold numeral
  split
  · next hrange =>
    rw [text_positionalNumeral]
    exact (if_pos hrange).symm
  · next hrange =>
    rw [text_scientificNumeral]
    exact (if_neg hrange).symm

/-! ## The grammar -/

variable {digits : Text}

theorem proper_positionalNumeral (h : digits.IsDigits) (hne : digits ≠ []) (exponent : Int) :
    (f.positionalNumeral digits exponent).Proper := by
  cases exponent with
  | ofNat e =>
    refine ⟨h.append (Text.isDigits_replicate_zero e), ?_,
      .inl (by simp [positionalNumeral, hne]), nofun⟩
    simp only [positionalNumeral]
    split
    · rintro _ ⟨⟩
      exact Text.isDigits_replicate_zero 1
    · nofun
  | negSucc k =>
    simp only [positionalNumeral]
    split
    · next hlt =>
      refine ⟨fun c hc => h c (List.mem_of_mem_take hc), ?_, .inl ?_, nofun⟩
      · rintro _ ⟨⟩ c hc
        exact h c (List.mem_of_mem_drop hc)
      · simp only [ne_eq, List.take_eq_nil_iff, hne, or_false]
        omega
    · refine ⟨Text.isDigits_replicate_zero 1, ?_, .inl (List.cons_ne_nil _ _), nofun⟩
      rintro _ ⟨⟩
      exact (Text.isDigits_replicate_zero _).append h

theorem proper_exponentOf (first : Int) : (f.exponentOf first).Proper where
  mark := .inl rfl
  digits := (Text.isDigits_replicate_zero _).append (Text.isDigits_ofNat _)
  ne_nil := by simp [exponentOf, Text.ofNat]

theorem proper_scientificNumeral (h : digits.IsDigits) (hne : digits ≠ []) (first : Int) :
    (f.scientificNumeral digits first).Proper where
  whole c hc := h c (List.mem_of_mem_take hc)
  fraction := by
    simp only [scientificNumeral]
    split
    · nofun
    · rintro _ ⟨⟩ c hc
      exact h c (List.mem_of_mem_drop hc)
  ne_nil := .inl (by simpa [scientificNumeral] using hne)
  exponent := by
    rintro _ ⟨⟩
    exact f.proper_exponentOf first

theorem proper_numeral (d : Decimal) : (f.numeral d).Proper := by
  have hdigits := Text.isDigits_ofNat d.digits
  have hne : Text.ofNat d.digits ≠ [] := Nat.toDigits_ne_nil
  unfold numeral
  split
  · exact f.proper_positionalNumeral hdigits hne _
  · exact f.proper_scientificNumeral hdigits hne _

/-! ## Values -/

/-- Zeros and a point do not change what digits denote. -/
theorem value_positionalNumeral (digits : Text) (exponent : Int) :
    (f.positionalNumeral digits exponent).decimal.value =
      Decimal.value ⟨Text.digitsValue digits, exponent⟩ := by
  have hpoint : ∀ whole fraction : Text, Numeral.decimal ⟨whole, some fraction, none⟩ =
      ⟨Text.digitsValue (whole ++ fraction), -fraction.length⟩ := by simp [Numeral.decimal]
  cases exponent with
  | ofNat e =>
    simp only [positionalNumeral]
    split
    · have hzeros : digits ++ List.replicate e '0' ++ ['0'] =
          digits ++ List.replicate (e + 1) '0' := by
        rw [List.append_assoc, List.replicate_succ']
      rw [hpoint, hzeros, Text.digitsValue_append_replicate_zero, Decimal.value_shift]
      congr 2
      simp
    · rw [Numeral.decimal_whole, Text.digitsValue_append_replicate_zero,
        Decimal.value_shift, zero_add]
      rfl
  | negSucc k =>
    simp only [positionalNumeral]
    split
    · next hlt =>
      rw [hpoint, List.take_append_drop, List.length_drop, Int.negSucc_eq]
      congr 2
      omega
    · next hge =>
      -- The point comes before all digits, and only zeros fill the places up to it.
      have hzeros : ['0'] ++ (List.replicate (k + 1 - digits.length) '0' ++ digits) =
          List.replicate (k + 1 - digits.length + 1) '0' ++ digits := by
        rw [← List.append_assoc, List.replicate_succ]
        rfl
      rw [hpoint, hzeros, Text.digitsValue_append, Text.digitsValue_replicate_zero, Nat.zero_mul,
        Nat.zero_add, List.length_append, List.length_replicate, Int.negSucc_eq]
      congr 2
      omega

theorem value_exponentOf (first : Int) : (f.exponentOf first).value = first := by
  have hdigits : Text.digitsValue (f.exponentOf first).digits = first.natAbs := by
    rw [exponentOf, Text.digitsValue_append, Text.digitsValue_replicate_zero, Nat.zero_mul,
      Nat.zero_add, Text.digitsValue_ofNat]
  rw [Exponent.value, hdigits]
  by_cases hneg : first < 0
  · rw [if_pos (by simp [exponentOf, hneg])]
    omega
  · rw [if_neg (by simp [exponentOf, hneg])]
    omega

/-- The point after the first digit is made up for by the exponent. -/
theorem decimal_scientificNumeral (digits : Text) (first : Int) :
    (f.scientificNumeral digits first).decimal =
      ⟨Text.digitsValue digits, first - (digits.length - 1 : Nat)⟩ := by
  have hfraction : (f.scientificNumeral digits first).fraction.getD [] = digits.drop 1 := by
    simp only [scientificNumeral]
    split
    · next hempty => exact (List.isEmpty_iff.1 hempty).symm
    · rfl
  have hexponent :
      ((f.scientificNumeral digits first).exponent.map Exponent.value).getD 0 = first :=
    f.value_exponentOf first
  rw [Numeral.decimal, hfraction, hexponent, List.length_drop]
  simp only [scientificNumeral, List.take_append_drop]

/-- A decimal is written as a numeral of its value. -/
theorem value_numeral (d : Decimal) : (f.numeral d).decimal.value = d.value := by
  have hpos : 0 < (Text.ofNat d.digits).length := Nat.length_toDigits_pos
  unfold numeral
  split
  · rw [value_positionalNumeral, Text.digitsValue_ofNat]
  · rw [decimal_scientificNumeral, Text.digitsValue_ofNat, first]
    congr 2
    omega

theorem ten_pow_le_of_length {n : Nat} (h : n ≠ 0) : 10 ^ ((Text.ofNat n).length - 1) ≤ n := by
  by_contra hlt
  rcases Nat.eq_zero_or_pos ((Text.ofNat n).length - 1) with hzero | hpos
  · rw [hzero, Nat.pow_zero] at hlt
    omega
  · have hle := (Nat.length_toDigits_le_iff (by decide) hpos).2 (Nat.lt_of_not_le hlt)
    rw [← Text.ofNat] at hle
    omega

/-- The decimal exponent of the first digit gives the size of a decimal. -/
theorem value_between {d : Decimal} (h : d.digits ≠ 0) :
    10 ^ first d ≤ d.value ∧ d.value < 10 ^ (first d + 1) := by
  obtain ⟨n, e⟩ := d
  have hpos : 0 < (Text.ofNat n).length := Nat.length_toDigits_pos
  have hlow : 10 ^ ((Text.ofNat n).length - 1) ≤ n := ten_pow_le_of_length h
  have hhigh : n < 10 ^ (Text.ofNat n).length := Text.lt_ten_pow_length n
  have hpower : ∀ k : Nat, (10 : Rat) ^ (e + k) = ((10 ^ k : Nat) : Rat) * 10 ^ e := by
    intro k
    rw [add_comm, zpow_add₀ (by norm_num), zpow_natCast, Nat.cast_pow, Nat.cast_ofNat]
  have hfirst : first ⟨n, e⟩ = e + ((Text.ofNat n).length - 1 : Nat) := by
    simp only [first]
    omega
  have hnext : first ⟨n, e⟩ + 1 = e + ((Text.ofNat n).length : Nat) := by
    simp only [first]
    omega
  have hscale : (0 : Rat) < 10 ^ e := zpow_pos (by norm_num) e
  rw [hnext, hfirst, hpower, hpower, Decimal.value]
  exact ⟨mul_le_mul_of_nonneg_right (Nat.cast_le.2 hlow) hscale.le,
    mul_lt_mul_of_pos_right (Nat.cast_lt.2 hhigh) hscale⟩

theorem exponent_positionalNumeral (digits : Text) (exponent : Int) :
    (f.positionalNumeral digits exponent).exponent = none := by
  cases exponent with
  | ofNat e => rfl
  | negSucc k =>
    simp only [positionalNumeral]
    split <;> rfl

/-- A decimal has an exponent exactly if it lies outside of the range that is written
positionally. -/
theorem exponent_numeral {d : Decimal} (h : d.digits ≠ 0) :
    (f.numeral d).exponent = none ↔ 10 ^ f.least ≤ d.value ∧ d.value < 10 ^ (f.greatest + 1) := by
  obtain ⟨hlow, hhigh⟩ := value_between h
  have hten : (1 : Rat) < 10 := by norm_num
  have hleast : f.least ≤ first d ↔ 10 ^ f.least ≤ d.value := by
    refine ⟨fun hle => le_trans (zpow_le_zpow_right₀ hten.le hle) hlow, fun hle => ?_⟩
    have := (zpow_lt_zpow_iff_right₀ hten).1 (lt_of_le_of_lt hle hhigh)
    omega
  have hgreatest : first d ≤ f.greatest ↔ d.value < 10 ^ (f.greatest + 1) := by
    refine ⟨fun hle => lt_of_lt_of_le hhigh (zpow_le_zpow_right₀ hten.le (by omega)), fun hlt => ?_⟩
    have := (zpow_lt_zpow_iff_right₀ hten).1 (lt_of_le_of_lt hlow hlt)
    omega
  rw [← hleast, ← hgreatest]
  unfold numeral
  split
  · next hrange => exact iff_of_true (f.exponent_positionalNumeral _ _) hrange
  · next hrange => exact iff_of_false nofun hrange

end Layout

end LineScript
