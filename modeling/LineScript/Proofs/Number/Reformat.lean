import LineScript.Proofs.Number.Layout

/-!
# Script output and the text that reads back

Script output rewrites the text in which a double reads back, unless the double is a safe integer.
The result has the format `Number.layout` (`Number.text_of_not_isSafe`): what has no exponent loses
at most a fraction `.0` (`Number.reformat_positional`), and an exponent is expanded or written
without leading zeros (`Number.reformat_scientific`).
-/

namespace LineScript

/-! ## Digits without a trailing zero -/

theorem Decimal.digits_normalize (d : Decimal) :
    d.normalize.digits = 0 ∨ d.normalize.digits % 10 ≠ 0 := by
  fun_induction normalize d with
  | case1 d _ ih => exact ih
  | case2 d h =>
    by_cases hzero : d.digits = 0
    · exact .inl hzero
    · exact .inr fun hmod => h ⟨hzero, hmod⟩

theorem Magnitude.digits_shortest {m : Magnitude} (h : m.units ≠ 0) :
    m.shortest.digits % 10 ≠ 0 := by
  have hnormal : m.shortest.digits = 0 ∨ _ := Decimal.digits_normalize (m.shortestFrom 20 m.topGrid)
  refine hnormal.resolve_left fun hzero => h ?_
  have hread := ofDecimal_shortest false m
  rw [Double.ofDecimal, if_pos hzero] at hread
  cases hread
  rfl

namespace Text

theorem getLast?_ofNat {n : Nat} (h : n % 10 ≠ 0) : (ofNat n).getLast? ≠ some '0' := by
  have hchar : ∀ k < 10, k ≠ 0 → Nat.digitChar k ≠ '0' := by decide
  have hlast := hchar (n % 10) (Nat.mod_lt n (by decide)) h
  rcases Nat.lt_or_ge n 10 with hlt | hge
  · rw [ofNat, Nat.toDigits_of_lt_base hlt]
    rw [Nat.mod_eq_of_lt hlt] at hlast
    simpa using hlast
  · rw [ofNat, Nat.toDigits_of_base_le (by decide) hge]
    simpa using hlast

/-- What ends in `.0` ends in a zero. -/
theorem isSuffixOf_pointZero {s : Text} (h : s.getLast? ≠ some '0') :
    ".0".toList.isSuffixOf s = false := by
  rw [← Bool.not_eq_true, List.isSuffixOf_iff_suffix]
  rintro ⟨t, rfl⟩
  simp at h

end Text

namespace Number

/-- A minus, if the number is negative. -/
def minus (negative : Bool) : Text := if negative then ['-'] else []

theorem eq_of_mem_minus {negative : Bool} {c : Char} (h : c ∈ minus negative) : c = '-' := by
  cases negative with
  | false => cases h
  | true => simpa [minus] using h

theorem double_finite (f : Layout) (negative : Bool) {m : Magnitude} (h : m.units ≠ 0) :
    f.double (.finite negative m) = minus negative ++ f.decimal m.shortest := by
  rw [Layout.double, if_neg h]
  cases negative <;> rfl

theorem ne_exponent_of_mem {s : Text} (h : ∀ c ∈ s, c ≠ 'e') (negative : Bool) :
    ∀ c ∈ minus negative ++ s, (c != 'e') = true := by
  intro c hc
  rw [bne_iff_ne]
  rcases List.mem_append.1 hc with hc | hc
  · simp [eq_of_mem_minus hc]
  · exact h c hc

variable {digits : Text}

/-! ## Without an exponent -/

theorem ne_of_mem_positional (hdigits : ∀ c ∈ digits, c.isDigit = true) {exponent : Int} {c : Char}
    (h : c ∈ Double.layout.positional digits exponent) : c ≠ 'e' := by
  rintro rfl
  have hdigit : 'e' ∉ digits := fun hmem => absurd (hdigits _ hmem) (by decide)
  cases exponent with
  | ofNat e => simp [Layout.positional, Double.layout, hdigit] at h
  | negSucc k =>
    simp only [Layout.positional] at h
    split at h
    · have htake : 'e' ∉ digits.take (digits.length - (k + 1)) :=
        fun hmem => hdigit (List.mem_of_mem_take hmem)
      have hdrop : 'e' ∉ digits.drop (digits.length - (k + 1)) :=
        fun hmem => hdigit (List.mem_of_mem_drop hmem)
      simp [htake, hdrop] at h
    · simp [hdigit] at h

/-- A fraction ends in the last digit. -/
theorem getLast?_positional (hne : digits ≠ []) (k : Nat) :
    (Double.layout.positional digits (.negSucc k)).getLast? = digits.getLast? := by
  have hpos := List.length_pos_iff.2 hne
  simp only [Layout.positional]
  split
  · have hdrop : digits.drop (digits.length - (k + 1)) ≠ [] := by
      rw [ne_eq, List.drop_eq_nil_iff]
      omega
    rw [Text.getLast?_of_suffix (List.drop_suffix _ digits) hdrop]
    exact Text.getLast?_of_suffix ((List.suffix_cons _ _).trans (List.suffix_append _ _)) hdrop
  · exact Text.getLast?_of_suffix (List.suffix_append _ digits) hne

/-- A text without exponent loses a fraction `.0` and nothing else. -/
theorem reformat_positional (hdigits : ∀ c ∈ digits, c.isDigit = true) (hne : digits ≠ [])
    (hlast : digits.getLast? ≠ some '0') (negative : Bool) (exponent : Int) :
    reformat (minus negative ++ Double.layout.positional digits exponent) =
      minus negative ++ layout.positional digits exponent := by
  have hplain := ne_exponent_of_mem (s := Double.layout.positional digits exponent)
    (fun c hc => ne_of_mem_positional hdigits hc) negative
  rw [reformat, List.dropWhile_eq_nil_iff.2 hplain]
  dsimp only
  cases exponent with
  | ofNat e =>
    have htext : minus negative ++ Double.layout.positional digits (.ofNat e) =
        (minus negative ++ layout.positional digits (.ofNat e)) ++ ".0".toList := by
      simp [Layout.positional, Double.layout, layout]
    rw [htext, if_pos (List.isSuffixOf_iff_suffix.2 (List.suffix_append _ _))]
    exact List.take_left' (by simp; omega)
  | negSucc k =>
    have hlast' := getLast?_positional hne k
    have hpositional : Double.layout.positional digits (.negSucc k) ≠ [] := fun h => by
      rw [h, List.getLast?_nil, eq_comm, List.getLast?_eq_none_iff] at hlast'
      exact hne hlast'
    rw [Text.isSuffixOf_pointZero, if_neg (by simp)]
    · simp [Layout.positional]
    · rwa [Text.getLast?_of_suffix (List.suffix_append _ _) hpositional, hlast']

/-! ## With an exponent -/

/-- What stands before an exponent: the first digit, and a point and the others if there are any. -/
def mantissa (digits : Text) : Text :=
  digits.take 1 ++ if (digits.drop 1).isEmpty then [] else '.' :: digits.drop 1

/-- The exponent itself, filled up with zeros. -/
def power (f : Layout) (first : Int) : Text :=
  (if first < 0 then '-' else '+') ::
    (List.replicate (f.exponentWidth - (Text.ofNat first.natAbs).length) '0' ++
      Text.ofNat first.natAbs)

theorem scientific_eq (f : Layout) (digits : Text) (first : Int) :
    f.scientific digits first = mantissa digits ++ 'e' :: power f first := by
  simp [Layout.scientific, mantissa, power]

theorem exponentOf_power (f : Layout) (first : Int) : exponentOf (power f first) = first := by
  have hvalue (zeros : Nat) :
      Text.digitsValue (List.replicate zeros '0' ++ Text.ofNat first.natAbs) = first.natAbs := by
    rw [Text.digitsValue_append, Text.digitsValue_replicate_zero, Nat.zero_mul, Nat.zero_add,
      Text.digitsValue_ofNat]
  unfold power
  split
  · rw [exponentOf, hvalue]
    omega
  · rw [exponentOf, hvalue]
    omega

theorem ne_of_mem_mantissa (hdigits : ∀ c ∈ digits, c.isDigit = true) {c : Char}
    (h : c ∈ mantissa digits) : c ≠ 'e' := by
  rintro rfl
  have hdigit : 'e' ∉ digits := fun hmem => absurd (hdigits _ hmem) (by decide)
  have htake : 'e' ∉ digits.take 1 := fun hmem => hdigit (List.mem_of_mem_take hmem)
  have hdrop : 'e' ∉ digits.tail := fun hmem => hdigit (List.mem_of_mem_tail hmem)
  rw [mantissa, List.mem_append] at h
  split at h
  · simp [htake] at h
  · simp [htake, hdrop] at h

/-- Without its point a mantissa is the digits, and all but the first of them stand after it. -/
theorem expand_mantissa (hdigits : ∀ c ∈ digits, c.isDigit = true) (hne : digits ≠ [])
    (negative : Bool) (exponent : Int) :
    expand (minus negative ++ mantissa digits) exponent =
      minus negative ++ layout.positional digits (exponent - (digits.length - 1)) := by
  obtain ⟨c, rest, rfl⟩ := List.exists_cons_of_ne_nil hne
  have hc : c ≠ '.' ∧ c ≠ '-' := by
    have := hdigits c List.mem_cons_self
    constructor <;> rintro rfl <;> exact absurd this (by decide)
  have hrest : ∀ d ∈ rest, (d != '.') = true := by
    intro d hd
    rw [bne_iff_ne]
    rintro rfl
    exact absurd (hdigits _ (List.mem_cons_of_mem _ hd)) (by decide)
  have hsign : (minus negative ++ mantissa (c :: rest)).takeWhile (· == '-') = minus negative ∧
      (minus negative ++ mantissa (c :: rest)).dropWhile (· == '-') = mantissa (c :: rest) :=
    Text.takeWhile_append_dropWhile_append (by simpa using fun d => eq_of_mem_minus)
      (by simp [mantissa, hc.2])
  have hfraction : ((mantissa (c :: rest)).dropWhile (· != '.')).drop 1 = rest := by
    cases rest with
    | nil => simp [mantissa, hc.1]
    | cons d rest => simp [mantissa, hc.1]
  have hfilter : (mantissa (c :: rest)).filter (· != '.') = c :: rest := by
    cases rest with
    | nil => simp [mantissa, hc.1]
    | cons d rest => simpa [mantissa, hc.1] using hrest
  simp only [expand, hsign.1, hsign.2, hfraction, hfilter]
  simp

/-- An exponent is expanded, or written without leading zeros. -/
theorem reformat_scientific (hdigits : ∀ c ∈ digits, c.isDigit = true) (hne : digits ≠ [])
    (negative : Bool) {first : Int} (hfirst : first ≠ 0) :
    reformat (minus negative ++ Double.layout.scientific digits first) =
      minus negative ++
        if -7 < first ∧ first < 21 then
          layout.positional digits (first - (digits.length - 1))
        else layout.scientific digits first := by
  have hplain := ne_exponent_of_mem (s := mantissa digits)
    (fun c hc => ne_of_mem_mantissa hdigits hc) negative
  have hlength : 1 ≤ (Text.ofNat first.natAbs).length := Nat.length_toDigits_pos
  have hstart : ∀ c ∈ ('e' :: power Double.layout first).head?, (c != 'e') = false := by simp
  obtain ⟨hmantissa, hpower⟩ := Text.takeWhile_append_dropWhile_append hplain hstart
  rw [scientific_eq, ← List.append_assoc, reformat, hpower]
  dsimp only
  rw [hmantissa, exponentOf_power]
  split
  · rw [expand_mantissa hdigits hne]
  · have hsign : (if 0 < first then '+' else '-') = if first < 0 then '-' else '+' := by
      rcases Int.lt_or_gt_of_ne hfirst with h | h
      · rw [if_neg (by omega), if_pos h]
      · rw [if_pos h, if_neg (by omega)]
    have hzeros : layout.exponentWidth - (Text.ofNat first.natAbs).length = 0 :=
      Nat.sub_eq_zero_of_le hlength
    rw [scientific_eq, power, hsign, hzeros]
    simp

/-! ## Doubles -/

theorem decimal_readable (d : Decimal) : Double.layout.decimal d =
    if -4 ≤ Layout.first d ∧ Layout.first d ≤ 15 then
      Double.layout.positional (Text.ofNat d.digits) d.exponent
    else Double.layout.scientific (Text.ofNat d.digits) (Layout.first d) := rfl

theorem decimal_layout (d : Decimal) : layout.decimal d =
    if -6 ≤ Layout.first d ∧ Layout.first d ≤ 20 then
      layout.positional (Text.ofNat d.digits) d.exponent
    else layout.scientific (Text.ofNat d.digits) (Layout.first d) := rfl

/-- A double that is not zero is rewritten to the format of script output. -/
theorem reformat_double (negative : Bool) {m : Magnitude} (h : m.units ≠ 0) :
    reformat (Double.layout.double (.finite negative m)) = layout.double (.finite negative m) := by
  have hdigits : ∀ c ∈ Text.ofNat m.shortest.digits, c.isDigit = true :=
    fun c => Nat.isDigit_of_mem_toDigits (by decide) (by decide)
  have hne : Text.ofNat m.shortest.digits ≠ [] := Nat.toDigits_ne_nil
  have hexponent : Layout.first m.shortest - ((Text.ofNat m.shortest.digits).length - 1 : Int) =
      m.shortest.exponent := Int.add_sub_cancel ..
  rw [double_finite _ _ h, double_finite _ _ h, decimal_readable, decimal_layout]
  generalize Layout.first m.shortest = first at hexponent ⊢
  by_cases hrange : -4 ≤ first ∧ first ≤ 15
  · rw [if_pos hrange, if_pos (by omega)]
    exact reformat_positional hdigits hne (Text.getLast?_ofNat (Magnitude.digits_shortest h)) _ _
  · rw [if_neg hrange, reformat_scientific hdigits hne negative (by omega), hexponent]
    by_cases hwide : -6 ≤ first ∧ first ≤ 20
    · rw [if_pos hwide, if_pos (by omega)]
    · rw [if_neg hwide, if_neg (by omega)]

/-- A double that is a safe integer is written as that. -/
theorem text_of_isSafe {d : Double} {n : Int} (h : d.whole? = some n) (hn : isSafe n = true) :
    text (.real d) = Text.ofInt n := by
  cases d with
  | nan | infinite => cases h
  | finite negative m => simp only [text, h, if_pos hn]

/-- Any other double is written in the format of script output. -/
theorem text_of_not_isSafe {d : Double} (h : ∀ n, d.whole? = some n → isSafe n = false) :
    text (.real d) = layout.double d := by
  cases d with
  | nan => rfl
  | infinite negative => cases negative <;> rfl
  | finite negative m =>
    have hne : m.units ≠ 0 := fun hzero => by
      have hwhole : (Double.finite negative m).whole? = some 0 := by
        cases negative <;> simp [Double.whole?, hzero]
      exact absurd (h 0 hwhole) (by decide)
    simp only [text, reformat_double negative hne]
    split
    · next n hn => rw [h n hn, if_neg (by simp)]
    · rfl

end Number

end LineScript
