import LineScript.Number.Layout
import LineScript.Number.Numeral
import LineScript.Proofs.Text.Scan
import Mathlib.Algebra.Group.Nat.Defs

/-!
# Numerals and their texts

A written number is proper if its parts are what they stand for: digits where digits stand and at
least one of them, and a letter before the digits of an exponent. Scanning undoes writing: a proper
numeral is read back up to what cannot continue it (`Numeral.scan?_text_append`), and all that is
read is proper. So a text is a written number if and only if it is the text of a proper one
(`Numeric.ofText?_eq_some_iff`).
-/

namespace LineScript

/-! ## Digits -/

namespace Text

/-- Digits are no blanks. -/
theorem isDigit_eq_false_of_isBlank {c : Char} (h : isBlank c = true) : isDigit c = false := by
  have hdisjoint : ∀ r ∈ blanks, ∀ z ∈ zeros, r.2 < z ∨ z + 10 ≤ r.1 := by decide
  obtain ⟨r, hr, hc⟩ := List.any_eq_true.1 h
  rw [Bool.and_eq_true, decide_eq_true_eq, decide_eq_true_eq] at hc
  rw [← Bool.not_eq_true]
  intro hdigit
  rw [isDigit, digitValue?, Option.isSome_map] at hdigit
  obtain ⟨z, hz⟩ := Option.isSome_iff_exists.1 hdigit
  have hrange := List.find?_some hz
  rw [Bool.and_eq_true, decide_eq_true_eq, decide_eq_true_eq] at hrange
  have := hdisjoint r hr z (List.mem_of_find?_eq_some hz)
  omega

theorem isBlank_eq_false_of_isDigit {c : Char} (h : isDigit c = true) : isBlank c = false := by
  rw [← Bool.not_eq_true]
  intro hblank
  rw [isDigit_eq_false_of_isBlank hblank] at h
  cases h

/-- Nothing but digits. -/
def IsDigits (s : Text) : Prop := ∀ c ∈ s, isDigit c = true

instance (s : Text) :
    Decidable (IsDigits s) := decidable_of_iff (s.all isDigit = true) List.all_eq_true

theorem isDigits_takeWhile (s : Text) :
    IsDigits (s.takeWhile isDigit) := fun _ => List.mem_takeWhile_imp

theorem IsDigits.append {s t : Text} (hs : s.IsDigits) (ht : t.IsDigits) : IsDigits (s ++ t) :=
  List.forall_mem_append.2 ⟨hs, ht⟩

theorem takeWhile_append_dropWhile_append {p : Char → Bool} {front rest : Text}
    (h : ∀ c ∈ front, p c = true) (hrest : ∀ c ∈ rest.head?, p c = false) :
    (front ++ rest).takeWhile p = front ∧ (front ++ rest).dropWhile p = rest := by
  rw [List.takeWhile_append_of_pos h, List.dropWhile_append_of_pos h]
  cases rest with
  | nil => simp
  | cons c rest =>
    have hc : p c = false := hrest c rfl
    simp [hc]

theorem digitsValue_append (s t : Text) :
    digitsValue (s ++ t) = digitsValue s * 10 ^ t.length + digitsValue t := by
  have hfold : ∀ (t : Text) (n : Nat),
      t.foldl (fun n c => 10 * n + (digitValue? c).getD 0) n =
        n * 10 ^ t.length + digitsValue t := by
    intro t
    induction t with
    | nil => simp [digitsValue]
    | cons c t ih =>
      intro n
      rw [digitsValue, List.foldl_cons, List.foldl_cons, ih, ih (10 * 0 + _), List.length_cons,
        Nat.pow_succ]
      grind
  rw [digitsValue, List.foldl_append, hfold]
  rfl

theorem digitsValue_replicate_zero (k : Nat) : digitsValue (List.replicate k '0') = 0 := by
  induction k with
  | zero => rfl
  | succ k ih =>
    have hzero : digitsValue ['0'] = 0 := by decide
    rw [List.replicate_succ', digitsValue_append, ih, hzero, Nat.zero_mul]

theorem digitsValue_append_replicate_zero (s : Text) (k : Nat) :
    digitsValue (s ++ List.replicate k '0') = digitsValue s * 10 ^ k := by
  rw [digitsValue_append, digitsValue_replicate_zero, List.length_replicate, Nat.add_zero]

theorem isDigits_replicate_zero (k : Nat) : IsDigits (List.replicate k '0') := by
  intro c hc
  rw [(List.mem_replicate.1 hc).2]
  decide

/-- The digits that numbers are written with. -/
theorem digitValue?_of_isDigit {c : Char} (h : c.isDigit = true) :
    digitValue? c = some (c.toNat - '0'.toNat) := by
  have hrange : 48 ≤ c.toNat ∧ c.toNat < 48 + 10 := by
    rw [Char.isDigit, Bool.and_eq_true, decide_eq_true_eq, decide_eq_true_eq] at h
    exact ⟨h.1, Nat.lt_succ_of_le h.2⟩
  have hfirst : zeros.find? (fun z => z ≤ c.toNat && c.toNat < z + 10) = some 48 := by
    rw [zeros, List.find?_cons_of_pos]
    simpa using hrange
  rw [digitValue?, hfirst]
  rfl

theorem isDigits_ofNat (n : Nat) : IsDigits (ofNat n) := by
  intro c hc
  rw [isDigit, digitValue?_of_isDigit (Nat.isDigit_of_mem_toDigits (by decide) (by decide) hc)]
  rfl

/-- Digits of the script that numbers are written in denote what they denote in base ten. -/
theorem digitsValue_eq_ofDigitChars {s : Text} (h : ∀ c ∈ s, c.isDigit = true) :
    digitsValue s = Nat.ofDigitChars 10 s 0 := by
  rw [digitsValue, Nat.ofDigitChars_eq_foldl]
  refine List.foldl_ext _ _ 0 fun m c hc => ?_
  rw [digitValue?_of_isDigit (h c hc), Option.getD_some]

/-- A natural number is what its digits denote. -/
theorem digitsValue_ofNat (n : Nat) : digitsValue (ofNat n) = n := by
  have hdigits : ∀ c ∈ ofNat n, c.isDigit = true :=
    fun c => Nat.isDigit_of_mem_toDigits (by decide) (by decide)
  rw [digitsValue_eq_ofDigitChars hdigits]
  exact Nat.ofDigitChars_ten_toDigits

theorem lt_ten_pow_length (n : Nat) : n < 10 ^ (ofNat n).length :=
  (Nat.length_toDigits_le_iff (by decide) Nat.length_toDigits_pos).1 (Nat.le_refl _)

end Text

/-! ## Signs and exponents -/

theorem Sign.scan_optionText (sign : Option Sign) {c : Char} (hplus : c ≠ '+') (hminus : c ≠ '-')
    (s : Text) :
    scan (optionText sign ++ c :: s) = (sign, c :: s) := by
  cases sign with
  | some sign => cases sign <;> rfl
  | none => simp [optionText, scan, hplus, hminus]

theorem Sign.scan_optionText_digit (sign : Option Sign) {c : Char} (hc : Text.isDigit c = true)
    (s : Text) :
    scan (optionText sign ++ c :: s) = (sign, c :: s) := by
  refine scan_optionText sign ?_ ?_ s <;>
  · rintro rfl
    exact absurd hc (by decide)

theorem Sign.scan_optionText_digits (sign : Option Sign) {digits : Text} (h : digits.IsDigits)
    (hne : digits ≠ []) (rest : Text) :
    scan (optionText sign ++ (digits ++ rest)) = (sign, digits ++ rest) := by
  obtain ⟨c, more, rfl⟩ := List.exists_cons_of_ne_nil hne
  exact scan_optionText_digit sign (h c List.mem_cons_self) (more ++ rest)

namespace Exponent

/-- A letter, and digits. -/
structure Proper (e : Exponent) : Prop where
  mark : e.mark = 'e' ∨ e.mark = 'E'
  digits : Text.IsDigits e.digits
  ne_nil : e.digits ≠ []

theorem Proper.mark_ne {e : Exponent} (h : e.Proper) :
    Text.isDigit e.mark = false ∧ e.mark ≠ '.' := by
  rcases h.mark with hmark | hmark <;> rw [hmark] <;> decide

/-- An exponent is read with all the digits that follow it. -/
theorem scan_text_append_digits {e : Exponent} (h : e.Proper) (rest : Text) :
    scan (e.text ++ rest) =
      (some { e with digits := e.digits ++ rest.takeWhile Text.isDigit },
        rest.dropWhile Text.isDigit) := by
  obtain ⟨mark, sign, digits⟩ := e
  have htake : (digits ++ rest).takeWhile Text.isDigit = digits ++ rest.takeWhile Text.isDigit :=
    List.takeWhile_append_of_pos h.digits
  have hdrop : (digits ++ rest).dropWhile Text.isDigit = rest.dropWhile Text.isDigit :=
    List.dropWhile_append_of_pos h.digits
  have hsign : Sign.scan (Sign.optionText sign ++ (digits ++ rest)) = (sign, digits ++ rest) :=
    Sign.scan_optionText_digits sign h.digits h.ne_nil rest
  have hempty : (digits ++ rest.takeWhile Text.isDigit).isEmpty = false := by simp [h.ne_nil]
  simp only [text, List.cons_append, List.append_assoc]
  simp only [scan, h.mark, if_true, hsign, htake, hdrop, hempty]
  rfl

theorem scan_text_append {e : Exponent} (h : e.Proper) {rest : Text}
    (hrest : ∀ c ∈ rest.head?, Text.isDigit c = false) :
    scan (e.text ++ rest) = (some e, rest) := by
  obtain ⟨htake, hdrop⟩ := Text.takeWhile_append_dropWhile_append (List.forall_mem_nil _) hrest
  rw [List.nil_append] at htake hdrop
  rw [scan_text_append_digits h, htake, hdrop, List.append_nil]

theorem scan_eq_none {s : Text} (h : ∀ c ∈ s.head?, c ≠ 'e' ∧ c ≠ 'E') : scan s = (none, s) := by
  cases s with
  | nil => rfl
  | cons c s =>
    obtain ⟨hsmall, hlarge⟩ := h c rfl
    rw [scan, if_neg (by simp [hsmall, hlarge])]

theorem proper_of_scan {s rest : Text} {e : Exponent} (h : scan s = (some e, rest)) : e.Proper := by
  unfold scan at h
  split at h
  · cases h
  · next mark r =>
    split at h
    · next hmark =>
      dsimp only at h
      split at h
      · cases h
      · next hne =>
        cases h
        exact ⟨hmark, Text.isDigits_takeWhile _, by simpa using hne⟩
    · cases h

end Exponent

/-! ## Numerals -/

namespace Numeral

/-- Digits before or after the point, and a proper exponent if there is one. -/
structure Proper (n : Numeral) : Prop where
  whole : Text.IsDigits n.whole
  fraction : ∀ f ∈ n.fraction, Text.IsDigits f
  ne_nil : n.whole ≠ [] ∨ ∃ f ∈ n.fraction, f ≠ []
  exponent : ∀ e ∈ n.exponent, e.Proper

theorem decimal_whole (digits : Text) :
    decimal ⟨digits, none, none⟩ = ⟨Text.digitsValue digits, 0⟩ := by
  simp [decimal]

/-- What follows a numeral and cannot continue it. -/
def Ends (rest : Text) : Prop :=
  ∀ c ∈ rest.head?, Text.isDigit c = false ∧ c ≠ '.' ∧ c ≠ 'e' ∧ c ≠ 'E'

theorem ends_nil : Ends [] := by
  intro c hc
  cases hc

/-- The exponent that a numeral may have is read back. -/
theorem scan_exponent {exponent : Option Exponent} (h : ∀ e ∈ exponent, e.Proper) {rest : Text}
    (hrest : Ends rest) :
    Exponent.scan ((exponent.map Exponent.text).getD [] ++ rest) = (exponent, rest) := by
  cases exponent with
  | some e => exact Exponent.scan_text_append (h e rfl) fun c hc => (hrest c hc).1
  | none => exact Exponent.scan_eq_none fun c hc => (hrest c hc).2.2

/-- An exponent, or what follows a numeral, begins with neither a digit nor a point. -/
theorem head?_exponent {exponent : Option Exponent} (h : ∀ e ∈ exponent, e.Proper) {rest : Text}
    (hrest : Ends rest) :
    ∀ c ∈ ((exponent.map Exponent.text).getD [] ++ rest).head?, Text.isDigit c = false ∧
      c ≠ '.' := by
  cases exponent with
  | none => exact fun c hc => ⟨(hrest c hc).1, (hrest c hc).2.1⟩
  | some e =>
    rintro c ⟨⟩
    exact (h e rfl).mark_ne

theorem scan?_fraction_append {whole fraction : Text} (hwhole : whole.IsDigits)
    (hfraction : fraction.IsDigits) (hne : whole ≠ [] ∨ fraction ≠ []) (rest : Text) :
    scan? (whole ++ '.' :: (fraction ++ rest)) =
      some (⟨whole, some (fraction ++ rest.takeWhile Text.isDigit),
        (Exponent.scan (rest.dropWhile Text.isDigit)).1⟩,
        (Exponent.scan (rest.dropWhile Text.isDigit)).2) := by
  have hpoint : ∀ c ∈ ('.' :: (fraction ++ rest)).head?, Text.isDigit c = false := by
    rintro c ⟨⟩
    decide
  obtain ⟨htake, hdrop⟩ := Text.takeWhile_append_dropWhile_append hwhole hpoint
  have htake' : (fraction ++ rest).takeWhile Text.isDigit =
      fraction ++ rest.takeWhile Text.isDigit :=
    List.takeWhile_append_of_pos hfraction
  have hdrop' : (fraction ++ rest).dropWhile Text.isDigit = rest.dropWhile Text.isDigit :=
    List.dropWhile_append_of_pos hfraction
  have hempty : (whole.isEmpty && (fraction ++ rest.takeWhile Text.isDigit).isEmpty) = false := by
    rcases hne with hne | hne <;> simp [hne]
  simp only [scan?, htake, hdrop, htake', hdrop', hempty]
  rfl

theorem scan?_whole_append {whole rest : Text} (hwhole : whole.IsDigits) (hne : whole ≠ [])
    (hrest : ∀ c ∈ rest.head?, Text.isDigit c = false ∧ c ≠ '.') :
    scan? (whole ++ rest) =
      some (⟨whole, none, (Exponent.scan rest).1⟩, (Exponent.scan rest).2) := by
  obtain ⟨htake, hdrop⟩ := Text.takeWhile_append_dropWhile_append hwhole fun c hc => (hrest c hc).1
  unfold scan?
  rw [htake, hdrop]
  split
  · next r => exact absurd rfl (hrest '.' rfl).2
  · simp [hne]

/-- A proper numeral is read back, up to what cannot continue it. -/
theorem scan?_text_append {n : Numeral} (h : n.Proper) {rest : Text} (hrest : Ends rest) :
    scan? (n.text ++ rest) = some (n, rest) := by
  obtain ⟨whole, fraction, exponent⟩ := n
  have hscan := scan_exponent h.exponent hrest
  have hhead := head?_exponent h.exponent hrest
  simp only at hscan hhead
  cases fraction with
  | some fraction =>
    have hne : whole ≠ [] ∨ fraction ≠ [] := by simpa using h.ne_nil
    obtain ⟨htake, hdrop⟩ :=
      Text.takeWhile_append_dropWhile_append (List.forall_mem_nil _) fun c hc => (hhead c hc).1
    rw [List.nil_append] at htake hdrop
    simp only [text, Option.map_some, Option.getD_some, List.append_assoc, List.cons_append]
    rw [scan?_fraction_append h.whole (h.fraction fraction rfl) hne, htake, hdrop, hscan,
      List.append_nil]
  | none =>
    have hne : whole ≠ [] := by simpa using h.ne_nil
    simp only [text, Option.map_none, Option.getD_none, List.append_nil, List.append_assoc]
    rw [scan?_whole_append h.whole hne hhead, hscan]

theorem exists_scan?_digits {whole : Text} (h : whole.IsDigits) (hne : whole ≠ []) (rest : Text) :
    ∃ m r, scan? (whole ++ rest) = some (m, r) ∧ whole.length ≤ m.text.length := by
  have htake : (whole ++ rest).takeWhile Text.isDigit = whole ++ rest.takeWhile Text.isDigit :=
    List.takeWhile_append_of_pos h
  have hempty : (whole ++ rest.takeWhile Text.isDigit).isEmpty = false := by simp [hne]
  unfold scan?
  dsimp only
  rw [htake, hempty]
  split <;> exact ⟨_, _, rfl, by simp [text]⟩

/-- The numeral that is read is the longest: no proper numeral that the text begins with has a
longer text. -/
theorem exists_scan?_text_append {n : Numeral} (h : n.Proper) (rest : Text) :
    ∃ m r, scan? (n.text ++ rest) = some (m, r) ∧ n.text.length ≤ m.text.length := by
  obtain ⟨whole, fraction, exponent⟩ := n
  cases exponent with
  | none =>
    cases fraction with
    | none =>
      have hne : whole ≠ [] := by simpa using h.ne_nil
      simpa [text] using exists_scan?_digits h.whole hne rest
    | some fraction =>
      have hne : whole ≠ [] ∨ fraction ≠ [] := by simpa using h.ne_nil
      have hscan := scan?_fraction_append h.whole (h.fraction fraction rfl) hne rest
      exact ⟨_, _, by simpa [text] using hscan, by simp [text]⟩
  | some e =>
    -- The letter of the exponent ends the digits before it, so only the digits after it can be
    -- more.
    have he : e.Proper := h.exponent e rfl
    have hhead : ∀ c ∈ (e.text ++ rest).head?, Text.isDigit c = false ∧ c ≠ '.' := by
      rintro c ⟨⟩
      exact he.mark_ne
    have hscan := Exponent.scan_text_append_digits he rest
    cases fraction with
    | none =>
      have hne : whole ≠ [] := by simpa using h.ne_nil
      have hread := scan?_whole_append h.whole hne hhead
      rw [hscan] at hread
      exact ⟨_, _, by simpa [text] using hread, by simp [text, Exponent.text]⟩
    | some fraction =>
      have hne : whole ≠ [] ∨ fraction ≠ [] := by simpa using h.ne_nil
      have hread := scan?_fraction_append h.whole (h.fraction fraction rfl) hne (e.text ++ rest)
      obtain ⟨htake, hdrop⟩ :=
        Text.takeWhile_append_dropWhile_append (List.forall_mem_nil _) fun c hc => (hhead c hc).1
      rw [List.nil_append] at htake hdrop
      rw [htake, hdrop, hscan, List.append_nil] at hread
      exact ⟨_, _, by simpa [text] using hread, by simp [text, Exponent.text]⟩

theorem proper_of_scan? {s rest : Text} {n : Numeral} (h : scan? s = some (n, rest)) :
    n.Proper := by
  have hexponent : ∀ r, ∀ e ∈ (Exponent.scan r).1, e.Proper :=
    fun r e he => Exponent.proper_of_scan (Prod.ext he rfl)
  unfold scan? at h
  split at h
  · next r hr =>
    dsimp only at h
    split at h
    · cases h
    · next hne =>
      cases h
      refine ⟨Text.isDigits_takeWhile _, ?_, ?_, hexponent _⟩
      · rintro f ⟨⟩
        exact Text.isDigits_takeWhile _
      · rw [Bool.and_eq_true, not_and_or] at hne
        simpa using hne
  · next r hr =>
    dsimp only at h
    split at h
    · cases h
    · next hne =>
      cases h
      exact ⟨Text.isDigits_takeWhile _, by simp, .inl (by simpa using hne), hexponent _⟩

/-- A proper numeral is told by its text. -/
theorem eq_of_text {n m : Numeral} (hn : n.Proper) (hm : m.Proper) (h : n.text = m.text) :
    n = m := by
  have hread := scan?_text_append hn ends_nil
  rw [h, scan?_text_append hm ends_nil] at hread
  cases hread
  rfl

/-- What follows a numeral may be cut off anywhere. -/
theorem scan?_of_append {s more r : Text} {n : Numeral}
    (h : scan? (s ++ more) = some (n, r ++ more)) :
    scan? s = some (n, r) := by
  have hn := proper_of_scan? h
  have hs : s = n.text ++ r := by
    have heq := (eq_append_of_scan? h).1
    rw [← List.append_assoc] at heq
    exact List.append_cancel_right heq
  obtain ⟨m, r', hm, hle⟩ := exists_scan?_text_append hn r
  rw [← hs] at hm
  have hmproper := proper_of_scan? hm
  obtain ⟨hs', -⟩ := eq_append_of_scan? hm
  -- The numeral that is read without the rest is one that the whole text begins with, so it is no
  -- longer.
  obtain ⟨k, r'', hk, hle'⟩ := exists_scan?_text_append hmproper (r' ++ more)
  rw [← List.append_assoc, ← hs', h] at hk
  cases hk
  obtain ⟨htext, rfl⟩ := List.append_inj (hs.symm.trans hs') (Nat.le_antisymm hle hle')
  rw [hm, eq_of_text hn hmproper htext]

/-- A proper numeral begins with a digit or with the point. -/
theorem exists_text_eq_cons {n : Numeral} (h : n.Proper) :
    ∃ c s, n.text = c :: s ∧ (Text.isDigit c = true ∨ c = '.') := by
  obtain ⟨whole, fraction, exponent⟩ := n
  cases whole with
  | cons c whole => exact ⟨c, _, rfl, .inl (h.whole c List.mem_cons_self)⟩
  | nil =>
    obtain ⟨f, hf, -⟩ := h.ne_nil.resolve_left (by simp)
    cases hf
    exact ⟨'.', _, rfl, .inr rfl⟩

end Numeral

/-! ## Written numbers -/

namespace Numeric

/-- A proper numeral or the word for infinity, with an optional sign. -/
def Proper (n : Numeric) : Prop := ∀ m, n.amount = .numeral m → m.Proper

theorem scan?_infinity (sign : Option Sign) (rest : Text) :
    scan? (Sign.optionText sign ++ (infinityWord ++ rest)) = some (⟨sign, .infinity⟩, rest) := by
  have hsign : Sign.scan (Sign.optionText sign ++ (infinityWord ++ rest)) =
      (sign, infinityWord ++ rest) :=
    Sign.scan_optionText sign (by decide) (by decide) _
  simp only [scan?, hsign, Text.after?_append]

/-- A proper numeral begins neither as a sign nor as the word for infinity does, so it is left to
the scan for numerals. -/
theorem scan?_numeral (sign : Option Sign) {m k : Numeral} (h : m.Proper) {rest r : Text}
    (hscan : Numeral.scan? (m.text ++ rest) = some (k, r)) :
    scan? (Sign.optionText sign ++ (m.text ++ rest)) = some (⟨sign, .numeral k⟩, r) := by
  obtain ⟨c, s, hcons, hc⟩ := m.exists_text_eq_cons h
  have hplus : c ≠ '+' := by
    rintro rfl
    revert hc
    decide
  have hminus : c ≠ '-' := by
    rintro rfl
    revert hc
    decide
  have hword : c ≠ 'I' := by
    rintro rfl
    revert hc
    decide
  have hsign : Sign.scan (Sign.optionText sign ++ (m.text ++ rest)) = (sign, m.text ++ rest) := by
    rw [hcons]
    exact Sign.scan_optionText sign hplus hminus _
  have hafter : Text.after? infinityWord (m.text ++ rest) = none := by
    rw [hcons]
    exact if_neg (Ne.symm hword)
  simp only [scan?, hsign, hafter, hscan]
  rfl

theorem scan?_text_append {n : Numeric} (h : n.Proper) {rest : Text} (hrest : Numeral.Ends rest) :
    scan? (n.text ++ rest) = some (n, rest) := by
  obtain ⟨sign, amount⟩ := n
  rw [text, List.append_assoc]
  cases amount with
  | infinity => exact scan?_infinity sign rest
  | numeral m => exact scan?_numeral sign (h m rfl) (Numeral.scan?_text_append (h m rfl) hrest)

/-- The number that is read is the longest: no proper number that the text begins with has a longer
text. -/
theorem exists_scan?_text_append {n : Numeric} (h : n.Proper) (rest : Text) :
    ∃ m r, scan? (n.text ++ rest) = some (m, r) ∧ n.text.length ≤ m.text.length := by
  obtain ⟨sign, amount⟩ := n
  cases amount with
  | infinity =>
    refine ⟨_, rest, ?_, Nat.le_refl _⟩
    rw [text, List.append_assoc]
    exact scan?_infinity sign rest
  | numeral m =>
    obtain ⟨k, r, hscan, hle⟩ := Numeral.exists_scan?_text_append (h m rfl) rest
    refine ⟨⟨sign, .numeral k⟩, r, ?_, by simpa [text] using hle⟩
    rw [text, List.append_assoc]
    exact scan?_numeral sign (h m rfl) hscan

theorem eq_append_of_scan? {s rest : Text} {n : Numeric} (h : scan? s = some (n, rest)) :
    s = n.text ++ rest ∧ n.Proper := by
  have hsign := Sign.optionText_append_scan s
  unfold scan? at h
  dsimp only at h
  split at h
  · next tail ha =>
    cases h
    refine ⟨?_, fun m hm => by cases hm⟩
    rw [text, List.append_assoc, ← Text.eq_append_of_after? ha, hsign]
  · rw [Option.map_eq_some_iff] at h
    obtain ⟨⟨m, tail⟩, hm, h⟩ := h
    cases h
    refine ⟨?_, ?_⟩
    · rw [text, List.append_assoc, ← (Numeral.eq_append_of_scan? hm).1, hsign]
    · rintro _ ⟨⟩
      exact Numeral.proper_of_scan? hm

/-- A text is a written number if and only if it is the text of a proper one. -/
theorem ofText?_eq_some_iff {s : Text} {n : Numeric} :
    ofText? s = some n ↔ n.Proper ∧ n.text = s := by
  constructor
  · intro h
    unfold ofText? at h
    split at h
    · next m hm =>
      cases h
      obtain ⟨hs, hproper⟩ := eq_append_of_scan? hm
      exact ⟨hproper, by rw [hs, List.append_nil]⟩
    · cases h
  · rintro ⟨hproper, rfl⟩
    have hscan := scan?_text_append hproper Numeral.ends_nil
    rw [List.append_nil] at hscan
    rw [ofText?, hscan]

end Numeric

end LineScript
