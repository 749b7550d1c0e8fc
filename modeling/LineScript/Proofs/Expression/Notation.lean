import LineScript.Proofs.Double.Decimal
import LineScript.Proofs.Expression.Meaning
import LineScript.Proofs.Expression.Token
import LineScript.Proofs.Line.Print

/-!
# The notations of numbers

A written number is read in four ways: as a literal, as an expression, between bars and between
stars. An expression takes the sign as an operator on the number after it, all others as a part of
the number, and blanks around the number do not matter to any. `Numeric.literal_evalText`,
`Numeric.literal_evalText_bars`, `Numeric.literal_evalText_stars` and `Numeric.expression_evalText`
say what each of them gives.
-/

namespace LineScript

/-! ## Signs -/

namespace Double

theorem ofUnits_true (num den : Nat) : ofUnits true num den = (ofUnits false num den).neg := by
  unfold ofUnits
  cases Magnitude.nearest? num den <;> rfl

theorem ofDecimal_true (d : Decimal) : ofDecimal true d = (ofDecimal false d).neg := by
  rw [ofDecimal_eq, ofDecimal_eq]
  exact ofUnits_true _ _

theorem ofDecimal_ne_nan (negative : Bool) (d : Decimal) : ofDecimal negative d ≠ .nan := by
  rw [ofDecimal_eq, ofRatio, ofUnits]
  split <;> simp

theorem whole?_neg (d : Double) : d.neg.whole? = d.whole?.map (- ·) := by
  cases d with
  | nan | infinite => rfl
  | finite negative m =>
    simp only [Double.neg, whole?]
    split
    · cases negative <;> simp
    · rfl

theorem exists_of_whole? {negative : Bool} {m : Magnitude} {n : Int}
    (h : (finite negative m).whole? = some n) :
    ∃ k : Nat, m.units = k * one ∧ n = if negative then -(k : Int) else k := by
  simp only [whole?, Option.ite_none_right_eq_some, Option.some.injEq] at h
  exact ⟨m.units / one, (Nat.div_mul_cancel (Nat.dvd_of_mod_eq_zero h.1)).symm, h.2.symm⟩

theorem units?_of_whole? {d : Double} {n : Int} (h : d.whole? = some n) :
    d.units? = some (n * one) := by
  cases d with
  | nan | infinite => cases h
  | finite negative m =>
    obtain ⟨k, hunits, rfl⟩ := exists_of_whole? h
    rw [units?, signedUnits, hunits]
    cases negative <;> simp

theorem equal_self {d : Double} (h : d ≠ .nan) : d.equal d = true := by
  cases d with
  | nan => exact absurd rfl h
  | infinite negative => exact beq_self_eq_true negative
  | finite negative m => exact beq_self_eq_true (signedUnits negative m)

end Double

namespace Number

theorem isSafe_neg (n : Int) : isSafe (-n) = isSafe n := by
  rw [isSafe, isSafe, Int.natAbs_neg]

theorem ofDouble_neg (d : Double) : ofDouble d.neg = (ofDouble d).neg := by
  unfold ofDouble
  rw [Double.whole?_neg]
  cases d.whole? with
  | none => rfl
  | some n =>
    simp only [Option.map_some, isSafe_neg]
    split <;> rfl

/-- To settle a double keeps its value. -/
theorem equal_ofDouble {d : Double} (h : d ≠ .nan) : (real d).equal (ofDouble d) = true := by
  unfold ofDouble
  split
  · next n hn =>
    split
    · rw [equal, Double.units?_of_whole? hn]
      exact beq_self_eq_true _
    · exact Double.equal_self h
  · exact Double.equal_self h

end Number

namespace Numeral

/-- A sign before a numeral is an operator on it. -/
theorem toNumber_some (sign : Sign) (n : Numeral) :
    n.toNumber (some sign) = Expression.applySign sign (n.toNumber none) := by
  cases sign with
  | plus => rfl
  | minus =>
    have hneg : n.toDouble (some .minus) = (n.toDouble none).neg := Double.ofDecimal_true n.decimal
    rw [toNumber, toNumber, hneg]
    split
    · exact Number.ofDouble_neg _
    · rfl

theorem equal_toNumber (sign : Option Sign) (n : Numeral) :
    (Number.real (n.toDouble sign)).equal (n.toNumber sign) = true := by
  have hnan : n.toDouble sign ≠ .nan := Double.ofDecimal_ne_nan _ _
  unfold toNumber
  split
  · exact Number.equal_ofDouble hnan
  · exact Double.equal_self hnan

end Numeral

/-! ## Blanks around a written number -/

namespace Text

/-- What trimming takes from the end are blanks. -/
theorem exists_trimStart_eq (s : Text) :
    ∃ ending, trimStart s = trim s ++ ending ∧ ∀ c ∈ ending, isBlank c = true := by
  refine ⟨((trimStart s).reverse.takeWhile isBlank).reverse, ?_, ?_⟩
  · rw [trim, trimEnd_eq, ← List.reverse_append, List.takeWhile_append_dropWhile,
      List.reverse_reverse]
  · intro c hc
    exact List.mem_takeWhile_imp (List.mem_reverse.1 hc)

theorem enclosed?_append (mark : Char) (s : Text) :
    enclosed? mark (mark :: s ++ [mark]) = some s := by
  simp [enclosed?]

theorem enclosed?_eq_none {mark c : Char} (h : c ≠ mark) (s : Text) :
    enclosed? mark (c :: s) = none := by
  simp [enclosed?, h]

/-- A text between two marks is kept by trimming. -/
theorem trim_enclosed {mark : Char} (h : isBlank mark = false) (s : Text) :
    trim (mark :: s ++ [mark]) = mark :: s ++ [mark] :=
  trim_cons_append h s (trim_eq_self (by simpa using h) (by simpa using h)) (List.cons_ne_nil _ _)

end Text

theorem Numeral.ends_of_isBlank {rest : Text} (h : ∀ c ∈ rest, Text.isBlank c = true) :
    Ends rest := by
  intro c hc
  have hblank := h c (List.mem_of_mem_head? hc)
  refine ⟨Text.isDigit_eq_false_of_isBlank hblank, ?_, ?_, ?_⟩ <;>
  · rintro rfl
    exact absurd hblank (by decide)

theorem Sign.isBlank_of_mem {sign : Option Sign} :
    ∀ c ∈ optionText sign, Text.isBlank c = false := by
  cases sign with
  | none => simp [optionText]
  | some sign => cases sign <;> exact List.forall_mem_singleton.2 (by decide)

theorem Exponent.isBlank_of_mem {e : Exponent} (h : e.Proper) :
    ∀ c ∈ e.text, Text.isBlank c = false := by
  have hmark : Text.isBlank e.mark = false := by
    rcases h.mark with hmark | hmark <;> rw [hmark] <;> decide
  refine List.forall_mem_append.2
    ⟨List.forall_mem_cons.2 ⟨hmark, Sign.isBlank_of_mem⟩, fun c hc => ?_⟩
  exact Text.isBlank_eq_false_of_isDigit (h.digits c hc)

theorem Numeral.isBlank_of_mem {n : Numeral} (h : n.Proper) :
    ∀ c ∈ n.text, Text.isBlank c = false := by
  obtain ⟨whole, fraction, exponent⟩ := n
  refine List.forall_mem_append.2 ⟨List.forall_mem_append.2 ⟨fun c hc => ?_, ?_⟩, ?_⟩
  · exact Text.isBlank_eq_false_of_isDigit (h.whole c hc)
  · cases fraction with
    | none => simp
    | some fraction =>
      refine List.forall_mem_cons.2 ⟨by decide, fun c hc => ?_⟩
      exact Text.isBlank_eq_false_of_isDigit (h.fraction fraction rfl c hc)
  · cases exponent with
    | none => simp
    | some e => exact Exponent.isBlank_of_mem (h.exponent e rfl)

theorem Reference.ofText?_eq_none {c : Char} (hslash : c ≠ '/') (hbracket : c ≠ '[') (s : Text) :
    Reference.ofText? (c :: s) = none := by
  rw [ofText?, scan?_eq_none hslash hbracket]

namespace Numeric

variable {n : Numeric}

/-- What a written number can begin with. -/
def isFirst (c : Char) : Bool := Text.isDigit c || "+-.I".toList.contains c

theorem exists_text_eq_cons (h : n.Proper) : ∃ c s, n.text = c :: s ∧ isFirst c = true := by
  obtain ⟨sign, amount⟩ := n
  cases sign with
  | some sign => cases sign <;> exact ⟨_, _, rfl, by decide⟩
  | none =>
    cases amount with
    | infinity => exact ⟨'I', _, rfl, by decide⟩
    | numeral m =>
      obtain ⟨c, s, hcons, hc⟩ := m.exists_text_eq_cons (h m rfl)
      refine ⟨c, s, hcons, ?_⟩
      rcases hc with hdigit | rfl
      · rw [isFirst, hdigit, Bool.true_or]
      · decide

theorem text_ne_nil (h : n.Proper) : n.text ≠ [] := by
  obtain ⟨c, s, hcons, -⟩ := exists_text_eq_cons h
  rw [hcons]
  exact List.cons_ne_nil c s

/-- There are no blanks in a written number. -/
theorem isBlank_of_mem (h : n.Proper) : ∀ c ∈ n.text, Text.isBlank c = false := by
  obtain ⟨sign, amount⟩ := n
  refine List.forall_mem_append.2 ⟨Sign.isBlank_of_mem, ?_⟩
  cases amount with
  | infinity =>
    have hall : infinityWord.all (fun c => !Text.isBlank c) = true := by decide
    intro c hc
    simpa using List.all_eq_true.1 hall c hc
  | numeral m => exact Numeral.isBlank_of_mem (h m rfl)

theorem trim_text (h : n.Proper) : Text.trim n.text = n.text :=
  Text.trim_eq_self (fun c hc => isBlank_of_mem h c (List.mem_of_mem_head? hc))
    fun c hc => isBlank_of_mem h c (List.mem_of_mem_getLast? hc)

theorem ne_of_isFirst {c d : Char} (hc : isFirst c = true) (hd : isFirst d = false) : c ≠ d := by
  rintro rfl
  rw [hc] at hd
  cases hd

/-! ## Literals -/

/-- No other form of literals begins as a written number does. -/
theorem ofTrimmed_text (h : n.Proper) : Literal.ofTrimmed n.text = .numeric n := by
  obtain ⟨c, s, hcons, hc⟩ := exists_text_eq_cons h
  have hread := ofText?_eq_some_iff.2 ⟨h, rfl⟩
  have hword : ∀ word : Text, word.head? = some '_' → c :: s ≠ word := by
    rintro word hhead rfl
    exact ne_of_isFirst hc (by decide) (Option.some.inj hhead)
  rw [hcons] at hread ⊢
  rw [Literal.ofTrimmed,
    Reference.ofText?_eq_none (ne_of_isFirst hc (by decide)) (ne_of_isFirst hc (by decide))]
  dsimp only
  rw [Text.enclosed?_eq_none (ne_of_isFirst hc (by decide)),
    Text.enclosed?_eq_none (ne_of_isFirst hc (by decide)),
    Text.enclosed?_eq_none (ne_of_isFirst hc (by decide)),
      Text.enclosed?_eq_none (ne_of_isFirst hc (by decide)),
    if_neg (hword _ rfl), if_neg (hword _ rfl), if_neg (hword _ rfl), hread]
  rfl

variable {t : Text} (ns : Namespace)

theorem literal_evalText (h : n.Proper) (ht : Text.trim t = n.text) :
    Literal.evalText ns t = .ok (.number n.toNumber) := by
  rw [Literal.evalText, Literal.ofText, ht, ofTrimmed_text h]
  rfl

/-- Between bars the double of a written number is read. -/
theorem literal_evalText_bars (h : n.Proper) (ht : Text.trim t = n.text) :
    Literal.evalText ns ('|' :: t ++ ['|']) = .ok (.number (.real n.toDouble)) := by
  obtain ⟨ending, hstart, hblank⟩ := Text.exists_trimStart_eq t
  have hread : Number.readReal t = n.toDouble := by
    rw [Number.readReal, hstart, ht, scan?_text_append h (Numeral.ends_of_isBlank hblank)]
  have hform : Literal.ofText ('|' :: t ++ ['|']) = .real t := by
    rw [Literal.ofText, Text.trim_enclosed (by decide), Literal.ofTrimmed, Text.enclosed?_append,
      List.cons_append, Reference.ofText?_eq_none (by decide) (by decide)]
  rw [Literal.evalText, hform, Literal.eval, hread]

/-- Between stars the digits of an integer are read, with their sign. -/
theorem literal_evalText_stars {sign : Option Sign} {digits : Text} (h : digits.IsDigits)
    (hne : digits ≠ []) (ht : Text.trim t = Sign.optionText sign ++ digits) :
    Literal.evalText ns ('*' :: t ++ ['*']) =
      .ok (.number (Numeral.toNumber sign ⟨digits, none, none⟩)) := by
  obtain ⟨ending, hstart, hblank⟩ := Text.exists_trimStart_eq t
  have hending : ∀ c ∈ ending.head?, Text.isDigit c = false :=
    fun c hc => Text.isDigit_eq_false_of_isBlank (hblank c (List.mem_of_mem_head? hc))
  obtain ⟨htake, -⟩ := Text.takeWhile_append_dropWhile_append h hending
  have hread : Number.readInteger t = Numeral.toNumber sign ⟨digits, none, none⟩ := by
    rw [Number.readInteger, hstart, ht, List.append_assoc, Sign.scan_optionText_digits sign h hne]
    dsimp only
    rw [htake, if_neg (by simpa using hne)]
  have hform : Literal.ofText ('*' :: t ++ ['*']) = .integer t := by
    rw [Literal.ofText, Text.trim_enclosed (by decide), Literal.ofTrimmed, Text.enclosed?_append,
      List.cons_append,
      Reference.ofText?_eq_none (by decide) (by decide), Text.enclosed?_eq_none (by decide)]
  rw [Literal.evalText, hform, Literal.eval, hread]

end Numeric

/-! ## Expressions -/

theorem Lexeme.scan?_sign (sign : Sign) (s : Text) :
    scan? (sign.char :: s) = some (.symbol sign.symbol, s) := by
  cases sign <;> rfl

namespace Amount

open Grammar

def text : Amount → Text
  | .numeral m => m.text
  | .infinity => Numeric.infinityWord

/-- The operand that an amount is in an expression. -/
def atom : Amount → Atom
  | .numeral m => .number m
  | .infinity => .word .infinity

theorem scan?_text {amount : Amount} (h : ∀ m, amount = .numeral m → m.Proper) :
    Lexeme.scan? amount.text = some (amount.atom.lexeme, []) := by
  cases amount with
  | infinity => decide +kernel
  | numeral m =>
    have hread := Numeral.scan?_text_append (h m rfl) Numeral.ends_nil
    rw [List.append_nil] at hread
    rw [text, Lexeme.scan?, hread]
    rfl

end Amount

namespace Numeric

open Grammar

variable {n : Numeric}

theorem text_eq (n : Numeric) : n.text = Sign.optionText n.sign ++ n.amount.text := by
  obtain ⟨sign, amount⟩ := n
  cases amount <;> rfl

/-- A written number in an expression: an operand, under a sign if there is one. -/
def factor (n : Numeric) : Factor :=
  match n.sign with
  | none => .atom n.amount.atom 1
  | some sign => .signed sign 1 (.atom n.amount.atom 2)

theorem scan_text (h : n.Proper) : Token.scan n.text = .ok n.factor.tokens := by
  obtain ⟨sign, amount⟩ := n
  have hscan := Amount.scan?_text h
  have hblank : ∀ c ∈ amount.text.head?, Text.isBlank c = false := fun c hc =>
    isBlank_of_mem (n := ⟨none, amount⟩) h c (by rw [text_eq]; exact List.mem_of_mem_head? hc)
  rw [text_eq, Token.scan]
  cases sign with
  | none =>
    show Token.scanFrom 1 amount.text = _
    rw [Token.scanFrom_of_scan? hscan hblank, Token.scanFrom_nil]
    rfl
  | some sign =>
    have hsign : Text.isBlank sign.char = false := by cases sign <;> decide
    show Token.scanFrom 1 (sign.char :: amount.text) = _
    rw [Token.scanFrom_of_scan? (Lexeme.scan?_sign sign _) (by rintro c ⟨⟩; exact hsign)]
    show (Token.scanFrom 2 amount.text).map _ = _
    rw [Token.scanFrom_of_scan? hscan hblank, Token.scanFrom_nil]
    rfl

theorem eval_atom [Host] (ns : Namespace) (amount : Amount) :
    amount.atom.tree.eval ns = .ok (.number (toNumber ⟨none, amount⟩)) := by
  cases amount <;> rfl

/-- A sign before a written number is an operator on it. -/
theorem toNumber_some (sign : Sign) (amount : Amount) :
    toNumber ⟨some sign, amount⟩ = Expression.applySign sign (toNumber ⟨none, amount⟩) := by
  cases amount with
  | numeral m => exact m.toNumber_some sign
  | infinity => cases sign <;> rfl

theorem eval_factor [Host] (ns : Namespace) (n : Numeric) :
    n.factor.tree.eval ns = .ok (.number n.toNumber) := by
  obtain ⟨sign, amount⟩ := n
  cases sign with
  | none => exact eval_atom ns amount
  | some sign =>
    show (Expression.signed sign amount.atom.tree).eval ns = _
    rw [Expression.eval_signed (eval_atom ns amount), toNumber_some]
    rfl

/-- The double of a written number has the value of the number. -/
theorem equal_toNumber (n : Numeric) : (Number.real n.toDouble).equal n.toNumber = true := by
  obtain ⟨sign, amount⟩ := n
  cases amount with
  | numeral m => exact m.equal_toNumber sign
  | infinity => exact Double.equal_self (d := .infinite _) nofun

theorem expression_evalText [Host] (ns : Namespace) {t : Text} (h : n.Proper)
    (ht : Text.trim t = n.text) :
    Expression.evalText ns t = .ok (.number n.toNumber) := by
  have hdepth : (Sum.product (.factor n.factor)).depth ≤ Host.brackets := by
    obtain ⟨sign, amount⟩ := n
    cases sign with
    | none => exact Nat.le_of_succ_le Host.two_le_brackets
    | some sign => exact Host.two_le_brackets
  apply Expression.evalText_of_ok
  rw [Expression.evalTrimmed_tokens ns (.product (.factor n.factor)) hdepth (ht ▸ scan_text h)]
  exact eval_factor ns n

end Numeric

end LineScript
