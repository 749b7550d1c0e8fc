import LineScript.Proofs.Number.Reformat
import LineScript.Text.Quoted

/-!
# Texts on one line

A text is on one line if it has no line feed. Numbers are written so (`Number.oneLine_text`), and so
are quoted texts, whatever they quote (`Text.oneLine_quote`).
-/

namespace LineScript

namespace Text

/-- The text has no line feed. -/
def OneLine (s : Text) : Prop := '\n' ∉ s

instance (s : Text) : Decidable s.OneLine := inferInstanceAs (Decidable ('\n' ∉ s))

namespace OneLine

variable {s t : Text}

theorem nil : OneLine [] := by simp [OneLine]

theorem mono (h : s.OneLine) (hsub : t ⊆ s) : t.OneLine := fun hmem => h (hsub hmem)

theorem append (hs : s.OneLine) (ht : t.OneLine) : OneLine (s ++ t) := by
  rw [OneLine, List.mem_append, not_or]
  exact ⟨hs, ht⟩

theorem cons {c : Char} (hc : c ≠ '\n') (hs : s.OneLine) : OneLine (c :: s) := by
  rw [OneLine, List.mem_cons, not_or]
  exact ⟨hc.symm, hs⟩

theorem replicate (n : Nat) {c : Char} (hc : c ≠ '\n') : OneLine (List.replicate n c) :=
  fun hmem => hc (List.eq_of_mem_replicate hmem).symm

theorem flatMap {f : Char → Text} (h : ∀ c ∈ s, (f c).OneLine) : OneLine (s.flatMap f) := by
  intro hmem
  obtain ⟨c, hc, hn⟩ := List.mem_flatMap.1 hmem
  exact h c hc hn

theorem intercalate {texts : List Text} (hs : s.OneLine) (h : ∀ t ∈ texts, t.OneLine) :
    OneLine (s.intercalate texts) := by
  induction texts with
  | nil => exact nil
  | cons first texts ih =>
    rw [List.forall_mem_cons] at h
    cases texts with
    | nil => simpa using h.1
    | cons second texts =>
      rw [List.intercalate_cons_cons]
      exact (h.1.append hs).append (ih h.2)

end OneLine

/-! ## Numbers -/

theorem oneLine_ofNat (n : Nat) : (ofNat n).OneLine :=
  fun hmem => absurd (Nat.isDigit_of_mem_toDigits (by decide) (by decide) hmem) (by decide)

theorem oneLine_ofInt (n : Int) : (ofInt n).OneLine := by
  unfold ofInt
  split
  · exact (oneLine_ofNat _).cons (by decide)
  · exact oneLine_ofNat _

end Text

namespace Layout

open Text

variable (f : Layout)

theorem oneLine_positional {digits : Text} (h : digits.OneLine) (exponent : Int) :
    (f.positional digits exponent).OneLine := by
  unfold positional
  split
  · refine (h.append (.replicate _ (by decide))).append ?_
    split
    · decide
    · exact .nil
  · dsimp only
    split
    · exact (h.mono (List.take_subset _ _)).append
        ((h.mono (List.drop_subset _ _)).cons (by decide))
    · exact (((OneLine.replicate _ (by decide)).append h).cons (by decide)).cons (by decide)

theorem oneLine_scientific {digits : Text} (h : digits.OneLine) (first : Int) :
    (f.scientific digits first).OneLine := by
  unfold scientific
  dsimp only
  refine (((h.mono (List.take_subset _ _)).append ?_).append ?_).append (oneLine_ofNat _)
  · split
    · exact .nil
    · exact (h.mono (List.drop_subset _ _)).cons (by decide)
  · refine ((OneLine.replicate _ (by decide)).cons ?_).cons (by decide)
    split <;> decide

theorem oneLine_decimal (d : Decimal) : (f.decimal d).OneLine := by
  unfold decimal
  dsimp only
  split
  · exact f.oneLine_positional (oneLine_ofNat _) _
  · exact f.oneLine_scientific (oneLine_ofNat _) _

/-- A double is on one line in every format with such texts for what has no digits. -/
theorem oneLine_double (hnan : f.nan.OneLine) (hinfinity : f.infinity.OneLine) (d : Double) :
    (f.double d).OneLine := by
  cases d with
  | nan => exact hnan
  | infinite negative =>
    cases negative with
    | true => exact hinfinity.cons (by decide)
    | false => exact hinfinity
  | finite negative m =>
    unfold double
    dsimp only
    split
    · split
      · exact (f.oneLine_decimal _).cons (by decide)
      · exact f.oneLine_decimal _
    · split
      · exact (f.oneLine_decimal _).cons (by decide)
      · exact f.oneLine_decimal _

end Layout

theorem Number.oneLine_text (n : Number) : n.text.OneLine := by
  cases n with
  | int n => exact Text.oneLine_ofInt n
  | real d =>
    by_cases h : ∃ n, d.whole? = some n ∧ isSafe n = true
    · obtain ⟨n, hn, hsafe⟩ := h
      rw [text_of_isSafe hn hsafe]
      exact Text.oneLine_ofInt n
    · rw [text_of_not_isSafe fun n hn => Bool.eq_false_iff.2 fun hsafe => h ⟨n, hn, hsafe⟩]
      exact layout.oneLine_double (by decide) (by decide) d

/-! ## Quoted texts -/

namespace Text

theorem oneLine_hex (width n : Nat) : (hex width n).OneLine := by
  intro hmem
  obtain ⟨i, -, hi⟩ := List.mem_map.1 hmem
  have hdigits : ∀ d < 16, Nat.digitChar d ≠ '\n' := by decide
  exact hdigits _ (Nat.mod_lt _ (by decide)) hi

theorem oneLine_escape {mark : Char} (hmark : mark ≠ '\n') (c : Char) :
    (escape mark c).OneLine := by
  unfold escape
  split
  · next hc =>
    have hne : c ≠ '\n' := by
      rcases hc with rfl | rfl
      · exact hmark
      · decide
    exact (OneLine.nil.cons hne).cons (by decide)
  · split
    · decide
    · split
      · decide
      · next hne =>
        split
        · decide
        · split
          · exact OneLine.nil.cons hne
          · split
            · exact ((oneLine_hex _ _).cons (by decide)).cons (by decide)
            · split <;> exact ((oneLine_hex _ _).cons (by decide)).cons (by decide)

theorem quoteMark_ne (s : Text) : quoteMark s ≠ '\n' := by
  unfold quoteMark
  split <;> decide

/-- A line feed in a quoted text is escaped. -/
theorem oneLine_quote (s : Text) : (quote s).OneLine := by
  have hmark := quoteMark_ne s
  exact ((OneLine.flatMap fun c _ => oneLine_escape hmark c).cons hmark).append
    (OneLine.nil.cons hmark)

end Text

end LineScript
