import LineScript.Expression.Token
import LineScript.Proofs.Number.Numeral

/-!
# Lexemes and their texts

A lexeme is proper if it has the shape of its kind: a numeral is proper, a quoted text does not hold
its mark, a name holds none of the marks around it. Reading undoes writing, with two exceptions: a
numeral goes on as long as it can, and a `/` before a name, a `/` and an index is the beginning of a
reference. So a text begins with a lexeme if and only if it is written as a proper one before what
does not continue it (`Lexeme.scan?_eq_some_iff`), and with none if and only if it begins with the
text of no proper one (`Lexeme.scan?_eq_none_iff`).
-/

namespace LineScript

/-! ## References -/

namespace Reference

/-- A name without the marks around it, and digits as an index. -/
def Proper : Reference → Prop
  | .value name => name ≠ [] ∧ '[' ∉ name ∧ ']' ∉ name
  | .item name index => name ≠ [] ∧ '/' ∉ name ∧ index ≠ [] ∧ Text.IsDigits index

instance : DecidablePred Proper
  | .value name => inferInstanceAs (Decidable (name ≠ [] ∧ '[' ∉ name ∧ ']' ∉ name))
  | .item name index =>
    inferInstanceAs (Decidable (name ≠ [] ∧ '/' ∉ name ∧ index ≠ [] ∧ Text.IsDigits index))

variable {r : Reference} {s rest : Text}

theorem scan?_eq_none {c : Char} (hslash : c ≠ '/') (hbracket : c ≠ '[') (s : Text) :
    scan? (c :: s) = none := by
  rw [scan?, Text.bracketed?_eq_none hslash, Text.bracketed?_eq_none hbracket]
  rfl

/-- A proper reference is read back, whatever follows it. -/
theorem scan?_text_append (h : r.Proper) (rest : Text) :
    scan? (r.text ++ rest) = some (r, rest) := by
  cases r with
  | value name =>
    obtain ⟨hne, hopening, hclosing⟩ := h
    have hmarks : ∀ c ∈ name, c ≠ '[' ∧ c ≠ ']' := fun c hc =>
      ⟨ne_of_mem_of_not_mem hc hopening, ne_of_mem_of_not_mem hc hclosing⟩
    have htext : (value name).text ++ rest = '[' :: name ++ ']' :: rest := by simp [text]
    have hslash : Text.bracketed? '/' '/' ('[' :: name ++ ']' :: rest) = none :=
      Text.bracketed?_eq_none (by decide) _
    rw [htext, scan?, hslash, Text.bracketed?_append hne hmarks]
    rfl
  | item name index =>
    obtain ⟨hne, hslash, hdigits, hindex⟩ := h
    have hmarks : ∀ c ∈ name, c ≠ '/' ∧ c ≠ '/' := fun c hc =>
      ⟨ne_of_mem_of_not_mem hc hslash, ne_of_mem_of_not_mem hc hslash⟩
    have htext : (item name index).text ++ rest =
        '/' :: name ++ '/' :: ('<' :: (index ++ '>' :: rest)) := by
      simp [text]
    have hclosing : ∀ c ∈ ('>' :: rest).head?, Text.isDigit c = false := by
      rintro c ⟨⟩
      decide
    obtain ⟨htake, hdrop⟩ := Text.takeWhile_append_dropWhile_append hindex hclosing
    rw [htext, scan?, Text.bracketed?_append hne hmarks]
    simp [htake, hdrop, hdigits]

theorem proper_of_scan? (h : scan? s = some (r, rest)) : r.Proper := by
  unfold scan? at h
  split at h
  · next name t hname =>
    split at h
    · dsimp only at h
      split at h
      · cases h
      · next hdigits =>
        cases h
        have hmarks := Text.ne_of_bracketed? hname
        exact ⟨(Text.eq_of_bracketed? hname).2,
          fun hmem => (hmarks _ hmem).1 rfl, by simpa using hdigits, Text.isDigits_takeWhile _⟩
    · cases h
  · rw [Option.map_eq_some_iff] at h
    obtain ⟨⟨name, tail⟩, hname, h⟩ := h
    cases h
    have hmarks := Text.ne_of_bracketed? hname
    exact ⟨(Text.eq_of_bracketed? hname).2, fun hmem => (hmarks _ hmem).1 rfl,
      fun hmem => (hmarks _ hmem).2 rfl⟩

theorem scan?_eq_some_iff : scan? s = some (r, rest) ↔ r.Proper ∧ s = r.text ++ rest := by
  constructor
  · exact fun h => ⟨proper_of_scan? h, (eq_append_of_scan? h).1⟩
  · rintro ⟨hproper, rfl⟩
    exact scan?_text_append hproper rest

theorem scan?_eq_none_iff : scan? s = none ↔ ∀ r : Reference, r.Proper → ¬r.text <+: s := by
  constructor
  · rintro h r hproper ⟨rest, rfl⟩
    rw [scan?_text_append hproper] at h
    cases h
  · intro h
    rw [Option.eq_none_iff_forall_ne_some]
    rintro ⟨r, rest⟩ hread
    obtain ⟨hproper, rfl⟩ := scan?_eq_some_iff.1 hread
    exact h r hproper (List.prefix_append _ _)

/-- A text is a reference if and only if it is the text of a proper one. -/
theorem ofText?_eq_some_iff : ofText? s = some r ↔ r.Proper ∧ r.text = s := by
  constructor
  · intro h
    unfold ofText? at h
    split at h
    · next q hq =>
      cases h
      obtain ⟨hproper, hs⟩ := scan?_eq_some_iff.1 hq
      exact ⟨hproper, by rw [hs, List.append_nil]⟩
    · cases h
  · rintro ⟨hproper, rfl⟩
    have hread := scan?_text_append hproper []
    rw [List.append_nil] at hread
    rw [ofText?, hread]

end Reference

/-! ## Lexemes -/

theorem Numeral.scan?_eq_none {c : Char} (hdigit : Text.isDigit c = false) (hpoint : c ≠ '.')
    (s : Text) :
    scan? (c :: s) = none := by
  have hneg : ¬Text.isDigit c = true := by simp [hdigit]
  rw [scan?, List.takeWhile_cons_of_neg hneg, List.dropWhile_cons_of_neg hneg]
  simp [hpoint]

theorem Word.scan?_text_append (w : Word) (rest : Text) :
    scan? (w.text ++ rest) = some (w, rest) := by
  cases w <;> rfl

namespace Lexeme

/-- The shape of its kind: a proper numeral or reference, or a quoted text without its mark. -/
def Proper : Lexeme → Prop
  | .number n => n.Proper
  | .quoted mark content => (mark = '"' ∨ mark = '\x27') ∧ mark ∉ content
  | .reference r => r.Proper
  | .word _ | .symbol _ => True

/-- The lexeme is not continued by `rest`: a numeral is read no further, and a `/` does not begin a
reference. -/
def EndsBefore (rest : Text) : Lexeme → Prop
  | .number n => Numeral.scan? (n.text ++ rest) = some (n, rest)
  | .symbol .over => ∀ r : Reference, r.Proper → ¬r.text <+: '/' :: rest
  | _ => True

variable {l : Lexeme} {s rest : Text}

theorem scanQuoted?_text_append {mark : Char} {content : Text} (h : (quoted mark content).Proper)
    (rest : Text) :
    scanQuoted? ((quoted mark content).text ++ rest) = some (.quoted mark content, rest) := by
  obtain ⟨hmark, hcontent⟩ := h
  have hkept : ∀ c ∈ content, (c != mark) = true :=
    fun c hc => by simpa using ne_of_mem_of_not_mem hc hcontent
  have hend : ∀ c ∈ (mark :: rest).head?, (c != mark) = false := by
    rintro c ⟨⟩
    simp
  obtain ⟨htake, hdrop⟩ := Text.takeWhile_append_dropWhile_append hkept hend
  have htext : (quoted mark content).text ++ rest = mark :: (content ++ mark :: rest) := by
    simp [text]
  rw [htext, scanQuoted?, if_pos hmark, htake, hdrop]

theorem proper_of_scanQuoted? (h : scanQuoted? s = some (l, rest)) :
    l.Proper ∧ l.EndsBefore rest := by
  unfold scanQuoted? at h
  split at h
  · cases h
  · split at h
    · next hmark =>
      split at h
      · cases h
        refine ⟨⟨hmark, fun hmem => ?_⟩, trivial⟩
        simpa using List.mem_takeWhile_imp hmem
      · cases h
    · cases h

theorem scanQuoted?_eq_none {c : Char} (hdouble : c ≠ '"') (hsingle : c ≠ '\x27') (s : Text) :
    scanQuoted? (c :: s) = none := by
  rw [scanQuoted?, if_neg (not_or.2 ⟨hdouble, hsingle⟩)]

theorem scanSymbol?_text_append (x : Symbol) (rest : Text) :
    scanSymbol? ((symbol x).text ++ rest) = some (.symbol x, rest) := by
  cases x <;> rfl

theorem exists_of_scanSymbol? (h : scanSymbol? s = some (l, rest)) : ∃ x, l = .symbol x := by
  unfold scanSymbol? at h
  split at h
  · cases h
  · obtain ⟨x, -, heq⟩ := Option.map_eq_some_iff.1 h
    cases heq
    exact ⟨x, rfl⟩

/-- A proper lexeme is read back, up to what does not continue it. -/
theorem scan?_text_append (h : l.Proper) (hends : l.EndsBefore rest) :
    scan? (l.text ++ rest) = some (l, rest) := by
  cases l with
  | number n =>
    have hread : Numeral.scan? ((number n).text ++ rest) = some (n, rest) := hends
    rw [scan?, hread]
    rfl
  | quoted mark content =>
    have hnumeral : Numeral.scan? ((quoted mark content).text ++ rest) = none := by
      rcases h.1 with rfl | rfl <;> exact Numeral.scan?_eq_none (by decide) (by decide) _
    rw [scan?, hnumeral, scanQuoted?_text_append h]
    rfl
  | reference r =>
    have hfirst : Numeral.scan? (r.text ++ rest) = none ∧ scanQuoted? (r.text ++ rest) = none := by
      cases r <;>
      exact ⟨Numeral.scan?_eq_none (by decide) (by decide) _,
        scanQuoted?_eq_none (by decide) (by decide) _⟩
    rw [text, scan?_eq, hfirst.1, hfirst.2, Reference.scan?_text_append h]
    rfl
  | word w => cases w <;> rfl
  | symbol x =>
    cases x with
    | plus | minus | times | modulo | opening | closing => rfl
    | _ =>
      have hreference : Reference.scan? ('/' :: rest) = none := Reference.scan?_eq_none_iff.2 hends
      show scan? ('/' :: rest) = _
      rw [scan?, Numeral.scan?_eq_none (by decide) (by decide),
        scanQuoted?_eq_none (by decide) (by decide), hreference]
      rfl

/-- What is read is proper, and nothing that follows continues it. -/
theorem proper_of_scan? (h : scan? s = some (l, rest)) : l.Proper ∧ l.EndsBefore rest := by
  have hs := (eq_append_of_scan? h).1
  simp only [scan?_eq, Option.orElse_eq_orElse, Option.orElse_eq_or, Option.or_eq_some_iff,
    Option.map_eq_some_iff, Option.map_eq_none_iff] at h
  rcases h with ⟨⟨n, r⟩, hn, h⟩ |
    ⟨-, h | ⟨-, ⟨⟨q, r⟩, hq, h⟩ | ⟨hreference, ⟨⟨w, r⟩, hw, h⟩ | ⟨-, h⟩⟩⟩⟩
  · cases h
    exact ⟨Numeral.proper_of_scan? hn, by rwa [hs] at hn⟩
  · exact proper_of_scanQuoted? h
  · cases h
    exact ⟨Reference.proper_of_scan? hq, trivial⟩
  · cases h
    exact ⟨trivial, trivial⟩
  · obtain ⟨x, rfl⟩ := exists_of_scanSymbol? h
    refine ⟨trivial, ?_⟩
    cases x with
    | plus | minus | times | modulo | opening | closing => trivial
    | _ =>
      rw [hs] at hreference
      exact Reference.scan?_eq_none_iff.1 hreference

theorem scan?_eq_some_iff :
    scan? s = some (l, rest) ↔ l.Proper ∧ l.EndsBefore rest ∧ s = l.text ++ rest := by
  constructor
  · intro h
    obtain ⟨hproper, hends⟩ := proper_of_scan? h
    exact ⟨hproper, hends, (eq_append_of_scan? h).1⟩
  · rintro ⟨hproper, hends, rfl⟩
    exact scan?_text_append hproper hends

/-- A text begins with no lexeme if and only if it begins with the text of no proper one. -/
theorem scan?_eq_none_iff : scan? s = none ↔ ∀ l : Lexeme, l.Proper → ¬l.text <+: s := by
  constructor
  · rintro h l hproper ⟨rest, rfl⟩
    simp only [scan?_eq, Option.orElse_eq_orElse, Option.orElse_eq_or, Option.or_eq_none_iff,
      Option.map_eq_none_iff] at h
    obtain ⟨hnumeral, hquoted, hreference, hword, hsymbol⟩ := h
    cases l with
    | number n =>
      obtain ⟨m, r, hread, -⟩ := Numeral.exists_scan?_text_append hproper rest
      exact absurd (hread.symm.trans hnumeral) (by simp)
    | quoted mark content =>
      exact absurd ((scanQuoted?_text_append hproper rest).symm.trans hquoted) (by simp)
    | reference r =>
      exact absurd ((Reference.scan?_text_append hproper rest).symm.trans hreference) (by simp)
    | word w => exact absurd ((w.scan?_text_append rest).symm.trans hword) (by simp)
    | symbol x => exact absurd ((scanSymbol?_text_append x rest).symm.trans hsymbol) (by simp)
  · intro h
    rw [Option.eq_none_iff_forall_ne_some]
    rintro ⟨l, rest⟩ hread
    obtain ⟨hproper, -, rfl⟩ := scan?_eq_some_iff.1 hread
    exact h l hproper (List.prefix_append _ _)

theorem text_ne_nil (h : l.Proper) : l.text ≠ [] := by
  cases l with
  | number n =>
    obtain ⟨c, s, hcons, -⟩ := n.exists_text_eq_cons h
    simp [text, hcons]
  | quoted mark content => exact List.cons_ne_nil _ _
  | reference r => cases r <;> exact List.cons_ne_nil _ _
  | word w => exact w.text_ne_nil
  | symbol x => exact List.cons_ne_nil _ _

/-- No lexeme begins with a blank. -/
theorem isBlank_head? (h : l.Proper) : ∀ c ∈ l.text.head?, Text.isBlank c = false := by
  cases l with
  | number n =>
    obtain ⟨c, s, hcons, hc⟩ := n.exists_text_eq_cons h
    rw [text, hcons]
    rintro d ⟨⟩
    rcases hc with hdigit | rfl
    · exact Text.isBlank_eq_false_of_isDigit hdigit
    · decide
  | quoted mark content =>
    rintro c ⟨⟩
    rcases h.1 with rfl | rfl <;> decide
  | reference r => cases r <;> (rintro c ⟨⟩; decide)
  | word w => cases w <;> (rintro c ⟨⟩; decide)
  | symbol x => cases x <;> (rintro c ⟨⟩; decide)

/-- What follows a lexeme may be cut off anywhere. -/
theorem EndsBefore.of_append {more : Text} (h : l.EndsBefore (rest ++ more)) :
    l.EndsBefore rest := by
  cases l with
  | number n =>
    have hread : Numeral.scan? ((n.text ++ rest) ++ more) = some (n, rest ++ more) := by
      rw [List.append_assoc]
      exact h
    exact Numeral.scan?_of_append hread
  | symbol x =>
    cases x with
    | plus | minus | times | modulo | opening | closing => trivial
    | _ =>
      exact fun r hproper hbegin =>
        h r hproper (hbegin.trans (List.prefix_append ('/' :: rest) more))
  | quoted | reference | word => trivial

theorem endsBefore_nil (h : l.Proper) : l.EndsBefore [] := by
  cases l with
  | number n => exact Numeral.scan?_text_append h Numeral.ends_nil
  | symbol x =>
    cases x with
    | plus | minus | times | modulo | opening | closing => trivial
    | _ => exact Reference.scan?_eq_none_iff.1 rfl
  | quoted | reference | word => trivial

end Lexeme

end LineScript
