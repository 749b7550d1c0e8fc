import LineScript.Block.Extract
import LineScript.Line.Dialect
import LineScript.Proofs.Text.Scan

/-!
# The shape of headers

A header begins with a letter, and what follows its brace is a suffix of the line. So a header whose
block is on the lines that follow ends in that brace: it opens a block and does not close one
(`opens_of_header`, `closes_of_header`).
-/

namespace LineScript.Line

open Text

theorem suffix_of_afterBrace? {s rest : Text} (h : afterBrace? s = some rest) :
    ('\x7b' :: rest) <:+ s := by
  unfold afterBrace? at h
  split at h
  · next tail ht =>
    split at h
    · cases h
    · cases h
      rw [← ht]
      exact trimStart_suffix s
  · cases h

theorem suffix_of_rightOperand? {s right rest : Text} (h : rightOperand? s = some (right, rest)) :
    ('\x7b' :: rest) <:+ s := by
  obtain ⟨r, hr, h⟩ := Option.bind_eq_some_iff.1 h
  have hrs : r <:+ s := (suffix_of_after? hr).trans (trimStart_suffix s)
  split at h
  · next tail ht =>
    obtain ⟨after, hafter, hsuffix⟩ := suffix_of_longest? h
    have htail : tail <:+ r := (List.suffix_cons _ _).trans (ht ▸ trimStart_suffix r)
    exact ((suffix_of_afterBrace? hafter).trans hsuffix).trans (htail.trans hrs)
  · cases h

theorem suffix_of_condition? {s rest : Text} {c : Condition} (h : condition? s = some (c, rest)) :
    ('\x7b' :: rest) <:+ s := by
  unfold condition? at h
  split at h
  · next tail ht =>
    obtain ⟨⟨left, right, rest'⟩, hl, heq⟩ := Option.map_eq_some_iff.1 h
    cases heq
    obtain ⟨after, hafter, hsuffix⟩ := suffix_of_shortest? hl
    have htail : tail <:+ s := (List.suffix_cons _ _).trans (ht ▸ trimStart_suffix s)
    exact ((suffix_of_rightOperand? hafter).trans hsuffix).trans htail
  · cases h

/-- After its keyword a head is a brace, or a condition and a brace. -/
theorem exists_suffix_of_head? {s rest : Text} {head : Head} (h : head? s = some (head, rest)) :
    ∃ r, r <:+ s ∧
      (head = .otherwise ∧ afterBrace? r = some rest ∨
        ∃ c, condition? r = some (c, rest) ∧
          (head = .ifEqual c ∨ head = .elseIfEqual c ∨ head = .during c)) := by
  simp only [head?, Option.orElse_eq_orElse, Option.orElse_eq_or, Option.or_eq_some_iff] at h
  rcases h with h | ⟨-, h | ⟨-, h | ⟨-, h⟩⟩⟩
  · obtain ⟨r, hr, h⟩ := Option.bind_eq_some_iff.1 h
    obtain ⟨⟨c, rest'⟩, hc, heq⟩ := Option.map_eq_some_iff.1 h
    cases heq
    exact ⟨r, suffix_of_after? hr, .inr ⟨c, hc, .inl rfl⟩⟩
  · obtain ⟨r, hr, h⟩ := Option.bind_eq_some_iff.1 h
    obtain ⟨r', hr', h⟩ := Option.bind_eq_some_iff.1 h
    obtain ⟨r'', hr'', h⟩ := Option.bind_eq_some_iff.1 h
    obtain ⟨⟨c, rest'⟩, hc, heq⟩ := Option.map_eq_some_iff.1 h
    cases heq
    have hsuffix := ((suffix_of_after? hr'').trans (suffix_of_afterBlanks? hr')).trans
      (suffix_of_after? hr)
    exact ⟨r'', hsuffix, .inr ⟨c, hc, .inr (.inl rfl)⟩⟩
  · obtain ⟨r, hr, h⟩ := Option.bind_eq_some_iff.1 h
    obtain ⟨rest', hb, heq⟩ := Option.map_eq_some_iff.1 h
    cases heq
    exact ⟨r, suffix_of_after? hr, .inl ⟨rfl, hb⟩⟩
  · obtain ⟨r, hr, h⟩ := Option.bind_eq_some_iff.1 h
    obtain ⟨⟨c, rest'⟩, hc, heq⟩ := Option.map_eq_some_iff.1 h
    cases heq
    exact ⟨r, suffix_of_after? hr, .inr ⟨c, hc, .inr (.inr rfl)⟩⟩

/-- What follows the brace of a head is a suffix of the line, and the line does not begin with a
brace. -/
theorem suffix_of_head? {s rest : Text} {head : Head} (h : head? s = some (head, rest)) :
    ('\x7b' :: rest) <:+ s ∧ s.head? ≠ some '\x7d' := by
  refine ⟨?_, fun hfirst => ?_⟩
  · obtain ⟨r, hsuffix, ⟨-, hb⟩ | ⟨c, hc, -⟩⟩ := exists_suffix_of_head? h
    · exact (suffix_of_afterBrace? hb).trans hsuffix
    · exact (suffix_of_condition? hc).trans hsuffix
  · obtain ⟨t, rfl⟩ := List.head?_eq_some_iff.1 hfirst
    cases h

/-- A header comes from a head and what follows its brace. -/
theorem exists_head?_of_header {s line : Text} {head : Head} {inline : Option Text}
    (h : ofTrimmed s = .header ⟨head, inline, line⟩) :
    line = s ∧ ∃ rest, head? s = some (head, rest) ∧ inline? rest = some inline := by
  rw [ofTrimmed] at h
  split at h
  · cases h
  · split at h
    · next head' rest hh =>
      unfold ofHead at h
      split at h
      · next hi =>
        cases h
        exact ⟨rfl, rest, hh, hi⟩
      · cases h
    · split at h <;> cases h

theorem trim_eq_nil_of_inline? {rest : Text} (h : inline? rest = some none) : trim rest = [] := by
  unfold inline? at h
  dsimp only at h
  split at h
  · next he => exact List.isEmpty_iff.1 he
  · split at h <;> cases h

/-- The statement on the line of a header is a part of what follows the brace. -/
theorem infix_of_inline? {rest s : Text} (h : inline? rest = some (some s)) : s <:+: rest := by
  unfold inline? at h
  dsimp only at h
  split at h
  · cases h
  · split at h
    · cases h
      exact ((isInfix_trim _).trans (List.dropLast_prefix _).isInfix).trans (isInfix_trim rest)
    · cases h

/-- A header with its block on the lines that follow ends in a brace and does not begin with one. -/
theorem ends_of_header {s line : Text} {head : Head} (ht : trim s = s)
    (h : ofTrimmed s = .header ⟨head, none, line⟩) :
    s.getLast? = some '\x7b' ∧ s.head? ≠ some '\x7d' := by
  obtain ⟨-, rest, hh, hi⟩ := exists_head?_of_header h
  obtain ⟨hsuffix, hfirst⟩ := suffix_of_head? hh
  -- What follows the brace is blank, and the line does not end in a blank.
  have hrest : rest = [] :=
    eq_nil_of_suffix ht ((List.suffix_cons _ _).trans hsuffix) (trim_eq_nil_of_inline? hi)
  subst hrest
  obtain ⟨start, rfl⟩ := hsuffix
  exact ⟨List.getLast?_concat, hfirst⟩

theorem opens_of_header {s line : Text} {head : Head} (ht : trim s = s)
    (h : ofTrimmed s = .header ⟨head, none, line⟩) :
    Block.opens s = true := by
  rw [Block.opens, (ends_of_header ht h).1]
  rfl

theorem closes_of_header {s line : Text} {head : Head} (ht : trim s = s)
    (h : ofTrimmed s = .header ⟨head, none, line⟩) : Block.closes s = false := by
  obtain ⟨hlast, hfirst⟩ := ends_of_header ht h
  rw [Block.closes, hlast, beq_eq_false_iff_ne.2 hfirst]
  rfl

end LineScript.Line
