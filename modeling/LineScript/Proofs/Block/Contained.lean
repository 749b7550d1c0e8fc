import LineScript.Proofs.Block.Inline

/-!
# What a block on one line can hold

The condition of a header ends at the last angle before a brace on its line
(`Text.exists_last_of_longest?`). So what follows its brace has no such angle, and a block on that
line does not begin with a condition: the only header that can stand there is an `Else`
(`Line.otherwise_of_inline`). A line feed between the angle and the brace would hide the angles
after it, and after an `Else` there is no condition that takes them in; `Line.isContained` leaves
out both.
-/

namespace LineScript

namespace Text

variable {α : Type} {stop : Char} {read : Text → Option α}

/-- On one line, no later mark can end the longest stretch. -/
theorem exists_last_of_longestFrom {best : Option (Text × α)} {seen s t : Text} {a : α}
    (hline : '\n' ∉ s) (h : longestFrom stop read best seen s = some (t, a)) :
    (best = some (t, a) ∧ ∀ u v, s = u ++ stop :: v → seen ≠ [] ∨ u ≠ [] → read v = none) ∨
      ∃ u v, s = u ++ stop :: v ∧ read v = some a ∧ ∀ u' v', v = u' ++ stop :: v' →
        read v' = none := by
  induction s generalizing best seen with
  | nil => exact .inl ⟨h, fun u v huv => absurd huv (by simp)⟩
  | cons c s ih =>
    rw [List.mem_cons, not_or] at hline
    rw [longestFrom, if_neg (Ne.symm hline.1)] at h
    split at h
    · next b hb =>
      obtain ⟨⟨rfl, -⟩, hread⟩ := Option.ite_none_right_eq_some.1 hb
      rcases ih hline.2 h with ⟨hbest, hlater⟩ | ⟨u, v, rfl, hlast⟩
      · cases hbest
        exact .inr ⟨[], s, rfl, hread, fun u v huv => hlater u v huv (.inl (List.cons_ne_nil _ _))⟩
      · exact .inr ⟨c :: u, v, rfl, hlast⟩
    · next hnone =>
      rcases ih hline.2 h with ⟨hbest, hlater⟩ | ⟨u, v, rfl, hlast⟩
      · refine .inl ⟨hbest, fun u v huv hne => ?_⟩
        cases u with
        | nil =>
          obtain ⟨rfl, rfl⟩ := List.cons.inj huv
          rwa [if_pos ⟨rfl, hne.resolve_right (by simp)⟩] at hnone
        | cons d u => exact hlater u v (List.cons.inj huv).2 (.inl (List.cons_ne_nil _ _))
      · exact .inr ⟨c :: u, v, rfl, hlast⟩

theorem exists_last_of_longest? {s t : Text} {a : α} (hline : '\n' ∉ s)
    (h : longest? stop read s = some (t, a)) :
    ∃ u v, s = u ++ stop :: v ∧ read v = some a ∧ ∀ u' v', v = u' ++ stop :: v' → read v' = none :=
  (exists_last_of_longestFrom hline h).resolve_left (by simp)

theorem AngleBrace.mono {s t : Text} (h : AngleBrace s) (hpart : s <:+: t) : AngleBrace t := by
  obtain ⟨u, blanks, v, rfl, hblanks⟩ := h
  obtain ⟨front, ending, rfl⟩ := hpart
  exact ⟨front ++ u, blanks, v ++ ending, by simp, hblanks⟩

end Text

namespace Line

open Text

/-! ## The angle that ends a condition -/

theorem not_mem_of_suffix {c : Char} {s rest : Text} (h : c ∉ s) (hsuffix : rest <:+ s) :
    c ∉ rest :=
  fun hmem => h (hsuffix.mem hmem)

/-- On one line, the operand on the right ends at an angle before a brace, and no other follows. -/
theorem angleBrace_of_rightOperand? {s right rest : Text} (hline : '\n' ∉ s)
    (h : rightOperand? s = some (right, rest)) : AngleBrace s ∧ ¬ AngleBrace rest := by
  obtain ⟨r, hr, h⟩ := Option.bind_eq_some_iff.1 h
  split at h
  · next tail htail =>
    have hsuffix : tail <:+ s :=
      ((List.suffix_cons _ _).trans (htail ▸ trimStart_suffix r)).trans
        ((suffix_of_after? hr).trans (trimStart_suffix s))
    obtain ⟨u, v, rfl, hv, hlater⟩ := exists_last_of_longest? (not_mem_of_suffix hline hsuffix) h
    obtain ⟨blanks, hblanks, rfl⟩ := exists_of_afterBrace? hv
    refine ⟨AngleBrace.mono ⟨u, blanks, rest, rfl, hblanks⟩ hsuffix.isInfix, ?_⟩
    rintro ⟨u', blanks', w, rfl, hblanks'⟩
    have hnone := hlater (blanks ++ '\x7b' :: u') (blanks' ++ '\x7b' :: w) (by simp)
    have hw : '\n' ∉ w := fun hmem => hline (hsuffix.mem (by simp [hmem]))
    rw [afterBrace?_append hblanks' hw] at hnone
    cases hnone
  · cases h

theorem angleBrace_of_condition? {s rest : Text} {c : Condition} (hline : '\n' ∉ s)
    (h : condition? s = some (c, rest)) : AngleBrace s ∧ ¬ AngleBrace rest := by
  unfold condition? at h
  split at h
  · next tail htail =>
    obtain ⟨⟨left, right, rest'⟩, hl, heq⟩ := Option.map_eq_some_iff.1 h
    cases heq
    obtain ⟨after, hafter, hsuffix⟩ := suffix_of_shortest? hl
    have hs : after <:+ s :=
      hsuffix.trans ((List.suffix_cons _ _).trans (htail ▸ trimStart_suffix s))
    obtain ⟨hangle, hrest⟩ := angleBrace_of_rightOperand? (not_mem_of_suffix hline hs) hafter
    exact ⟨hangle.mono hs.isInfix, hrest⟩
  · cases h

theorem angleBrace_of_head? {s rest : Text} {head : Head} (hline : '\n' ∉ s)
    (h : head? s = some (head, rest)) (hhead : head ≠ .otherwise) :
    AngleBrace s ∧ ¬ AngleBrace rest := by
  obtain ⟨r, hsuffix, ⟨heq, -⟩ | ⟨c, hc, -⟩⟩ := exists_suffix_of_head? h
  · exact absurd heq hhead
  obtain ⟨hangle, hrest⟩ := angleBrace_of_condition? (not_mem_of_suffix hline hsuffix) hc
  exact ⟨hangle.mono hsuffix.isInfix, hrest⟩

/-! ## The block on the line of a header -/

/-- On one line, the block of a condition does not begin with another one. -/
theorem otherwise_of_inline {line s : Text} {header header' : Header} (hline : '\n' ∉ line)
    (h : ofTrimmed line = .header header) (hhead : header.head ≠ .otherwise)
    (hs : header.inline = some s) (h' : ofTrimmed s = .header header') :
    header'.head = .otherwise := by
  obtain ⟨head, inline, text⟩ := header
  obtain ⟨head', inline', text'⟩ := header'
  cases hs
  obtain ⟨-, rest, hh, hi⟩ := exists_head?_of_header h
  obtain ⟨-, rest', hh', -⟩ := exists_head?_of_header h'
  have hpart := infix_of_inline? hi
  have hsuffix := (List.suffix_cons _ _).trans (suffix_of_head? hh).1
  have hsline : '\n' ∉ s := fun hmem => hline (hsuffix.mem (hpart.mem hmem))
  refine Classical.byContradiction fun hhead' => ?_
  exact (angleBrace_of_head? hline hh hhead).2
    ((angleBrace_of_head? hsline hh' hhead').1.mono hpart)

/-- Whether the line, if it is a header with a block on it, is on one line and no `Else`. -/
def isContained (line : Text) : Bool :=
  match ofText line with
  | .header h => h.inline.isNone || (h.head != .otherwise && !h.line.contains '\n')
  | .statement _ => true

theorem isContained_trim (line : Text) : isContained (trim line) = isContained line := by
  rw [isContained, isContained, ofText, ofText, trim_trim]

/-- The only header that the block on a contained line can begin with is an `Else`. -/
theorem otherwise_of_isContained {line s : Text} {header header' : Header} (ht : trim line = line)
    (hline : isContained line = true) (h : ofTrimmed line = .header header)
    (hs : header.inline = some s) (h' : ofTrimmed s = .header header') :
    header'.head = .otherwise := by
  have htext : header.line = line := (exists_head?_of_header h).1
  rw [isContained, ofText, ht, h] at hline
  dsimp only at hline
  rw [hs, htext] at hline
  simp only [Option.isNone_some, Bool.false_or, Bool.and_eq_true, bne_iff_ne, Bool.not_eq_true',
    List.contains_iff_mem, ← Bool.not_eq_true] at hline
  exact otherwise_of_inline hline.2 h hline.1 hs h'

end Line

end LineScript
