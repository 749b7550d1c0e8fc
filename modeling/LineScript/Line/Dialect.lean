import LineScript.Line.Form

/-!
# The two dialects

The standard dialect has blocks and loops. The fast one has none; it declares global names and
passes over lines that describe the structure of a program. In both the forms are tried in order,
and a line of no form is invalid.
-/

namespace LineScript

namespace Line

theorem length_le_of_name? {s name rest : Text} (h : name? s = some (name, rest)) :
    rest.length ≤ s.length := by
  rw [(Text.eq_of_bracketed? h).1]
  simp only [List.length_append, List.length_cons]
  omega

theorem length_le_of_after? {start s rest : Text} (h : Text.after? start s = some rest) :
    rest.length ≤ s.length := by
  rw [Text.eq_append_of_after? h]
  simp

theorem length_le_of_afterEquals? {s rest : Text} (h : afterEquals? s = some rest) :
    rest.length ≤ s.length :=
  Nat.le_trans (length_le_of_after? h) (Text.length_trimStart_le s)

theorem length_le_of_rest? {s t : Text} (h : rest? s = some t) : t.length ≤ s.length := by
  unfold rest? at h
  dsimp only at h
  split at h
  · simp at h
  · simp only [Option.some.injEq] at h
    subst h
    exact Nat.le_trans (Text.length_trim_le _) (Text.length_trimStart_le s)

theorem length_le_of_check? {s check rest : Text} (h : check? s = some (check, rest)) :
    rest.length ≤ s.length := by
  simp only [check?, Option.bind_eq_bind, Option.bind_eq_some_iff, Option.pure_def,
    Option.some.injEq, Prod.mk.injEq] at h
  obtain ⟨⟨name, r⟩, hn, t, ht, rfl, rfl⟩ := h
  have h1 := length_le_of_name? hn
  have h2 := length_le_of_after? ht
  have h3 := Text.length_trimStart_le r
  have h4 := Text.length_trimStart_le s
  dsimp only at h2
  omega

theorem length_lt_of_loopRest? {s check stop body : Text}
    (h : loopRest? s = some (check, stop, body)) :
    body.length < s.length := by
  simp only [loopRest?, Option.bind_eq_bind, Option.bind_eq_some_iff, Option.pure_def,
    Option.some.injEq, Prod.mk.injEq] at h
  obtain ⟨⟨c, r⟩, hc, ⟨p, b⟩, hb, rfl, rfl, rfl⟩ := h
  obtain ⟨rest, hr, hl⟩ := Text.exists_of_givingBlanksBack hb
  obtain ⟨rest', hr', -, hl'⟩ := Text.exists_of_shortestFrom hr
  have h1 := length_le_of_check? hc
  have h2 := length_le_of_rest? hr'
  dsimp only at hl hl' h1 ⊢
  omega

/-- The body of a loop is shorter than the loop. -/
theorem length_lt_of_forLoop? {s body : Text} {counter : Counter}
    (h : forLoop? s = some (counter, body)) :
    body.length < s.length := by
  simp only [forLoop?, Option.bind_eq_bind, Option.bind_eq_some_iff, Option.pure_def,
    Option.some.injEq, Prod.mk.injEq] at h
  obtain ⟨r, hf, ⟨name, r'⟩, hn, t, ht, ⟨start, check, stop, b⟩, hb, rfl, rfl⟩ := h
  obtain ⟨rest, hr, hl⟩ := Text.exists_of_givingBlanksBack hb
  obtain ⟨rest', hr', -, hl'⟩ := Text.exists_of_shortestFrom hr
  have h1 := length_lt_of_loopRest? hr'
  have h2 := length_le_of_afterEquals? ht
  have h3 := length_le_of_name? hn
  have h4 := length_le_of_after? hf
  have h5 := Text.length_trimStart_le r
  dsimp only at h2 h3 h1 ⊢
  omega

/-- The statement of a loop; a header cannot stand there. -/
def loopBody (body : Text) : Line → Statement
  | .statement s => s
  | .header _ => .invalid body .loopBody

/-- A line of the standard dialect, without blanks at its ends. -/
def ofTrimmed (s : Text) : Line :=
  if isInert s then .statement (.skip s)
  else
    match head? s with
    | some (head, rest) => ofHead s head rest
    | none =>
      match h : forLoop? s with
      | some (counter, body) =>
        have := length_lt_of_forLoop? h
        .statement (.forLoop counter (loopBody body (ofTrimmed body)) s)
      | none => .statement ((simple? s).getD (.invalid s .unknown))
termination_by s.length

/-- A line of the standard dialect. -/
def ofText (line : Text) : Line := ofTrimmed (Text.trim line)

/-- Whether loops are nested too deep in the line. -/
def isTooDeep [Host] : Line → Bool
  | .statement s => Host.loops < s.loopDepth
  | .header _ => false

end Line

namespace Statement

/-- A line of the fast dialect. -/
def ofFastText (line : Text) : Statement :=
  let s := Text.trim line
  if Line.isInert s || Line.isStructural s then .skip s
  else
    ((Line.declaration? s).map (fun (kind, name, value) => Statement.declare kind name value s)
      <|> Line.fastSimple? s).getD (.invalid s .unknown)

end Statement

end LineScript
