import LineScript.Proofs.Line.First

/-!
# The statements of the dialects

The standard dialect has no declarations, also not inside loops, and the fast one has no loops.
Lines are recognised accordingly (`Line.isStandard_of_ofTrimmed`, `Statement.isFast_ofFastText`), so
that no dialect ever meets a statement of the other.
-/

namespace LineScript

namespace Statement

/-- Whether the standard dialect has the statement. -/
def isStandard : Statement → Bool
  | .declare _ _ _ _ => false
  | .forLoop _ body _ => body.isStandard
  | _ => true

/-- Whether the fast dialect has the statement. -/
def isFast : Statement → Bool
  | .forLoop _ _ _ => false
  | _ => true

end Statement

namespace Line

/-- The statements that both dialects have. -/
theorem isStandard_of_simple? {s : Text} {statement : Statement} (h : simple? s = some statement) :
    statement.isStandard = true ∧ statement.isFast = true := by
  simp only [simple?, Option.orElse_eq_orElse, Option.orElse_eq_or, Option.or_eq_some_iff,
    Option.map_eq_some_iff] at h
  rcases h with ⟨_, -, rfl⟩ | ⟨-, ⟨_, -, rfl⟩ | ⟨-, ⟨_, -, rfl⟩ | ⟨-, ⟨_, -, rfl⟩⟩⟩⟩ <;>
    exact ⟨rfl, rfl⟩

/-- What holds of the statements that both dialects have and of lines that make no sense, and is
kept by loops, holds of every statement that a line is. -/
theorem statement_induction {P : Text → Statement → Prop} (hskip : ∀ s, P s (.skip s))
    (hunknown : ∀ s, P s (.invalid s .unknown)) (hloopBody : ∀ s, P s (.invalid s .loopBody))
    (hsimple : ∀ s statement, simple? s = some statement → P s statement)
    (hloop : ∀ s counter body statement, forLoop? s = some (counter, body) → P body statement →
      P s (.forLoop counter statement s)) {s : Text} {statement : Statement}
    (h : ofTrimmed s = .statement statement) : P s statement := by
  fun_induction ofTrimmed s generalizing statement with
  | case1 s hinert =>
    cases h
    exact hskip s
  | case2 s hinert head rest hh =>
    unfold ofHead at h
    split at h
    · cases h
    · cases h
      exact hunknown s
  | case3 s hinert hh counter body hf this ih =>
    cases h
    refine hloop s counter body _ hf ?_
    cases hb : ofTrimmed body with
    | statement inner => exact ih hb
    | header header => exact hloopBody body
  | case4 s hinert hh hf =>
    cases h
    cases hs : simple? s with
    | none => exact hunknown s
    | some statement => exact hsimple s statement hs

/-- A line of the standard dialect is no statement of the fast one. -/
theorem isStandard_of_ofTrimmed {s : Text} {statement : Statement}
    (h : ofTrimmed s = .statement statement) :
    statement.isStandard = true := by
  refine statement_induction (P := fun _ statement => statement.isStandard = true) ?_ ?_ ?_ ?_ ?_ h
  · exact fun _ => rfl
  · exact fun _ => rfl
  · exact fun _ => rfl
  · exact fun _ _ hs => (isStandard_of_simple? hs).1
  · exact fun _ _ _ _ _ hbody => hbody

end Line

namespace Statement

/-- What a line of the fast dialect can be. -/
theorem fastText_cases {P : Text → Statement → Prop} (hskip : ∀ s, P s (.skip s))
    (hunknown : ∀ s, P s (.invalid s .unknown))
    (hdeclare : ∀ s kind name value, Line.declaration? s = some (kind, name, value) →
      P s (.declare kind name value s))
    (hsimple : ∀ s statement, Line.simple? s = some statement → P s statement) (line : Text) :
    P (Text.trim line) (ofFastText line) := by
  unfold ofFastText
  dsimp only
  generalize Text.trim line = s
  split
  · exact hskip s
  · cases hd : Line.declaration? s with
    | some declaration => exact hdeclare s _ _ _ hd
    | none =>
      rw [Line.fastSimple?_eq_simple?]
      cases hs : Line.simple? s with
      | none => exact hunknown s
      | some statement => exact hsimple s statement hs

/-- A line of the fast dialect is no statement of the standard one. -/
theorem isFast_ofFastText (line : Text) : (ofFastText line).isFast = true := by
  refine fastText_cases (P := fun _ statement => statement.isFast = true) ?_ ?_ ?_ ?_ line
  · exact fun _ => rfl
  · exact fun _ => rfl
  · exact fun _ _ _ _ _ => rfl
  · exact fun _ _ hs => (Line.isStandard_of_simple? hs).2

end Statement

end LineScript
