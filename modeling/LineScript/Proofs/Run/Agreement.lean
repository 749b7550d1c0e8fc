import LineScript.Proofs.Block.Layout
import LineScript.Proofs.Line.First
import LineScript.Proofs.Run.Event

/-!
# The dialects agree on straight lines

A line is straight if it opens no block, is no loop and is nothing that only the fast dialect knows.
Both dialects read such a line as the same statement (`Statement.ofText_eq_ofFastText`), although
they try the forms in different orders and the standard one tries headers before. The standard
dialect first builds a tree, without the lines that do nothing; the fast one runs each line as it
comes. On straight lines both runs end in the same outcome (`Session.runStandard_eq_runFast`).
-/

namespace LineScript

/-- Whether the line is a statement that is no loop. -/
def Line.isSimple : Line → Bool
  | .statement s => s.isSimple
  | .header _ => false

/-- A line that opens no block, is no loop, describes no structure and declares no global name. -/
structure Line.Straight (line : Text) : Prop where
  simple : (Line.ofText line).isSimple = true
  not_structural : Line.isStructural (Text.trim line) = false
  not_declaration : Line.declaration? (Text.trim line) = none

instance (line : Text) : Decidable (Line.Straight line) :=
  decidable_of_iff ((Line.ofText line).isSimple = true ∧
    Line.isStructural (Text.trim line) = false ∧
      Line.declaration? (Text.trim line) = none)
    ⟨fun ⟨h, h', h''⟩ => ⟨h, h', h''⟩, fun ⟨h, h', h''⟩ => ⟨h, h', h''⟩⟩

/-- A line that begins as a header does is no statement that both dialects have. -/
theorem Line.simple?_eq_none_of_head? {s : Text} {a : Head × Text} (h : head? s = some a) :
    simple? s = none :=
  beginsWith_head?.eq_none_of_eq_some beginsWith_simple? (by simp) h

/-- Both dialects make the same statement of a straight line. -/
theorem Statement.ofText_eq_ofFastText {line : Text} (h : Line.Straight line) :
    Line.ofText line = .statement (ofFastText line) := by
  have hfast : ofFastText line =
      if Line.isInert (Text.trim line) then .skip (Text.trim line)
      else (Line.simple? (Text.trim line)).getD (.invalid (Text.trim line) .unknown) := by
    rw [ofFastText]
    simp only [h.not_structural, h.not_declaration, Bool.or_false, Line.fastSimple?_eq_simple?]
    rfl
  have hsimple := h.simple
  rw [hfast]
  rw [Line.ofText] at hsimple ⊢
  generalize Text.trim line = s at hsimple ⊢
  revert hsimple
  fun_cases Line.ofTrimmed s with
  | case1 hinert =>
    intro _
    rw [if_pos hinert]
  | case2 hinert head rest hh =>
    -- A head that makes a simple line is malformed, and the fast dialect does not know the line
    -- either.
    intro hsimple
    rw [if_neg hinert, Line.simple?_eq_none_of_head? hh]
    unfold Line.ofHead at hsimple ⊢
    split
    · next hi =>
      simp only [hi] at hsimple
      cases hsimple
    · rfl
  | case3 =>
    intro hsimple
    cases hsimple
  | case4 hinert hh hf =>
    intro _
    rw [if_neg hinert]

theorem Statement.loopDepth_of_isSimple {statement : Statement} (h : statement.isSimple = true) :
    statement.loopDepth = 0 := by
  cases statement with
  | forLoop => cases h
  | skip | assign | assignList | declare | log | wait | invalid => rfl

/-- The tree of straight lines runs as the lines do in the fast dialect. -/
theorem Node.exists_ofLines_straight [Host] (rules : Rules)
    (inner : List Text → Option (List Node)) {lines : List Text}
    (h : ∀ line ∈ lines, Line.Straight line) :
    ∃ nodes, ofLines inner (lines.map Text.trim) = some nodes ∧
      ∀ s, runAll rules nodes s = Session.runFast rules lines s := by
  induction lines with
  | nil =>
    refine ⟨[], ?_, fun s => ?_⟩
    · rw [List.map_nil, ofLines]
    · rw [runAll, Session.runFast]
  | cons line lines ih =>
    rw [List.forall_mem_cons] at h
    obtain ⟨nodes, hnodes, hrun⟩ := ih h.2
    have hread : Line.ofTrimmed (Text.trim line) = .statement (Statement.ofFastText line) :=
      Statement.ofText_eq_ofFastText h.1
    have hsimple : (Statement.ofFastText line).isSimple = true := by
      have := h.1.simple
      rwa [Statement.ofText_eq_ofFastText h.1] at this
    rw [List.map_cons]
    by_cases hskip : ∃ t, Statement.ofFastText line = .skip t
    · obtain ⟨t, ht⟩ := hskip
      refine ⟨nodes, ?_, fun s => ?_⟩
      · rw [ofLines_skip (ht ▸ hread), hnodes]
      · rw [hrun, Session.runFast, ht]
        rfl
    · refine ⟨.statement (Statement.ofFastText line) :: nodes, ?_, fun s => ?_⟩
      · rw [ofLines_statement hread (fun t ht => hskip ⟨t, ht⟩) ?_, hnodes]
        · rfl
        · rw [Statement.loopDepth_of_isSimple hsimple]
          exact Nat.zero_le _
      · rw [runAll, Session.runFast, run]
        simp only [hrun]

/-- On straight lines the two dialects do the same: from the same session, under the same rules,
they end with the same names, output, pauses and clock, and stop for the same reason or not at
all. -/
theorem Session.runStandard_eq_runFast [Host] (rules : Rules) {lines : List Text}
    (h : ∀ line ∈ lines, Line.Straight line) (s : Session) :
    s.runStandard rules lines = s.runFast rules lines := by
  obtain ⟨nodes, hnodes, hrun⟩ := Node.exists_ofLines_straight rules _ h
  rw [runStandard, Node.parse_eq, hnodes]
  exact hrun s

/-- Straight lines of several forms, up to a header that lacks its closing brace. -/
def Session.malformedHeader : List Text :=
  ["[a] = *1*", "-- note", " log([a] + 1) ", "/l/ = #[a], 2#", "Let [b] = /l/<1>", "wait(5)",
    "If <[a]> =? <1> \x7b log([b])", "log(3)"].map String.toList

theorem Session.runStandard_eq_runFast_malformedHeader :
    let rules : Rules := { features := { time := true } }
    (∀ line ∈ malformedHeader, Line.Straight line) ∧
      (({} : Session).runStandard rules malformedHeader).session.output.toList = ["2".toList] ∧
      (({} : Session).runStandard rules malformedHeader).stop =
        some (.failure (.invalid "If <[a]> =? <1> \x7b log([b])".toList .unknown)) ∧
      ({} : Session).runStandard rules malformedHeader =
        ({} : Session).runFast rules malformedHeader := by
  have h : ∀ line ∈ malformedHeader, Line.Straight line := by decide +kernel
  exact ⟨h, by decide +kernel, by decide +kernel, runStandard_eq_runFast _ h _⟩

end LineScript
