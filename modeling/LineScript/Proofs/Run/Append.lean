import LineScript.Proofs.Block.Alike
import LineScript.Session.Run

/-!
# Scripts one after the other

A script that is read to its end and a script after it make one script with both trees, unless the
second begins with a further branch (`Node.parse_append`). Nodes are run one after the other until
one stops the run (`Node.runAll_append`), so the whole does what the first script does and then, if
that does not stop, what the second does (`Session.run_append`). The fast dialect reads each line
alone, and there any two scripts can be put together.
-/

namespace LineScript

theorem Node.runAll_append [Host] (rules : Rules) (nodes more : List Node) (s : Session) :
    runAll rules (nodes ++ more) s =
      Session.andThen (runAll rules nodes s) (runAll rules more) := by
  induction nodes generalizing s with
  | nil =>
    rw [List.nil_append, runAll]
    rfl
  | cons node nodes ih =>
    rw [List.cons_append, runAll, runAll]
    split
    · exact ih _
    · rfl

namespace Session

theorem runFast_append [Host] (rules : Rules) (p q : List Text) (s : Session) :
    s.runFast rules (p ++ q) = andThen (s.runFast rules p) (runFast rules q) := by
  induction p generalizing s with
  | nil => rfl
  | cons line p ih =>
    rw [List.cons_append, runFast, runFast]
    split
    · exact ih _
    · rfl

theorem runStandard_of_parse [Host] {lines : List Text} {nodes : List Node}
    (h : Node.parse lines = some nodes) (rules : Rules) (s : Session) :
    s.runStandard rules lines = Node.runAll rules nodes s := by
  rw [runStandard, h]

/-- Scripts compose. After a script that is read to its end, one that begins with no further branch
adds its tree, and the whole is run as the first script and then, unless that stops, the second. In
the fast dialect this holds of any two. -/
theorem run_append [Host] (rules : Rules) (p q : List Text) (s : Session) :
    (Node.readsToEnd p = true → Node.branchFollows (q.map Text.trim) = false →
      (Node.parse q).isSome = true →
        (∃ nodes more, Node.parse p = some nodes ∧ Node.parse q = some more ∧
            Node.parse (p ++ q) = some (nodes ++ more)) ∧
          s.runStandard rules (p ++ q) = andThen (s.runStandard rules p) (runStandard rules q)) ∧
      s.runFast rules (p ++ q) = andThen (s.runFast rules p) (runFast rules q) := by
  refine ⟨fun hp hfirst hq => ?_, runFast_append rules p q s⟩
  have hparse := Node.parse_append hp hfirst
  obtain ⟨more, hmore⟩ := Option.isSome_iff_exists.1 hq
  obtain ⟨nodes, hnodes⟩ := Option.isSome_iff_exists.1 (Option.isSome_of_any hp)
  rw [hnodes, hmore, Option.bind_some, Option.map_some] at hparse
  refine ⟨⟨nodes, more, hnodes, hmore, hparse⟩, ?_⟩
  rw [runStandard_of_parse hparse, runStandard_of_parse hnodes, Node.runAll_append]
  congr 1
  funext t
  rw [runStandard_of_parse hmore]

/-- A conditional with an unknown line that opens a block, and a blank line at the end. -/
def chainLines : List Text :=
  ["[a] = 1", "If <[a]> =? <1> \x7b", "log([a])", "\x7d Else \x7b", "what \x7b", "\x7d", "\x7d",
    ""].map String.toList

/-- A blank line, a comment that looks like a branch, and after two statements a branch. -/
def strayLines : List Text :=
  [" ", "-- Else \x7b", "[a] = 2", "log([a])", "Else \x7b"].map String.toList

theorem run_append_stray :
    let rules : Rules := { features := { conditions := true } }
    let start : Session := {}
    Node.readsToEnd chainLines = true ∧ Node.branchFollows (strayLines.map Text.trim) = false ∧
      (Node.parse strayLines).isSome = true ∧
      (start.runStandard rules (chainLines ++ strayLines)).session.output.toList = [['1'], ['2']] ∧
      (start.runStandard rules (chainLines ++ strayLines)).stop =
        some (.failure (.dangling "Else \x7b".toList false)) ∧
      start.runStandard rules (chainLines ++ strayLines) =
        andThen (start.runStandard rules chainLines) (runStandard rules strayLines) := by
  have hchain : Node.readsToEnd chainLines = true := by decide +kernel
  have hfirst : Node.branchFollows (strayLines.map Text.trim) = false := by decide +kernel
  have hstray : (Node.parse strayLines).isSome = true := by decide +kernel
  refine ⟨hchain, hfirst, hstray, by decide +kernel, by decide +kernel, ?_⟩
  exact ((run_append _ chainLines strayLines _).1 hchain hfirst hstray).2

end Session

end LineScript
