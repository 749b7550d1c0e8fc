import LineScript.Block.Node
import LineScript.Proofs.Line.Header

/-!
# Laying out trees

An outline is a tree of a script together with a choice of how to write it: the lines of its
statements and headers, and for each further branch of a conditional whether its header stands on
the line that closes the branch before or on one of its own. `Outline.lines` lays it out, and
`Outline.parse_linesAll` reads the tree back.

Reading goes by braces alone, so the first half of the argument counts them: the lines of whole
outlines leave the number of open blocks as it was (`Outline.shifts_lines`), and hence the block of
a header ends where it was laid out to.
-/

namespace LineScript

/-! ## Counting open blocks -/

namespace Block

/-- Puts lines before the lines of a block. -/
def Span.prepend (lines : List Text) (s : Span) : Span := { s with body := lines ++ s.body }

/-- The lines take the number of open blocks from `a` to `b`, whatever is open around them and
whatever follows. -/
def Shifts (lines : List Text) (a b : Nat) : Prop :=
  ∀ inner rest, split? (inner + a) (lines ++ rest) =
    (split? (inner + b) rest).map (Span.prepend lines)

variable {lines more : List Text} {line : Text} {a b c : Nat}

theorem shifts_nil (a : Nat) : Shifts [] a a := by
  intro inner rest
  show _ = (split? (inner + a) rest).map id
  rw [Option.map_id]
  rfl

theorem Shifts.append (h : Shifts lines a b) (h' : Shifts more b c) :
    Shifts (lines ++ more) a c := by
  intro inner rest
  rw [List.append_assoc, h inner, h' inner, Option.map_map]
  congr 1
  funext s
  simp [Span.prepend]

/-- The same with one more block open around the lines. -/
theorem Shifts.succ (h : Shifts lines a b) : Shifts lines (a + 1) (b + 1) := by
  intro inner rest
  have := h (inner + 1) rest
  rwa [Nat.add_right_comm, Nat.add_right_comm inner 1 b] at this

theorem shifts_of_forall (h : ∀ line ∈ lines, Shifts [line] 0 0) : Shifts lines 0 0 := by
  induction lines with
  | nil => exact shifts_nil 0
  | cons line lines ih =>
    rw [List.forall_mem_cons] at h
    exact h.1.append (ih h.2)

theorem shifts_of_not_closes (h : closes line = false) : Shifts [line] 0 (opens line).toNat := by
  intro inner rest
  rw [List.singleton_append, split?.eq_def]
  dsimp only
  rw [h, if_neg Bool.false_ne_true]
  cases opens line <;> rfl

theorem shifts_of_closes (h : closes line = true) : Shifts [line] 1 (opens line).toNat := by
  intro inner rest
  rw [List.singleton_append, split?, h, if_pos rfl]
  cases opens line <;> rfl

theorem split?_of_shifts (h : Shifts lines 0 0) (hc : closes line = true) (rest : List Text) :
    split? 0 (lines ++ line :: rest) = some ⟨lines, line, rest⟩ := by
  rw [h 0, split?, hc, if_pos rfl]
  simp [Span.prepend]

end Block

/-! ## Reading what follows a header -/

namespace Node

variable {inner : List Text → Option (List Node)} {lines rest rest' : List Text}
    {line closing : Text}
  {nodes : List Node} {header : Header}

/-- What a block is read as, given what its lines are read as and the lines after it. -/
def ofBody (nodes : Option (List Node)) (rest : List Text) :
    Except Interruption (List Node × List Text) :=
  nodes.elim (.error .tooDeep) fun nodes => .ok (nodes, rest)

/-- The lines of a block, up to one that closes it, are read as its body. -/
theorem body_closed (hheader : header.inline = none) (h : Block.Shifts lines 0 0)
    (hc : Block.closes closing = true) (rest : List Text) :
    body inner header (lines ++ closing :: rest) =
      ofBody (inner lines) (afterClosing closing rest) := by
  simp only [body, hheader, Block.split?_of_shifts h hc]
  cases inner lines <;> rfl

theorem body_of_shifts (hheader : header.inline = none) (h : Block.Shifts lines 0 0)
    (hc : Block.closes closing = true) (hi : inner lines = some nodes) (rest : List Text) :
    body inner header (lines ++ closing :: rest) = .ok (nodes, afterClosing closing rest) := by
  rw [body_closed hheader h hc, hi]
  rfl

theorem parse_eq [Host] (lines : List Text) :
    parse lines = ofLines (ofLinesWithin (Host.blocks - 1)) (lines.map Text.trim) := by
  obtain ⟨depth, hdepth⟩ := Nat.exists_eq_succ_of_ne_zero (Nat.ne_of_gt Host.blocks_pos)
  rw [parse, hdepth]
  rfl

theorem ofLines_skip [Host] {t : Text} (h : Line.ofTrimmed line = .statement (.skip t))
    (rest : List Text) :
    ofLines inner (line :: rest) = ofLines inner rest := by
  rw [ofLines, h]

theorem ofLines_statement [Host] {s : Statement} (h : Line.ofTrimmed line = .statement s)
    (hskip : ∀ t, s ≠ .skip t) (hdepth : s.loopDepth ≤ Host.loops) (rest : List Text) :
    ofLines inner (line :: rest) = (ofLines inner rest).map (.statement s :: ·) := by
  rw [ofLines]
  split
  · next t ht =>
    rw [h] at ht
    cases ht
    exact absurd rfl (hskip t)
  · next ht =>
    rw [h] at ht
    cases ht
    rw [if_neg]
    simpa [Line.isTooDeep] using hdepth
  · next ht =>
    rw [h] at ht
    cases ht

theorem ofLines_header [Host] {node : Node} (h : Line.ofTrimmed line = .header header)
    (hnode : ofHeader inner header rest = .ok (node, rest')) :
    ofLines inner (line :: rest) = (ofLines inner rest').map (node :: ·) := by
  rw [ofLines]
  split
  · next ht =>
    rw [h] at ht
    cases ht
  · next ht =>
    rw [h] at ht
    cases ht
  · next ht =>
    rw [h] at ht
    cases ht
    split
    · next hn =>
      rw [hnode] at hn
      cases hn
      rfl
    · next hn =>
      rw [hnode] at hn
      cases hn
    · next hn =>
      rw [hnode] at hn
      cases hn

theorem ofHeader_during {c : Condition} (hhead : header.head = .during c)
    (hbody : body inner header rest = .ok (nodes, rest')) :
    ofHeader inner header rest = .ok (.during c nodes header.line, rest') := by
  simp only [ofHeader, hhead, hbody]

theorem ofHeader_ifEqual {c : Condition} {others : Alternative} {rest'' : List Text}
    (hhead : header.head = .ifEqual c) (hbody : body inner header rest = .ok (nodes, rest'))
    (hothers : alternatives inner rest' = .ok (others, rest'')) :
    ofHeader inner header rest = .ok (.conditional c nodes others header.line, rest'') := by
  simp only [ofHeader, hhead, hbody, hothers]

theorem alternatives_elseIf {c : Condition} {others : Alternative} {rest'' : List Text}
    (hd : lines.dropWhile List.isEmpty = line :: rest) (h : Line.ofTrimmed line = .header header)
    (hhead : header.head = .elseIfEqual c) (hbody : body inner header rest = .ok (nodes, rest'))
    (hothers : alternatives inner rest' = .ok (others, rest'')) :
    alternatives inner lines = .ok (.elseIf c nodes others, rest'') := by
  fun_cases alternatives inner lines <;> simp_all

theorem alternatives_otherwise (hd : lines.dropWhile List.isEmpty = line :: rest)
    (h : Line.ofTrimmed line = .header header) (hhead : header.head = .otherwise)
    (hbody : body inner header rest = .ok (nodes, rest')) :
    alternatives inner lines = .ok (.otherwise nodes, rest') := by
  fun_cases alternatives inner lines <;> simp_all

/-- No branch of a conditional follows. -/
def Detached (lines : List Text) : Prop := ∀ inner, alternatives inner lines = .ok (.none, lines)

theorem detached_nil : Detached [] := by
  intro inner
  rw [alternatives]
  rfl

theorem detached_cons (hne : line ≠ [])
    (h : ∀ header, Line.ofTrimmed line = .header header →
      header.head ≠ .otherwise ∧ ∀ c, header.head ≠ .elseIfEqual c) (rest : List Text) :
    Detached (line :: rest) := by
  intro inner
  fun_cases alternatives inner (line :: rest) <;> simp_all

end Node

/-! ## Lines and outlines -/

/-- A line that is a statement, opens no block and closes none. -/
structure Leaf [Host] where
  line : Text
  statement : Statement
  trimmed : Text.trim line = line
  read : Line.ofText line = .statement statement
  not_skip : ∀ skipped, statement ≠ .skip skipped
  not_opens : Block.opens line = false
  not_closes : Block.closes line = false
  loopDepth_le : statement.loopDepth ≤ Host.loops

/-- A line that is a header with the head given, with its block on the lines that follow. -/
structure Opening (head : Head) where
  line : Text
  trimmed : Text.trim line = line
  read : Line.ofText line = .header ⟨head, none, line⟩

/-- How the header of a further branch follows the branch before. -/
inductive Joint
  /-- On the line that closes the branch before. -/
  | closing
  /-- On a line of its own, after the line that closes the branch before and blank lines. -/
  | ownLine (blanks : List Text) (h : ∀ line ∈ blanks, Text.trim line = [])

mutual

inductive Outline [Host]
  | leaf (l : Leaf)
  | during {c : Condition} (header : Opening (.during c)) (body : List Outline)
  | chain {c : Condition} (header : Opening (.ifEqual c)) (body : List Outline) (rest : Branches)

/-- The further branches of a conditional. -/
inductive Branches [Host]
  | none
  | otherwise (joint : Joint) (header : Opening .otherwise) (body : List Outline)
  | elseIf {c : Condition} (joint : Joint) (header : Opening (.elseIfEqual c)) (body : List Outline)
    (rest : Branches)

end

/-- The line that closes a block. -/
def closingLine : Text := ['\x7d']

/-- The lines from the one that closes the branch before up to the header. -/
def Joint.lines (header : Text) : Joint → List Text
  | .closing => [closingLine ++ ' ' :: header]
  | .ownLine blanks _ => closingLine :: blanks ++ [header]

mutual

/-- The lines of an outline. -/
def Outline.lines [Host] : Outline → List Text
  | .leaf l => [l.line]
  | .during header body => header.line :: Outline.linesAll body ++ [closingLine]
  | .chain header body rest => header.line :: Outline.linesAll body ++ rest.lines

/-- The lines of further branches, from the one that closes the branch before. -/
def Branches.lines [Host] : Branches → List Text
  | .none => [closingLine]
  | .otherwise joint header body =>
    joint.lines header.line ++ Outline.linesAll body ++ [closingLine]
  | .elseIf joint header body rest => joint.lines header.line ++ Outline.linesAll body ++ rest.lines

def Outline.linesAll [Host] : List Outline → List Text
  | [] => []
  | o :: os => o.lines ++ Outline.linesAll os

end

mutual

/-- The tree that an outline lays out. -/
def Outline.node [Host] : Outline → Node
  | .leaf l => .statement l.statement
  | .during (c := c) header body => .during c (Outline.nodes body) header.line
  | .chain (c := c) header body rest =>
    .conditional c (Outline.nodes body) rest.alternative header.line

def Branches.alternative [Host] : Branches → Alternative
  | .none => .none
  | .otherwise _ _ body => .otherwise (Outline.nodes body)
  | .elseIf (c := c) _ _ body rest => .elseIf c (Outline.nodes body) rest.alternative

def Outline.nodes [Host] : List Outline → List Node
  | [] => []
  | o :: os => o.node :: Outline.nodes os

end

mutual

/-- How many blocks are one inside the other. -/
def Outline.depth [Host] : Outline → Nat
  | .leaf _ => 0
  | .during _ body => Outline.depthAll body + 1
  | .chain _ body rest => max (Outline.depthAll body + 1) rest.depth

def Branches.depth [Host] : Branches → Nat
  | .none => 0
  | .otherwise _ _ body => Outline.depthAll body + 1
  | .elseIf _ _ body rest => max (Outline.depthAll body + 1) rest.depth

def Outline.depthAll [Host] : List Outline → Nat
  | [] => 0
  | o :: os => max o.depth (Outline.depthAll os)

end

theorem Line.ne_nil_of_ofTrimmed {line : Text} (h : ∀ t, ofTrimmed line ≠ .statement (.skip t)) :
    line ≠ [] := by
  rintro rfl
  refine h [] ?_
  rw [ofTrimmed]
  rfl

namespace Leaf

variable [Host] (l : Leaf)

theorem ofTrimmed_line : Line.ofTrimmed l.line = .statement l.statement := l.trimmed ▸ l.read

theorem line_ne_nil : l.line ≠ [] := by
  refine Line.ne_nil_of_ofTrimmed fun t ht => ?_
  rw [l.ofTrimmed_line] at ht
  exact l.not_skip t (Line.statement.inj ht)

end Leaf

namespace Opening

variable {head : Head} (header : Opening head)

theorem ofTrimmed_line : Line.ofTrimmed header.line = .header ⟨head, none, header.line⟩ := by
  rw [← header.read, Line.ofText, header.trimmed]

theorem line_ne_nil : header.line ≠ [] := by
  refine Line.ne_nil_of_ofTrimmed fun t ht => ?_
  rw [header.ofTrimmed_line] at ht
  cases ht

theorem detached_line (helse : head ≠ .otherwise) (hif : ∀ c, head ≠ .elseIfEqual c)
    (rest : List Text) :
    Node.Detached (header.line :: rest) := by
  refine Node.detached_cons header.line_ne_nil (fun h hh => ?_) rest
  rw [header.ofTrimmed_line] at hh
  cases hh
  exact ⟨helse, hif⟩

theorem shifts_line : Block.Shifts [header.line] 0 1 := by
  have h := Block.shifts_of_not_closes (Line.closes_of_header header.trimmed header.ofTrimmed_line)
  rwa [Line.opens_of_header header.trimmed header.ofTrimmed_line] at h

end Opening

theorem shifts_closingLine : Block.Shifts [closingLine] 1 0 := Block.shifts_of_closes rfl

theorem trim_closingLine : Text.trim closingLine = closingLine := rfl

theorem Node.afterClosing_closingLine (rest : List Text) : afterClosing closingLine rest = rest :=
  rfl

namespace Joint

variable {head : Head} (header : Opening head)

theorem getLast?_closing_header :
    (closingLine ++ ' ' :: header.line).getLast? = header.line.getLast? := by
  obtain ⟨c, t, hline⟩ := List.exists_cons_of_ne_nil header.line_ne_nil
  rw [hline, closingLine, List.singleton_append, List.getLast?_cons_cons, List.getLast?_cons_cons]

/-- The line that closes a branch and holds the header of the next has no blanks at its ends. -/
theorem trim_closing_header :
    Text.trim (closingLine ++ ' ' :: header.line) = closingLine ++ ' ' :: header.line := by
  have hstart : Text.trimStart (closingLine ++ ' ' :: header.line) =
      closingLine ++ ' ' :: header.line :=
    Text.trimStart_cons_of_not_isBlank rfl _
  rw [Text.trim, hstart]
  refine Text.trimEnd_eq_self fun c hc => ?_
  rw [getLast?_closing_header] at hc
  exact Text.isBlank_getLast? header.trimmed hc

theorem afterClosing_closing_header (rest : List Text) :
    Node.afterClosing (closingLine ++ ' ' :: header.line) rest = header.line :: rest := by
  show (if (Text.trim (' ' :: header.line)).isEmpty then rest
    else Text.trim (' ' :: header.line) :: rest) = _
  rw [Text.trim_cons_of_isBlank rfl, header.trimmed, if_neg]
  simpa using header.line_ne_nil

theorem map_trim_blanks {blanks : List Text} (h : ∀ line ∈ blanks, Text.trim line = []) :
    ∀ line ∈ blanks.map Text.trim, line = [] := by
  intro line hline
  obtain ⟨blank, hb, rfl⟩ := List.mem_map.1 hline
  exact h blank hb

/-- Whichever way the header of a branch follows the branch before, it is the first line that is not
blank after the brace. -/
theorem exists_closing (joint : Joint) :
    ∃ closing more, (joint.lines header.line).map Text.trim = closing :: more ∧
    Block.closes closing = true ∧
      ∀ rest, (Node.afterClosing closing (more ++ rest)).dropWhile List.isEmpty =
        header.line :: rest := by
  have hdrop (rest : List Text) : (header.line :: rest).dropWhile List.isEmpty =
      header.line :: rest :=
    List.dropWhile_cons_of_neg (by simpa using header.line_ne_nil)
  cases joint with
  | closing =>
    refine ⟨_, [], by rw [lines, List.map_singleton, trim_closing_header], rfl, fun rest => ?_⟩
    rw [List.nil_append, afterClosing_closing_header, hdrop]
  | ownLine blanks h =>
    refine ⟨closingLine, blanks.map Text.trim ++ [header.line], ?_, rfl, fun rest => ?_⟩
    · simp [lines, trim_closingLine, header.trimmed]
    · rw [Node.afterClosing_closingLine, List.append_assoc, List.singleton_append,
        List.dropWhile_append_of_pos, hdrop]
      intro line hline
      rw [map_trim_blanks h line hline]
      rfl

theorem shifts_lines (joint : Joint) :
    Block.Shifts ((joint.lines header.line).map Text.trim) 1 1 := by
  cases joint with
  | closing =>
    have hopens : Block.opens (closingLine ++ ' ' :: header.line) = true := by
      rw [Block.opens, getLast?_closing_header]
      exact Line.opens_of_header header.trimmed header.ofTrimmed_line
    have h : Block.Shifts [closingLine ++ ' ' :: header.line] 1 _ := Block.shifts_of_closes rfl
    rw [hopens] at h
    rwa [lines, List.map_singleton, trim_closing_header]
  | ownLine blanks h =>
    have hblanks : Block.Shifts (blanks.map Text.trim) 0 0 := by
      refine Block.shifts_of_forall fun line hline => ?_
      rw [map_trim_blanks h line hline]
      exact Block.shifts_of_not_closes rfl
    have hall := (shifts_closingLine.append hblanks).append header.shifts_line
    simpa [lines, trim_closingLine, header.trimmed] using hall

end Joint

/-! ## Reading the layout -/

namespace Outline

theorem map_trim_during [Host] {c : Condition} (header : Opening (.during c))
    (body : List Outline) :
    (during header body).lines.map Text.trim =
      header.line :: ((linesAll body).map Text.trim ++ [closingLine]) := by
  simp [lines, header.trimmed, trim_closingLine]

theorem map_trim_chain [Host] {c : Condition} (header : Opening (.ifEqual c))
    (body : List Outline) (rest : Branches) :
    (chain header body rest).lines.map Text.trim =
      header.line :: ((linesAll body).map Text.trim ++ rest.lines.map Text.trim) := by
  simp [lines, header.trimmed]

end Outline

mutual

/-- The lines of an outline close as many blocks as they open. -/
theorem Outline.shifts_lines [Host] (o : Outline) : Block.Shifts (o.lines.map Text.trim) 0 0 := by
  cases o with
  | leaf l =>
    have h := Block.shifts_of_not_closes l.not_closes
    rw [l.not_opens] at h
    rwa [Outline.lines, List.map_singleton, l.trimmed]
  | during header body =>
    rw [Outline.map_trim_during]
    exact header.shifts_line.append ((Outline.shifts_linesAll body).succ.append shifts_closingLine)
  | chain header body rest =>
    rw [Outline.map_trim_chain]
    exact header.shifts_line.append ((Outline.shifts_linesAll body).succ.append rest.shifts_lines)

theorem Branches.shifts_lines [Host] (b : Branches) : Block.Shifts (b.lines.map Text.trim) 1 0 := by
  cases b with
  | none => exact shifts_closingLine
  | otherwise joint header body =>
    rw [Branches.lines, List.map_append, List.map_append]
    exact ((joint.shifts_lines header).append (Outline.shifts_linesAll body).succ).append
      shifts_closingLine
  | elseIf joint header body rest =>
    rw [Branches.lines, List.map_append, List.map_append]
    exact ((joint.shifts_lines header).append (Outline.shifts_linesAll body).succ).append
      rest.shifts_lines

theorem Outline.shifts_linesAll [Host] (os : List Outline) :
    Block.Shifts ((Outline.linesAll os).map Text.trim) 0 0 := by
  cases os with
  | nil => exact Block.shifts_nil 0
  | cons o os =>
    rw [Outline.linesAll, List.map_append]
    exact o.shifts_lines.append (Outline.shifts_linesAll os)

end

/-- No branch of a conditional follows before an outline or at the end. -/
theorem Outline.detached_linesAll [Host] (os : List Outline) :
    Node.Detached ((linesAll os).map Text.trim) := by
  cases os with
  | nil => exact Node.detached_nil
  | cons o os =>
    rw [linesAll, List.map_append]
    cases o with
    | leaf l =>
      rw [lines, List.map_singleton, l.trimmed]
      refine Node.detached_cons l.line_ne_nil (fun header h => ?_) _
      rw [l.ofTrimmed_line] at h
      cases h
    | during header body =>
      rw [map_trim_during]
      exact header.detached_line (by simp) (by simp) _
    | chain header body rest =>
      rw [map_trim_chain]
      exact header.detached_line (by simp) (by simp) _

mutual

/-- An outline is read as its tree, and what follows it as if it stood alone. -/
theorem Outline.ofLines_lines [Host] (o : Outline) {depth : Nat} (h : o.depth ≤ depth)
    {rest : List Text} (hrest : Node.Detached rest) :
    Node.ofLines (Node.ofLinesWithin depth) (o.lines.map Text.trim ++ rest) =
      (Node.ofLines (Node.ofLinesWithin depth) rest).map (o.node :: ·) := by
  cases o with
  | leaf l =>
    rw [Outline.lines, List.map_singleton, l.trimmed]
    exact Node.ofLines_statement l.ofTrimmed_line l.not_skip l.loopDepth_le rest
  | during header body =>
    rw [Outline.map_trim_during, List.cons_append, List.append_assoc, List.singleton_append]
    refine Node.ofLines_header header.ofTrimmed_line (Node.ofHeader_during rfl ?_)
    exact Node.body_of_shifts rfl (Outline.shifts_linesAll body) rfl
      (Outline.ofLinesWithin_linesAll body h) rest
  | chain header body branches =>
    obtain ⟨closing, more, heq, hc, halternatives⟩ :=
      branches.exists_closing (Nat.le_trans (Nat.le_max_right _ _) h) hrest
    have hbody := Outline.ofLinesWithin_linesAll body (Nat.le_trans (Nat.le_max_left _ _) h)
    rw [Outline.map_trim_chain, heq, List.cons_append, List.append_assoc, List.cons_append]
    refine Node.ofLines_header header.ofTrimmed_line (Node.ofHeader_ifEqual rfl ?_ halternatives)
    exact Node.body_of_shifts rfl (Outline.shifts_linesAll body) hc hbody (more ++ rest)

/-- The lines of further branches begin with one that closes the branch before, and what follows its
brace is read as the branches. -/
theorem Branches.exists_closing [Host] (b : Branches) {depth : Nat} (h : b.depth ≤ depth)
    {rest : List Text} (hrest : Node.Detached rest) :
    ∃ closing more, b.lines.map Text.trim = closing :: more ∧ Block.closes closing = true ∧
      Node.alternatives (Node.ofLinesWithin depth) (Node.afterClosing closing (more ++ rest)) =
        .ok (b.alternative, rest) := by
  cases b with
  | none => exact ⟨closingLine, [], rfl, rfl, hrest _⟩
  | otherwise joint header body =>
    obtain ⟨closing, more, heq, hc, hdrop⟩ := joint.exists_closing header
    have hbody := Outline.ofLinesWithin_linesAll body h
    refine ⟨closing, more ++ ((Outline.linesAll body).map Text.trim ++ [closingLine]), ?_, hc, ?_⟩
    · rw [Branches.lines, List.map_append, List.map_append, heq, List.append_assoc]
      rfl
    · rw [List.append_assoc, List.append_assoc]
      refine Node.alternatives_otherwise (hdrop _) header.ofTrimmed_line rfl ?_
      exact Node.body_of_shifts rfl (Outline.shifts_linesAll body) rfl hbody rest
  | elseIf joint header body branches =>
    -- The body ends at the first line of the branches that follow, which may be the header of one
    -- of them.
    obtain ⟨closing, more, heq, hc, hdrop⟩ := joint.exists_closing header
    obtain ⟨closing', more', heq', hc', halternatives⟩ :=
      branches.exists_closing (Nat.le_trans (Nat.le_max_right _ _) h) hrest
    have hbody := Outline.ofLinesWithin_linesAll body (Nat.le_trans (Nat.le_max_left _ _) h)
    refine ⟨closing, more ++ ((Outline.linesAll body).map Text.trim ++ closing' :: more'), ?_, hc,
      ?_⟩
    · rw [Branches.lines, List.map_append, List.map_append, heq, heq', List.append_assoc]
      rfl
    · rw [List.append_assoc, List.append_assoc]
      refine Node.alternatives_elseIf (hdrop _) header.ofTrimmed_line rfl ?_ halternatives
      exact Node.body_of_shifts rfl (Outline.shifts_linesAll body) hc' hbody (more' ++ rest)

theorem Outline.ofLinesWithin_linesAll [Host] (os : List Outline) {depth : Nat}
    (h : Outline.depthAll os < depth) :
    Node.ofLinesWithin depth ((Outline.linesAll os).map Text.trim) = some (Outline.nodes os) := by
  cases depth with
  | zero => cases h
  | succ depth =>
    rw [Node.ofLinesWithin]
    cases os with
    | nil =>
      rw [Outline.linesAll, List.map_nil, Node.ofLines]
      rfl
    | cons o os =>
      have ho : o.depth ≤ depth := Nat.le_of_lt_succ (Nat.lt_of_le_of_lt (Nat.le_max_left _ _) h)
      have hos := Outline.ofLinesWithin_linesAll os (Nat.lt_of_le_of_lt (Nat.le_max_right _ _) h)
      rw [Node.ofLinesWithin] at hos
      rw [Outline.linesAll, List.map_append, o.ofLines_lines ho (Outline.detached_linesAll os), hos]
      rfl

end

/-- Reading inverts layout: lines of outlines, with blocks not too deep, are read as exactly the
trees laid out. -/
theorem Outline.parse_linesAll [Host] (os : List Outline) (h : depthAll os < Host.blocks) :
    Node.parse (linesAll os) = some (nodes os) :=
  ofLinesWithin_linesAll os h

/-- A statement that ends in a bracket after a quoted brace. -/
def Leaf.quotedBrace : Leaf where
  line := "log('\x7d')".toList
  statement := .log "'\x7d'".toList "log('\x7d')".toList
  trimmed := by decide +kernel
  read := by decide +kernel
  not_skip := by simp
  not_opens := by decide
  not_closes := by decide
  loopDepth_le := by decide

/-- A loop in the first of three branches, the second on a closing line and the third after a blank
one. -/
def Outline.branching : List Outline :=
  let first : Opening (.ifEqual ⟨['1'], "[x]".toList⟩) :=
    ⟨"If <1> =? <[x]> \x7b".toList, by decide +kernel, by decide +kernel⟩
  let second : Opening (.elseIfEqual ⟨['2'], ['3']⟩) :=
    ⟨"Else If <2> =? <3>\x7b".toList, by decide +kernel, by decide +kernel⟩
  let third : Opening .otherwise := ⟨"Else \x7b".toList, by decide +kernel, by decide +kernel⟩
  let loop : Opening (.during ⟨['4'], ['5']⟩) :=
    ⟨"During <4> =? <5> \x7b".toList, by decide +kernel, by decide +kernel⟩
  [.leaf .quotedBrace, .chain first [.during loop [.leaf .quotedBrace], .leaf .quotedBrace]
    (.elseIf .closing second []
      (.otherwise (.ownLine [[' ']] (by decide)) third [.leaf .quotedBrace]))]

theorem Outline.parse_linesAll_branching :
    Node.parse (["log('\x7d')", "If <1> =? <[x]> \x7b", "During <4> =? <5> \x7b", "log('\x7d')",
      "\x7d", "log('\x7d')",
        "\x7d Else If <2> =? <3>\x7b", "\x7d", " ", "Else \x7b", "log('\x7d')", "\x7d"].map
          String.toList) =
      some [.statement Leaf.quotedBrace.statement,
        .conditional ⟨['1'], "[x]".toList⟩
          [.during ⟨['4'], ['5']⟩ [.statement Leaf.quotedBrace.statement]
            "During <4> =? <5> \x7b".toList, .statement Leaf.quotedBrace.statement]
          (.elseIf ⟨['2'], ['3']⟩ [] (.otherwise [.statement Leaf.quotedBrace.statement]))
          "If <1> =? <[x]> \x7b".toList] :=
  parse_linesAll branching (by decide)

end LineScript
