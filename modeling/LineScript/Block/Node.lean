import LineScript.Block.Extract
import LineScript.Line.Dialect

/-!
# Trees of scripts

The lines of a script as a tree: statements, conditionals with their chain of alternatives, and
loops over blocks. A line that makes no sense becomes a node as well, which fails when it is
executed. A block that is never closed ends the list of nodes in which its line stands. Blocks may
be nested only so deep.
-/

namespace LineScript

mutual

/-- A node of the tree of a script. -/
inductive Node
  | statement (s : Statement)
  | conditional (condition : Condition) (body : List Node) (rest : Alternative) (line : Text)
  | during (condition : Condition) (body : List Node) (line : Text)
  /-- An `Else` or `Else If` that follows no `If`. -/
  | dangling (line : Text) (elseIf : Bool)

/-- What follows the first branch of a conditional. -/
inductive Alternative
  | none
  | otherwise (body : List Node)
  | elseIf (condition : Condition) (body : List Node) (rest : Alternative)

end

namespace Node

/-- Why a block cannot be read. -/
inductive Interruption
  | tooDeep
  | unclosed (header : Text)

/-- The lines after a closing line. What follows its brace is a line of its own. -/
def afterClosing (closing : Text) (rest : List Text) : List Text :=
  match closing with
  | '\x7d' :: remainder =>
    let line := Text.trim remainder
    if line.isEmpty then rest else line :: rest
  | _ => rest

/-- The nodes of the block that a header opens, and the lines after it; `inner` reads the lines of
the block. -/
def body (inner : List Text → Option (List Node)) (header : Header) (rest : List Text) :
    Except Interruption (List Node × List Text) :=
  match header.inline with
  | some line =>
    match inner (if line.isEmpty then [] else [line]) with
    | some nodes => .ok (nodes, rest)
    | none => .error .tooDeep
  | none =>
    match Block.split? 0 rest with
    | none => .error (.unclosed header.line)
    | some span =>
      match inner span.body with
      | some nodes => .ok (nodes, afterClosing span.closing span.rest)
      | none => .error .tooDeep

theorem length_afterClosing_le (closing : Text) (rest : List Text) :
    (afterClosing closing rest).length ≤ rest.length + 1 := by
  unfold afterClosing
  split
  · dsimp only
    split <;> simp
  · simp

theorem length_le_of_body {inner : List Text → Option (List Node)} {header : Header}
    {lines rest : List Text} {nodes : List Node} (h : body inner header lines = .ok (nodes, rest)) :
    rest.length ≤ lines.length := by
  unfold body at h
  split at h
  · split at h
    · simp only [Except.ok.injEq, Prod.mk.injEq] at h
      simp [h.2]
    · simp at h
  · split at h
    · simp at h
    · next span hs =>
      split at h
      · simp only [Except.ok.injEq, Prod.mk.injEq] at h
        obtain ⟨-, rfl⟩ := h
        have h1 := length_afterClosing_le span.closing span.rest
        have h2 := congrArg List.length (Block.eq_of_split? hs)
        simp only [List.length_append, List.length_cons] at h2
        omega
      · simp at h

/-- The alternatives of a conditional, and the lines after them. Empty lines may stand before
each. -/
def alternatives (inner : List Text → Option (List Node)) (lines : List Text) :
    Except Interruption (Alternative × List Text) :=
  match hl : lines.dropWhile List.isEmpty with
  | [] => .ok (.none, lines)
  | line :: rest =>
    have hlt : rest.length < lines.length := by
      have := (List.dropWhile_sublist (l := lines) List.isEmpty).length_le
      rw [hl] at this
      exact this
    match Line.ofTrimmed line with
    | .header header =>
      match header.head with
      | .elseIfEqual condition =>
        match hb : body inner header rest with
        | .error e => .error e
        | .ok (nodes, rest') =>
          have := Nat.lt_of_le_of_lt (length_le_of_body hb) hlt
          match alternatives inner rest' with
          | .error e => .error e
          | .ok (others, rest'') => .ok (.elseIf condition nodes others, rest'')
      | .otherwise =>
        match body inner header rest with
        | .error e => .error e
        | .ok (nodes, rest') => .ok (.otherwise nodes, rest')
      | _ => .ok (.none, lines)
    | .statement _ => .ok (.none, lines)
termination_by lines.length

theorem length_le_of_alternatives {inner : List Text → Option (List Node)}
    {lines rest : List Text} {a : Alternative} (h : alternatives inner lines = .ok (a, rest)) :
    rest.length ≤ lines.length := by
  fun_induction alternatives inner lines generalizing a rest with
  | case1 | case7 | case8 => simp_all
  | case2 | case3 | case5 => simp at h
  | case4 lines line tail hl hlt header hh condition hc nodes rest' hb this others rest'' ho ih =>
    simp only [Except.ok.injEq, Prod.mk.injEq] at h
    obtain ⟨-, rfl⟩ := h
    exact Nat.le_trans (ih ho) (Nat.le_of_lt this)
  | case6 lines line tail hl hlt header hh ho nodes rest' hb =>
    simp only [Except.ok.injEq, Prod.mk.injEq] at h
    obtain ⟨-, rfl⟩ := h
    exact Nat.le_of_lt (Nat.lt_of_le_of_lt (length_le_of_body hb) hlt)

/-- The node that a header begins, and the lines after it. -/
def ofHeader (inner : List Text → Option (List Node)) (header : Header) (rest : List Text) :
    Except Interruption (Node × List Text) :=
  match header.head with
  | .ifEqual condition =>
    match body inner header rest with
    | .error e => .error e
    | .ok (nodes, rest) =>
      match alternatives inner rest with
      | .error e => .error e
      | .ok (others, rest) => .ok (.conditional condition nodes others header.line, rest)
  | .during condition =>
    match body inner header rest with
    | .error e => .error e
    | .ok (nodes, rest) => .ok (.during condition nodes header.line, rest)
  | .elseIfEqual _ => .ok (.dangling header.line true, rest)
  | .otherwise => .ok (.dangling header.line false, rest)

theorem length_le_of_ofHeader {inner : List Text → Option (List Node)} {header : Header}
    {lines rest : List Text} {node : Node} (h : ofHeader inner header lines = .ok (node, rest)) :
    rest.length ≤ lines.length := by
  unfold ofHeader at h
  split at h
  · split at h
    · simp at h
    · next nodes r hb =>
      split at h
      · simp at h
      · next others r' ha =>
        simp only [Except.ok.injEq, Prod.mk.injEq] at h
        obtain ⟨-, rfl⟩ := h
        exact Nat.le_trans (length_le_of_alternatives ha) (length_le_of_body hb)
  · split at h
    · simp at h
    · next nodes r hb =>
      simp only [Except.ok.injEq, Prod.mk.injEq] at h
      obtain ⟨-, rfl⟩ := h
      exact length_le_of_body hb
  · simp_all
  · simp_all

/-- The nodes of lines without blanks at their ends; `inner` reads the lines of a block. None if
something is nested too deep. -/
def ofLines [Host] (inner : List Text → Option (List Node)) : List Text → Option (List Node)
  | [] => some []
  | line :: rest =>
    match Line.ofTrimmed line with
    | .statement (.skip _) => ofLines inner rest
    | .statement s =>
      if (Line.statement s).isTooDeep then none else (ofLines inner rest).map (.statement s :: ·)
    | .header header =>
      match h : ofHeader inner header rest with
      | .ok (node, rest') =>
        have := Nat.lt_succ_of_le (length_le_of_ofHeader h)
        (ofLines inner rest').map (node :: ·)
      | .error (.unclosed opener) => some [.statement (.invalid header.line (.unclosed opener))]
      | .error .tooDeep => none
termination_by lines => lines.length

/-- The nodes of lines without blanks at their ends, with blocks at most `depth` deep. -/
def ofLinesWithin [Host] : (depth : Nat) → List Text → Option (List Node)
  | 0 => fun _ => none
  | depth + 1 => ofLines (ofLinesWithin depth)

/-- The tree of a script; none if something in it is nested too deep. -/
def parse [Host] (lines : List Text) : Option (List Node) :=
  ofLinesWithin Host.blocks (lines.map Text.trim)

end Node

end LineScript
