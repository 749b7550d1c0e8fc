import LineScript.Failure
import LineScript.Text.Blank

/-!
# Blocks of lines

A block is opened by a line that ends in an opening brace and closed by a later line. In between, a
line that ends in an opening brace opens an inner block and a closing line closes one; a line that
closes and opens does both. The functions here are given lines without blanks at their ends, except
for `Block.extract`.
-/

namespace LineScript.Block

/-- Whether a line opens a block. -/
def opens (line : Text) : Bool := line.getLast? == some '\x7b'

/-- Whether a line closes a block: it begins with a closing brace, or ends with one and has no
opening brace. -/
def closes (line : Text) : Bool :=
  line.head? == some '\x7d' || (line.getLast? == some '\x7d' && !line.contains '\x7b')

/-- The lines of a block, the line that closes it, and the lines after that. -/
structure Span where
  body : List Text
  closing : Text
  rest : List Text

/-- Puts a line before the lines of a block. -/
def Span.cons (line : Text) (s : Span) : Span := { s with body := line :: s.body }

/-- The block that the lines continue, with `inner` blocks open in it; none if it is not closed. -/
def split? : (inner : Nat) → List Text → Option Span
  | _, [] => none
  | inner, line :: rest =>
    if closes line then
      match inner with
      | 0 => some ⟨[], line, rest⟩
      | inner + 1 => (split? (if opens line then inner + 1 else inner) rest).map (Span.cons line)
    else (split? (if opens line then inner + 1 else inner) rest).map (Span.cons line)

/-- A block that is closed splits the lines at the one that closes it. -/
theorem eq_of_split? {inner : Nat} {lines : List Text} {s : Span}
    (h : split? inner lines = some s) :
    lines = s.body ++ s.closing :: s.rest := by
  induction lines generalizing inner s with
  | nil => simp [split?] at h
  | cons line rest ih =>
    simp only [split?] at h
    split at h
    · split at h
      · simp only [Option.some.injEq] at h
        subst h
        rfl
      · obtain ⟨t, ht, rfl⟩ := Option.map_eq_some_iff.1 h
        simpa [Span.cons] using ih ht
    · obtain ⟨t, ht, rfl⟩ := Option.map_eq_some_iff.1 h
      simpa [Span.cons] using ih ht

/-- The lines of the first block that opens at index `start` or later, and the index of the line
that closes it. -/
def extract (lines : List Text) (start : Nat) : Except Failure (List Text × Nat) :=
  let trimmed := (lines.drop start).map Text.trim
  match trimmed.dropWhile (!opens ·) with
  | [] => .error (.noBlock start)
  | header :: rest =>
    match split? 0 rest with
    | none => .error (.invalid header (.unclosed header))
    | some s => .ok (s.body, start + (trimmed.takeWhile (!opens ·)).length + 1 + s.body.length)

end LineScript.Block
