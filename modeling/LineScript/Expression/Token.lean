import LineScript.Reference

/-!
# Tokens of expressions

An expression is cut into lexemes, each of the first form that fits where the one before ended;
blanks between them are dropped. `Lexeme.text` writes a lexeme as it was read
(`Lexeme.eq_append_of_scan?`), and a token adds the column at which it begins.
-/

namespace LineScript

inductive Symbol
  | plus
  | minus
  | times
  | over
  | modulo
  | opening
  | closing
deriving DecidableEq

namespace Symbol

def char : Symbol → Char
  | .plus => '+'
  | .minus => '-'
  | .times => '*'
  | .over => '/'
  | .modulo => '%'
  | .opening => '('
  | .closing => ')'

def ofChar? : Char → Option Symbol
  | '+' => some .plus
  | '-' => some .minus
  | '*' => some .times
  | '/' => some .over
  | '%' => some .modulo
  | '(' => some .opening
  | ')' => some .closing
  | _ => none

theorem char_of_ofChar? {c : Char} {s : Symbol} (h : ofChar? c = some s) : s.char = c := by
  unfold ofChar? at h
  split at h <;> simp at h <;> subst h <;> rfl

end Symbol

/-- The words of expressions; flags and null have a plain and a marked spelling. -/
inductive Word
  | markedTrue
  | markedFalse
  | markedNull
  | plainTrue
  | plainFalse
  | plainNull
  | infinity
  | nan
deriving DecidableEq

namespace Word

def text : Word → Text
  | .markedTrue => "_true_".toList
  | .markedFalse => "_false_".toList
  | .markedNull => "_maybe_".toList
  | .plainTrue => "true".toList
  | .plainFalse => "false".toList
  | .plainNull => "null".toList
  | .infinity => "Infinity".toList
  | .nan => "NaN".toList

def value : Word → Value
  | .markedTrue | .plainTrue => .flag true
  | .markedFalse | .plainFalse => .flag false
  | .markedNull | .plainNull => .null
  | .infinity => .number (.real (.infinite false))
  | .nan => .number .nan

def all : List Word :=
  [.markedTrue, .markedFalse, .markedNull, .plainTrue, .plainFalse, .plainNull, .infinity, .nan]

/-- The word a text begins with, and the rest. -/
def scan? (s : Text) :
    Option (Word × Text) := all.findSome? fun w => (Text.after? w.text s).map (w, ·)

theorem text_ne_nil (w : Word) : w.text ≠ [] := by cases w <;> decide

theorem eq_append_of_scan? {s rest : Text} {w : Word} (h : scan? s = some (w, rest)) :
    s = w.text ++ rest := by
  obtain ⟨v, _, hv⟩ := List.exists_of_findSome?_eq_some h
  simp only [Option.map_eq_some_iff, Prod.mk.injEq] at hv
  obtain ⟨r, hr, rfl, rfl⟩ := hv
  exact Text.eq_append_of_after? hr

end Word

inductive Lexeme
  | number (n : Numeral)
  /-- A text between two marks of the same kind. -/
  | quoted (mark : Char) (content : Text)
  | reference (r : Reference)
  | word (w : Word)
  | symbol (s : Symbol)
deriving DecidableEq

namespace Lexeme

def text : Lexeme → Text
  | .number n => n.text
  | .quoted mark content => mark :: content ++ [mark]
  | .reference r => r.text
  | .word w => w.text
  | .symbol s => [s.char]

/-- The quoted text that a text begins with, and the rest. -/
def scanQuoted? : Text → Option (Lexeme × Text)
  | [] => none
  | mark :: s =>
    if mark = '"' ∨ mark = '\x27' then
      match s.dropWhile (· != mark) with
      | _ :: rest => some (.quoted mark (s.takeWhile (· != mark)), rest)
      | [] => none
    else none

/-- The symbol that a text begins with, and the rest. -/
def scanSymbol? : Text → Option (Lexeme × Text)
  | [] => none
  | c :: s => (Symbol.ofChar? c).map fun symbol => (.symbol symbol, s)

/-- The lexeme that a text begins with, and the rest; the forms are tried in this order. -/
def scan? (s : Text) : Option (Lexeme × Text) :=
  (Numeral.scan? s).map (fun (n, rest) => (.number n, rest))
    <|> scanQuoted? s
    <|> (Reference.scan? s).map (fun (r, rest) => (.reference r.reread, rest))
    <|> (Word.scan? s).map (fun (w, rest) => (.word w, rest))
    <|> scanSymbol? s

/-- A reference that is cut up again is the reference that was scanned. -/
theorem scan?_eq (s : Text) :
    scan? s =
      ((Numeral.scan? s).map (fun (n, rest) => (.number n, rest))
        <|> scanQuoted? s
        <|> (Reference.scan? s).map (fun (r, rest) => (.reference r, rest))
        <|> (Word.scan? s).map (fun (w, rest) => (.word w, rest))
        <|> scanSymbol? s) := by
  have hreread : (Reference.scan? s).map (fun (r, rest) => (Lexeme.reference r.reread, rest)) =
      (Reference.scan? s).map (fun (r, rest) => (Lexeme.reference r, rest)) := by
    cases h : Reference.scan? s with
    | none => rfl
    | some found => simp only [Option.map_some, Reference.reread_of_scan? h]
  rw [scan?, hreread]

theorem eq_append_of_scanQuoted? {s rest : Text} {l : Lexeme} (h : scanQuoted? s = some (l, rest)) :
    s = l.text ++ rest ∧ l.text ≠ [] := by
  unfold scanQuoted? at h
  split at h
  · simp at h
  · next mark s =>
    split at h
    · split at h
      · next c tail hd =>
        simp only [Option.some.injEq, Prod.mk.injEq] at h
        obtain ⟨rfl, rfl⟩ := h
        have hc : c = mark := by
          have := List.head?_dropWhile_not (· != mark) s
          rw [hd] at this
          simpa using this
        have hs := List.takeWhile_append_dropWhile (p := (· != mark)) (l := s)
        rw [hd, hc] at hs
        refine ⟨?_, by simp [text]⟩
        simp [text, hs]
      · simp at h
    · simp at h

theorem eq_append_of_scanSymbol? {s rest : Text} {l : Lexeme} (h : scanSymbol? s = some (l, rest)) :
    s = l.text ++ rest ∧ l.text ≠ [] := by
  unfold scanSymbol? at h
  split at h
  · simp at h
  · simp only [Option.map_eq_some_iff, Prod.mk.injEq] at h
    obtain ⟨symbol, hs, rfl, rfl⟩ := h
    simp [text, Symbol.char_of_ofChar? hs]

/-- A scanned lexeme is what its text took from the front, and it took something. -/
theorem eq_append_of_scan? {s rest : Text} {l : Lexeme} (h : scan? s = some (l, rest)) :
    s = l.text ++ rest ∧ l.text ≠ [] := by
  simp only [scan?_eq, Option.orElse_eq_orElse, Option.orElse_eq_or, Option.or_eq_some_iff,
    Option.map_eq_some_iff, Prod.mk.injEq] at h
  rcases h with ⟨⟨n, r⟩, hn, rfl, rfl⟩ |
    ⟨-, h | ⟨-, ⟨⟨f, r⟩, hf, rfl, rfl⟩ | ⟨-, ⟨⟨w, r⟩, hw, rfl, rfl⟩ | ⟨-, h⟩⟩⟩⟩
  · exact Numeral.eq_append_of_scan? hn
  · exact eq_append_of_scanQuoted? h
  · exact Reference.eq_append_of_scan? hf
  · exact ⟨Word.eq_append_of_scan? hw, w.text_ne_nil⟩
  · exact eq_append_of_scanSymbol? h

theorem length_lt_of_scan? {s rest : Text} {l : Lexeme} (h : scan? s = some (l, rest)) :
    rest.length < s.length := by
  obtain ⟨rfl, hne⟩ := eq_append_of_scan? h
  have := List.length_pos_iff.2 hne
  simp only [List.length_append]
  omega

end Lexeme

/-- A lexeme at its column; columns count from one. -/
structure Token where
  lexeme : Lexeme
  column : Nat
deriving DecidableEq

namespace Token

/-- The tokens of a text that begins at `column`. -/
def scanFrom : (column : Nat) → (s : Text) → Except Failure (List Token)
  | _, [] => .ok []
  | column, c :: s =>
    if Text.isBlank c then scanFrom (column + 1) s
    else
      match h : Lexeme.scan? (c :: s) with
      | none => .error (.expression none (.character c) (some column))
      | some (lexeme, rest) =>
        have := Lexeme.length_lt_of_scan? h
        (scanFrom (column + lexeme.text.length) rest).map (⟨lexeme, column⟩ :: ·)
termination_by _ s => s.length
decreasing_by
  · simp
  · assumption

/-- The tokens of a text. -/
def scan (s : Text) : Except Failure (List Token) := scanFrom 1 s

end Token

end LineScript
