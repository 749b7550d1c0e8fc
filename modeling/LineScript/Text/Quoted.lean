import LineScript.Text.Printable

/-!
# Quoted texts

Messages quote a text between single quotes, or between double quotes if it holds a single quote and
no double one. The mark and the backslash are escaped, and so is what is not printable.
-/

namespace LineScript.Text

/-- The `width` last hexadecimal digits of `n`. -/
def hex (width n : Nat) : Text :=
  (List.range width).reverse.map fun i => Nat.digitChar (n / Nat.pow 16 i % 16)

/-- How `c` is written between two marks. -/
def escape (mark c : Char) : Text :=
  if c = mark ∨ c = '\\' then ['\\', c]
  else if c = '\t' then ['\\', 't']
  else if c = '\n' then ['\\', 'n']
  else if c = '\r' then ['\\', 'r']
  else if isPrintable c then [c]
  else if c.toNat < 0x100 then '\\' :: 'x' :: hex 2 c.toNat
  else if c.toNat < 0x10000 then '\\' :: 'u' :: hex 4 c.toNat
  else '\\' :: 'U' :: hex 8 c.toNat

/-- The mark that quotes `s`. -/
def quoteMark (s : Text) : Char := if s.contains '\x27' && !s.contains '"' then '"' else '\x27'

/-- The text `s` between quotes. -/
def quote (s : Text) : Text :=
  let mark := quoteMark s
  mark :: s.flatMap (escape mark) ++ [mark]

example : quote "a'b".toList = "\"a'b\"".toList ∧
    quote "a\n​".toList = "'a\\n\\u200b'".toList := by decide

end LineScript.Text
