import LineScript.Text.Basic

/-!
# Blanks

The white space of all scripts, the line feed included, and texts without blanks at their ends.
`trimEnd_eq` and `trim_eq` say which part of a text is kept.
-/

namespace LineScript.Text

/-- The blanks. -/
def blanks : Ranges := [
  (0x0009, 0x000D), (0x001C, 0x0020), (0x0085, 0x0085), (0x00A0, 0x00A0), (0x1680, 0x1680),
  (0x2000, 0x200A), (0x2028, 0x2029), (0x202F, 0x202F), (0x205F, 0x205F), (0x3000, 0x3000)]

/-- Whether `c` is white space. -/
def isBlank (c : Char) : Bool := blanks.has c

/-- The text after its leading blanks. -/
def trimStart (s : Text) : Text := s.dropWhile isBlank

/-- The text before its trailing blanks. A text that does not end in a blank is returned as it
is. -/
def trimEnd (s : Text) : Text :=
  if s.getLast?.any isBlank then (s.reverse.dropWhile isBlank).reverse else s

/-- The text between its leading and its trailing blanks. -/
def trim (s : Text) : Text := trimEnd (trimStart s)

theorem trimEnd_eq (s : Text) : trimEnd s = (s.reverse.dropWhile isBlank).reverse := by
  unfold trimEnd
  split
  · rfl
  · next h =>
    rw [← List.head?_reverse] at h
    cases hr : s.reverse with
    | nil => simp_all
    | cons c r =>
      rw [hr] at h
      simp only [List.head?_cons, Option.any_some, Bool.not_eq_true] at h
      rw [List.dropWhile_cons_of_neg (by simp [h]), ← hr, List.reverse_reverse]

theorem trim_eq (s : Text) :
    trim s = ((s.dropWhile isBlank).reverse.dropWhile isBlank).reverse := by
  rw [trim, trimEnd_eq, trimStart]

theorem length_trimStart_le (s : Text) : (trimStart s).length ≤ s.length :=
  (List.dropWhile_sublist _).length_le

theorem length_trimEnd_le (s : Text) : (trimEnd s).length ≤ s.length := by
  rw [trimEnd_eq, List.length_reverse]
  exact Nat.le_trans (List.dropWhile_sublist _).length_le (by simp)

theorem length_trim_le (s : Text) : (trim s).length ≤ s.length :=
  Nat.le_trans (length_trimEnd_le _) (length_trimStart_le _)

example : trim " 　a b\t\n".toList = "a b".toList := by decide

end LineScript.Text
