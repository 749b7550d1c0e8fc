/-!
# Texts and character ranges

A text is the list of its code points: lengths and columns count code points, and every scanner
walks the list. Classes of characters are given by ranges of code points.
-/

namespace LineScript

/-- A text, as the list of its code points. -/
abbrev Text := List Char

namespace Text

/-- Inclusive ranges of code points. -/
abbrev Ranges := List (Nat × Nat)

/-- Whether one of the ranges holds `c`. -/
def Ranges.has (rs : Ranges) (c : Char) : Bool := rs.any fun r => r.1 ≤ c.toNat && c.toNat ≤ r.2

end Text

end LineScript
