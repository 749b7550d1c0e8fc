import LineScript.Number.Basic

/-!
# Data

The structured data that a request carries: whole numbers and doubles are distinct, and the fields
of a record have an order.
-/

namespace LineScript

inductive Datum
  | null
  | flag (b : Bool)
  | int (n : Int)
  | real (d : Double)
  | text (s : Text)
  | list (items : List Datum)
  | record (fields : List (Text × Datum))
deriving Inhabited

namespace Datum

/-- The last field of that name. -/
def lookup (name : Text) (fields : List (Text × Datum)) : Option Datum :=
  (fields.reverse.find? fun f => f.1 = name).map (·.2)

end Datum

end LineScript
