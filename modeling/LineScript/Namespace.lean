import LineScript.Failure
import LineScript.Value.Basic

/-!
# Namespaces

The names of a session and their values, in the order of the names. `get?_set_self` and
`get?_set_of_ne` say what an assignment does to the names.
-/

namespace LineScript

/-- Names with their values, ordered by name. -/
structure Namespace where
  entries : List (Text × Value) := []

namespace Namespace

/-- The value of the first entry of that name. -/
def lookup (name : Text) : List (Text × Value) → Option Value
  | [] => none
  | (key, v) :: entries => if key = name then some v else lookup name entries

/-- Gives `name` a value, in place or before the first greater name. -/
def insert (name : Text) (v : Value) : List (Text × Value) → List (Text × Value)
  | [] => [(name, v)]
  | (key, w) :: entries =>
    if key = name then (name, v) :: entries
    else if name < key then (name, v) :: (key, w) :: entries
    else (key, w) :: insert name v entries

def get? (ns : Namespace) (name : Text) : Option Value := lookup name ns.entries

def set (ns : Namespace) (name : Text) (v : Value) : Namespace := ⟨insert name v ns.entries⟩

theorem lookup_insert (name other : Text) (v : Value) (entries : List (Text × Value)) :
    lookup other (insert name v entries) = if name = other then some v
      else lookup other entries := by
  induction entries with
  | nil => simp [insert, lookup]
  | cons entry entries ih =>
    obtain ⟨key, w⟩ := entry
    simp only [insert]
    split
    · next h => subst h; simp only [lookup]; split <;> rfl
    · next h =>
      split
      · simp only [lookup]
      · simp only [lookup, ih]
        split
        · next hk => subst hk; rw [if_neg (Ne.symm h)]
        · rfl

@[simp] theorem get?_set_self (ns : Namespace) (name : Text) (v : Value) :
    (ns.set name v).get? name = some v := by
  simp [get?, set, lookup_insert]

theorem get?_set_of_ne (ns : Namespace) {name other : Text} (v : Value) (h : name ≠ other) :
    (ns.set name v).get? other = ns.get? other := by
  simp [get?, set, lookup_insert, h]

/-- The value of a variable. -/
def valueOf (ns : Namespace) (name : Text) : Except Failure Value :=
  match ns.get? name with
  | some v => .ok v
  | none => .error (.undefinedVariable name)

/-- The item of a list at an index in digits. Leading zeros do not count; an index with more digits
than the length of the list is out of range. -/
def itemOf (ns : Namespace) (name index : Text) : Except Failure Value :=
  match ns.get? name with
  | none => .error (.undefinedList name)
  | some (.list _ items) =>
    let digits := index.dropWhile (· == '0')
    if (Text.ofNat items.length).length < digits.length then
      .error (.outOfRange name index items.length)
    else
      match items[Text.digitsValue digits]? with
      | some v => .ok v
      | none => .error (.outOfRange name index items.length)
  | some _ => .error (.notAList name index)

end Namespace

end LineScript
