import LineScript.Double.Basic
import LineScript.Text.Digit

/-!
# Hosts

A script runs on a host that has bounds of its own: how deep things may be nested, how many digits
an integer may have, how long a pause can be. They differ from host to host, so a host is a
parameter of all that depends on it. What the host cannot do raises an exception.
-/

namespace LineScript

/-- What a computation without a result raises. -/
inductive Exception
  /-- An integer is beyond the doubles. -/
  | integer
  /-- The quotient of two integers is beyond the doubles. -/
  | quotient
  /-- A divisor is zero, of integers if `whole` and else of doubles. -/
  | zeroDivisor (whole : Bool)
  /-- The remainder by zero, or of an infinity. -/
  | domain
  /-- An integer has more than `limit` digits. -/
  | digits (limit : Nat)
  /-- A clock that is infinite, or no number, has no whole milliseconds. -/
  | clock (infinite : Bool)
  /-- The host does not make a pause. -/
  | pause (message : Text)
deriving DecidableEq

namespace Exception

def message : Exception → Text
  | .integer => "int too large to convert to float".toList
  | .quotient => "integer division result too large for a float".toList
  | .zeroDivisor whole => (if whole then "division by zero" else "float division by zero").toList
  | .domain => "math domain error".toList
  | .digits limit =>
    "Exceeds the limit (".toList ++ Text.ofNat limit ++
      (" digits) for integer string conversion; " ++
        "use sys.set_int_max_str_digits() to increase the limit").toList
  | .clock infinite =>
    (if infinite then "cannot convert float infinity to integer"
      else "cannot convert float NaN to integer").toList
  | .pause message => message

/-- Whether an expression reports the exception as a failure of its own. -/
def isReported : Exception → Bool
  | .zeroDivisor _ | .pause _ => false
  | _ => true

/-- The double, unless it is infinite. -/
def check (e : Exception) : Double → Except Exception Double
  | .infinite _ => .error e
  | d => .ok d

/-- A result that may be missing. -/
def ofOption {α : Type} (e : Exception) : Option α → Except Exception α
  | some a => .ok a
  | none => .error e

end Exception

/-- The bounds of a host. -/
class Host where
  /-- How deep blocks may be nested. -/
  blocks : Nat
  /-- How many loops may stand one in the other. -/
  loops : Nat
  /-- How many signs and brackets of an expression may stand one in the other. -/
  brackets : Nat
  /-- How deep lists may be nested to be written. -/
  lists : Nat
  /-- How many digits an integer may have to be written or read, if that is bounded. -/
  digits : Option Nat
  /-- Why a pause of so many seconds is not made, if it is not. -/
  refusal? : Double → Option Text
  /-- A script without blocks can be read. -/
  blocks_pos : 0 < blocks
  /-- A number under a sign can be read. -/
  two_le_brackets : 2 ≤ brackets
  /-- No bound on digits is lower. -/
  le_digits : ∀ limit ∈ digits, 640 ≤ limit

namespace Host

/-- The bound on digits that a number of them exceeds. -/
def exceeded? [Host] (length : Nat) : Option Nat := digits.filter (· < length)

/-- Why the usual host does not make a pause: it counts nanoseconds with 63 bits. -/
def usualRefusal? (seconds : Double) : Option Text :=
  let tooLong := "timestamp too large to convert to C _PyTime_t".toList
  let negative := "sleep length must be non-negative".toList
  match seconds with
  | .nan => some "Invalid value NaN (not a number)".toList
  | .infinite true => some negative
  | .infinite false => some tooLong
  | .finite true m => if m.units = 0 then none else some negative
  | .finite false m =>
    if Nat.pow 2 63 * Double.one ≤ m.units * 1000000000 then some tooLong else none

/-- A host as it usually is. -/
instance usual : Host where
  blocks := 1000
  loops := 1000
  brackets := 1000
  lists := 1000
  digits := some 4300
  refusal? := usualRefusal?
  blocks_pos := by decide
  two_le_brackets := by decide
  le_digits := by simp

end Host

/-- An integer as it is written, unless it has too many digits. -/
def Text.write? [Host] (n : Int) : Except Exception Text :=
  match Host.exceeded? (Text.ofNat n.natAbs).length with
  | some limit => .error (.digits limit)
  | none => .ok (Text.ofInt n)

end LineScript
