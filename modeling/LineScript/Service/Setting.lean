import LineScript.Number.Layout
import LineScript.Number.Numeral
import LineScript.Service.Datum
import LineScript.Session.Basic
import LineScript.Text.Quoted

/-!
# Settings

A request may ask for lower limits than the server's. What it asks for is read as a whole number,
from numbers and from texts alike, and clamped: a setting is at least one and at most the server's.
-/

namespace LineScript

/-- Why a datum is no whole number. -/
inductive Refusal
  | nan
  | infinite
  /-- The text is no number. -/
  | malformed (s : Text)
  /-- The text has `length` digits, more than `limit`. -/
  | tooManyDigits (limit length : Nat)
  | null
  | list
  | record
deriving DecidableEq

namespace Refusal

/-- How many characters of a malformed text a message shows. -/
def shownLength : Nat := 200

/-- The message about a datum of a kind that has no number. -/
def kindMessage (kind : Text) : Text :=
  "int() argument must be a string, a bytes-like object or a real number, not '".toList ++
    kind ++ ['\x27']

def message : Refusal → Text
  | .nan => "cannot convert float NaN to integer".toList
  | .infinite => "cannot convert float infinity to integer".toList
  | .malformed s =>
    "invalid literal for int() with base 10: ".toList ++ (Text.quote s).take shownLength
  | .tooManyDigits limit length =>
    "Exceeds the limit (".toList ++ Text.ofNat limit ++
      " digits) for integer string conversion: value has ".toList ++ Text.ofNat length ++
      " digits; use sys.set_int_max_str_digits() to increase the limit".toList
  | .null => kindMessage "NoneType".toList
  | .list => kindMessage "list".toList
  | .record => kindMessage "dict".toList

end Refusal

namespace Setting

/-- Whether `c` may stand before and after a number in a text; the separators of ASCII may not. -/
def isSpace (c : Char) : Bool := Text.isBlank c && !(0x1C ≤ c.toNat && c.toNat ≤ 0x1F)

/-- Whether a low line stands only between two digits, given whether a digit stands before. -/
def isGrouped : (afterDigit : Bool) → Text → Bool
  | afterDigit, [] => afterDigit
  | afterDigit, c :: s => if c = '_' then afterDigit && isGrouped false s else isGrouped true s

variable [Host]

/-- The whole number that a text is: digits of any script, with single low lines between them, after
an optional sign. -/
def ofText (s : Text) : Except Refusal Int :=
  let signed := Sign.scan (s.dropWhile isSpace)
  let isPart := fun c => Text.isDigit c || c == '_'
  let grouped := signed.2.takeWhile isPart
  let digits := grouped.filter Text.isDigit
  if !isGrouped false grouped then .error (.malformed s)
  else
    match Host.exceeded? digits.length with
    | some limit => .error (.tooManyDigits limit digits.length)
    | none =>
      if !((signed.2.dropWhile isPart).dropWhile isSpace).isEmpty then .error (.malformed s)
      else
        let n : Int := Text.digitsValue digits
        .ok (if signed.1 = some .minus then -n else n)

/-- The whole number that a datum is; a fraction is cut off. -/
def toInt : Datum → Except Refusal Int
  | .null => .error .null
  | .flag b => .ok (if b then 1 else 0)
  | .int n => .ok n
  | .real d =>
    match d.truncate? with
    | some n => .ok n
    | none => .error (if d.isNan then .nan else .infinite)
  | .text s => ofText s
  | .list _ => .error .list
  | .record _ => .error .record

/-- A limit that settings ask for, clamped to the server's. -/
def clamp (settings : List (Text × Datum)) (name : Text) (ceiling : Int) : Except Refusal Int := do
  let n ← ((Datum.lookup name settings).map toInt).getD (.ok ceiling)
  return max 1 (min n ceiling)

end Setting

/-- The limits that settings ask for, no higher than the server's; without settings they are the
server's. -/
def Limits.capped [Host] (server : Limits) (settings : List (Text × Datum)) :
    Except Refusal Limits :=
  if settings.isEmpty then .ok server
  else do
    let during ← Setting.clamp settings "max_during_iterations".toList server.during
    let loop ← Setting.clamp settings "max_for_iterations".toList server.loop
    let wait ← Setting.clamp settings "max_wait_ms".toList server.wait
    return ⟨during, loop, wait⟩

end LineScript
