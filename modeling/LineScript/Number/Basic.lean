import LineScript.Double.Arithmetic
import LineScript.Host

/-!
# Numbers

A number is an integer or a double. Results of arithmetic are settled: an integer below `2 ^ 53` in
absolute value, and a double that is such an integer, is kept as an integer; everything else is a
double. Two integers are computed with exactly; an integer that meets a double is first rounded to
one, which fails if it is beyond the doubles. Quotients and remainders by zero, which have no
double, are settled before anything is divided.
-/

namespace LineScript

inductive Number
  | int (n : Int)
  | real (d : Double)
deriving DecidableEq

namespace Number

/-- Integers of this size and above are not kept as integers. -/
def safeBound : Nat := Nat.pow 2 53

/-- Whether arithmetic keeps `n` as an integer. -/
def isSafe (n : Int) : Bool := n.natAbs < safeBound

/-- Not a number. -/
def nan : Number := .real .nan

/-- The number as a double. -/
def toDouble : Number → Except Exception Double
  | .real d => .ok d
  | .int n => Exception.check .integer (.ofInt n)

/-- A double, as an integer if it is a safe one. -/
def ofDouble (d : Double) : Number :=
  match d.whole? with
  | some n => if isSafe n then .int n else .real d
  | none => .real d

/-- An integer, as a double unless it is safe. -/
def ofInt (n : Int) : Except Exception Number :=
  if isSafe n then .ok (.int n) else (toDouble (.int n)).map .real

/-- The number in the form in which results are kept. -/
def settle : Number → Except Exception Number
  | .int n => ofInt n
  | .real d => .ok (ofDouble d)

/-- Exact equality of values, across integers and doubles. -/
def equal : Number → Number → Bool
  | .int a, .int b => a == b
  | .int a, .real d => d.units? == some (a * Double.one)
  | .real d, .int b => d.units? == some (b * Double.one)
  | .real d, .real e => d.equal e

def isZero (n : Number) : Bool := n.equal (.int 0)

protected def neg : Number → Number
  | .int n => .int (-n)
  | .real d => .real d.neg

/-- Two integers by `exact`, anything else by `rounded`. -/
def combine (exact : Int → Int → Int) (rounded : Double → Double → Double) :
    Number → Number → Except Exception Number
  | .int a, .int b => ofInt (exact a b)
  | x, y => do return ofDouble (rounded (← x.toDouble) (← y.toDouble))

protected def add : Number → Number → Except Exception Number := combine (· + ·) Double.add

protected def sub : Number → Number → Except Exception Number := combine (· - ·) Double.sub

protected def mul : Number → Number → Except Exception Number := combine (· * ·) Double.mul

/-- The quotient of two integers, correctly rounded. -/
def ofQuotient (a b : Int) : Except Exception Number :=
  if b = 0 then .error (.zeroDivisor true)
  else (Exception.check .quotient (.ofRatio ((a < 0) != (b < 0)) a.natAbs b.natAbs)).map ofDouble

/-- The quotient by a zero: no number for a zero or no number, else the infinity of the sign of
both. -/
def overZero (x : Number) (divisorNegative : Bool) : Except Exception Number :=
  if x.isZero then .ok nan
  else do
    let d ← x.toDouble
    return if d.isNan then nan else .real (.infinite (d.isNegative != divisorNegative))

/-- Whether the number is written with a minus; only the double zero of a negative sign is and is
zero. -/
def isNegative : Number → Bool
  | .int n => n < 0
  | .real d => d.isNegative

protected def div (x y : Number) : Except Exception Number :=
  if y.isZero then overZero x y.isNegative
  else
    match x, y with
    | .int a, .int b => ofQuotient a b
    | x, y => do
      let quotient := (← x.toDouble).div? (← y.toDouble)
      return ofDouble (← Exception.ofOption (.zeroDivisor false) quotient)

/-- The remainder that has the sign of the dividend; none for a divisor zero or an infinite
dividend. -/
protected def rem (x y : Number) : Except Exception Number :=
  if y.isZero then .ok nan
  else do
    let d ← x.toDouble
    if d.isInfinite then return nan
    return ofDouble (← Exception.ofOption .domain (d.rem? (← y.toDouble)))

end Number

end LineScript
