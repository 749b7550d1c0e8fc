import LineScript.Double.Basic

/-!
# Arithmetic of doubles

Each operation computes the exact result in units and rounds it once.
-/

namespace LineScript.Double

protected def neg : Double → Double
  | .nan => .nan
  | .infinite a => .infinite !a
  | .finite a x => .finite (!a) x

/-- The sum; an exact zero is negative only if both summands are. -/
protected def add : Double → Double → Double
  | .infinite a, .infinite b => if a = b then .infinite a else .nan
  | .infinite a, .finite _ _ => .infinite a
  | .finite _ _, .infinite b => .infinite b
  | .finite a x, .finite b y =>
    let sum := signedUnits a x + signedUnits b y
    if sum = 0 then zero (a && b) else ofUnits (sum < 0) sum.natAbs 1
  | _, _ => .nan

protected def sub (x y : Double) : Double := x.add y.neg

protected def mul : Double → Double → Double
  | .infinite a, .infinite b => .infinite (a != b)
  | .infinite a, .finite b y => if y.units = 0 then .nan else .infinite (a != b)
  | .finite a x, .infinite b => if x.units = 0 then .nan else .infinite (a != b)
  | .finite a x, .finite b y => ofUnits (a != b) (x.units * y.units) one
  | _, _ => .nan

protected def div : Double → Double → Double
  | .infinite a, .finite b _ => .infinite (a != b)
  | .finite a _, .infinite b => zero (a != b)
  | .finite a x, .finite b y =>
    if y.units = 0 then (if x.units = 0 then .nan else .infinite (a != b))
    else ofUnits (a != b) (x.units * one) y.units
  | _, _ => .nan

/-- The quotient, unless the divisor is zero. -/
protected def div? (x : Double) : Double → Option Double
  | .finite b y => if y.units = 0 then none else some (x.div (.finite b y))
  | y => some (x.div y)

/-- What is left of the dividend after the divisor is taken from it as often as it fits; the sign is
the dividend's. There is none for an infinite dividend or a divisor zero. -/
protected def rem? : Double → Double → Option Double
  | .nan, _ => some .nan
  | _, .nan => some .nan
  | .infinite _, _ => none
  | .finite a x, .infinite _ => some (.finite a x)
  | .finite a x, .finite _ y =>
    if y.units = 0 then none else some (ofUnits a (x.units % y.units) 1)

end LineScript.Double
