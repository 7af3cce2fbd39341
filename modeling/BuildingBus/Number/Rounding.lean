/-!
# Rounding to whole numbers

Two ways to round a rational number to the nearest whole one; they differ in which way a half goes.
Binary and decimal fractions are rounded with a half to the even neighbour, mantissas of two-octet
floats with a half away from zero.
-/

namespace BuildingBus.Number

/-- The nearest whole number; a half goes to the even neighbour. Binary formats round like this, so
that halves do not drift upwards. -/
def roundHalfEven (r : Rat) : Int :=
  let below := r.floor
  let rest := r - below
  if rest < 1 / 2 then below
  else if 1 / 2 < rest then below + 1
  else if below % 2 = 0 then below
  else below + 1

/-- The nearest whole number; a half goes away from zero. Payloads of measured values round like
this. -/
def roundHalfAway (r : Rat) : Int :=
  if 0 ≤ r then (r + 1 / 2).floor else -(1 / 2 - r).floor

end BuildingBus.Number
