import BuildingBus.Number.Decimal

/-!
# The shortest decimal that reads back

A binary number is written with the fewest decimal digits that are read back as the same number;
among decimals of that many digits the one nearest to the exact value is taken, and of two equally
near ones the greater. Digits are written positionally, never with an exponent, and no point
follows a whole number.

The decimals that read back are those of an interval around the exact value, whose ends are halfway
to the neighbouring numbers and belong to it when the significand is even. For each count of digits
only the two decimals next to the exact value have to be tried: if any decimal with that count lies
in the interval, so does one of these two.
-/

namespace BuildingBus.Number

/-! ## The interval of a number -/

/-- The values that round to a number. Whether the ends belong to them depends on the last bit of
the number, since a half goes to the even one. -/
structure RoundingInterval where
  /-- the lower end -/
  low : Rat
  /-- the upper end -/
  high : Rat
  /-- whether the ends belong to the interval -/
  closed : Bool

/-- Whether a value lies in the interval. -/
def RoundingInterval.contains (i : RoundingInterval) (r : Rat) : Bool :=
  if i.closed then i.low ≤ r && r ≤ i.high else i.low < r && r < i.high

/-- The interval of a finite magnitude that is not zero. Below a power of two the neighbour is half
as far away. -/
def BinaryFormat.interval (F : BinaryFormat) (magnitude : Nat) : RoundingInterval :=
  let m : Rat := F.significand magnitude
  let unit : Rat := 2 ^ F.unitExponent magnitude
  let below : Rat := if F.significand magnitude = 2 ^ F.fractionBits then 1 / 4 else 1 / 2
  { low := (m - below) * unit
    high := (m + 1 / 2) * unit
    closed := F.significand magnitude % 2 = 0 }

/-! ## The search -/

/-- The `k` with `10 ^ (k - 1) ≤ r < 10 ^ k`, for a positive `r` of at least `10 ^ -400`. -/
def decimalOrder (r : Rat) : Int :=
  if 1 ≤ r then (Nat.toDigits 10 r.floor.toNat).length
  else match (List.range 400).find? fun (z : Nat) => decide (1 ≤ r * 10 ^ (z + 1)) with
    | some z => -(z : Int)
    | none => -400

/-- A decimal `coefficient · 10 ^ exponent`. Any decimal in the rounding interval of a number reads
as that number, and the shortest of them is shown. -/
structure ShortDecimal where
  /-- the digits -/
  coefficient : Nat
  /-- the power of ten that the last digit stands for -/
  exponent : Int
  deriving DecidableEq, Repr

/-- The decimal with its last digit standing for `10 ^ exponent` that lies in the interval, if
there is one: the nearer of the two next to `r`, of two equally near ones the greater. -/
def nearestOnGrid (i : RoundingInterval) (r : Rat) (exponent : Int) : Option ShortDecimal :=
  let unit : Rat := 10 ^ exponent
  let below := (r / unit).floor.toNat
  let rest := r / unit - below
  let lowFits := i.contains (below * unit)
  let highFits := i.contains ((below + 1) * unit)
  if highFits && (!lowFits || 1 / 2 ≤ rest) then some ⟨below + 1, exponent⟩
  else if lowFits then some ⟨below, exponent⟩
  else none

/-- A decimal without zeros at its end; `fuel` bounds how many are taken away. -/
def ShortDecimal.strip : Nat → ShortDecimal → ShortDecimal
  | 0, d => d
  | fuel + 1, d =>
    if d.coefficient % 10 = 0 then strip fuel ⟨d.coefficient / 10, d.exponent + 1⟩ else d

/-- The shortest decimal of a finite magnitude that is not zero. Seventeen digits are enough for
either format. -/
def BinaryFormat.shortest (F : BinaryFormat) (magnitude : Nat) : ShortDecimal :=
  let r := F.valueOf magnitude
  let i := F.interval magnitude
  let order := decimalOrder r
  let found := (List.range 17).findSome? fun (n : Nat) =>
    nearestOnGrid i r (order - (n + 1))
  (found.getD ⟨0, 0⟩).strip 17

/-! ## Positional digits -/

/-- The digits of `n` in units of `10 ^ -places`, with a point before the last `places` of them. -/
def withPoint (n places : Nat) : List Char :=
  let digits := paddedDecimal (places + 1) n
  let whole := digits.take (digits.length - places)
  if places = 0 then whole else whole ++ ['.'] ++ digits.drop (digits.length - places)

/-- A decimal in positional digits. -/
def ShortDecimal.positional (d : ShortDecimal) : List Char :=
  if 0 ≤ d.exponent then
    Nat.toDigits 10 d.coefficient ++ List.replicate d.exponent.toNat '0'
  else withPoint d.coefficient (-d.exponent).toNat

namespace Binary

variable {F : BinaryFormat}

/-- What is written for a number: one text for what is no number, and otherwise a sign and infinity
or digits. -/
def textWith (digits : Binary F → List Char) (v : Binary F) : List Char :=
  if v.isNaN then ['N', 'a', 'N']
  else
    (if v.negative then ['-'] else []) ++ if v.isFinite then digits v else ['i', 'n', 'f']

/-- A number in its fewest digits. -/
def shortestText (v : Binary F) : List Char :=
  v.textWith fun v =>
    if v.magnitude.val = 0 then ['0'] else (F.shortest v.magnitude).positional

/-- A number with a fixed count of places after the point, rounded once from its exact value, a
half to the even neighbour. -/
def fixedText (places : Nat) (v : Binary F) : List Char :=
  v.textWith fun v => withPoint (roundHalfEven (v.absRat * 10 ^ places)).toNat places

end Binary

end BuildingBus.Number
