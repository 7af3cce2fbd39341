import BuildingBus.Datapoint.Error
import BuildingBus.Number.Binary

/-!
# Numbers in two octets

A measured value in two octets counts hundredths as `mantissa · 2 ^ exponent`, with a mantissa of
twelve bits in two's complement and an exponent of four bits. Many pairs write the same number; a
value is written with the least exponent whose rounded mantissa fits.

The octets hold the sign of the mantissa, the exponent, and the low eleven bits of the mantissa.
-/

namespace BuildingBus.Datapoint

open BuildingBus.Number

/-- A number of hundredths `mantissa · 2 ^ exponent`. Different pairs may have one value, so that
equality of values is not equality of pairs. -/
structure ShortFloat where
  /-- the mantissa, from -2048 to 2047 -/
  mantissa : Int
  /-- the exponent, from 0 to 15 -/
  exponent : Nat
  deriving DecidableEq, Repr

namespace ShortFloat

/-! ## Bits -/

/-- Whether a mantissa fits twelve bits. -/
def fits (mantissa : Int) : Bool := -2048 ≤ mantissa && mantissa ≤ 2047

/-- The sixteen bits of a number: the sign of the mantissa, four bits of the exponent, and eleven
bits of the mantissa in two's complement. -/
def toBits (s : ShortFloat) : Nat :=
  (if s.mantissa < 0 then 0x8000 else 0) + s.exponent * 0x800 + (s.mantissa % 0x800).toNat

/-- The number with the given sixteen bits. -/
def ofBits (bits : Nat) : ShortFloat where
  mantissa := (bits % 0x800 : Nat) - (if 0x8000 ≤ bits then 0x800 else 0)
  exponent := bits / 0x800 % 16

/-! ## Values -/

/-- The mantissa that a value of exactly `hundredths` has with an exponent; a half is rounded away
from zero, as the rounding of numbers does, and not to the even one. -/
def mantissaAt (hundredths : Rat) (exponent : Nat) : Int :=
  roundHalfAway (hundredths / 2 ^ exponent)

/-- The number nearest to a value among those with the least exponent that holds it. A least
exponent gives the finest steps; if even the greatest one does not hold the value, there is none. -/
def nearest (hundredths : Rat) : Option ShortFloat :=
  ((List.range 16).find? fun e => fits (mantissaAt hundredths e)).map fun e =>
    ⟨mantissaAt hundredths e, e⟩

/-- One hundredth as a number of 64 bits, which is not exactly a hundredth. What is read is rounded
from a product with it and not from the exact value. -/
def hundredth : Double := .ofRat _ (1 / 100)

/-- The value of a number: the product of mantissa and hundredth is rounded to 64 bits, then scaled,
then rounded to 32 bits. -/
def toSingle (s : ShortFloat) : Single :=
  let product : Double := .ofRat _ (hundredth.toRat * s.mantissa)
  .ofRat _ (product.toRat * 2 ^ s.exponent)

/-- A measured value in two octets. Writing is exact up to one rounding of the mantissa, and reading
rounds twice; every sixteen bits are read. -/
def codec : Codec Single where
  encode v :=
    if v.isFinite then
      match nearest (v.toRat * 100) with
      | some s => .ok (bigEndian 2 s.toBits)
      | none => .error .outOfRange
    else .error .outOfRange
  decode bs :=
    if bs.length = 2 then .ok (ofBits (ofBigEndian bs)).toSingle else .error .wrongLength
  size _ := 2

/-- The least literal that is taken as a measured value, which is the least value that sixteen bits
write. -/
def leastLiteral : Double := .ofRat _ (-67108864 / 100)

/-- The greatest literal that is taken as a measured value, which is the greatest value that sixteen
bits write. -/
def greatestLiteral : Double := .ofRat _ (67076096 / 100)

end ShortFloat

end BuildingBus.Datapoint
