import BuildingBus.Datapoint.Error
import BuildingBus.Number.Shortest

/-!
# Numbers in whole octets

Integers in one, two, four or eight octets, levels in one octet, and numbers of 32 bits. An integer
is a bit vector, read with or without a sign, and its octets are written most significant first, so
that a negative one stands in two's complement.

Levels are whole numbers up to a greatest one. A *scaled* level spreads its range over the 256
values of the octet and is rounded to the nearest step in both directions.
-/

namespace BuildingBus.Datapoint

open BuildingBus.Number

/-! ## Integers -/

/-- An integer in a count of octets. Whether its highest bit is a sign is for the reader of the
value to say; the octets are the same. -/
abbrev Word (octets : Nat) := BitVec (8 * octets)

/-- The octets of an integer, most significant first. -/
def wordCodec (octets : Nat) : Codec (Word octets) where
  encode v := .ok (bigEndian octets v.toNat)
  decode bs :=
    if bs.length = octets then .ok (.ofNat _ (ofBigEndian bs)) else .error .wrongLength
  size _ := octets

/-- A number counted in hundredths, with two places after the point. -/
def hundredths (n : Int) : List Char :=
  (if n < 0 then ['-'] else []) ++ Nat.toDigits 10 (n.natAbs / 100) ++ ['.']
    ++ paddedDecimal 2 (n.natAbs % 100)

/-! ## Levels -/

/-- A level that stands in the octet as it is, at most `greatest`. A greater octet is refused when
it is read. -/
def levelCodec (greatest : Nat) : Codec (Word 2) where
  encode v := if v.toNat ≤ greatest then .ok [.ofNat v.toNat] else .error .outOfRange
  decode
    | [b] => if b.toNat ≤ greatest then .ok (.ofNat _ b.toNat) else .error .outOfRange
    | _ => .error .wrongLength
  size _ := 1

/-- The octet value nearest to a level of a range that ends at `greatest`. -/
def scaleDown (greatest level : Nat) : Nat := (level * 255 + greatest / 2) / greatest

/-- The level nearest to an octet value in a range that ends at `greatest`. -/
def scaleUp (greatest octet : Nat) : Nat := (octet * greatest + 127) / 255

/-- A level whose range, which ends at `greatest`, is spread over the octet. Every octet is read;
which one a level is written to is a matter of rounding. -/
def scaledCodec (greatest : Nat) : Codec (Word 2) where
  encode v :=
    if v.toNat ≤ greatest then .ok [.ofNat (scaleDown greatest v.toNat)] else .error .outOfRange
  decode
    | [b] => .ok (.ofNat _ (scaleUp greatest b.toNat))
    | _ => .error .wrongLength
  size _ := 1

/-! ## Numbers of 32 bits -/

/-- The bits of a number in four octets, sign bit first. -/
def singleCodec : Codec Single where
  encode v := .ok (bigEndian 4 v.toBits)
  decode bs :=
    if bs.length = 4 then .ok (.ofBits _ (ofBigEndian bs)) else .error .wrongLength
  size _ := 4

end BuildingBus.Datapoint
