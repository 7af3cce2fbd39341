import BuildingBus.Number.Binary

/-!
# Decimal numbers

Reading whole numbers and decimal fractions, and writing numbers in decimal and hexadecimal digits.

A whole number is an optional sign and digits. Reading it with a limit reports whether the text is
malformed or the number too great, whichever shows first from the left. A decimal fraction is read
exactly and rounded once to a binary format.
-/

namespace BuildingBus.Number

/-! ## Whole numbers -/

/-- Why a text is no whole number within a limit. A text that is too great and then has a character
that is no digit is too great, as it is read from the left. -/
inductive WholeFault where
  /-- something that is no digit, or no digit at all -/
  | malformed
  /-- a number beyond the limit -/
  | overflow
  deriving DecidableEq, Repr

/-- The value of a decimal digit. -/
def digitValue (c : Char) : Nat := c.toNat - '0'.toNat

/-- The number that digits spell; other characters are read as their distance from zero. -/
def digitsValue (s : List Char) : Nat := Nat.ofDigitChars 10 s 0

/-- The number that `acc` becomes when digits are appended to it. The limit is asked after each
digit, so that no greater number ever has to be held. -/
def readDigitsFrom (limit acc : Nat) : List Char → Except WholeFault Nat
  | [] => .ok acc
  | c :: s =>
    if c.isDigit then
      let n := 10 * acc + digitValue c
      if n ≤ limit then readDigitsFrom limit n s else .error .overflow
    else .error .malformed

/-- The number that at least one digit spells. -/
def readDigits (limit : Nat) : List Char → Except WholeFault Nat
  | [] => .error .malformed
  | s => readDigitsFrom limit 0 s

/-- A whole number without a minus sign, at most `limit`. A plus sign is fine in front of digits. -/
def readUnsigned (limit : Nat) : List Char → Except WholeFault Nat
  | '+' :: s => readDigits limit s
  | s => readDigits limit s

/-- A whole number in two's complement of the given width. -/
def readSigned (bits : Nat) : List Char → Except WholeFault Int
  | '-' :: s => (readDigits (2 ^ (bits - 1)) s).map fun n => -(n : Int)
  | '+' :: s => (readDigits (2 ^ (bits - 1) - 1) s).map Int.ofNat
  | s => (readDigits (2 ^ (bits - 1) - 1) s).map Int.ofNat

/-! ## Decimal fractions -/

/-- A decimal fraction `± coefficient · 10 ^ exponent`. It is exactly what a text writes, before any
rounding. -/
structure Decimal where
  /-- whether there is a minus sign -/
  negative : Bool
  /-- the digits, without the point -/
  coefficient : Nat
  /-- the power of ten that the last digit stands for -/
  exponent : Int
  deriving DecidableEq, Repr

/-- A sign, if there is one, and the text after it. -/
def takeSign : List Char → Bool × List Char
  | '-' :: s => (true, s)
  | '+' :: s => (false, s)
  | s => (false, s)

/-- A text that is an exponent mark and a whole number, or nothing. -/
def readExponent : List Char → Option Int
  | [] => some 0
  | c :: s =>
    if c = 'e' ∨ c = 'E' then
      let (negative, ds) := takeSign s
      if ds ≠ [] ∧ ds.all Char.isDigit then
        some (if negative then -(digitsValue ds : Int) else digitsValue ds)
      else none
    else none

/-- A decimal fraction: an optional sign, digits with at most one point among or beside them, and
an optional exponent. -/
def readDecimal (s : List Char) : Option Decimal :=
  let (negative, s) := takeSign s
  let whole := s.takeWhile Char.isDigit
  let rest := s.dropWhile Char.isDigit
  let (fraction, rest) := match rest with
    | '.' :: r => (r.takeWhile Char.isDigit, r.dropWhile Char.isDigit)
    | r => ([], r)
  if whole = [] ∧ fraction = [] then none
  else (readExponent rest).map fun e =>
    ⟨negative, digitsValue (whole ++ fraction), e - fraction.length⟩

namespace Decimal

/-- The exact absolute value. -/
def absRat (d : Decimal) : Rat := d.coefficient * 10 ^ d.exponent

/-- The exact value. -/
def toRat (d : Decimal) : Rat := if d.negative then -d.absRat else d.absRat

/-- The power of ten above the first digit, for a coefficient that is not zero. -/
def order (d : Decimal) : Int := (Nat.toDigits 10 d.coefficient).length + d.exponent

/-- The number of 64 bits nearest to a decimal fraction. Beyond `10 ^ 310` every fraction is
infinite and below `10 ^ -330` every one is zero, so that no power of ten has to be computed
there. -/
def toDouble (d : Decimal) : Double :=
  .ofMagnitude _ d.negative <|
    if d.coefficient = 0 ∨ d.order < -330 then 0
    else if 310 < d.order then BinaryFormat.double.infinity
    else BinaryFormat.double.nearest d.absRat

end Decimal

/-! ## Writing -/

/-- A whole number in decimal digits. -/
def decimal : Int → List Char
  | .ofNat n => Nat.toDigits 10 n
  | .negSucc n => '-' :: Nat.toDigits 10 (n + 1)

/-- Digits with zeros in front up to a width. -/
def padZeros (width : Nat) (digits : List Char) : List Char :=
  List.replicate (width - digits.length) '0' ++ digits

/-- A natural number in decimal digits, with zeros in front up to a width. -/
def paddedDecimal (width n : Nat) : List Char :=
  padZeros width (Nat.toDigits 10 n)

/-- An octet as two hexadecimal digits in capitals. -/
def hexOctet (b : UInt8) : List Char :=
  let digit (n : Nat) : Char :=
    if n < 10 then Char.ofNat ('0'.toNat + n) else Char.ofNat ('A'.toNat + (n - 10))
  [digit (b.toNat / 16), digit (b.toNat % 16)]

end BuildingBus.Number
