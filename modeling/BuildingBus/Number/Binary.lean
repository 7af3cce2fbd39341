import BuildingBus.Number.Rounding
import BuildingBus.Octets

/-!
# Binary floating point numbers

A binary format has a sign, a field of exponent bits and a field of fraction bits. The two fields
together are the *magnitude* of a number: read as one natural number, magnitudes are ordered as the
numbers they stand for, with infinity above the finite ones and the values that are no numbers
above infinity.

`Binary.toRat` is the exact value of a finite number; `Binary.ofRat` rounds an exact value to the
nearest number of the format, a half to the one whose last bit is zero. All arithmetic on floats in
this library is exact arithmetic between these two.
-/

namespace BuildingBus.Number

/-! ## Formats -/

/-- The widths of the two fields of a binary format. Everything about a format follows from them, so
that both are treated at once. -/
structure BinaryFormat where
  /-- bits of the fraction -/
  fractionBits : Nat
  /-- bits of the exponent -/
  exponentBits : Nat
  deriving DecidableEq, Repr

namespace BinaryFormat

/-- The format with 32 bits. -/
def single : BinaryFormat := ⟨23, 8⟩

/-- The format with 64 bits. -/
def double : BinaryFormat := ⟨52, 11⟩

variable (F : BinaryFormat)

/-- Bits of a magnitude. -/
def magnitudeBits : Nat := F.exponentBits + F.fractionBits

/-- The least power of two that the last bit of a significand can stand for. -/
def leastExponent : Int := 2 - (2 ^ (F.exponentBits - 1) : Nat) - F.fractionBits

/-- The magnitude of infinity: every exponent bit is set and no fraction bit. -/
def infinity : Nat := (2 ^ F.exponentBits - 1) * 2 ^ F.fractionBits

/-- The significand of a finite magnitude: the fraction, and a leading one unless the exponent field
is zero. The magnitudes without a leading one are as far apart as the least with one. -/
def significand (magnitude : Nat) : Nat :=
  if magnitude < 2 ^ F.fractionBits then magnitude
  else 2 ^ F.fractionBits + magnitude % 2 ^ F.fractionBits

/-- The power of two that the last bit of the significand stands for. -/
def unitExponent (magnitude : Nat) : Int :=
  F.leastExponent + ((magnitude / 2 ^ F.fractionBits - 1 : Nat) : Int)

/-- The exact value of a finite magnitude. -/
def valueOf (magnitude : Nat) : Rat :=
  F.significand magnitude * 2 ^ F.unitExponent magnitude

end BinaryFormat

/-- The greatest `e` with `2 ^ e ≤ r`, for a positive `r`. -/
def log2Floor (r : Rat) : Int :=
  let e : Int := (r.num.natAbs.log2 : Int) - r.den.log2
  if (2 : Rat) ^ e ≤ r then e else e - 1

/-- The magnitude nearest to a value that is not negative, a half to the even one. A value too great
for the format gives infinity. The rounding is of the exact value, and there is no other in a
conversion. -/
def BinaryFormat.nearest (F : BinaryFormat) (r : Rat) : Nat :=
  if r = 0 then 0
  else
    let unit := max (log2Floor r - F.fractionBits) F.leastExponent
    let significand := (roundHalfEven (r / 2 ^ unit)).toNat
    min F.infinity ((unit - F.leastExponent).toNat * 2 ^ F.fractionBits + significand)

/-! ## Numbers -/

/-- A floating point number: a sign and a magnitude. Magnitudes are the bits without the sign, and
they are ordered as the values are, infinity being the one above the finite ones. -/
structure Binary (F : BinaryFormat) where
  /-- whether the sign bit is set -/
  negative : Bool
  /-- exponent and fraction -/
  magnitude : Fin (2 ^ F.magnitudeBits)
  deriving DecidableEq

/-- A number with 32 bits. -/
abbrev Single := Binary .single

/-- A number with 64 bits. -/
abbrev Double := Binary .double

namespace Binary

variable {F : BinaryFormat}

/-- The number with the given bits; those above the sign bit are dropped. -/
def ofBits (F : BinaryFormat) (bits : Nat) : Binary F where
  negative := bits / 2 ^ F.magnitudeBits % 2 == 1
  magnitude := ⟨bits % 2 ^ F.magnitudeBits, Nat.mod_lt _ (Nat.two_pow_pos _)⟩

/-- The bits of a number, its sign bit first. -/
def toBits (v : Binary F) : Nat :=
  v.negative.toNat * 2 ^ F.magnitudeBits + v.magnitude

/-- The number with the given sign and magnitude. -/
def ofMagnitude (F : BinaryFormat) (negative : Bool) (magnitude : Nat) : Binary F where
  negative := negative
  magnitude := ⟨magnitude % 2 ^ F.magnitudeBits, Nat.mod_lt _ (Nat.two_pow_pos _)⟩

/-- Zero, without a sign. -/
def zero (F : BinaryFormat) : Binary F := ofMagnitude F false 0

instance : Inhabited (Binary F) := ⟨zero F⟩

/-- Whether a number is neither infinite nor no number. -/
def isFinite (v : Binary F) : Bool := v.magnitude.val < F.infinity

/-- Whether the bits stand for no number. -/
def isNaN (v : Binary F) : Bool := F.infinity < v.magnitude.val

/-- The exact absolute value of a finite number. -/
def absRat (v : Binary F) : Rat := F.valueOf v.magnitude

/-- The exact value of a finite number. Statements about rounding compare these values, which have
no rounding of their own. -/
def toRat (v : Binary F) : Rat := if v.negative then -v.absRat else v.absRat

/-- The number nearest to an exact value, a half to the one whose last bit is zero. Zero has no
sign. -/
def ofRat (F : BinaryFormat) (r : Rat) : Binary F :=
  if r < 0 then ofMagnitude F true (F.nearest (-r)) else ofMagnitude F false (F.nearest r)

/-- A finite number in another format, rounded to the nearest. The sign is kept, also that of
zero. -/
def convert (G : BinaryFormat) (v : Binary F) : Binary G :=
  ofMagnitude G v.negative (G.nearest v.absRat)

/-- Equality of numbers: what is no number differs from everything, and zero has one value with
either sign. It is not equality of bits, nor an equivalence. -/
def sameNumber (a b : Binary F) : Bool :=
  !a.isNaN && !b.isNaN && (decide (a = b) || (a.magnitude.val == 0 && b.magnitude.val == 0))

/-! ### Bits and numbers -/

@[simp] theorem toBits_lt (v : Binary F) : v.toBits < 2 ^ (F.magnitudeBits + 1) := by
  have h := v.magnitude.isLt
  rw [toBits, Nat.pow_succ]
  cases v.negative <;> simp <;> omega

theorem toBits_div (v : Binary F) : v.toBits / 2 ^ F.magnitudeBits = v.negative.toNat := by
  rw [toBits, Nat.mul_comm, Nat.mul_add_div (Nat.two_pow_pos _),
    Nat.div_eq_of_lt v.magnitude.isLt, Nat.add_zero]

theorem toBits_mod (v : Binary F) : v.toBits % 2 ^ F.magnitudeBits = v.magnitude := by
  rw [toBits, Nat.mul_comm, Nat.mul_add_mod, Nat.mod_eq_of_lt v.magnitude.isLt]

/-- A number is determined by its bits. -/
@[simp] theorem ofBits_toBits (v : Binary F) : ofBits F v.toBits = v := by
  obtain ⟨negative, m⟩ := v
  simp only [ofBits, toBits_div, toBits_mod, mk.injEq]
  cases negative <;> simp

/-- The bits of a number are those it was made from. -/
theorem toBits_ofBits {bits : Nat} (h : bits < 2 ^ (F.magnitudeBits + 1)) :
    (ofBits F bits).toBits = bits := by
  have hd := Nat.div_add_mod bits (2 ^ F.magnitudeBits)
  have hq : bits / 2 ^ F.magnitudeBits < 2 := by
    rw [Nat.div_lt_iff_lt_mul (Nat.two_pow_pos _)]
    rw [Nat.pow_succ] at h
    omega
  simp only [toBits, ofBits]
  generalize bits / 2 ^ F.magnitudeBits = q at hd hq ⊢
  match q, hq with
  | 0, _ => simpa using hd
  | 1, _ => simpa using hd

end Binary

end BuildingBus.Number
