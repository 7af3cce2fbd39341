/-!
# Octets

Payloads and documents are sequences of octets. Numbers stand in them with the most significant
octet first.

Main statements: `bigEndian` and `ofBigEndian` are inverse to each other between the numbers that
fit a count of octets and the octet sequences of that length (`ofBigEndian_bigEndian`,
`bigEndian_ofBigEndian`).
-/

namespace BuildingBus

/-- A power of natural numbers is the one that comes with them. Mathlib has another instance for it,
from the algebra of monoids, and a definition of this library must not come to depend on whether that
one is in scope as well; so within the library this instance goes first. -/
scoped instance (priority := high) powNat : Pow Nat Nat := instPowNat

/-- Octets, first to last. -/
abbrev Octets := List UInt8

/-- An octet is the number that it was made from, if it can hold it. -/
theorem toNat_octet {n : Nat} (h : n < 256) : (UInt8.ofNat n).toNat = n :=
  UInt8.toNat_ofNat_of_lt' h

/-- A number makes the octet that it is read from. -/
theorem octet_eq {b : UInt8} {n : Nat} (h : b.toNat = n) : UInt8.ofNat n = b := by
  rw [← h, UInt8.ofNat_toNat]

/-- A number in a count of octets, most significant first; higher digits are dropped. The functions
that write values check their range before. -/
def bigEndian : Nat → Nat → Octets
  | 0, _ => []
  | k + 1, n => .ofNat (n / 256 ^ k) :: bigEndian k n

/-- The number that octets write, most significant first. -/
def ofBigEndian : Octets → Nat
  | [] => 0
  | b :: bs => b.toNat * 256 ^ bs.length + ofBigEndian bs

@[simp] theorem length_bigEndian (k n : Nat) : (bigEndian k n).length = k := by
  induction k with
  | zero => rfl
  | succ k ih => simp [bigEndian, ih]

theorem ofBigEndian_lt (bs : Octets) : ofBigEndian bs < 256 ^ bs.length := by
  induction bs with
  | nil => decide
  | cons b bs ih =>
    have hb : b.toNat + 1 ≤ 256 := b.toNat_lt
    have := Nat.mul_le_mul_right (256 ^ bs.length) hb
    rw [Nat.succ_mul] at this
    simp only [ofBigEndian, List.length_cons, Nat.pow_succ]
    omega

/-- Reading what was written gives the number less the digits that were dropped. -/
theorem ofBigEndian_bigEndian (k n : Nat) : ofBigEndian (bigEndian k n) = n % 256 ^ k := by
  induction k with
  | zero => simp [bigEndian, ofBigEndian, Nat.mod_one]
  | succ k ih =>
    have h : n % 256 ^ (k + 1) = n % 256 ^ k + 256 ^ k * (n / 256 ^ k % 256) := by
      rw [Nat.pow_succ, Nat.mod_mul]
    simp only [bigEndian, ofBigEndian, length_bigEndian, ih, UInt8.toNat_ofNat']
    rw [h, Nat.mul_comm (256 ^ k), Nat.add_comm]

/-- The octets of a number depend on its digits below their count alone. -/
theorem bigEndian_add_mul (k n m : Nat) : bigEndian k (m * 256 ^ k + n) = bigEndian k n := by
  induction k generalizing m with
  | zero => rfl
  | succ k ih =>
    have hm : m * 256 ^ (k + 1) = m * 256 * 256 ^ k := by
      rw [Nat.pow_succ, Nat.mul_assoc, Nat.mul_comm 256]
    simp only [bigEndian]
    rw [hm, ih (m * 256), List.cons.injEq]
    refine ⟨UInt8.toNat_inj.mp ?_, rfl⟩
    rw [Nat.mul_comm, Nat.mul_add_div (Nat.pow_pos (by decide))]
    simp [UInt8.toNat_ofNat']

/-- Writing what was read gives the octets back. -/
theorem bigEndian_ofBigEndian (bs : Octets) : bigEndian bs.length (ofBigEndian bs) = bs := by
  induction bs with
  | nil => rfl
  | cons b bs ih =>
    have hb := ofBigEndian_lt bs
    simp only [List.length_cons, bigEndian, ofBigEndian]
    rw [bigEndian_add_mul, ih, Nat.mul_comm, Nat.mul_add_div (Nat.pow_pos (by decide)),
      Nat.div_eq_of_lt hb, Nat.add_zero, UInt8.ofNat_toNat]

end BuildingBus
