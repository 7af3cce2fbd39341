import BuildingBus.Proofs.Datapoint.ShortFloat.Exponents
import Mathlib.Data.List.Find

/-!
# Mantissas in 64 bits

The mantissas of a measured value can be computed with numbers of 64 bits: the product with one
hundred, the quotient by a power of two and the sum with one half are rounded to 64 bits each, and
the sum is cut to a whole number, within the limits of a word of 64 bits. That finds the number that
exact arithmetic finds (`nearestInDoubles_eq`).

A number of 32 bits has 24 bits in its significand, its product with one hundred has 31, and the
quotient has as many; so both are exact. The sum is exact for quotients of a moderate size. A greater
one is far beyond the range of the mantissa, with or without rounding; a lesser one is so small that
the sum stays below one (`floor_sum`).
-/

namespace BuildingBus.Datapoint.ShortFloat

open BuildingBus.Number

/-! ## The computation -/

/-- The whole number in front of the point. -/
def truncated (r : Rat) : Int := if 0 ≤ r then r.floor else -(-r).floor

/-- A whole number within the limits of a word of 64 bits. -/
def saturated (n : Int) : Int := max (-2 ^ 63) (min n (2 ^ 63 - 1))

/-- The whole part of a value that was moved away from zero by one half and rounded to 64 bits. The
sum may be rounded, and then the whole part could be another. -/
def truncatedSum (r : Rat) : Int :=
  truncated (Binary.ofRat .double (if 0 ≤ r then r + 1 / 2 else r - 1 / 2)).toRat

/-- The nearest whole number, a half away from zero, as it is computed with numbers of 64 bits, by
way of a word that holds the whole part. -/
def roundInDoubles (q : Double) : Double := .ofRat _ (saturated (truncatedSum q.toRat))

/-- The mantissa of a value at an exponent, as it is computed with numbers of 64 bits. -/
def mantissaInDoubles (v : Single) (e : Nat) : Double :=
  let scaled : Double := .ofRat _ ((v.convert .double).toRat * 100)
  roundInDoubles (.ofRat _ (scaled.toRat / 2 ^ e))

/-- Whether a mantissa with 64 bits fits twelve bits. -/
def fitsInDoubles (m : Double) : Bool := -2048 ≤ m.toRat && m.toRat ≤ 2047

/-- The number with the least exponent whose mantissa fits, as it is found with numbers of 64
bits. -/
def nearestInDoubles (v : Single) : Option ShortFloat :=
  ((List.range 16).find? fun e => fitsInDoubles (mantissaInDoubles v e)).map fun e =>
    ⟨truncated (mantissaInDoubles v e).toRat, e⟩

/-! ## Products and quotients -/

/-- A value with at most 31 bits in its significand, within a range in which it is a number of 64
bits. All values that come up are such; the bits that are left see to it that the sum with one half,
even if it is rounded, keeps its whole part. -/
structure IsDyadic (r : Rat) : Prop where
  /-- significand and unit -/
  exists_eq : ∃ (n : Nat) (k : Int), |r| = n * 2 ^ k ∧ n < 2 ^ 31 ∧ -200 ≤ k
  /-- the bound -/
  abs_le : |r| ≤ 2 ^ 200

theorem IsDyadic.neg {r : Rat} (h : IsDyadic r) : IsDyadic (-r) :=
  ⟨abs_neg r ▸ h.exists_eq, abs_neg r ▸ h.abs_le⟩

/-- Such a value is not rounded, which is why exact arithmetic can stand for that of 64 bits. -/
theorem IsDyadic.toRat_ofRat {r : Rat} (h : IsDyadic r) : (Binary.ofRat .double r).toRat = r := by
  obtain ⟨n, k, hr, hn, hk⟩ := h.exists_eq
  have hleast : BinaryFormat.double.leastExponent = -1074 := by decide
  refine Binary.toRat_ofRat_of_eq_mul hr (hn.trans (by decide)) ?_
    (Binary.isFinite_double h.abs_le)
  rw [hleast]
  omega

/-- Moderate counts of quarters are such values; whole numbers and halves are among them. -/
theorem isDyadic_quarters {n : Int} (hn : n.natAbs < 2 ^ 31) : IsDyadic (n / 4) := by
  have habs : |(n : Rat) / 4| = n.natAbs / 4 := by
    rw [abs_div, ← Int.cast_abs, Int.abs_eq_natAbs, Int.cast_natCast,
      abs_of_pos (by norm_num : (0 : Rat) < 4)]
  refine ⟨⟨n.natAbs, -2, ?_, hn, by decide⟩, ?_⟩
  · rw [habs]
    norm_num
    ring
  · have hle : (n.natAbs : Rat) ≤ 2 ^ 31 := by exact_mod_cast hn.le
    rw [habs]
    linarith

/-- The hundredths of a number of 32 bits, in any of the units of a short float. -/
theorem isDyadic_hundredths {v : Single} (hv : v.isFinite = true) {e : Nat} (he : e < 16) :
    IsDyadic (v.toRat * 100 / 2 ^ e) := by
  have hu := two_pow_pos e
  have habs : |v.toRat * 100 / 2 ^ e| = v.absRat * 100 / 2 ^ e := by
    rw [abs_div, abs_mul, v.abs_toRat, abs_of_pos hu, abs_of_pos (by norm_num : (0 : Rat) < 100)]
  have hsig := BinaryFormat.single.significand_lt v.magnitude
  have hleast : BinaryFormat.single.leastExponent = -149 := by decide
  refine ⟨⟨BinaryFormat.single.significand v.magnitude * 100,
    BinaryFormat.single.unitExponent v.magnitude - e, ?_, ?_, ?_⟩, ?_⟩
  · rw [habs, Binary.absRat, BinaryFormat.valueOf, zpow_sub₀ two_ne_zero, zpow_natCast]
    push_cast
    ring
  · have hbits : 2 ^ (BinaryFormat.single.fractionBits + 1) = 16777216 := by decide
    omega
  · rw [BinaryFormat.unitExponent, hleast]
    omega
  · have hone : (1 : Rat) ≤ 2 ^ e := one_le_pow₀ one_le_two
    rw [habs, div_le_iff₀ hu]
    linarith [Binary.absRat_single_le hv]

/-! ## Sums -/

/-- The sum with one half has the whole part that it would have without rounding. -/
theorem floor_sum {q : Rat} (hq : IsDyadic q) (h0 : 0 ≤ q) (hlt : q < 2 ^ 20) :
    (Binary.ofRat .double (q + 1 / 2)).toRat.floor = (q + 1 / 2).floor := by
  obtain ⟨n, k, hr, hn, -⟩ := hq.exists_eq
  rw [abs_of_nonneg h0] at hr
  rcases lt_or_ge k (-50) with hk | hk
  · -- the sum stays between one half and three quarters
    have hsmall : q < 1 / 4 := by
      have hpow : (2 : Rat) ^ k ≤ 2 ^ (-51 : Int) := zpow_le_zpow_right₀ one_le_two (by omega)
      have hn' : (n : Rat) ≤ 2 ^ 31 := by exact_mod_cast hn.le
      calc q = n * 2 ^ k := hr
        _ ≤ 2 ^ 31 * 2 ^ (-51 : Int) :=
            mul_le_mul hn' hpow (two_zpow_pos k).le (by norm_num)
        _ < 1 / 4 := by norm_num
    have hlow := Binary.toRat_ofRat_mono (F := .double) (r := 1 / 2) (s := q + 1 / 2)
      (by norm_num) (by linarith)
    have hhigh := Binary.toRat_ofRat_mono (F := .double) (r := q + 1 / 2) (s := 3 / 4)
      (by linarith) (by linarith)
    have hhalf := (isDyadic_quarters (n := 2) (by decide)).toRat_ofRat
    have hquarters := (isDyadic_quarters (n := 3) (by decide)).toRat_ofRat
    norm_num at hhalf hquarters hlow hhigh
    have hzero {x : Rat} (hx : 1 / 2 ≤ x) (hx' : x ≤ 3 / 4) : x.floor = 0 := by
      refine Int.le_antisymm (Int.lt_add_one_iff.mp (Rat.floor_lt_iff.mpr ?_))
        (Rat.le_floor_iff.mpr ?_)
      · push_cast
        linarith
      · push_cast
        linarith
    rw [hzero (hhalf.symm.trans_le hlow) (hhigh.trans_eq hquarters),
      hzero (by linarith) (by linarith)]
  · -- the sum has few enough bits
    have hpos : |q + 1 / 2| = q + 1 / 2 := abs_of_nonneg (by linarith)
    have hleast : BinaryFormat.double.leastExponent = -1074 := by decide
    have hbits : 2 ^ (BinaryFormat.double.fractionBits + 1) = 2 ^ 53 := by decide
    have hf : (Binary.ofRat .double (q + 1 / 2)).isFinite = true :=
      Binary.isFinite_double (hpos.trans_le (by linarith))
    congr 1
    rcases lt_or_ge k 0 with hneg | hnonneg
    · obtain ⟨i, hi⟩ := Int.eq_ofNat_of_zero_le (by omega : 0 ≤ -k - 1)
      have hi' : 2 ^ i ≤ 2 ^ 49 := Nat.pow_le_pow_right two_pos (by omega)
      refine Binary.toRat_ofRat_of_eq_mul (n := n + 2 ^ i) (k := k) ?_ ?_ ?_ hf
      · have hone : (2 : Rat) ^ i * 2 ^ k = 1 / 2 := by
          rw [mul_comm, zpow_mul_pow, show k + (i : Int) = -1 by omega]
          norm_num
        rw [hpos, hr]
        push_cast
        rw [add_mul, hone]
      · omega
      · omega
    · obtain ⟨i, rfl⟩ := Int.eq_ofNat_of_zero_le hnonneg
      rw [zpow_natCast] at hr
      have hnat : n * 2 ^ i < 2 ^ 20 := by
        have hcast : ((n * 2 ^ i : Nat) : Rat) < ((2 ^ 20 : Nat) : Rat) := by
          push_cast
          rwa [← hr]
        exact_mod_cast hcast
      refine Binary.toRat_ofRat_of_eq_mul (n := 2 * (n * 2 ^ i) + 1) (k := -1) ?_ ?_ ?_ hf
      · rw [hpos, hr]
        push_cast
        rw [zpow_neg_one]
        ring
      · omega
      · omega

theorem truncated_intCast (n : Int) : truncated n = n := by
  unfold truncated
  split_ifs
  · exact Rat.floor_intCast n
  · rw [← Int.cast_neg, Rat.floor_intCast, neg_neg]

theorem truncated_neg (r : Rat) : truncated (-r) = -truncated r := by
  rcases lt_trichotomy r 0 with h | rfl | h
  · rw [truncated, truncated, if_pos (by linarith), if_neg (by linarith), neg_neg]
  · have hzero : truncated 0 = 0 := by exact_mod_cast truncated_intCast 0
    rw [neg_zero, hzero, neg_zero]
  · rw [truncated, truncated, if_neg (by linarith), if_pos h.le, neg_neg]

/-- The sum does not see the sign of a value that is not zero. -/
theorem truncatedSum_neg {r : Rat} (hr : r ≠ 0) : truncatedSum (-r) = -truncatedSum r := by
  unfold truncatedSum
  rw [← truncated_neg, ← Binary.toRat_ofRat_neg]
  rcases hr.lt_or_gt with h | h
  · rw [if_pos (by linarith), if_neg (by linarith), neg_sub, sub_eq_add_neg, add_comm]
  · rw [if_neg (by linarith), if_pos h.le, neg_add, sub_eq_add_neg]

/-- The sum of a moderate value is cut to the nearest whole number. -/
theorem truncatedSum_eq {q : Rat} (hq : IsDyadic q) (hlt : |q| < 2 ^ 20) :
    truncatedSum q = roundHalfAway q := by
  wlog h0 : 0 ≤ q generalizing q
  · have hneg := this hq.neg (by rwa [abs_neg]) (by linarith)
    rwa [truncatedSum_neg (by linarith), roundHalfAway_neg, neg_inj] at hneg
  · rw [abs_of_nonneg h0] at hlt
    have hsum : 0 ≤ (Binary.ofRat .double (q + 1 / 2)).toRat := by
      rw [Binary.toRat_ofRat_of_nonneg (by linarith)]
      exact BinaryFormat.double.valueOf_nonneg _
    rw [truncatedSum, if_pos h0, truncated, if_pos hsum, floor_sum hq h0 hlt, roundHalfAway,
      if_pos h0]

/-- A great value is rounded to a great one. How it is rounded does not matter, since it fits no
mantissa. -/
theorem le_toRat_ofRat {r : Rat} (h : 2 ^ 20 ≤ r) : 2 ^ 20 ≤ (Binary.ofRat .double r).toRat := by
  have hbound := (isDyadic_quarters (n := 2 ^ 22) (by decide)).toRat_ofRat
  have hle := Binary.toRat_ofRat_mono (F := .double) (by norm_num) h
  norm_num at hbound hle ⊢
  linarith

/-- The sum of a great value is cut to a great number. -/
theorem le_truncatedSum {q : Rat} (h : 2 ^ 20 ≤ q) : 2 ^ 20 ≤ truncatedSum q := by
  have hle := le_toRat_ofRat (r := q + 1 / 2) (by linarith)
  rw [truncatedSum, if_pos (by linarith), truncated, if_pos (by linarith), Rat.le_floor_iff]
  exact_mod_cast hle

/-! ## Whole numbers -/

/-- A number within the word that is not great is not rounded. -/
theorem toRat_ofRat_saturated {n : Int} (h : |n| ≤ 2 ^ 20) :
    (Binary.ofRat .double (saturated n)).toRat = n := by
  obtain ⟨hl, hg⟩ := abs_le.mp h
  have hsat : saturated n = n := by
    unfold saturated
    omega
  have hround := (isDyadic_quarters (n := 4 * n) (by omega)).toRat_ofRat
  rw [Int.cast_mul, Int.cast_ofNat, mul_div_cancel_left₀ _ (by norm_num)] at hround
  rw [hsat, hround]

/-- A great number stays great. -/
theorem le_toRat_ofRat_saturated {n : Int} (h : 2 ^ 20 ≤ n) :
    2 ^ 20 ≤ (Binary.ofRat .double (saturated n)).toRat := by
  have hsat : 2 ^ 20 ≤ saturated n := by
    unfold saturated
    omega
  exact le_toRat_ofRat (by exact_mod_cast hsat)

/-- A great negative number stays great. -/
theorem toRat_ofRat_saturated_le {n : Int} (h : n ≤ -2 ^ 20) :
    (Binary.ofRat .double (saturated n)).toRat ≤ -2 ^ 20 := by
  have hsat : 2 ^ 20 ≤ -saturated n := by
    unfold saturated
    omega
  have hle := le_toRat_ofRat (r := -saturated n) (by exact_mod_cast hsat)
  rw [Binary.toRat_ofRat_neg] at hle
  linarith

/-! ## Mantissas -/

variable {q : Double}

/-- A moderate quotient is rounded to the nearest whole number, a half away from zero, as exact
arithmetic does it. -/
theorem toRat_roundInDoubles (hq : IsDyadic q.toRat) (hlt : |q.toRat| < 2 ^ 20) :
    (roundInDoubles q).toRat = roundHalfAway q.toRat := by
  have hround : |roundHalfAway q.toRat| ≤ 2 ^ 20 := by
    obtain ⟨hl, hg⟩ := abs_lt.mp hlt
    refine abs_le.mpr ⟨roundHalfAway_nearest.le_round ?_, roundHalfAway_nearest.round_le ?_⟩ <;>
      push_cast <;> linarith
  rw [roundInDoubles, truncatedSum_eq hq hlt, toRat_ofRat_saturated hround]

/-- A great quotient is rounded to a number beyond the range of a mantissa, and its nearest whole
number is beyond that range as well. -/
theorem lt_abs_roundInDoubles (hge : 2 ^ 20 ≤ |q.toRat|) :
    (2 ^ 20 ≤ (roundInDoubles q).toRat ∧ 2 ^ 20 ≤ roundHalfAway q.toRat) ∨
      ((roundInDoubles q).toRat ≤ -2 ^ 20 ∧ roundHalfAway q.toRat ≤ -2 ^ 20) := by
  rcases le_abs.mp hge with h | h
  · exact .inl ⟨le_toRat_ofRat_saturated (le_truncatedSum h),
      roundHalfAway_nearest.le_round (by exact_mod_cast h)⟩
  · have hneg := le_truncatedSum h
    have hround : (2 ^ 20 : Int) ≤ roundHalfAway (-q.toRat) :=
      roundHalfAway_nearest.le_round (by exact_mod_cast h)
    rw [truncatedSum_neg (by linarith)] at hneg
    rw [roundHalfAway_neg] at hround
    exact .inr ⟨toRat_ofRat_saturated_le (by omega), by omega⟩

/-- The mantissa of a quotient fits with 64 bits exactly if it fits, and is the same then. -/
theorem fitsInDoubles_roundInDoubles (hq : IsDyadic q.toRat) :
    fitsInDoubles (roundInDoubles q) = fits (roundHalfAway q.toRat) ∧
      (fits (roundHalfAway q.toRat) = true →
        truncated (roundInDoubles q).toRat = roundHalfAway q.toRat) := by
  unfold fitsInDoubles
  rcases lt_or_ge |q.toRat| (2 ^ 20) with hlt | hge
  · rw [toRat_roundInDoubles hq hlt, truncated_intCast]
    refine ⟨?_, fun _ => rfl⟩
    rw [fits]
    congr 1 <;> exact decide_eq_decide.mpr (by norm_cast)
  · have hout : fits (roundHalfAway q.toRat) = false := by
      rw [Bool.eq_false_iff, Ne, fits_iff]
      rcases lt_abs_roundInDoubles hge with h | h <;> omega
    rw [hout]
    refine ⟨?_, fun h => absurd h Bool.false_ne_true⟩
    rw [Bool.and_eq_false_iff, decide_eq_false_iff_not, decide_eq_false_iff_not]
    rcases lt_abs_roundInDoubles hge with h | h
    · right
      linarith [h.1]
    · left
      linarith [h.1]

/-- **The number that is found with numbers of 64 bits is the one that exact arithmetic finds.** All
else is therefore said with exact arithmetic. -/
theorem nearestInDoubles_eq {v : Single} (hv : v.isFinite = true) :
    nearestInDoubles v = nearest (v.toRat * 100) := by
  -- neither the product nor any quotient is rounded
  have hquot (e : Nat) (he : e < 16) : ∃ q : Double, mantissaInDoubles v e = roundInDoubles q ∧
      q.toRat = v.toRat * 100 / 2 ^ e := by
    have hscaled := (isDyadic_hundredths hv (e := 0) (by decide)).toRat_ofRat
    rw [pow_zero, div_one] at hscaled
    refine ⟨_, rfl, ?_⟩
    rw [(Binary.toRat_convert_double hv).2, hscaled]
    exact (isDyadic_hundredths hv he).toRat_ofRat
  have hspec (e : Nat) (he : e < 16) :
      fitsInDoubles (mantissaInDoubles v e) = fits (mantissaAt (v.toRat * 100) e) ∧
        (fits (mantissaAt (v.toRat * 100) e) = true →
          truncated (mantissaInDoubles v e).toRat = mantissaAt (v.toRat * 100) e) := by
    obtain ⟨q, hm, hq⟩ := hquot e he
    have h := fitsInDoubles_roundInDoubles (hq ▸ isDyadic_hundredths hv he)
    rwa [hq, ← hm] at h
  have hfind : ((List.range 16).find? fun e => fitsInDoubles (mantissaInDoubles v e)) =
      (List.range 16).find? fun e => fits (mantissaAt (v.toRat * 100) e) :=
    List.find?_congr fun e he => (hspec e (List.mem_range.mp he)).1
  rw [nearestInDoubles, nearest, hfind]
  cases hf : (List.range 16).find? fun e => fits (mantissaAt (v.toRat * 100) e) with
  | none => rfl
  | some e =>
    have he := List.mem_range.mp (List.mem_of_find?_eq_some hf)
    have hfits := List.find?_some hf
    simp only [Option.map_some, (hspec e he).2 hfits]

end BuildingBus.Datapoint.ShortFloat
