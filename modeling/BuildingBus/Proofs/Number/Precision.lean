import BuildingBus.Proofs.Number.Rounding

/-!
# How far rounding goes

No whole number is nearer to a value than the one it is rounded to, and if a half goes away from
zero, then no whole number that is as near is farther from zero
(`abs_le_abs_roundHalfAway`). A value is rounded to a given number or one nearer to zero exactly up
to the next half (`roundHalfAway_le_iff`, `le_roundHalfAway_iff`).

A binary format rounds a value to a multiple of a power of two, hence by at most half of it
(`BinaryFormat.abs_valueOf_nearest_sub_le`). Where the significand has all its bits this is a
fraction of the value itself that depends on the format alone (`Binary.abs_toRat_ofRat_sub_le`).
What has few enough bits is not changed (`Binary.toRat_ofRat_of_eq_mul`), so that a number of 32 bits
is the same number with 64 (`Binary.toRat_convert_double`).
-/

namespace BuildingBus.Number

variable {r : Rat}

/-! ## Whole numbers -/

namespace RoundsToNearest

variable {f : Rat → Int}

/-- No whole number is nearer than the one that a value is rounded to. -/
theorem abs_sub_round_le (hf : RoundsToNearest f) (r : Rat) (n : Int) : |r - f r| ≤ |r - n| := by
  rcases eq_or_ne n (f r) with rfl | hne
  · exact le_refl _
  · have hone : (1 : Rat) ≤ |(n : Rat) - f r| := by
      exact_mod_cast Int.one_le_abs (sub_ne_zero.mpr hne)
    have htriangle : |(n : Rat) - f r| ≤ |r - f r| + |r - n| := by
      rw [abs_sub_comm r n, add_comm]
      exact abs_sub_le _ _ _
    have hhalf := hf r
    linarith

/-- A value that lies closer than a half to a whole number is rounded to it. -/
theorem eq_of_abs_sub_lt (hf : RoundsToNearest f) {n : Int} (h : |r - n| < 1 / 2) : f r = n := by
  have hle := hf.abs_sub_round_le r n
  have hlt : |(f r : Rat) - n| < 1 := by
    calc |(f r : Rat) - n| ≤ |(f r : Rat) - r| + |r - n| := abs_sub_le _ _ _
      _ = |r - f r| + |r - n| := by rw [abs_sub_comm r (f r)]
      _ < 1 := by linarith
  have hlt' : |f r - n| < 1 := by exact_mod_cast hlt
  exact sub_eq_zero.mp (Int.abs_lt_one_iff.mp hlt')

end RoundsToNearest

/-- Rounding away from zero does not see the sign. -/
theorem roundHalfAway_neg (r : Rat) : roundHalfAway (-r) = -roundHalfAway r := by
  unfold roundHalfAway
  rcases lt_trichotomy r 0 with h | rfl | h
  · rw [if_pos (by linarith), if_neg (by linarith), neg_neg, neg_add_eq_sub]
  · decide +kernel
  · rw [if_neg (by linarith), if_pos h.le, sub_neg_eq_add, add_comm]

/-- A value is rounded to at most `n`, which is not negative, up to the half above `n`. -/
theorem roundHalfAway_le_iff {n : Int} (hn : 0 ≤ n) : roundHalfAway r ≤ n ↔ r < n + 1 / 2 := by
  have hn' : (0 : Rat) ≤ n := Int.cast_nonneg hn
  unfold roundHalfAway
  split_ifs with h
  · rw [← Int.lt_add_one_iff, Rat.floor_lt_iff]
    push_cast
    constructor <;> intro h <;> linarith
  · have hfloor : 0 ≤ (1 / 2 - r).floor := Rat.le_floor_iff.mpr (by push_cast; linarith)
    exact iff_of_true (by omega) (by linarith)

/-- A value is rounded to at least `n`, which is not positive, down to the half below `n`. -/
theorem le_roundHalfAway_iff {n : Int} (hn : n ≤ 0) : n ≤ roundHalfAway r ↔ n - 1 / 2 < r := by
  have h := roundHalfAway_le_iff (r := -r) (Int.neg_nonneg.mpr hn)
  rw [roundHalfAway_neg, neg_le_neg_iff] at h
  rw [h]
  push_cast
  constructor <;> intro h <;> linarith

/-- A whole number that is as near as the one that a value is rounded to is not farther from
zero. -/
theorem abs_le_abs_roundHalfAway {n : Int} (h : |r - n| ≤ |r - roundHalfAway r|) :
    |n| ≤ |roundHalfAway r| := by
  wlog hr : 0 ≤ r generalizing r n
  · have hneg := this (r := -r) (n := -n) (by
      rw [roundHalfAway_neg]
      push_cast
      rwa [neg_sub_neg, neg_sub_neg, abs_sub_comm, abs_sub_comm _ r]) (by linarith)
    rwa [roundHalfAway_neg, abs_neg, abs_neg] at hneg
  · -- both lie within a half of the value, and a half above it is already rounded up
    have hhalf := abs_le.mp (h.trans (roundHalfAway_nearest r))
    have hn : (n : Rat) < (roundHalfAway r + 1 : Int) := by
      have hround : roundHalfAway r = (r + 1 / 2).floor := if_pos hr
      have hlt : r + 1 / 2 < ((r + 1 / 2).floor : Rat) + 1 := Int.lt_floor_add_one _
      rw [hround]
      push_cast
      linarith [hhalf.1]
    have hpos : ((-1 : Int) : Rat) < n := by
      push_cast
      linarith [hhalf.2]
    have hn' := Int.cast_lt.mp hn
    have hpos' := Int.cast_lt.mp hpos
    rw [abs_of_nonneg (by omega), abs_of_nonneg (by omega)]
    omega

/-! ## Magnitudes -/

/-- The distance from a multiple, counted in units. -/
theorem abs_mul_sub_eq {q : Rat} (hq : 0 < q) (c : Rat) : |c * q - r| = |r / q - c| * q := by
  calc |c * q - r| = |(r / q - c) * q| := by rw [sub_mul, div_mul_cancel₀ _ hq.ne', abs_sub_comm]
    _ = |r / q - c| * q := by rw [abs_mul, abs_of_pos hq]

namespace BinaryFormat

variable (F : BinaryFormat)

theorem valueOf_nonneg (m : Nat) : 0 ≤ F.valueOf m :=
  mul_nonneg (Nat.cast_nonneg _) (two_zpow_pos _).le

/-- A finite magnitude stands for the multiple that its value was rounded to. -/
theorem valueOf_nearest (hr : 0 < r) (hf : F.nearest r < F.infinity) :
    F.valueOf (F.nearest r) = F.units r * 2 ^ F.unit r := by
  have hleast : F.leastExponent ≤ F.unit r := le_max_right _ _
  rw [F.nearest_eq hr] at hf ⊢
  rw [min_eq_right (by omega), F.valueOf_eq (F.units_le hr)]
  · rw [Int.toNat_of_nonneg (by omega), add_sub_cancel]
  · rcases hleast.eq_or_lt with he | hlt
    · left
      omega
    · exact .inr (F.le_units hr hlt)

/-- The count of units is the rounded one, which is not negative. -/
theorem natCast_units (hr : 0 < r) : (F.units r : Int) = roundHalfEven (r / 2 ^ F.unit r) := by
  have hquot : 0 ≤ r / 2 ^ F.unit r := (div_pos hr (two_zpow_pos _)).le
  exact Int.toNat_of_nonneg (roundHalfEven_nearest.le_round (by exact_mod_cast hquot))

theorem cast_units (hr : 0 < r) :
    (F.units r : Rat) = (roundHalfEven (r / 2 ^ F.unit r) : Int) := by
  rw [← F.natCast_units hr, Int.cast_natCast]

/-- Rounding goes by at most half the unit, where the unit is that of the value and not of the
result. -/
theorem abs_valueOf_nearest_sub_le (hr : 0 < r) (hf : F.nearest r < F.infinity) :
    |F.valueOf (F.nearest r) - r| ≤ 2 ^ F.unit r / 2 := by
  have hu := two_zpow_pos (F.unit r)
  have hhalf := roundHalfEven_nearest (r / 2 ^ F.unit r)
  rw [F.valueOf_nearest hr hf, F.cast_units hr, abs_mul_sub_eq hu]
  calc |r / 2 ^ F.unit r - roundHalfEven (r / 2 ^ F.unit r)| * 2 ^ F.unit r
      ≤ 1 / 2 * 2 ^ F.unit r := mul_le_mul_of_nonneg_right hhalf hu.le
    _ = 2 ^ F.unit r / 2 := by ring

/-- The unit of a value whose significand has all its bits. -/
theorem two_pow_unit_le (hr : 2 ^ (F.leastExponent + F.fractionBits) ≤ r) :
    2 ^ F.unit r ≤ r / 2 ^ F.fractionBits := by
  have hpos : 0 < r := (two_zpow_pos _).trans_le hr
  have hlog := (Int.zpow_le_iff_le_log one_lt_two hpos).mp hr
  have hunit : F.unit r + F.fractionBits = Int.log 2 r := by
    rw [F.unit_eq hpos]
    omega
  rw [le_div_iff₀ (by positivity), zpow_mul_pow, hunit]
  exact Int.zpow_log_le_self one_lt_two hpos

/-- A value with few enough bits is a multiple of its unit and is not changed. -/
theorem valueOf_nearest_of_eq_mul {n : Nat} {k : Int} (hr : r = n * 2 ^ k)
    (hn : n < 2 ^ (F.fractionBits + 1)) (hk : F.leastExponent ≤ k)
    (hf : F.nearest r < F.infinity) : F.valueOf (F.nearest r) = r := by
  rcases Nat.eq_zero_or_pos n with rfl | hpos
  · obtain rfl : r = 0 := by simpa using hr
    simp [nearest, valueOf, significand]
  · have hr0 : 0 < r := hr ▸ mul_pos (Nat.cast_pos.mpr hpos) (two_zpow_pos k)
    have hlt : r < 2 ^ (k + (F.fractionBits + 1 : Nat)) := by
      rw [hr, ← zpow_mul_pow, mul_comm]
      exact mul_lt_mul_of_pos_left (by exact_mod_cast hn) (two_zpow_pos k)
    have hlog := (Int.lt_zpow_iff_log_lt one_lt_two hr0).mp hlt
    have hunit : F.unit r ≤ k := by
      rw [F.unit_eq hr0]
      omega
    obtain ⟨j, hj⟩ := Int.le.dest hunit
    have hquot : r / 2 ^ F.unit r = ((n * 2 ^ j : Nat) : Int) := by
      rw [div_eq_iff (two_zpow_pos _).ne']
      calc r = n * (2 ^ F.unit r * 2 ^ j) := by rw [zpow_mul_pow, hj, ← hr]
        _ = ((n * 2 ^ j : Nat) : Int) * 2 ^ F.unit r := by
          push_cast
          ring
    have hround : roundHalfEven (r / 2 ^ F.unit r) = ((n * 2 ^ j : Nat) : Int) :=
      roundHalfEven_nearest.eq_of_abs_sub_lt (by rw [hquot, sub_self, abs_zero]; norm_num)
    rw [F.valueOf_nearest hr0 hf, units, hround, Int.toNat_natCast, ← Int.cast_natCast, ← hquot,
      div_mul_cancel₀ _ (two_zpow_pos _).ne']

/-- A bound that lies between two neighbours admits the values up to the lower one. -/
theorem valueOf_le_iff_of_mem {F : BinaryFormat} {m n : Nat} (hl : F.valueOf n ≤ r)
    (hu : r < F.valueOf (n + 1)) : F.valueOf m ≤ r ↔ m ≤ n := by
  constructor
  · intro h
    exact Nat.lt_succ_iff.mp (F.valueOf_strictMono.lt_iff_lt.mp (h.trans_lt hu))
  · intro h
    exact (F.valueOf_strictMono.monotone h).trans hl

end BinaryFormat

/-! ## Numbers -/

namespace Binary

variable {F : BinaryFormat}

/-- Only negative numbers can be below a bound that is not positive. -/
theorem neg_le_toRat_iff {v : Binary F} (hr : 0 ≤ r) :
    -r ≤ v.toRat ↔ v.negative = false ∨ v.absRat ≤ r := by
  have habs := v.absRat_nonneg
  unfold toRat
  cases v.negative with
  | false => simpa using by linarith
  | true => simp

/-- Negative numbers are below every bound that is not negative. -/
theorem toRat_le_iff {v : Binary F} (hr : 0 ≤ r) :
    v.toRat ≤ r ↔ v.negative = true ∨ v.absRat ≤ r := by
  have habs := v.absRat_nonneg
  unfold toRat
  cases v.negative with
  | false => simp
  | true => simpa using by linarith

theorem negative_ofRat (F : BinaryFormat) (r : Rat) : (ofRat F r).negative = decide (r < 0) := by
  unfold ofRat
  split_ifs with h <;> simp [ofMagnitude, h]

theorem magnitude_ofRat (F : BinaryFormat) (r : Rat) :
    (ofRat F r).magnitude.val = F.nearest (|r|) := by
  have hmod (q : Rat) : F.nearest q % 2 ^ F.magnitudeBits = F.nearest q :=
    Nat.mod_eq_of_lt ((F.nearest_le_infinity q).trans_lt F.infinity_lt)
  unfold ofRat
  split_ifs with h
  · rw [abs_of_neg h]
    exact hmod _
  · rw [abs_of_nonneg (not_lt.mp h)]
    exact hmod _

theorem isFinite_ofRat_iff : (ofRat F r).isFinite = true ↔ F.nearest (|r|) < F.infinity := by
  rw [isFinite, decide_eq_true_iff, magnitude_ofRat]

/-- A value is rounded as its absolute value is. -/
theorem abs_toRat_ofRat_sub (F : BinaryFormat) (r : Rat) :
    |(ofRat F r).toRat - r| = |F.valueOf (F.nearest (|r|)) - (|r|)| := by
  unfold toRat absRat
  rw [negative_ofRat, magnitude_ofRat]
  by_cases h : r < 0
  · rw [if_pos (decide_eq_true h), abs_of_neg h, ← abs_neg]
    congr 1
    ring
  · rw [if_neg (by simpa using h), abs_of_nonneg (not_lt.mp h)]

/-- A value whose significand has all its bits is rounded by at most a fraction of it. -/
theorem abs_toRat_ofRat_sub_le (hr : 2 ^ (F.leastExponent + F.fractionBits) ≤ |r|)
    (hf : (ofRat F r).isFinite = true) :
    |(ofRat F r).toRat - r| ≤ |r| / 2 ^ (F.fractionBits + 1) := by
  have hpos : 0 < |r| := (two_zpow_pos _).trans_le hr
  rw [abs_toRat_ofRat_sub]
  calc |F.valueOf (F.nearest (|r|)) - (|r|)|
      ≤ 2 ^ F.unit (|r|) / 2 := F.abs_valueOf_nearest_sub_le hpos (isFinite_ofRat_iff.mp hf)
    _ ≤ |r| / 2 ^ F.fractionBits / 2 :=
        div_le_div_of_nonneg_right (F.two_pow_unit_le hr) zero_le_two
    _ = |r| / 2 ^ (F.fractionBits + 1) := by rw [pow_succ, div_div]

/-- A value with few enough bits is not changed. A product with a power of two has no more bits than
before. -/
theorem toRat_ofRat_of_eq_mul {n : Nat} {k : Int} (hr : |r| = n * 2 ^ k)
    (hn : n < 2 ^ (F.fractionBits + 1)) (hk : F.leastExponent ≤ k)
    (hf : (ofRat F r).isFinite = true) : (ofRat F r).toRat = r := by
  have h := abs_toRat_ofRat_sub F r
  rw [F.valueOf_nearest_of_eq_mul hr hn hk (isFinite_ofRat_iff.mp hf), sub_self, abs_zero,
    abs_eq_zero] at h
  exact sub_eq_zero.mp h

/-- Zero stands for zero, and nothing smaller is rounded to anything else. -/
@[simp] theorem toRat_ofRat_zero (F : BinaryFormat) : (ofRat F 0).toRat = 0 := by
  have h := abs_toRat_ofRat_sub F 0
  rw [abs_zero, sub_zero, sub_zero] at h
  refine abs_eq_zero.mp (h.trans ?_)
  simp [BinaryFormat.nearest, BinaryFormat.valueOf, BinaryFormat.significand]

/-- A value that is not negative has the value of its magnitude. -/
theorem toRat_ofRat_of_nonneg (hr : 0 ≤ r) : (ofRat F r).toRat = F.valueOf (F.nearest r) := by
  rw [toRat, negative_ofRat, absRat, magnitude_ofRat, abs_of_nonneg hr]
  exact if_neg (by simpa using hr)

/-- Rounding to a format does not see the sign. -/
theorem toRat_ofRat_neg (F : BinaryFormat) (r : Rat) : (ofRat F (-r)).toRat = -(ofRat F r).toRat := by
  unfold toRat absRat
  rw [negative_ofRat, negative_ofRat, magnitude_ofRat, magnitude_ofRat, abs_neg]
  rcases lt_trichotomy r 0 with h | rfl | h
  · simp [h, h.le, neg_neg]
  · simp [BinaryFormat.nearest, BinaryFormat.valueOf, BinaryFormat.significand]
  · simp [h, h.le]

/-- Rounding to a format keeps the order of values that are not negative. -/
theorem toRat_ofRat_mono {s : Rat} (hr : 0 ≤ r) (h : r ≤ s) :
    (ofRat F r).toRat ≤ (ofRat F s).toRat := by
  rw [toRat_ofRat_of_nonneg hr, toRat_ofRat_of_nonneg (hr.trans h)]
  exact F.valueOf_strictMono.monotone (F.nearest_mono hr h)

/-- A finite number is the same number in a format with no fewer bits in either field. -/
theorem toRat_convert {G : BinaryFormat} {v : Binary F} (hbits : F.fractionBits ≤ G.fractionBits)
    (hleast : G.leastExponent ≤ F.leastExponent) (hf : G.nearest v.absRat < G.infinity) :
    (v.convert G).toRat = v.toRat := by
  have hn : F.significand v.magnitude < 2 ^ (G.fractionBits + 1) :=
    (F.significand_lt _).trans_le (Nat.pow_le_pow_right two_pos (by omega))
  have hk : G.leastExponent ≤ F.unitExponent v.magnitude := by
    unfold BinaryFormat.unitExponent
    omega
  have habs : (v.convert G).absRat = v.absRat := by
    rw [absRat, magnitude_convert]
    exact G.valueOf_nearest_of_eq_mul rfl hn hk hf
  have hsign : (v.convert G).negative = v.negative := rfl
  rw [toRat, toRat, hsign, habs]

/-! ## The two formats -/

/-- How far the two formats reach, as far as the bounds that follow need it. -/
theorem format_bounds :
    BinaryFormat.single.valueOf BinaryFormat.single.infinity = 2 ^ 128 ∧
    BinaryFormat.single.nearest (2 ^ 100) < BinaryFormat.single.infinity ∧
    BinaryFormat.double.nearest (2 ^ 200) < BinaryFormat.double.infinity := by
  decide +kernel

/-- A value that is not too great is rounded to a finite number of 32 bits. -/
theorem isFinite_single (h : |r| ≤ 2 ^ 100) : (ofRat .single r).isFinite = true :=
  isFinite_ofRat_iff.mpr
    ((BinaryFormat.single.nearest_mono (abs_nonneg r) h).trans_lt format_bounds.2.1)

/-- A value that is not too great is rounded to a finite number of 64 bits. -/
theorem isFinite_double (h : |r| ≤ 2 ^ 200) : (ofRat .double r).isFinite = true :=
  isFinite_ofRat_iff.mpr
    ((BinaryFormat.double.nearest_mono (abs_nonneg r) h).trans_lt format_bounds.2.2)

/-- The relative error of a value that is rounded to 32 bits. -/
theorem abs_single_sub_le (hl : 1 / 400 ≤ |r|) (hg : |r| ≤ 2 ^ 100) :
    |(ofRat .single r).toRat - r| ≤ |r| * (1 / 2 ^ 24) := by
  have hleast : (2 : Rat) ^ (BinaryFormat.single.leastExponent + BinaryFormat.single.fractionBits) ≤
      2 ^ (-9 : Int) :=
    zpow_le_zpow_right₀ one_le_two (by decide)
  rw [mul_one_div]
  exact abs_toRat_ofRat_sub_le ((hleast.trans (by norm_num)).trans hl) (isFinite_single hg)

/-- The relative error of a value that is rounded to 64 bits. -/
theorem abs_double_sub_le (hl : 1 / 400 ≤ |r|) (hg : |r| ≤ 2 ^ 200) :
    |(ofRat .double r).toRat - r| ≤ |r| * (1 / 2 ^ 53) := by
  have hleast : (2 : Rat) ^ (BinaryFormat.double.leastExponent + BinaryFormat.double.fractionBits) ≤
      2 ^ (-9 : Int) :=
    zpow_le_zpow_right₀ one_le_two (by decide)
  rw [mul_one_div]
  exact abs_toRat_ofRat_sub_le ((hleast.trans (by norm_num)).trans hl) (isFinite_double hg)

/-- The value of a finite number of 32 bits is not too great for 64. -/
theorem absRat_single_le {v : Single} (hv : v.isFinite = true) : v.absRat ≤ 2 ^ 128 :=
  format_bounds.1 ▸ BinaryFormat.single.valueOf_strictMono.monotone (of_decide_eq_true hv).le

/-- A finite number of 32 bits is the same number with 64: it has fewer bits, and its range is
within. -/
theorem toRat_convert_double {v : Single} (hv : v.isFinite = true) :
    (v.convert .double).isFinite = true ∧ (v.convert .double).toRat = v.toRat := by
  have hle : v.absRat ≤ 2 ^ 200 := (absRat_single_le hv).trans (by norm_num)
  exact ⟨isFinite_convert hle format_bounds.2.2, toRat_convert (by decide) (by decide)
    ((BinaryFormat.double.nearest_mono v.absRat_nonneg hle).trans_lt format_bounds.2.2)⟩

end Binary

end BuildingBus.Number
