import BuildingBus.Number.Binary
import Mathlib.Data.Int.Log
import Mathlib.Data.Rat.Floor
import Mathlib.Order.Monotone.Basic
import Mathlib.Tactic.Linarith
import Mathlib.Tactic.Ring

/-!
# Rounding keeps the order

Both ways to round to whole numbers go to one of the nearest, and that alone makes them keep the
order (`RoundsToNearest.mono`). The magnitudes of a binary format are in the order of the numbers
that they stand for (`BinaryFormat.valueOf_strictMono`), and rounding to the nearest magnitude keeps
the order as well (`BinaryFormat.nearest_mono`): within one power of two because rounding to whole
numbers does, and across powers of two because the significands of the lesser one end where those of
the greater one begin.

Thus a number between two limits is converted to one between what the limits are converted to
(`Binary.toRat_convert_mem`).
-/

namespace BuildingBus.Number

variable {r s : Rat}

/-! ## Whole numbers -/

/-- A way of rounding that goes to a whole number at most one half away. Where halves go is left
open. -/
def RoundsToNearest (f : Rat → Int) : Prop := ∀ r, |r - f r| ≤ 1 / 2

namespace RoundsToNearest

variable {f : Rat → Int} {n : Int}

theorem le_round (hf : RoundsToNearest f) (h : (n : Rat) ≤ r) : n ≤ f r := by
  have hr := (abs_le.mp (hf r)).2
  have hlt : ((n - 1 : Int) : Rat) < f r := by
    push_cast
    linarith
  have := Int.cast_lt.mp hlt
  omega

theorem round_le (hf : RoundsToNearest f) (h : r ≤ (n : Rat)) : f r ≤ n := by
  have hr := (abs_le.mp (hf r)).1
  have hlt : (f r : Rat) < (n + 1 : Int) := by
    push_cast
    linarith
  have := Int.cast_lt.mp hlt
  omega

/-- Rounding to the nearest keeps the order: two values that are rounded the wrong way round would
lie on the same half. -/
theorem mono (hf : RoundsToNearest f) (h : r ≤ s) : f r ≤ f s := by
  by_contra hlt
  have hcast : ((f s + 1 : Int) : Rat) ≤ f r := Int.cast_le.mpr (by omega)
  push_cast at hcast
  have hr := (abs_le.mp (hf r)).1
  have hs := (abs_le.mp (hf s)).2
  have heq : r = s := by linarith
  exact hlt (heq ▸ Int.le_refl (f r))

end RoundsToNearest

theorem roundHalfEven_nearest : RoundsToNearest roundHalfEven := by
  intro r
  have hle : (r.floor : Rat) ≤ r := Rat.floor_le r
  have hlt : r < (r.floor : Rat) + 1 := Int.lt_floor_add_one r
  unfold roundHalfEven
  dsimp only
  rw [abs_le]
  split_ifs <;> push_cast <;> constructor <;> linarith

theorem roundHalfAway_nearest : RoundsToNearest roundHalfAway := by
  intro r
  rw [abs_le]
  unfold roundHalfAway
  split_ifs with h
  · have hle : ((r + 1 / 2).floor : Rat) ≤ r + 1 / 2 := Rat.floor_le _
    have hlt : r + 1 / 2 < ((r + 1 / 2).floor : Rat) + 1 := Int.lt_floor_add_one _
    constructor <;> linarith
  · have hle : ((1 / 2 - r).floor : Rat) ≤ 1 / 2 - r := Rat.floor_le _
    have hlt : 1 / 2 - r < ((1 / 2 - r).floor : Rat) + 1 := Int.lt_floor_add_one _
    push_cast
    constructor <;> linarith

/-! ## Powers of two -/

theorem zpow_mul_pow (e : Int) (k : Nat) : (2 : Rat) ^ e * 2 ^ k = 2 ^ (e + k) := by
  rw [← zpow_natCast, ← zpow_add₀ two_ne_zero]

theorem two_zpow_pos (e : Int) : (0 : Rat) < 2 ^ e := zpow_pos two_pos e

/-- A positive number lies between the powers of two that its binary length gives. -/
theorem two_pow_log2_le {n : Nat} (h : 0 < n) : (2 : Rat) ^ n.log2 ≤ n := by
  exact_mod_cast Nat.log2_self_le h.ne'

theorem lt_two_pow_log2 (n : Nat) : (n : Rat) < 2 ^ (n.log2 + 1) := by
  exact_mod_cast Nat.lt_log2_self

/-- The binary lengths of numerator and denominator leave two exponents to choose from. -/
theorem log2Floor_eq_log (h : 0 < r) : log2Floor r = Int.log 2 r := by
  have hn : 0 < r.num.natAbs := Int.natAbs_pos.mpr (Rat.num_pos.mpr h).ne'
  have hd : (0 : Rat) < r.den := Nat.cast_pos.mpr r.den_pos
  have hr : r = r.num.natAbs / r.den := by
    rw [Nat.cast_natAbs, abs_of_pos (Rat.num_pos.mpr h), Rat.num_div_den]
  unfold log2Floor
  dsimp only
  generalize he : (r.num.natAbs.log2 : Int) - r.den.log2 = e
  have hlow : (2 : Rat) ^ (e - 1) ≤ r := by
    rw [hr, le_div_iff₀ hd]
    calc (2 : Rat) ^ (e - 1) * r.den
        ≤ 2 ^ (e - 1) * 2 ^ (r.den.log2 + 1) :=
          mul_le_mul_of_nonneg_left (lt_two_pow_log2 _).le (two_zpow_pos _).le
      _ = 2 ^ r.num.natAbs.log2 := by
          rw [zpow_mul_pow, ← zpow_natCast]
          congr 1
          omega
      _ ≤ r.num.natAbs := two_pow_log2_le hn
  have hhigh : r < (2 : Rat) ^ (e + 1) := by
    rw [hr, div_lt_iff₀ hd]
    calc (r.num.natAbs : Rat)
        < 2 ^ (r.num.natAbs.log2 + 1) := lt_two_pow_log2 _
      _ = 2 ^ (e + 1) * 2 ^ r.den.log2 := by
          rw [zpow_mul_pow, ← zpow_natCast]
          congr 1
          omega
      _ ≤ 2 ^ (e + 1) * r.den :=
          mul_le_mul_of_nonneg_left (two_pow_log2_le r.den_pos) (two_zpow_pos _).le
  have hlow' := (Int.zpow_le_iff_le_log one_lt_two h).mp hlow
  have hhigh' := (Int.lt_zpow_iff_log_lt one_lt_two h).mp hhigh
  split_ifs with hc
  · have := (Int.zpow_le_iff_le_log one_lt_two h).mp hc
    omega
  · have := mt (Int.zpow_le_iff_le_log one_lt_two h).mpr hc
    omega

/-! ## The order of magnitudes -/

namespace BinaryFormat

variable (F : BinaryFormat)

theorem significand_lt (m : Nat) : F.significand m < 2 ^ (F.fractionBits + 1) := by
  have hmod := Nat.mod_lt m (Nat.two_pow_pos F.fractionBits)
  unfold significand
  split_ifs <;> omega

/-- The unit is the least one, or the units are counted from a power of two on. -/
theorem unit_least_or_le_significand (m : Nat) :
    m / 2 ^ F.fractionBits - 1 = 0 ∨ 2 ^ F.fractionBits ≤ F.significand m := by
  unfold significand
  split_ifs with h
  · left
    rw [Nat.div_eq_of_lt h]
  · right
    omega

/-- A magnitude from the two parts of its value: with each exponent, magnitudes go on where they
stopped with the one before. -/
theorem add_significand (m : Nat) :
    (m / 2 ^ F.fractionBits - 1) * 2 ^ F.fractionBits + F.significand m = m := by
  unfold significand
  split_ifs with h
  · rw [Nat.div_eq_of_lt h]
    simp
  · have hq : 1 ≤ m / 2 ^ F.fractionBits :=
      (Nat.one_le_div_iff (Nat.two_pow_pos _)).mpr (by omega)
    have hdm := Nat.div_add_mod' m (2 ^ F.fractionBits)
    obtain ⟨q, hq⟩ := Nat.exists_eq_add_of_le' hq
    rw [hq, Nat.add_mul] at hdm
    rw [hq, Nat.add_sub_cancel]
    omega

/-- The value of a magnitude that is given by a unit and a count of units. The count may reach the
next power of two, where the unit doubles. -/
theorem valueOf_eq {k n : Nat} (hn : n ≤ 2 ^ (F.fractionBits + 1))
    (hk : k = 0 ∨ 2 ^ F.fractionBits ≤ n) :
    F.valueOf (k * 2 ^ F.fractionBits + n) = n * 2 ^ (F.leastExponent + k) := by
  have hP := Nat.two_pow_pos F.fractionBits
  have hP2 := Nat.pow_succ 2 F.fractionBits
  rcases Nat.lt_or_ge n (2 ^ F.fractionBits) with hlt | hge
  · obtain rfl : k = 0 := by omega
    simp [valueOf, significand, unitExponent, hlt, Nat.div_eq_of_lt hlt]
  · obtain ⟨f, rfl⟩ := Nat.exists_eq_add_of_le hge
    have hk : k * 2 ^ F.fractionBits + (2 ^ F.fractionBits + f) =
        f + (k + 1) * 2 ^ F.fractionBits := by ring
    have hge' : ¬ f + (k + 1) * 2 ^ F.fractionBits < 2 ^ F.fractionBits := by
      rw [Nat.add_mul]
      omega
    unfold valueOf significand unitExponent
    rw [hk, if_neg hge', Nat.add_mul_mod_self_right, Nat.add_mul_div_right _ _ hP]
    rcases Nat.lt_or_ge f (2 ^ F.fractionBits) with hf | hf
    · rw [Nat.mod_eq_of_lt hf, Nat.div_eq_of_lt hf]
      simp
    · -- all units are counted: the magnitude is the first with the next unit
      obtain rfl : f = 2 ^ F.fractionBits := by omega
      rw [Nat.mod_self, Nat.div_self hP, show 1 + (k + 1) - 1 = k + 1 by omega]
      push_cast
      rw [← Int.add_assoc, zpow_add_one₀ two_ne_zero]
      ring

/-- From a magnitude to the next, the value grows by the unit of the lesser one. -/
theorem valueOf_succ (m : Nat) : F.valueOf (m + 1) = F.valueOf m + 2 ^ F.unitExponent m := by
  have h := F.valueOf_eq (k := m / 2 ^ F.fractionBits - 1) (n := F.significand m + 1)
    (F.significand_lt m) ((F.unit_least_or_le_significand m).imp_right Nat.le_succ_of_le)
  rw [← Nat.add_assoc, add_significand] at h
  rw [h, valueOf, unitExponent]
  push_cast
  ring

/-- Magnitudes are in the order of the numbers that they stand for. -/
theorem valueOf_strictMono : StrictMono F.valueOf :=
  strictMono_nat_of_lt_succ fun m => by
    rw [valueOf_succ]
    exact lt_add_of_pos_right _ (two_zpow_pos _)

/-! ## The nearest magnitude -/

/-- The power of two whose multiples a value is rounded to. -/
def unit (r : Rat) : Int := max (log2Floor r - F.fractionBits) F.leastExponent

/-- The multiple that a value is rounded to. -/
def units (r : Rat) : Nat := (roundHalfEven (r / 2 ^ F.unit r)).toNat

theorem unit_eq (h : 0 < r) :
    F.unit r = max (Int.log 2 r - F.fractionBits) F.leastExponent := by
  rw [unit, log2Floor_eq_log h]

theorem nearest_eq (h : 0 < r) :
    F.nearest r =
      min F.infinity ((F.unit r - F.leastExponent).toNat * 2 ^ F.fractionBits + F.units r) :=
  if_neg h.ne'

/-- A value has at most as many units as the next power of two. -/
theorem units_le (h : 0 < r) : F.units r ≤ 2 ^ (F.fractionBits + 1) := by
  have hle : roundHalfEven (r / 2 ^ F.unit r) ≤ ((2 ^ (F.fractionBits + 1) : Nat) : Int) := by
    refine roundHalfEven_nearest.round_le ((div_le_iff₀ (two_zpow_pos _)).mpr ?_)
    push_cast
    rw [mul_comm, zpow_mul_pow]
    have hlog : Int.log 2 r + 1 ≤ F.unit r + (F.fractionBits + 1 : Nat) := by
      rw [F.unit_eq h]
      omega
    exact (Int.lt_zpow_succ_log_self one_lt_two r).le.trans
      (zpow_le_zpow_right₀ one_le_two hlog)
  exact Int.toNat_le.mpr hle

/-- A value whose unit is not the least one has as many units as a power of two. -/
theorem le_units (h : 0 < r) (hu : F.leastExponent < F.unit r) :
    2 ^ F.fractionBits ≤ F.units r := by
  have hle : ((2 ^ F.fractionBits : Nat) : Int) ≤ roundHalfEven (r / 2 ^ F.unit r) := by
    refine roundHalfEven_nearest.le_round ((le_div_iff₀ (two_zpow_pos _)).mpr ?_)
    push_cast
    rw [mul_comm, zpow_mul_pow]
    have hlog : F.unit r + F.fractionBits = Int.log 2 r := by
      rw [F.unit_eq h] at hu ⊢
      omega
    rw [hlog]
    exact Int.zpow_log_le_self one_lt_two h
  exact (Int.le_toNat ((Int.natCast_nonneg _).trans hle)).mpr hle

theorem unit_mono (hr : 0 < r) (h : r ≤ s) : F.unit r ≤ F.unit s := by
  rw [F.unit_eq hr, F.unit_eq (hr.trans_le h)]
  exact max_le_max_right _ (Int.sub_le_sub_right (Int.log_mono_right hr h) _)

/-- **Rounding to the nearest magnitude keeps the order.** It does not keep it strictly, as many
values have one nearest magnitude. -/
theorem nearest_mono (hr : 0 ≤ r) (h : r ≤ s) : F.nearest r ≤ F.nearest s := by
  rcases hr.eq_or_lt with rfl | hr
  · exact Nat.zero_le _
  · have hs := hr.trans_le h
    rw [F.nearest_eq hr, F.nearest_eq hs]
    refine min_le_min_left _ ?_
    rcases (F.unit_mono hr h).eq_or_lt with he | hlt
    · have hdiv : r / 2 ^ F.unit r ≤ s / 2 ^ F.unit s := by
        rw [he]
        exact div_le_div_of_nonneg_right h (two_zpow_pos _).le
      rw [he]
      exact Nat.add_le_add_left (Int.toNat_le_toNat (roundHalfEven_nearest.mono hdiv)) _
    · -- the lesser value counts at most to the next power of two, and the greater one starts there
      have hleast : F.leastExponent ≤ F.unit r := le_max_right _ _
      have hur := F.units_le hr
      have hus := F.le_units hs (hleast.trans_lt hlt)
      obtain ⟨k, hk⟩ := Nat.exists_eq_add_of_lt
        (show (F.unit r - F.leastExponent).toNat < (F.unit s - F.leastExponent).toNat by omega)
      rw [hk]
      generalize (F.unit r - F.leastExponent).toNat = j
      calc j * 2 ^ F.fractionBits + F.units r
          ≤ j * 2 ^ F.fractionBits + 2 ^ F.fractionBits * 2 := Nat.add_le_add_left hur _
        _ ≤ (j + k + 1) * 2 ^ F.fractionBits + 2 ^ F.fractionBits := by
            rw [Nat.add_mul, Nat.add_mul]
            omega
        _ ≤ (j + k + 1) * 2 ^ F.fractionBits + F.units s := Nat.add_le_add_left hus _

end BinaryFormat

/-! ## Conversion -/

theorem BinaryFormat.infinity_lt (F : BinaryFormat) : F.infinity < 2 ^ F.magnitudeBits := by
  unfold infinity magnitudeBits
  rw [Nat.pow_add]
  exact Nat.mul_lt_mul_of_pos_right (Nat.sub_one_lt (Nat.two_pow_pos _).ne') (Nat.two_pow_pos _)

theorem BinaryFormat.nearest_le_infinity (F : BinaryFormat) (r : Rat) :
    F.nearest r ≤ F.infinity := by
  unfold nearest
  split_ifs
  · exact Nat.zero_le _
  · exact Nat.min_le_left _ _

namespace Binary

variable {F G : BinaryFormat} {v : Binary F}

theorem absRat_nonneg (v : Binary F) : 0 ≤ v.absRat :=
  mul_nonneg (Nat.cast_nonneg _) (two_zpow_pos _).le

@[simp] theorem abs_toRat (v : Binary F) : |v.toRat| = v.absRat := by
  unfold toRat
  split_ifs
  · rw [abs_neg, abs_of_nonneg v.absRat_nonneg]
  · exact abs_of_nonneg v.absRat_nonneg

theorem magnitude_convert (v : Binary F) : (v.convert G).magnitude.val = G.nearest v.absRat :=
  Nat.mod_eq_of_lt ((G.nearest_le_infinity _).trans_lt G.infinity_lt)

/-- A bound whose rounding is finite bounds finite numbers, as rounding keeps the order. -/
theorem isFinite_convert (h : v.absRat ≤ r) (hr : G.nearest r < G.infinity) :
    (v.convert G).isFinite = true := by
  refine decide_eq_true ?_
  rw [magnitude_convert]
  exact (G.nearest_mono v.absRat_nonneg h).trans_lt hr

/-- What a number is rounded to is bounded by what its bound is rounded to. -/
theorem absRat_convert_le (h : v.absRat ≤ r) :
    (v.convert G).absRat ≤ G.valueOf (G.nearest r) := by
  unfold absRat
  rw [magnitude_convert]
  exact G.valueOf_strictMono.monotone (G.nearest_mono v.absRat_nonneg h)

/-- A number between two limits is rounded to one between what the limits are rounded to. -/
theorem toRat_convert_mem (hl : -r ≤ v.toRat) (hu : v.toRat ≤ s) :
    -G.valueOf (G.nearest r) ≤ (v.convert G).toRat ∧
      (v.convert G).toRat ≤ G.valueOf (G.nearest s) := by
  have hn := (v.convert G).absRat_nonneg
  have hv (q : Rat) : 0 ≤ G.valueOf (G.nearest q) :=
    mul_nonneg (Nat.cast_nonneg _) (two_zpow_pos _).le
  have hsign : (v.convert G).negative = v.negative := rfl
  unfold toRat at hl hu ⊢
  rw [hsign]
  split_ifs at hl hu ⊢
  · exact ⟨neg_le_neg (absRat_convert_le (neg_le_neg_iff.mp hl)), (neg_nonpos.mpr hn).trans (hv s)⟩
  · exact ⟨(neg_nonpos.mpr (hv r)).trans hn, absRat_convert_le hu⟩

end Binary

end BuildingBus.Number
