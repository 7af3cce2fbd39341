import BuildingBus.Proofs.Number.Nearest

/-!
# Rounding twice

A value that is rounded to 64 bits and then to 32 does not always end at the number of 32 bits that
is nearest to it. The first rounding keeps the order (`IsNearest.le_valueOf`), and what lies in the
middle between two numbers of 32 bits is a number of 64 (`double_refines_single`). So the value can
get into such a middle, but not beyond it, and in the middle a half goes to the even number even if
the value was on the other side.

This is all that can go wrong (`IsNearest.twice_iff`): the number that is found is the nearest one
unless the value is `Misled`, and of a value that is, the even one of its two neighbours is found
(`IsNearest.eq_evenOne`).
-/

namespace BuildingBus.Number

namespace BinaryFormat

variable {F G : BinaryFormat} {r : Rat} {m k p : Nat}

/-! ## Formats within formats -/

/-- The finite magnitudes of a format, and what lies in the middle between two of them, are
magnitudes of another. With less than that, rounding to the other one first could go over a middle.
-/
structure Refines (F G : BinaryFormat) : Prop where
  /-- the magnitudes -/
  valueOf : ∀ k < G.infinity, ∃ m < F.infinity, F.valueOf m = G.valueOf k
  /-- the middles -/
  middle : ∀ k < G.infinity, ∃ m < F.infinity, F.valueOf m = G.middle k

/-- A value with few enough bits is that of a magnitude. -/
theorem exists_valueOf_eq {n : Nat} {e : Int} (hr : r = n * 2 ^ e)
    (hn : n < 2 ^ (F.fractionBits + 1)) (he : F.leastExponent ≤ e)
    (hf : F.nearest r < F.infinity) : ∃ m < F.infinity, F.valueOf m = r :=
  ⟨F.nearest r, hf, F.valueOf_nearest_of_eq_mul hr hn he hf⟩

/-- The middle above a magnitude needs one more bit, and a unit of half the size. A format with that
bit has it among its numbers. -/
theorem middle_eq (F : BinaryFormat) (k : Nat) :
    F.middle k = (2 * F.significand k + 1 : Nat) * 2 ^ (F.unitExponent k - 1) := by
  rw [middle, valueOf_succ, valueOf, zpow_sub_one₀ two_ne_zero]
  push_cast
  ring

theorem middle_strictMono (F : BinaryFormat) : StrictMono F.middle := by
  intro j k hjk
  have hj := F.valueOf_strictMono hjk
  have hj' := F.valueOf_strictMono (Nat.succ_lt_succ hjk)
  unfold middle
  linarith

/-- 64 bits are enough for all numbers of 32 bits and for what is between them, with room to spare.
-/
theorem double_refines_single : Refines .double .single := by
  have hbound : ∀ k < single.infinity, single.valueOf (k + 1) ≤ 2 ^ 200 := fun k hk =>
    (single.valueOf_strictMono.monotone hk).trans (Binary.format_bounds.1.trans_le (by norm_num))
  have hfinite : ∀ r : Rat, 0 ≤ r → r ≤ 2 ^ 200 → double.nearest r < double.infinity :=
    fun r h0 hr => (double.nearest_mono h0 hr).trans_lt Binary.format_bounds.2.2
  have hleast : ∀ k, (-149 : Int) ≤ single.unitExponent k := single.leastExponent_le
  have hdouble : double.leastExponent = -1074 := by decide
  have hsingle : ∀ k, single.significand k < 2 ^ 24 := single.significand_lt
  constructor <;> intro k hk <;> have h0 := single.valueOf_nonneg k <;>
    have hlt := single.valueOf_strictMono k.lt_succ_self <;> have hle := hbound k hk
  · refine exists_valueOf_eq rfl ((hsingle k).trans (by decide)) ?_ ?_
    · have := hleast k
      omega
    · exact hfinite _ h0 (hlt.le.trans hle)
  · refine exists_valueOf_eq (single.middle_eq k) ?_ ?_ ?_
    · have h24 := hsingle k
      have h53 : 2 * 2 ^ 24 ≤ 2 ^ (double.fractionBits + 1) := by decide
      omega
    · have := hleast k
      omega
    · refine hfinite _ ?_ ?_ <;> unfold middle <;> linarith

/-! ## Order -/

/-- Rounding to the nearest does not go below a magnitude that the value is not below. -/
theorem IsNearest.le_valueOf (h : F.IsNearest r m) {q : Rat}
    (hq : ∃ n < F.infinity, F.valueOf n = q) (hr : q ≤ r) : q ≤ F.valueOf m := by
  obtain ⟨n, hn, rfl⟩ := hq
  by_contra hlt
  have hle := h.le n hn
  rw [abs_of_nonpos (by linarith), abs_of_nonpos (by linarith)] at hle
  linarith

/-- Rounding to the nearest does not go above a magnitude that the value is not above. -/
theorem IsNearest.valueOf_le (h : F.IsNearest r m) {q : Rat}
    (hq : ∃ n < F.infinity, F.valueOf n = q) (hr : r ≤ q) : F.valueOf m ≤ q := by
  obtain ⟨n, hn, rfl⟩ := hq
  by_contra hlt
  have hle := h.le n hn
  rw [abs_of_nonneg (by linarith), abs_of_nonneg (by linarith)] at hle
  linarith

/-! ## Rounding twice -/

/-- A value `r` is misled at a magnitude `k` by the one that it is rounded to first, which stands for
`y`: that is the middle between `k` and the next one, and the value is on the side of the odd one. -/
structure Misled (G : BinaryFormat) (r y : Rat) (k : Nat) : Prop where
  /-- both neighbours are finite -/
  finite : k + 1 < G.infinity
  /-- the value got into the middle -/
  middle : y = G.middle k
  /-- it comes from the side of the odd one -/
  odd_nearer : if k % 2 = 0 then y < r else r < y

/-- A value that is rounded to itself is not misled. -/
theorem Misled.ne {y : Rat} (h : Misled G r y k) : y ≠ r := by
  have hside := h.odd_nearer
  split_ifs at hside
  · exact hside.ne
  · exact hside.ne'

/-- The even one of two neighbours. -/
def evenOne (k : Nat) : Nat := if k % 2 = 0 then k else k + 1

/-- What is in the middle is rounded to the even neighbour. -/
theorem IsNearest.eq_evenOne (h : G.IsNearest (G.middle k) p) (hk : k + 1 < G.infinity) :
    p = evenOne k := by
  rcases Nat.lt_or_ge k p with hlt | hge
  · obtain ⟨j, rfl⟩ := Nat.exists_eq_add_of_le' (Nat.zero_lt_of_lt hlt)
    obtain ⟨hle, heven⟩ := h.middle_le
    obtain rfl : j = k :=
      Nat.le_antisymm (G.middle_strictMono.le_iff_le.mp hle) (Nat.le_of_lt_succ hlt)
    have := heven rfl
    rw [evenOne, if_neg (by omega)]
  · obtain ⟨hle, heven⟩ := h.le_middle (Nat.lt_of_le_of_lt (Nat.succ_le_succ hge) hk)
    obtain rfl : p = k := Nat.le_antisymm hge (G.middle_strictMono.le_iff_le.mp hle)
    rw [evenOne, if_pos (heven rfl)]

section

variable (hFG : Refines F G) (hm : F.IsNearest r m) (hp : G.IsNearest (F.valueOf m) p)

include hFG hm

/-- A value that is misled lies between the neighbours, on one side of the middle, while what it is
rounded to first is the middle itself. -/
theorem Misled.between (h : Misled G r (F.valueOf m) k) :
    G.valueOf k < r ∧ r < G.valueOf (k + 1) := by
  have hlt := G.valueOf_strictMono k.lt_succ_self
  have hmid : F.valueOf m = (G.valueOf k + G.valueOf (k + 1)) / 2 := h.middle
  constructor
  · by_contra hle
    have := hm.valueOf_le (hFG.valueOf k (k.lt_succ_self.trans h.finite)) (not_lt.mp hle)
    linarith
  · by_contra hle
    have := hm.le_valueOf (hFG.valueOf (k + 1) h.finite) (not_lt.mp hle)
    linarith

include hp

/-- **When rounding twice is as good as rounding once**: always, unless the value is misled. The
first rounding cannot go over a middle, but it can go onto one. -/
theorem IsNearest.twice_iff :
    G.IsNearest r p ↔ ∀ k, ¬Misled G r (F.valueOf m) k := by
  constructor
  · intro h k hk
    have hside := hk.odd_nearer
    obtain rfl : p = evenOne k := (hk.middle ▸ hp).eq_evenOne hk.finite
    unfold evenOne at h
    split_ifs at hside h
    · exact absurd (h.le_middle hk.finite).1 (not_le.mpr (hk.middle ▸ hside))
    · exact absurd h.middle_le.1 (not_le.mpr (hk.middle ▸ hside))
  · intro hnone
    refine isNearest_of_middle hp.finite ?_ fun hp1 => ?_
    · rintro k rfl
      obtain ⟨hle, heven⟩ := hp.middle_le
      have hmid := hFG.middle k (k.lt_succ_self.trans hp.finite)
      refine ⟨?_, fun he => heven (le_antisymm hle (hm.valueOf_le hmid he.ge))⟩
      by_contra hlt
      have hy : G.middle k = F.valueOf m :=
        le_antisymm hle (hm.valueOf_le hmid (not_le.mp hlt).le)
      have hodd := heven hy
      refine hnone k ⟨hp.finite, hy.symm, ?_⟩
      rw [if_neg (by omega), ← hy]
      exact not_le.mp hlt
    · obtain ⟨hle, heven⟩ := hp.le_middle hp1
      have hmid := hFG.middle p hp.finite
      refine ⟨?_, fun he => heven (le_antisymm hle (hm.le_valueOf hmid he.ge))⟩
      by_contra hlt
      have hy : F.valueOf m = G.middle p :=
        le_antisymm hle (hm.le_valueOf hmid (not_le.mp hlt).le)
      refine hnone p ⟨hp1, hy, ?_⟩
      rw [if_pos (heven hy), hy]
      exact not_le.mp hlt

end

end BinaryFormat

/-! ## Numbers -/

namespace Binary

variable {r : Rat} {y : Double} {v : Single} {k : Nat}

/-- **When a number of 64 bits that is nearest to a value leads to the number of 32 bits that is
nearest to it**: always, unless the value is misled. -/
theorem IsNearest.twice_iff (hr : 0 ≤ r) (hy : y.IsNearest (signed y.negative r))
    (hv : v.IsNearest y.toRat) (hs : v.negative = y.negative) :
    v.IsNearest (signed y.negative r) ↔ ∀ k, ¬BinaryFormat.single.Misled r y.absRat k := by
  rw [toRat_eq_signed, ← hs, isNearest_signed_iff (BinaryFormat.valueOf_nonneg _ _)] at hv
  rw [← hs, isNearest_signed_iff hr]
  exact BinaryFormat.IsNearest.twice_iff BinaryFormat.double_refines_single
    ((isNearest_signed_iff hr).mp hy) hv

/-- A value that is misled lies between two neighbours and is rounded to the even one. -/
theorem IsNearest.eq_evenOne (hr : 0 ≤ r) (hy : y.IsNearest (signed y.negative r))
    (hv : v.IsNearest y.toRat) (hs : v.negative = y.negative)
    (hk : BinaryFormat.single.Misled r y.absRat k) :
    v.magnitude.val = BinaryFormat.evenOne k ∧
      BinaryFormat.single.valueOf k < r ∧ r < BinaryFormat.single.valueOf (k + 1) := by
  rw [toRat_eq_signed, ← hs, isNearest_signed_iff (BinaryFormat.valueOf_nonneg _ _)] at hv
  refine ⟨(hk.middle ▸ hv : BinaryFormat.single.IsNearest (BinaryFormat.single.middle k) _).eq_evenOne
    hk.finite, ?_⟩
  exact BinaryFormat.Misled.between BinaryFormat.double_refines_single
    ((isNearest_signed_iff hr).mp hy) hk

end Binary

end BuildingBus.Number
