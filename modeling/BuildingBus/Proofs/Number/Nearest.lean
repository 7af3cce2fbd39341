import BuildingBus.Proofs.Number.Precision

/-!
# The nearest number

What rounding to a binary format has to find, said without a way to find it: a finite number that no
other one is nearer to the value than, with a last bit of zero if another one is as near
(`Binary.IsNearest`). The rounding of this library finds it, as long as the result is finite
(`Binary.isNearest_ofMagnitude`). The reason is that the value is rounded to a multiple of a power of
two, and every number of the format either is such a multiple as well, or is farther away than a
multiple because its unit is less (`exists_multiple`).

Which number is nearest is decided in the middle between it and either of its neighbours
(`BinaryFormat.isNearest_of_middle`).
-/

namespace BuildingBus.Number

variable {r : Rat}

/-! ## Whole numbers -/

/-- A half is rounded to an even number. -/
theorem even_roundHalfEven_of_half (h : |r - roundHalfEven r| = 1 / 2) :
    roundHalfEven r % 2 = 0 := by
  have hle : (r.floor : Rat) ≤ r := Rat.floor_le r
  have hlt : r < (r.floor : Rat) + 1 := Int.lt_floor_add_one r
  unfold roundHalfEven at h ⊢
  dsimp only at h ⊢
  split_ifs at h ⊢ with hlow hhigh heven
  · rw [abs_of_nonneg (by linarith)] at h
    linarith
  · push_cast at h
    rw [abs_of_nonpos (by linarith)] at h
    linarith
  · exact heven
  · omega

/-- If another whole number is as near, then the one that a value is rounded to is even. -/
theorem even_roundHalfEven {n : Int} (hne : n ≠ roundHalfEven r)
    (h : |r - n| = |r - roundHalfEven r|) : roundHalfEven r % 2 = 0 := by
  refine even_roundHalfEven_of_half (le_antisymm (roundHalfEven_nearest r) ?_)
  have hone : (1 : Rat) ≤ |(n : Rat) - roundHalfEven r| := by
    exact_mod_cast Int.one_le_abs (sub_ne_zero.mpr hne)
  have htriangle : |(n : Rat) - roundHalfEven r| ≤ |r - n| + |r - roundHalfEven r| := by
    rw [abs_sub_comm r n]
    exact abs_sub_le _ _ _
  linarith

/-! ## Distances -/

/-- The greater of two numbers is at least as near from the middle on. -/
theorem abs_sub_le_iff_half_le {a b : Rat} (h : a < b) : |b - r| ≤ |a - r| ↔ (a + b) / 2 ≤ r := by
  rw [← sq_le_sq]
  constructor <;> intro hr <;> nlinarith

/-- The lesser of two numbers is at least as near up to the middle. -/
theorem abs_sub_le_iff_le_half {a b : Rat} (h : a < b) : |a - r| ≤ |b - r| ↔ r ≤ (a + b) / 2 := by
  rw [← sq_le_sq]
  constructor <;> intro hr <;> nlinarith

/-! ## Magnitudes -/

namespace BinaryFormat

variable (F : BinaryFormat)

/-- A magnitude is nearest to a value that is not negative: no finite one is nearer, and it is even
if another one is as near. -/
structure IsNearest (r : Rat) (m : Nat) : Prop where
  /-- it is finite -/
  finite : m < F.infinity
  /-- no other one is nearer -/
  le : ∀ n < F.infinity, |F.valueOf m - r| ≤ |F.valueOf n - r|
  /-- it is even if another one is as near -/
  even : ∀ n < F.infinity, n ≠ m → |F.valueOf n - r| = |F.valueOf m - r| → m % 2 = 0

/-- What lies in the middle between a magnitude and the next. It belongs to neither of them, and the
even one gets it. -/
def middle (m : Nat) : Rat := (F.valueOf m + F.valueOf (m + 1)) / 2

theorem leastExponent_le (m : Nat) : F.leastExponent ≤ F.unitExponent m :=
  Int.le_add_of_nonneg_right (Int.natCast_nonneg _)

theorem valueOf_zero : F.valueOf 0 = 0 := by simp [valueOf, significand]

variable {F} {m k : Nat}

/-- A magnitude stands for a multiple of the unit of a value, or it is farther from the value than
such a multiple. -/
theorem exists_multiple (hr : 0 < r) (n : Nat) : ∃ j : Int,
    F.valueOf n = j * 2 ^ F.unit r ∨ |j * 2 ^ F.unit r - r| < |F.valueOf n - r| := by
  rcases le_or_gt (F.unit r) (F.unitExponent n) with hle | hlt
  · obtain ⟨i, hi⟩ := Int.le.dest hle
    refine ⟨F.significand n * 2 ^ i, .inl ?_⟩
    rw [valueOf, ← hi, ← zpow_mul_pow]
    push_cast
    ring
  · -- the unit is not the least one, so that the value has at least as many units as a power of two
    have hleast := F.leastExponent_le n
    have hlog : F.unit r + F.fractionBits = Int.log 2 r := by
      have hu := F.unit_eq hr
      omega
    have hpow : (2 : Rat) ^ F.fractionBits * 2 ^ F.unit r ≤ r := by
      rw [mul_comm, zpow_mul_pow, hlog]
      exact Int.zpow_log_le_self one_lt_two hr
    have hval : F.valueOf n < 2 ^ F.fractionBits * 2 ^ F.unit r := by
      calc F.valueOf n
          < 2 ^ (F.fractionBits + 1) * 2 ^ F.unitExponent n :=
            mul_lt_mul_of_pos_right (by exact_mod_cast F.significand_lt n) (two_zpow_pos _)
        _ = 2 ^ F.fractionBits * 2 ^ (F.unitExponent n + 1) := by
            rw [zpow_add_one₀ two_ne_zero]
            ring
        _ ≤ 2 ^ F.fractionBits * 2 ^ F.unit r :=
            mul_le_mul_of_nonneg_left (zpow_le_zpow_right₀ one_le_two hlt) (by positivity)
    refine ⟨2 ^ F.fractionBits, .inr ?_⟩
    push_cast
    rw [abs_of_nonpos (by linarith), abs_of_neg (by linarith)]
    linarith

/-- The last bit of a magnitude is that of its count of units. -/
theorem nearest_mod_two (hb : 0 < F.fractionBits) (hr : 0 < r) (hf : F.nearest r < F.infinity) :
    F.nearest r % 2 = F.units r % 2 := by
  have hdvd : 2 ∣ (F.unit r - F.leastExponent).toNat * 2 ^ F.fractionBits :=
    (dvd_pow_self 2 hb.ne').mul_left _
  rw [F.nearest_eq hr] at hf ⊢
  omega

/-- **Rounding finds the nearest magnitude**, if the result is finite. Each other magnitude is
compared with a multiple of the unit, and these with the one that was rounded to. -/
theorem isNearest_nearest (hb : 0 < F.fractionBits) (hr : 0 ≤ r) (hf : F.nearest r < F.infinity) :
    F.IsNearest r (F.nearest r) := by
  rcases hr.eq_or_lt with rfl | hr
  · have hzero : F.nearest 0 = 0 := rfl
    refine ⟨hf, fun n _ => ?_, fun n _ _ _ => by rw [hzero]⟩
    rw [hzero, valueOf_zero, sub_zero, abs_zero]
    exact abs_nonneg _
  · have hq := two_zpow_pos (F.unit r)
    have hunits := F.cast_units hr
    have hround (j : Int) :
        |F.valueOf (F.nearest r) - r| ≤ |j * 2 ^ F.unit r - r| := by
      rw [F.valueOf_nearest hr hf, hunits, abs_mul_sub_eq hq, abs_mul_sub_eq hq]
      exact mul_le_mul_of_nonneg_right (roundHalfEven_nearest.abs_sub_round_le _ j) hq.le
    refine ⟨hf, fun n _ => ?_, fun n _ hne htie => ?_⟩
    · obtain ⟨j, hj | hj⟩ := exists_multiple (F := F) hr n
      · exact hj ▸ hround j
      · exact (hround j).trans hj.le
    · obtain ⟨j, hj | hj⟩ := exists_multiple (F := F) hr n
      · have hjround : j ≠ roundHalfEven (r / 2 ^ F.unit r) := by
          rintro rfl
          refine hne (F.valueOf_strictMono.injective ?_)
          rw [hj, F.valueOf_nearest hr hf, hunits]
        rw [hj, F.valueOf_nearest hr hf, hunits, abs_mul_sub_eq hq, abs_mul_sub_eq hq] at htie
        have heven := even_roundHalfEven hjround (mul_right_cancel₀ hq.ne' htie)
        rw [nearest_mod_two hb hr hf]
        have := F.natCast_units hr
        omega
      · exact absurd (htie ▸ hj) (not_lt_of_ge (hround j))

/-- A value is not below the middle under the magnitude that is nearest to it, and in it only if the
magnitude is even. -/
theorem IsNearest.middle_le (h : F.IsNearest r (k + 1)) :
    F.middle k ≤ r ∧ (F.middle k = r → (k + 1) % 2 = 0) := by
  have hlt := F.valueOf_strictMono k.lt_succ_self
  have hk : k < F.infinity := k.lt_succ_self.trans h.finite
  have hle := h.le k hk
  refine ⟨(abs_sub_le_iff_half_le hlt).mp hle, fun he => ?_⟩
  refine h.even k hk k.lt_succ_self.ne (le_antisymm ?_ hle)
  exact (abs_sub_le_iff_le_half hlt).mpr he.ge

/-- A value is not above the middle over the magnitude that is nearest to it, and in it only if the
magnitude is even. -/
theorem IsNearest.le_middle (h : F.IsNearest r m) (hm : m + 1 < F.infinity) :
    r ≤ F.middle m ∧ (r = F.middle m → m % 2 = 0) := by
  have hlt := F.valueOf_strictMono m.lt_succ_self
  have hle := h.le (m + 1) hm
  refine ⟨(abs_sub_le_iff_le_half hlt).mp hle, fun he => ?_⟩
  refine h.even (m + 1) hm m.succ_ne_self (le_antisymm ?_ hle)
  exact (abs_sub_le_iff_half_le hlt).mpr he.ge

/-- The middle between a magnitude and the one below it is beyond that to any lesser one. -/
theorem half_le_middle {n : Nat} (h : n ≤ k) :
    (F.valueOf n + F.valueOf (k + 1)) / 2 ≤ F.middle k := by
  have := F.valueOf_strictMono.monotone h
  unfold middle
  linarith

/-- The middle between a magnitude and the next is not beyond that to any greater one. -/
theorem middle_le_half {n : Nat} (h : m < n) : F.middle m ≤ (F.valueOf m + F.valueOf n) / 2 := by
  have := F.valueOf_strictMono.monotone (Nat.succ_le_of_lt h)
  unfold middle
  linarith

/-- A magnitude is nearest to a value between the middles on both its sides. It is the way back: a
number can be shown to be nearest without rounding anything. -/
theorem isNearest_of_middle (hm : m < F.infinity)
    (hlow : ∀ k, k + 1 = m → F.middle k ≤ r ∧ (F.middle k = r → m % 2 = 0))
    (hhigh : m + 1 < F.infinity → r ≤ F.middle m ∧ (r = F.middle m → m % 2 = 0)) :
    F.IsNearest r m := by
  have hmono := F.valueOf_strictMono
  refine ⟨hm, fun n hn => ?_, fun n hn hne htie => ?_⟩
  · rcases lt_trichotomy n m with hlt | rfl | hgt
    · obtain ⟨k, rfl⟩ := Nat.exists_eq_add_of_le' (Nat.zero_lt_of_lt hlt)
      refine (abs_sub_le_iff_half_le (hmono hlt)).mpr ?_
      exact (half_le_middle (Nat.le_of_lt_succ hlt)).trans (hlow k rfl).1
    · exact le_refl _
    · refine (abs_sub_le_iff_le_half (hmono hgt)).mpr ?_
      exact (hhigh (Nat.lt_of_le_of_lt hgt hn)).1.trans (middle_le_half hgt)
  · -- a farther magnitude is as near only if the value is in the middle to the neighbour
    rcases lt_or_gt_of_ne hne with hlt | hgt
    · obtain ⟨k, rfl⟩ := Nat.exists_eq_add_of_le' (Nat.zero_lt_of_lt hlt)
      have hhalf := (abs_sub_le_iff_le_half (hmono hlt)).mp htie.le
      refine (hlow k rfl).2 (le_antisymm (hlow k rfl).1 ?_)
      exact hhalf.trans (half_le_middle (Nat.le_of_lt_succ hlt))
    · have hhalf := (abs_sub_le_iff_half_le (hmono hgt)).mp htie.le
      obtain ⟨hle, heven⟩ := hhigh (Nat.lt_of_le_of_lt hgt hn)
      exact heven (le_antisymm hle ((middle_le_half hgt).trans hhalf))

end BinaryFormat

/-! ## Numbers -/

/-- A value with a sign. -/
def signed (negative : Bool) (r : Rat) : Rat := if negative then -r else r

section

variable {a : Rat} {negative : Bool}

theorem signed_injective (negative : Bool) : Function.Injective (signed negative) := by
  cases negative
  · exact fun _ _ h => h
  · exact fun _ _ h => neg_inj.mp h

/-- Values of one sign are as far from each other as without it. -/
theorem abs_signed_sub (negative : Bool) (a r : Rat) :
    |signed negative a - signed negative r| = |a - r| := by
  cases negative with
  | false => rfl
  | true =>
    change |-a - -r| = |a - r|
    rw [neg_sub_neg, abs_sub_comm]

/-- Values of opposite signs are as far from each other as both are from zero. -/
theorem abs_signed_not_sub (negative : Bool) (ha : 0 ≤ a) (hr : 0 ≤ r) :
    |signed (!negative) a - signed negative r| = a + r := by
  cases negative with
  | false =>
    change |-a - r| = a + r
    rw [← neg_add', abs_neg, abs_of_nonneg (add_nonneg ha hr)]
  | true =>
    change |a - -r| = a + r
    rw [sub_neg_eq_add, abs_of_nonneg (add_nonneg ha hr)]

@[simp] theorem abs_signed (negative : Bool) (hr : 0 ≤ r) : |signed negative r| = r := by
  cases negative with
  | false => exact abs_of_nonneg hr
  | true => exact (abs_neg r).trans (abs_of_nonneg hr)

end

namespace Binary

variable {F : BinaryFormat} {v : Binary F} {x : Rat}

/-- A number is nearest to a value: it is finite, no finite number is nearer, and its last bit is
zero if a number with another value is as near. -/
structure IsNearest (v : Binary F) (x : Rat) : Prop where
  /-- it is finite -/
  finite : v.isFinite = true
  /-- no other number is nearer -/
  le : ∀ u : Binary F, u.isFinite = true → |v.toRat - x| ≤ |u.toRat - x|
  /-- its last bit is zero if a number with another value is as near -/
  even : ∀ u : Binary F, u.isFinite = true → u.toRat ≠ v.toRat → |u.toRat - x| = |v.toRat - x| →
    v.magnitude.val % 2 = 0

/-- Nothing but the value itself is nearest to the value of a number. -/
theorem IsNearest.toRat_eq (h : v.IsNearest x) {u : Binary F} (hu : u.isFinite = true)
    (hx : u.toRat = x) : v.toRat = x := by
  have hle := h.le u hu
  rw [hx, sub_self, abs_zero] at hle
  exact sub_eq_zero.mp (abs_nonpos_iff.mp hle)

theorem toRat_eq_signed (v : Binary F) : v.toRat = signed v.negative (F.valueOf v.magnitude) := rfl

/-- A number with the sign of a value is nearest to it if the magnitudes are. -/
theorem isNearest_signed_iff (hr : 0 ≤ r) :
    v.IsNearest (signed v.negative r) ↔ F.IsNearest r v.magnitude := by
  have hdist (m : Nat) := abs_signed_sub v.negative (F.valueOf m) r
  constructor
  · intro h
    have hfinite : v.magnitude.val < F.infinity := of_decide_eq_true h.finite
    refine ⟨hfinite, fun n hn => ?_, fun n hn hne htie => ?_⟩
    · have hle := h.le ⟨v.negative, n, hn.trans F.infinity_lt⟩ (decide_eq_true hn)
      rwa [toRat_eq_signed, toRat_eq_signed, hdist, hdist] at hle
    · refine h.even ⟨v.negative, n, hn.trans F.infinity_lt⟩ (decide_eq_true hn) ?_ ?_
      · exact fun he => hne (F.valueOf_strictMono.injective (signed_injective _ he))
      · rw [toRat_eq_signed, toRat_eq_signed, hdist, hdist]
        exact htie
  · intro h
    -- a number of the other sign is not nearer than zero
    have hpos : 0 < F.infinity := Nat.zero_lt_of_lt h.finite
    have hvzero := h.le 0 hpos
    rw [F.valueOf_zero, zero_sub, abs_neg, abs_of_nonneg hr] at hvzero
    refine ⟨decide_eq_true h.finite, fun u hu => ?_, fun u hu hne htie => ?_⟩
    · rw [toRat_eq_signed v, hdist]
      by_cases hs : u.negative = v.negative
      · rw [toRat_eq_signed u, hs, hdist]
        exact h.le _ (of_decide_eq_true hu)
      · rw [toRat_eq_signed u, Bool.eq_not_of_ne hs, abs_signed_not_sub _ (F.valueOf_nonneg _) hr]
        linarith [F.valueOf_nonneg u.magnitude]
    · rw [toRat_eq_signed v, hdist] at htie
      by_cases hs : u.negative = v.negative
      · rw [toRat_eq_signed u, hs, hdist] at htie
        refine h.even _ (of_decide_eq_true hu) (fun he => hne ?_) htie
        rw [toRat_eq_signed, toRat_eq_signed, hs, he]
      · rw [toRat_eq_signed u, Bool.eq_not_of_ne hs, abs_signed_not_sub _ (F.valueOf_nonneg _) hr]
          at htie
        have hu0 : F.valueOf u.magnitude = 0 := by linarith [F.valueOf_nonneg u.magnitude]
        refine h.even 0 hpos (fun he => hne ?_) ?_
        · rw [toRat_eq_signed, toRat_eq_signed, ← he, F.valueOf_zero, hu0]
          cases u.negative <;> cases v.negative <;> simp [signed]
        · rw [F.valueOf_zero, zero_sub, abs_neg, abs_of_nonneg hr]
          linarith

/-- **Rounding finds the nearest number**, with the sign of the value, if the result is finite. -/
theorem isNearest_ofMagnitude (hb : 0 < F.fractionBits) (hr : 0 ≤ r) (negative : Bool)
    (hf : (ofMagnitude F negative (F.nearest r)).isFinite = true) :
    (ofMagnitude F negative (F.nearest r)).IsNearest (signed negative r) := by
  have hm : (ofMagnitude F negative (F.nearest r)).magnitude.val = F.nearest r :=
    Nat.mod_eq_of_lt ((F.nearest_le_infinity r).trans_lt F.infinity_lt)
  refine (isNearest_signed_iff (v := ofMagnitude F negative (F.nearest r)) hr).mpr ?_
  rw [isFinite, hm, decide_eq_true_iff] at hf
  rw [hm]
  exact F.isNearest_nearest hb hr hf

/-- A number is converted to the nearest one, if the result is finite. -/
theorem isNearest_convert {G : BinaryFormat} (hb : 0 < G.fractionBits)
    (hf : (v.convert G).isFinite = true) : (v.convert G).IsNearest v.toRat :=
  isNearest_ofMagnitude hb v.absRat_nonneg v.negative hf

end Binary

end BuildingBus.Number
