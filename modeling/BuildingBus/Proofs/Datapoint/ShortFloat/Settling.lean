import BuildingBus.Proofs.Datapoint.ShortFloat.Exponents

/-!
# Short floats packed again

A payload of a measured value is read as the number in it, rounded to 32 bits. Three roundings lie
between the number and that value, of the hundredth, the product and the result; together they are
too small to matter when the value is packed again (`abs_toSingle_sub_le`).

So the value is packed as the same payload, if its number is one that is chosen for itself: with a
lesser exponent its mantissa would not fit (`IsReduced`). All numbers that are chosen for some value
are of this kind but one for each exponent. A value just beyond the least mantissa is rounded to the
mantissa -1024 at the next exponent, and that number can be written with the mantissa -2048 and the
exponent before. It is packed so the second time, and stays so (`unpack_pack_shortFloat`).
-/

namespace BuildingBus.Datapoint

open BuildingBus.Number

namespace ShortFloat

variable {s : ShortFloat} {h : Rat}

/-! ## Reduced numbers -/

/-- A number that fits its bits and whose mantissa would not fit with a lesser exponent. Those that
are chosen for a value are mostly so, but rounding can make one that is not. -/
structure IsReduced (s : ShortFloat) : Prop where
  /-- it fits its bits -/
  isValid : s.IsValid
  /-- there is no lesser exponent, or twice the mantissa does not fit -/
  not_fits : s.exponent = 0 ∨ 1024 ≤ s.mantissa ∨ s.mantissa ≤ -1025

/-- The same number with the least exponent, if at most one lesser is enough. More than one is never
needed for a number that was chosen. -/
def reduced (s : ShortFloat) : ShortFloat :=
  if s.mantissa = -1024 ∧ 0 < s.exponent then ⟨-2048, s.exponent - 1⟩ else s

theorem hundredths_reduced (s : ShortFloat) : s.reduced.hundredths = s.hundredths := by
  obtain ⟨mantissa, exponent⟩ := s
  unfold reduced
  split_ifs with h
  · obtain ⟨rfl, hpos⟩ := h
    obtain ⟨e, rfl⟩ := Nat.exists_eq_succ_of_ne_zero hpos.ne'
    simp only [hundredths, Nat.succ_eq_add_one, Nat.add_sub_cancel, pow_succ]
    push_cast
    ring
  · rfl

theorem reduced_eq_self_iff : s.reduced = s ↔ ¬(s.mantissa = -1024 ∧ 0 < s.exponent) := by
  unfold reduced
  split_ifs with h
  · refine iff_of_false (fun heq => ?_) (not_not_intro h)
    have hm : (-2048 : Int) = s.mantissa := congrArg ShortFloat.mantissa heq
    omega
  · exact iff_of_true rfl h

/-- A reduced number is not reduced any further. -/
theorem IsReduced.reduced_eq (hs : s.IsReduced) : s.reduced = s :=
  reduced_eq_self_iff.mpr fun ⟨_, _⟩ => by
    have := hs.not_fits
    omega

/-- What is chosen for a value is a reduced number, up to the least mantissa. -/
theorem isReduced_of_nearest (hn : nearest h = some s) : s.reduced.IsReduced := by
  obtain ⟨hl, hg, he⟩ := isValid_of_nearest hn
  unfold reduced
  split_ifs with hmin
  · exact ⟨⟨le_refl (-2048), show (-2048 : Int) ≤ 2047 by decide, (Nat.sub_le _ _).trans_lt he⟩,
      .inr (.inr (show (-2048 : Int) ≤ -1025 by decide))⟩
  · refine ⟨⟨hl, hg, he⟩, ?_⟩
    obtain ⟨-, hm, -, hbefore⟩ := nearest_eq_some_iff.mp hn
    rcases Nat.eq_zero_or_pos s.exponent with hzero | hpos
    · exact .inl hzero
    · obtain ⟨e, he⟩ := Nat.exists_eq_succ_of_ne_zero hpos.ne'
      have hlarge := le_abs.mp (le_abs_mantissaAt_succ (hbefore e he.symm))
      rw [← Nat.succ_eq_add_one, ← he, ← hm] at hlarge
      omega

/-- A reduced number is chosen for each value near to it. -/
theorem IsReduced.nearest_eq (hs : s.IsReduced) (hh : |h - s.hundredths| ≤ 2 ^ s.exponent / 4) :
    nearest h = some s := by
  obtain ⟨⟨hl, hg, he⟩, hlarge⟩ := hs
  have hu := two_pow_pos s.exponent
  have hm : mantissaAt h s.exponent = s.mantissa := by
    refine roundHalfAway_nearest.eq_of_abs_sub_lt ?_
    have hdist : |h / 2 ^ s.exponent - s.mantissa| * 2 ^ s.exponent ≤ 1 / 4 * 2 ^ s.exponent := by
      rw [← abs_sub_mul_two_pow]
      exact hh.trans_eq (by ring)
    linarith [le_of_mul_le_mul_right hdist hu]
  refine nearest_eq_some_iff.mpr ⟨he, hm.symm, hm ▸ fits_iff.mpr ⟨hl, hg⟩, fun e hs => ?_⟩
  -- with the exponent before, twice the mantissa is out of range by at least half a unit
  rw [Bool.eq_false_iff, Ne, fits_mantissaAt_iff, not_and_or, not_lt, not_lt]
  obtain ⟨hlow, hhigh⟩ := abs_le.mp hh
  rw [hundredths, ← hs, pow_succ] at hlow hhigh
  have hpos := two_pow_pos e
  rcases hlarge with hzero | hpositive | hnegative
  · omega
  · right
    have hmul : (1024 : Rat) * 2 ^ e ≤ s.mantissa * 2 ^ e :=
      mul_le_mul_of_nonneg_right (by exact_mod_cast hpositive) hpos.le
    linarith
  · left
    have hmul : (s.mantissa : Rat) * 2 ^ e ≤ -1025 * 2 ^ e :=
      mul_le_mul_of_nonneg_right (by exact_mod_cast hnegative) hpos.le
    linarith

/-! ## Values of numbers -/

section

variable {x y z ε δ c : Rat}

/-- A relative error does not change with the scale, so that products need no bounds of their own.
-/
theorem abs_mul_sub_mul_le (c : Rat) (hy : |y - x| ≤ |x| * ε) : |c * y - c * x| ≤ |c * x| * ε := by
  rw [← mul_sub, abs_mul, abs_mul, mul_assoc]
  exact mul_le_mul_of_nonneg_left hy (abs_nonneg c)

/-- Relative errors add up, but for their product: two roundings one after the other are as one with
this bound. -/
theorem abs_sub_le_of_steps (hδ : 0 ≤ δ) (hy : |y - x| ≤ |x| * ε) (hz : |z - y| ≤ |y| * δ) :
    |z - x| ≤ |x| * (ε + δ + ε * δ) := by
  have habs : |y| ≤ |x| + |x| * ε := by
    calc |y| = |x + (y - x)| := by rw [add_sub_cancel]
      _ ≤ |x| + |y - x| := abs_add_le _ _
      _ ≤ |x| + |x| * ε := by linarith
  calc |z - x| ≤ |z - y| + |y - x| := abs_sub_le _ _ _
    _ ≤ |y| * δ + |x| * ε := add_le_add hz hy
    _ ≤ (|x| + |x| * ε) * δ + |x| * ε := by
        linarith [mul_le_mul_of_nonneg_right habs hδ]
    _ = |x| * (ε + δ + ε * δ) := by ring

/-- With a small relative error a value keeps its size, so that the next rounding has bounds to
start from. -/
theorem abs_mem_of_abs_sub_le (hε : ε ≤ 1 / 2) (hy : |y - x| ≤ |x| * ε) :
    |x| / 2 ≤ |y| ∧ |y| ≤ 2 * |x| := by
  have hbound : |x| * ε ≤ |x| / 2 :=
    (mul_le_mul_of_nonneg_left hε (abs_nonneg x)).trans_eq (by ring)
  have hlow : |x| - |y| ≤ |y - x| := abs_sub_comm x y ▸ abs_sub_abs_le_abs_sub x y
  have hhigh : |y| - |x| ≤ |y - x| := abs_sub_abs_le_abs_sub y x
  constructor <;> linarith

end

/-- One hundredth is as near as 64 bits allow. It is the first of the errors in a value that is
read. -/
theorem abs_hundredth_sub_le : |hundredth.toRat - 1 / 100| ≤ |(1 : Rat) / 100| * (1 / 2 ^ 53) :=
  Binary.abs_double_sub_le (by norm_num) (by norm_num)

/-- The product of a mantissa with one hundredth, with the error of the hundredth and that of the
product. -/
theorem abs_product_sub_le {m : Rat} (hl : 1 ≤ |m|) (hg : |m| ≤ 2048) :
    |(Binary.ofRat .double (hundredth.toRat * m)).toRat - 1 / 100 * m| ≤
      |1 / 100 * m| * (1 / 2 ^ 51) := by
  have hfactor : |hundredth.toRat * m - 1 / 100 * m| ≤ |1 / 100 * m| * (1 / 2 ^ 53) := by
    rw [mul_comm _ m, mul_comm (1 / 100) m]
    exact abs_mul_sub_mul_le m abs_hundredth_sub_le
  have hm : |1 / 100 * m| = |m| / 100 := by
    rw [abs_mul, abs_of_pos (by norm_num : (0 : Rat) < 1 / 100)]
    ring
  obtain ⟨hlow, hhigh⟩ := abs_mem_of_abs_sub_le (by norm_num) hfactor
  have hround := Binary.abs_double_sub_le (r := hundredth.toRat * m) (by linarith) (by linarith)
  refine (abs_sub_le_of_steps (by positivity) hfactor hround).trans ?_
  exact mul_le_mul_of_nonneg_left (by norm_num) (abs_nonneg _)

/-- The value of a number is finite, and differs from it by a fraction that only the formats
determine. -/
theorem abs_toSingle_sub_le (hs : s.IsValid) :
    s.toSingle.isFinite = true ∧
      |s.toSingle.toRat * 100 - s.hundredths| ≤ |s.hundredths| * (1 / 2 ^ 23) := by
  obtain ⟨hl, hg, he⟩ := hs
  rcases eq_or_ne s.mantissa 0 with hzero | hne
  · have hvalue : s.toSingle = Binary.ofRat .single 0 := by
      simp [toSingle, hzero]
    rw [hvalue, hundredths, hzero]
    exact ⟨Binary.isFinite_single (by norm_num), by simp⟩
  · have hm : (1 : Rat) ≤ |(s.mantissa : Rat)| := by exact_mod_cast Int.one_le_abs hne
    have hm' : |(s.mantissa : Rat)| ≤ 2048 := by exact_mod_cast abs_le.mpr ⟨hl, by omega⟩
    have hproduct := abs_mul_sub_mul_le (2 ^ s.exponent) (abs_product_sub_le hm hm')
    have hhundredths : (2 : Rat) ^ s.exponent * (1 / 100 * s.mantissa) = s.hundredths / 100 := by
      rw [hundredths]
      ring
    rw [hhundredths, mul_comm (2 ^ s.exponent)] at hproduct
    have habs : |s.hundredths / 100| = |s.hundredths| / 100 := by
      rw [abs_div, abs_of_pos (by norm_num : (0 : Rat) < 100)]
    have hlow := one_le_abs_hundredths hne
    have hhigh := abs_hundredths_le ⟨hl, hg, he⟩ (Nat.le_of_lt_succ he)
    obtain ⟨hlow', hhigh'⟩ := abs_mem_of_abs_sub_le (by norm_num) hproduct
    rw [habs] at hlow' hhigh'
    have hgreatest := hhigh'.trans (by linarith : _ ≤ (2 : Rat) ^ 100)
    have hround := Binary.abs_single_sub_le (le_trans (by linarith) hlow') hgreatest
    refine ⟨Binary.isFinite_single hgreatest, ?_⟩
    have hvalue := abs_mul_sub_mul_le 100 (abs_sub_le_of_steps (by positivity) hproduct hround)
    rw [mul_comm, mul_div_cancel₀ _ (by norm_num)] at hvalue
    refine hvalue.trans ?_
    exact mul_le_mul_of_nonneg_left (by norm_num) (abs_nonneg _)

/-! ## Payloads -/

/-- The value of a number is packed as the number is written with the least exponent. -/
theorem encode_toSingle (hs : s.IsValid) (hr : s.reduced.IsReduced) :
    codec.encode s.toSingle = .ok (bigEndian 2 s.reduced.toBits) := by
  obtain ⟨hfinite, herr⟩ := abs_toSingle_sub_le hs
  refine encode_eq_ok_iff.mpr ⟨hfinite, _, hr.nearest_eq ?_, rfl⟩
  rw [← hundredths_reduced] at herr
  calc |s.toSingle.toRat * 100 - s.reduced.hundredths|
      ≤ |s.reduced.hundredths| * (1 / 2 ^ 23) := herr
    _ ≤ 2048 * 2 ^ s.reduced.exponent * (1 / 2 ^ 23) :=
        mul_le_mul_of_nonneg_right (abs_hundredths_le hr.isValid (le_refl _)) (by norm_num)
    _ ≤ 2 ^ s.reduced.exponent / 4 := by linarith [two_pow_pos s.reduced.exponent]

end ShortFloat

/-! ## Datapoints -/

open ShortFloat

variable {id : TypeId} {unit : String} {s : ShortFloat} {v w : Single} {bs : Octets}

theorem pack_shortFloat_eq_ok_iff :
    pack ⟨⟨id, .shortFloat unit⟩, v⟩ = .ok bs ↔ ShortFloat.codec.encode v = .ok bs := by
  rw [pack_eq_encode]
  exact DatapointType.encode_eq_ok_iff

/-- The octets of a number are read as its value, whatever the value was before. -/
theorem unpack_shortFloat (hs : s.IsValid) :
    unpack ⟨⟨id, .shortFloat unit⟩, w⟩ (bigEndian 2 s.toBits) =
      .ok ⟨⟨id, .shortFloat unit⟩, s.toSingle⟩ := by
  have hd : ShortFloat.codec.decode (bigEndian 2 s.toBits) = .ok s.toSingle := by
    rw [decode_of_length (length_bigEndian 2 _), ofBits_octets hs]
  have ht : DatapointType.decode ⟨id, .shortFloat unit⟩ (bigEndian 2 s.toBits) =
      .ok s.toSingle :=
    DatapointType.decode_eq_ok_iff.mpr hd
  rw [unpack, ht]
  rfl

/-- **A packed value is unpacked and packed again.** For every type of the family 9: the payload of a
value is unpacked, and packed as the same payload again, exactly if its mantissa is not -1024 or its
exponent is zero. Otherwise it is packed with the mantissa -2048 and the exponent before, and that
payload is unpacked and packed as it is. -/
theorem unpack_pack_shortFloat {t : DatapointType} (ht : t ∈ Registry.all) (h9 : t.id.main = 9)
    {v : t.Value} {bs : Octets} (hp : pack ⟨t, v⟩ = .ok bs) :
    ∃ d, (∀ w, unpack ⟨t, w⟩ bs = .ok d) ∧
      let s := ofBits (ofBigEndian bs)
      (d.pack = .ok bs ↔ ¬(s.mantissa = -1024 ∧ 0 < s.exponent)) ∧
      (s.mantissa = -1024 → 0 < s.exponent →
        let again := bigEndian 2 (toBits ⟨-2048, s.exponent - 1⟩)
        d.pack = .ok again ∧ ∃ d', unpack d again = .ok d' ∧ d'.pack = .ok again) := by
  obtain ⟨unit, hunit⟩ := Registry.exists_shortFloat ht h9
  obtain ⟨id, layout⟩ := t
  obtain rfl : layout = .shortFloat unit := (DatapointType.mk.inj hunit).2
  obtain ⟨-, c, hn, rfl⟩ := encode_eq_ok_iff.mp (pack_shortFloat_eq_ok_iff.mp hp)
  have hc := isValid_of_nearest hn
  have hr := isReduced_of_nearest hn
  have hpack : pack ⟨⟨id, .shortFloat unit⟩, c.toSingle⟩ = .ok (bigEndian 2 c.reduced.toBits) :=
    pack_shortFloat_eq_ok_iff.mpr (encode_toSingle hc hr)
  refine ⟨_, fun _ => unpack_shortFloat hc, ?_⟩
  rw [ofBits_octets hc, hpack]
  refine ⟨?_, fun hm he => ?_⟩
  · rw [← reduced_eq_self_iff]
    refine ⟨fun h => ?_, fun h => by rw [h]⟩
    rw [← ofBits_octets hr.isValid, Except.ok.inj h, ofBits_octets hc]
  · have hleast : c.reduced = ⟨-2048, c.exponent - 1⟩ := if_pos ⟨hm, he⟩
    have hagain : pack ⟨⟨id, .shortFloat unit⟩, c.reduced.toSingle⟩ =
        .ok (bigEndian 2 c.reduced.toBits) := by
      refine pack_shortFloat_eq_ok_iff.mpr ((encode_toSingle hr.isValid ?_).trans ?_)
      · exact hr.reduced_eq.symm ▸ hr
      · rw [hr.reduced_eq]
    rw [← hleast]
    exact ⟨rfl, _, unpack_shortFloat hr.isValid, hagain⟩

/-- A temperature of 21.5 is packed as the same payload again. -/
theorem unpack_pack_shortFloat_temperature :
    (⟨⟨9, 1⟩, .shortFloat "°C"⟩ : DatapointType) ∈ Registry.all ∧
    pack ⟨⟨⟨9, 1⟩, .shortFloat "°C"⟩, Binary.ofRat .single (43 / 2)⟩ = .ok [0x0C, 0x33] ∧
    ∃ d, unpack (.new ⟨⟨9, 1⟩, .shortFloat "°C"⟩) [0x0C, 0x33] = .ok d ∧
      d.pack = .ok [0x0C, 0x33] := by
  have ht : (⟨⟨9, 1⟩, .shortFloat "°C"⟩ : DatapointType) ∈ Registry.all := by decide
  have hp : pack ⟨⟨⟨9, 1⟩, .shortFloat "°C"⟩, Binary.ofRat .single (43 / 2)⟩ =
      .ok [0x0C, 0x33] := by
    decide +kernel
  obtain ⟨d, hd, hagain, -⟩ := unpack_pack_shortFloat ht rfl hp
  exact ⟨ht, hp, d, hd _, hagain.mpr (by decide)⟩

/-- A temperature near -20.486 is packed with the mantissa -1024 and the exponent 1. What is unpacked
from that payload is packed with the mantissa -2048 and the exponent 0. -/
theorem unpack_pack_shortFloat_least :
    (⟨⟨9, 1⟩, .shortFloat "°C"⟩ : DatapointType) ∈ Registry.all ∧
    pack ⟨⟨⟨9, 1⟩, .shortFloat "°C"⟩, Binary.ofBits .single 0xC1A3E354⟩ = .ok [0x8C, 0x00] ∧
    (unpack ⟨⟨⟨9, 1⟩, .shortFloat "°C"⟩, Binary.ofBits .single 0xC1A3E354⟩ [0x8C, 0x00]).bind
      pack = .ok [0x80, 0x00] := by
  decide +kernel

end BuildingBus.Datapoint
