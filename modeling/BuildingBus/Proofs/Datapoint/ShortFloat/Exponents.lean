import BuildingBus.Proofs.Datapoint.Buffers
import BuildingBus.Proofs.Datapoint.Repacking
import BuildingBus.Proofs.Number.Precision

/-!
# The exponents of short floats

A value is written with the least exponent at which its rounded mantissa fits twelve bits. The range
of the mantissa ends at the halves beyond its limits, and these are excluded on both sides, as a half
is rounded away from zero (`fits_mantissaAt_iff`). So an exponent that fits is followed by others
that do, the least one can be told by the one before it (`nearest_eq_some_iff`), and a value has no
exponent at all exactly if the last one does not fit (`nearest_eq_none_iff`).

What is written for a value are the bits of the number that was chosen for it, and they are read as
that number (`ofBits_toBits`, `encode_eq_ok_iff`, `encode_eq_error_iff`).
-/

namespace BuildingBus.Datapoint

open BuildingBus.Number

namespace ShortFloat

/-! ## Numbers -/

/-- Mantissa and exponent fit their bits. What is read from bits is so, and what is chosen for a
value is. -/
structure IsValid (s : ShortFloat) : Prop where
  /-- the mantissa is not too small -/
  least_le : -2048 ≤ s.mantissa
  /-- the mantissa is not too great -/
  le_greatest : s.mantissa ≤ 2047
  /-- the exponent is not too great -/
  exponent_lt : s.exponent < 16

/-- How many hundredths a number stands for. The comparison of values is done in hundredths, which
are exact. -/
def hundredths (s : ShortFloat) : Rat := s.mantissa * 2 ^ s.exponent

theorem two_pow_pos (e : Nat) : (0 : Rat) < 2 ^ e := pow_pos two_pos e

theorem fits_iff {m : Int} : fits m = true ↔ -2048 ≤ m ∧ m ≤ 2047 := by
  simp [fits]

variable {s : ShortFloat} {h : Rat} {e : Nat}

/-- A number that fits its bits is read from them. -/
theorem ofBits_toBits (hs : s.IsValid) : ofBits s.toBits = s := by
  obtain ⟨mantissa, exponent⟩ := s
  obtain ⟨hl, hg, he⟩ := hs
  simp only at hl hg he
  simp only [ofBits, toBits, mk.injEq]
  split <;> omega

theorem toBits_lt (hs : s.IsValid) : s.toBits < 256 ^ 2 := by
  obtain ⟨-, -, he⟩ := hs
  unfold toBits
  split <;> omega

/-- A number that fits its bits is read from its octets. -/
theorem ofBits_octets (hs : s.IsValid) : ofBits (ofBigEndian (bigEndian 2 s.toBits)) = s := by
  rw [ofBigEndian_bigEndian, Nat.mod_eq_of_lt (toBits_lt hs), ofBits_toBits hs]

/-- With an exponent of at most `e` a number is within the range of the mantissa at `e`. -/
theorem hundredths_mem (hs : s.IsValid) (he : s.exponent ≤ e) :
    -2048 * 2 ^ e ≤ s.hundredths ∧ s.hundredths ≤ 2047 * 2 ^ e := by
  have hpow : (2 : Rat) ^ s.exponent ≤ 2 ^ e := pow_le_pow_right₀ one_le_two he
  have hpos := two_pow_pos s.exponent
  have hl : (-2048 : Rat) ≤ s.mantissa := by exact_mod_cast hs.least_le
  have hg : (s.mantissa : Rat) ≤ 2047 := by exact_mod_cast hs.le_greatest
  unfold hundredths
  constructor
  · linarith [mul_le_mul_of_nonneg_right hl hpos.le]
  · linarith [mul_le_mul_of_nonneg_right hg hpos.le]

theorem abs_hundredths_le (hs : s.IsValid) (he : s.exponent ≤ e) :
    |s.hundredths| ≤ 2048 * 2 ^ e := by
  obtain ⟨hl, hg⟩ := hundredths_mem hs he
  exact abs_le.mpr ⟨by linarith, by linarith [two_pow_pos e]⟩

/-- A number that is not zero counts at least one hundredth. -/
theorem one_le_abs_hundredths (hm : s.mantissa ≠ 0) : 1 ≤ |s.hundredths| := by
  rw [hundredths, abs_mul, abs_of_pos (two_pow_pos _)]
  exact one_le_mul_of_one_le_of_one_le (by exact_mod_cast Int.one_le_abs hm)
    (one_le_pow₀ one_le_two)

/-! ## Mantissas -/

/-- Distances from multiples of a unit are distances from whole numbers in that unit. -/
theorem abs_sub_mul_two_pow (h : Rat) (n : Int) (e : Nat) :
    |h - n * 2 ^ e| = |h / 2 ^ e - n| * 2 ^ e := by
  have hu := two_pow_pos e
  rw [← abs_of_pos hu, ← abs_mul, abs_of_pos hu, sub_mul, div_mul_cancel₀ _ hu.ne']

/-- A mantissa fits exactly if the value is less than half a unit beyond its range. At the upper end
the half itself is rounded out of the range, and at the lower end, too. -/
theorem fits_mantissaAt_iff :
    fits (mantissaAt h e) = true ↔ -4097 * 2 ^ e < 2 * h ∧ 2 * h < 4095 * 2 ^ e := by
  have hu := two_pow_pos e
  rw [fits_iff, mantissaAt, le_roundHalfAway_iff (by decide), roundHalfAway_le_iff (by decide),
    lt_div_iff₀ hu, div_lt_iff₀ hu]
  push_cast
  refine and_congr ⟨fun h => ?_, fun h => ?_⟩ ⟨fun h => ?_, fun h => ?_⟩ <;> linarith

/-- A greater exponent fits as well. -/
theorem fits_mantissaAt_mono {e' : Nat} (hf : fits (mantissaAt h e) = true) (he : e ≤ e') :
    fits (mantissaAt h e') = true := by
  rw [fits_mantissaAt_iff] at hf ⊢
  have hpow : (2 : Rat) ^ e ≤ 2 ^ e' := pow_le_pow_right₀ one_le_two he
  constructor <;> linarith

/-- A value that an exponent does not hold has a mantissa of eleven bits at the next one. -/
theorem le_abs_mantissaAt_succ (hf : fits (mantissaAt h e) = false) :
    1024 ≤ |mantissaAt h (e + 1)| := by
  have hu := two_pow_pos (e + 1)
  by_contra hlt
  obtain ⟨hl, hg⟩ := abs_lt.mp (not_le.mp hlt)
  have hlow : (-1023 : Int) ≤ mantissaAt h (e + 1) := by omega
  have hhigh : mantissaAt h (e + 1) ≤ 1023 := by omega
  rw [mantissaAt, le_roundHalfAway_iff (by decide), lt_div_iff₀ hu, pow_succ] at hlow
  rw [mantissaAt, roundHalfAway_le_iff (by decide), div_lt_iff₀ hu, pow_succ] at hhigh
  push_cast at hlow hhigh
  refine Bool.false_ne_true (hf.symm.trans (fits_mantissaAt_iff.mpr ⟨?_, ?_⟩)) <;>
    linarith [two_pow_pos e]

/-- A number is chosen for a value exactly if it has the mantissa of the value at its exponent, and
the exponent before, if there is one, does not fit. -/
theorem nearest_eq_some_iff :
    nearest h = some s ↔ s.exponent < 16 ∧ s.mantissa = mantissaAt h s.exponent ∧
      fits (mantissaAt h s.exponent) = true ∧
      ∀ e, e + 1 = s.exponent → fits (mantissaAt h e) = false := by
  obtain ⟨mantissa, exponent⟩ := s
  simp only [nearest, Option.map_eq_some_iff, List.find?_range_eq_some, List.mem_range, mk.injEq,
    Bool.not_eq_true']
  constructor
  · rintro ⟨e, ⟨hf, hlt, hn⟩, rfl, rfl⟩
    exact ⟨hlt, rfl, hf, fun j hj => hn j (by omega)⟩
  · rintro ⟨hlt, rfl, hf, hn⟩
    refine ⟨exponent, ⟨hf, hlt, fun j hj => ?_⟩, rfl, rfl⟩
    -- what fits before would fit right before
    obtain ⟨k, rfl⟩ := Nat.exists_eq_add_of_lt hj
    refine Bool.eq_false_iff.mpr fun hj' => ?_
    have hbefore := fits_mantissaAt_mono hj' (Nat.le_add_right j k)
    rw [hn (j + k) rfl] at hbefore
    cases hbefore

/-- No number is chosen for a value exactly if its mantissa does not fit at the last exponent: if it
fits with a lesser one, it fits with all that are greater. -/
theorem nearest_eq_none_iff : nearest h = none ↔ fits (mantissaAt h 15) = false := by
  rw [nearest, Option.map_eq_none_iff, List.find?_eq_none]
  refine ⟨fun hn => Bool.eq_false_iff.mpr (hn 15 (by decide)), fun hf e he => ?_⟩
  have hle : e ≤ 15 := Nat.le_of_lt_succ (List.mem_range.mp he)
  exact fun hfe => Bool.false_ne_true (hf.symm.trans (fits_mantissaAt_mono hfe hle))

theorem isValid_of_nearest (hn : nearest h = some s) : s.IsValid := by
  obtain ⟨hlt, hm, hf, -⟩ := nearest_eq_some_iff.mp hn
  obtain ⟨hl, hg⟩ := fits_iff.mp hf
  exact ⟨hm ▸ hl, hm ▸ hg, hlt⟩

/-! ## Octets -/

variable {v : Single} {bs : Octets}

/-- The payload of a value has the bits of the number that is chosen for it. -/
theorem encode_eq_ok_iff : codec.encode v = .ok bs ↔
    v.isFinite = true ∧ ∃ s, nearest (v.toRat * 100) = some s ∧ bs = bigEndian 2 s.toBits := by
  simp only [codec]
  cases v.isFinite with
  | false => simp
  | true => cases nearest (v.toRat * 100) <;> simp [eq_comm]

/-- A value has no payload exactly if it is not finite or no number is chosen for it. -/
theorem encode_eq_error_iff {fault : PayloadFault} : codec.encode v = .error fault ↔
    fault = .outOfRange ∧ (v.isFinite = true → nearest (v.toRat * 100) = none) := by
  simp only [codec]
  cases v.isFinite with
  | false => simp [eq_comm]
  | true => cases nearest (v.toRat * 100) <;> simp [eq_comm]

/-- Two octets are read as the value of the number in their bits. -/
theorem decode_of_length (hl : bs.length = 2) :
    codec.decode bs = .ok (ofBits (ofBigEndian bs)).toSingle :=
  if_pos hl

end ShortFloat

/-! ## Types -/

/-- The types of the family 9 are those with a measured value in two octets. -/
theorem Registry.exists_shortFloat {t : DatapointType} (ht : t ∈ Registry.all)
    (h9 : t.id.main = 9) : ∃ unit, t = ⟨t.id, .shortFloat unit⟩ := by
  obtain ⟨id, layout⟩ := t
  have hs : layout.isShortFloat = true := (Registry.isShortFloat_iff ht).mpr h9
  cases layout with
  | shortFloat unit => exact ⟨unit, rfl⟩
  | _ => cases hs

/-- A buffer of at least two octets takes every measured value that has a payload. -/
theorem DatapointType.encodeInto_shortFloat {id : TypeId} {unit : String} {buffer : Octets}
    (hb : 2 ≤ buffer.length) (v : Single) :
    encodeInto ⟨id, .shortFloat unit⟩ v buffer =
      match ShortFloat.codec.encode v with
      | .ok bs => (bs ++ buffer.drop 2, .ok 2)
      | .error fault => (buffer, .error (.payload fault id)) := by
  let t : DatapointType := ⟨id, .shortFloat unit⟩
  cases he : ShortFloat.codec.encode v with
  | ok bs => exact encodeInto_of_le (t := t) (encode_eq_ok_iff.mpr he) hb
  | error fault =>
    have ht : t.encode v = .error (.payload fault id) := by
      change (ShortFloat.codec.encode v).mapError _ = _
      rw [he]
      rfl
    exact encodeInto_of_error ht buffer

end BuildingBus.Datapoint
