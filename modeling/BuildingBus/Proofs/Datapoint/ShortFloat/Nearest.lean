import BuildingBus.Proofs.Datapoint.ShortFloat.Doubles

/-!
# Short floats are nearest

A value is rounded at one exponent after another, but the number that is chosen for it is nearest
among all mantissas and all exponents (`isNearest_of_nearest`). With the exponent that is chosen, or
a greater one, a number stands for a multiple of the unit, and no multiple is nearer than the one
that the value is rounded to. With a lesser exponent a number does not reach beyond the range that
the value has left; at the end of that range stands a multiple of the new unit, which is nearer than
all of them (`exists_multiple_of_not_fits`).

The main statement is about what is written to a buffer (`encodeInto_isNearest`).
-/

namespace BuildingBus.Datapoint

open BuildingBus.Number

namespace ShortFloat

/-- A number that is nearest to a value among all that fit their bits, and farther from zero than
any other that is as near. -/
structure IsNearest (s : ShortFloat) (h : Rat) : Prop where
  /-- it fits its bits -/
  isValid : s.IsValid
  /-- no other is nearer -/
  le : ∀ c : ShortFloat, c.IsValid → |h - s.hundredths| ≤ |h - c.hundredths|
  /-- another one that is as near is nearer to zero -/
  farther : ∀ c : ShortFloat, c.IsValid → |h - c.hundredths| = |h - s.hundredths| →
    c.hundredths ≠ s.hundredths → |c.hundredths| < |s.hundredths|

variable {s c : ShortFloat} {h : Rat} {e : Nat}

/-! ## Multiples of the unit -/

/-- No multiple of the unit is nearer than the one that a value is rounded to. -/
theorem abs_sub_mantissaAt_le (h : Rat) (n : Int) (e : Nat) :
    |h - mantissaAt h e * 2 ^ e| ≤ |h - n * 2 ^ e| := by
  rw [abs_sub_mul_two_pow, abs_sub_mul_two_pow]
  exact mul_le_mul_of_nonneg_right (roundHalfAway_nearest.abs_sub_round_le _ n) (two_pow_pos e).le

/-- No multiple of the unit that is as near is farther from zero. -/
theorem abs_mul_le_of_abs_sub_le {n : Int} (hn : |h - n * 2 ^ e| ≤ |h - mantissaAt h e * 2 ^ e|) :
    |(n : Rat) * 2 ^ e| ≤ |(mantissaAt h e : Rat) * 2 ^ e| := by
  have hu := two_pow_pos e
  rw [abs_sub_mul_two_pow, abs_sub_mul_two_pow] at hn
  have hle : |n| ≤ |mantissaAt h e| :=
    abs_le_abs_roundHalfAway (le_of_mul_le_mul_right hn hu)
  rw [abs_mul, abs_mul]
  exact mul_le_mul_of_nonneg_right (by exact_mod_cast hle) (abs_nonneg _)

/-- With a greater exponent a number stands for a multiple of the unit. -/
theorem exists_hundredths_eq_mul (he : e ≤ c.exponent) : ∃ n : Int, c.hundredths = n * 2 ^ e := by
  obtain ⟨k, hk⟩ := Nat.exists_eq_add_of_le he
  refine ⟨c.mantissa * 2 ^ k, ?_⟩
  rw [hundredths, hk, pow_add]
  push_cast
  ring

/-! ## Lesser exponents -/

/-- A value that an exponent does not hold is as near to a multiple of the next unit as to any number
with such an exponent, and is rounded at least as far from zero as any of these. -/
theorem exists_multiple_of_not_fits (hf : fits (mantissaAt h e) = false) (hc : c.IsValid)
    (he : c.exponent ≤ e) :
    (∃ n : Int, |h - n * 2 ^ (e + 1)| ≤ |h - c.hundredths|) ∧
      |c.hundredths| ≤ |(mantissaAt h (e + 1) : Rat) * 2 ^ (e + 1)| := by
  have hu := two_pow_pos e
  obtain ⟨hl, hg⟩ := hundredths_mem hc he
  have hout : 2 * h ≤ -4097 * 2 ^ e ∨ 4095 * 2 ^ e ≤ 2 * h := by
    by_contra hin
    rw [not_or, not_le, not_le] at hin
    exact Bool.false_ne_true (hf.symm.trans (fits_mantissaAt_iff.mpr hin))
  constructor
  · rcases hout with hout | hout
    · refine ⟨-1024, ?_⟩
      calc |h - (-1024 : Int) * 2 ^ (e + 1)| ≤ c.hundredths - h := by
            push_cast
            rw [abs_le, pow_succ]
            constructor <;> linarith
        _ ≤ |h - c.hundredths| := by
            rw [abs_sub_comm]
            exact le_abs_self _
    · refine ⟨1024, ?_⟩
      calc |h - (1024 : Int) * 2 ^ (e + 1)| ≤ h - c.hundredths := by
            push_cast
            rw [abs_le, pow_succ]
            constructor <;> linarith
        _ ≤ |h - c.hundredths| := le_abs_self _
  · have hm : (1024 : Rat) ≤ |(mantissaAt h (e + 1) : Rat)| := by
      exact_mod_cast le_abs_mantissaAt_succ hf
    calc |c.hundredths| ≤ 2048 * 2 ^ e := abs_hundredths_le hc he
      _ = 1024 * 2 ^ (e + 1) := by ring
      _ ≤ |(mantissaAt h (e + 1) : Rat)| * 2 ^ (e + 1) :=
          mul_le_mul_of_nonneg_right hm (two_pow_pos _).le
      _ = |(mantissaAt h (e + 1) : Rat) * 2 ^ (e + 1)| := by
          rw [abs_mul, abs_of_pos (two_pow_pos _)]

/-! ## All numbers -/

/-- No number that fits its bits is nearer than the one that is chosen, and none that is as near is
farther from zero. -/
theorem abs_sub_hundredths_le (hn : nearest h = some s) (hc : c.IsValid) :
    |h - s.hundredths| ≤ |h - c.hundredths| ∧
      (|h - c.hundredths| = |h - s.hundredths| → |c.hundredths| ≤ |s.hundredths|) := by
  obtain ⟨-, hm, -, hbefore⟩ := nearest_eq_some_iff.mp hn
  have hs : s.hundredths = mantissaAt h s.exponent * 2 ^ s.exponent := by rw [hundredths, hm]
  rw [hs]
  rcases Nat.lt_or_ge c.exponent s.exponent with hlt | hge
  · obtain ⟨e, he⟩ := Nat.exists_eq_succ_of_ne_zero (Nat.ne_zero_of_lt hlt)
    rw [he] at hlt ⊢
    obtain ⟨⟨n, hle⟩, hfar⟩ :=
      exists_multiple_of_not_fits (hbefore e he.symm) hc (Nat.le_of_lt_succ hlt)
    exact ⟨(abs_sub_mantissaAt_le h n _).trans hle, fun _ => hfar⟩
  · obtain ⟨n, hc⟩ := exists_hundredths_eq_mul hge
    rw [hc]
    exact ⟨abs_sub_mantissaAt_le h n _, fun ht => abs_mul_le_of_abs_sub_le ht.le⟩

/-- The number that is chosen for zero is zero. -/
theorem hundredths_of_nearest_zero (hn : nearest 0 = some s) : s.hundredths = 0 := by
  have hm : mantissaAt 0 s.exponent = 0 :=
    roundHalfAway_nearest.eq_of_abs_sub_lt (by norm_num)
  rw [hundredths, (nearest_eq_some_iff.mp hn).2.1, hm, Int.cast_zero, zero_mul]

/-- **The number that is chosen for a value is nearest to it** among all mantissas and exponents, and
of two that are as near it is the one farther from zero. -/
theorem isNearest_of_nearest (hn : nearest h = some s) : s.IsNearest h where
  isValid := isValid_of_nearest hn
  le _ hc := (abs_sub_hundredths_le hn hc).1
  farther c hc ht hne := by
    refine ((abs_sub_hundredths_le hn hc).2 ht).lt_of_ne fun habs => ?_
    -- two different numbers as far from zero have different signs, and only zero is between them
    obtain heq | hneg := abs_eq_abs.mp habs
    · exact hne heq
    · rw [hneg] at ht hne
      have hzero : h = 0 ∨ s.hundredths = 0 := by
        rcases abs_eq_abs.mp ht with hd | hd
        · right
          linarith
        · left
          linarith
      have hs : s.hundredths = 0 := hzero.elim (fun hh => hundredths_of_nearest_zero (hh ▸ hn)) id
      rw [hs, neg_zero] at hne
      exact hne rfl

end ShortFloat

/-! ## Buffers -/

open ShortFloat

/-- **What is written for a measured value is nearest to it.** For every type of the family 9, every
finite value and every buffer of at least two octets: if something is written, then the mantissa and
the exponent in its two octets are nearest to the hundredths of the value among all mantissas and
all exponents, and farther from zero than any others that are as near. The value is refused as out
of range exactly if its mantissa at the last exponent, a half rounded away from zero, does not fit
twelve bits; otherwise two octets are written. Numbers of 64 bits lead to the same mantissa and
exponent as exact arithmetic. -/
theorem encodeInto_isNearest {t : DatapointType} (ht : t ∈ Registry.all) (h9 : t.id.main = 9) :
    ∃ unit, t = ⟨t.id, .shortFloat unit⟩ ∧
      ∀ (v : Single) (buffer : Octets), v.isFinite = true → 2 ≤ buffer.length →
        let written := DatapointType.encodeInto ⟨t.id, .shortFloat unit⟩ v buffer
        let s := ofBits (ofBigEndian (written.1.take 2))
        let last := roundHalfAway (v.toRat * 100 / 2 ^ 15)
        (∀ n, written.2 = .ok n → nearestInDoubles v = some s ∧ s.IsNearest (v.toRat * 100)) ∧
        (written.2 = .ok 2 ↔ -2048 ≤ last ∧ last ≤ 2047) ∧
        (written.2 = .error (.payload .outOfRange t.id) ↔ last < -2048 ∨ 2047 < last) := by
  obtain ⟨unit, hunit⟩ := Registry.exists_shortFloat ht h9
  refine ⟨unit, hunit, fun v buffer hv hb => ?_⟩
  intro written s last
  have hlast : fits last = true ↔ -2048 ≤ last ∧ last ≤ 2047 := fits_iff
  cases hn : nearest (v.toRat * 100) with
  | none =>
    have he : written = (buffer, .error (.payload .outOfRange t.id)) := by
      change DatapointType.encodeInto ⟨t.id, .shortFloat unit⟩ v buffer = _
      rw [DatapointType.encodeInto_shortFloat hb, encode_eq_error_iff.mpr ⟨rfl, fun _ => hn⟩]
    have hf : fits last = false := nearest_eq_none_iff.mp hn
    rw [hf] at hlast
    have hout : ¬(-2048 ≤ last ∧ last ≤ 2047) := mt hlast.mpr Bool.false_ne_true
    rw [he]
    exact ⟨nofun, iff_of_false nofun hout, iff_of_true rfl (by omega)⟩
  | some c =>
    have he : written = (bigEndian 2 c.toBits ++ buffer.drop 2, .ok 2) := by
      change DatapointType.encodeInto ⟨t.id, .shortFloat unit⟩ v buffer = _
      rw [DatapointType.encodeInto_shortFloat hb, encode_eq_ok_iff.mpr ⟨hv, c, hn, rfl⟩]
    have hs : s = c := by
      change ofBits (ofBigEndian (written.1.take 2)) = c
      rw [he, List.take_left' (length_bigEndian 2 _), ofBits_octets (isValid_of_nearest hn)]
    have hf : fits last = true := by
      by_contra hf
      rw [nearest_eq_none_iff.mpr (Bool.eq_false_iff.mpr hf)] at hn
      cases hn
    have hin := hlast.mp hf
    rw [he, hs, nearestInDoubles_eq hv]
    exact ⟨fun _ _ => ⟨hn, isNearest_of_nearest hn⟩, iff_of_true rfl hin,
      iff_of_false nofun (by omega)⟩

/-- A temperature of an eighth below zero counts twelve hundredths and a half, and is written as
thirteen below zero: no number is nearer, also not twelve. -/
theorem encodeInto_isNearest_tie :
    (⟨⟨9, 1⟩, .shortFloat "°C"⟩ : DatapointType) ∈ Registry.all ∧
    (Binary.ofRat .single (-1 / 8)).isFinite = true ∧
    DatapointType.encodeInto ⟨⟨9, 1⟩, .shortFloat "°C"⟩ (Binary.ofRat .single (-1 / 8)) [0, 0] =
      ([0x87, 0xF3], .ok 2) ∧
    IsNearest ⟨-13, 0⟩ (-25 / 2) := by
  have ht : (⟨⟨9, 1⟩, .shortFloat "°C"⟩ : DatapointType) ∈ Registry.all := by decide
  have hf : (Binary.ofRat .single (-1 / 8)).isFinite = true := by decide +kernel
  have hw : DatapointType.encodeInto ⟨⟨9, 1⟩, .shortFloat "°C"⟩ (Binary.ofRat .single (-1 / 8))
      [0, 0] = ([0x87, 0xF3], .ok 2) := by
    decide +kernel
  have hs : ofBits (ofBigEndian [0x87, 0xF3]) = ⟨-13, 0⟩ := by decide
  have hv : (Binary.ofRat .single (-1 / 8)).toRat * 100 = -25 / 2 := by decide +kernel
  obtain ⟨unit, hunit, h⟩ := encodeInto_isNearest ht rfl
  obtain rfl : unit = "°C" := by
    injection hunit with _ hl
    injection hl with hl
    exact hl.symm
  have hn := ((h _ [0, 0] hf (by decide)).1 2 (congrArg Prod.snd hw)).2
  rw [hw, hv] at hn
  exact ⟨ht, hf, hw, hs ▸ hn⟩

end BuildingBus.Datapoint
