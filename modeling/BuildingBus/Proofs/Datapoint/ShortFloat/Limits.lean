import BuildingBus.Proofs.Datapoint.ShortFloat.Exponents

/-!
# The limits of short floats

The numbers of the format lie between its least and its greatest mantissa at the last exponent
(`InLimits`). Literals are compared with these limits. A value that is encoded is not: it is rounded
at the last exponent, and what is rounded to one of the limits is accepted. So values of a narrow
strip on either side are written as the limit (`IsOverhang`, `exists_nearest_iff`), and refused as
literals.

The limits for literals are rounded to 64 bits. No number of 32 bits lies between a limit and its
rounding, so these literals are refused and taken as if the limits were exact
(`measured_eq`).
-/

namespace BuildingBus.Datapoint

open BuildingBus.Number

namespace ShortFloat

variable {h : Rat} {v : Single} {w : Double}

/-! ## Values -/

/-- Hundredths between the least and the greatest number of the format, both of which have a
payload. -/
def InLimits (h : Rat) : Prop := -67108864 ≤ h ∧ h ≤ 67076096

/-- Hundredths that are beyond the limits by less than half a unit of the last exponent. Rounding
brings them back to a limit, so that they have its payload. -/
def IsOverhang (h : Rat) : Prop :=
  (-67125248 < h ∧ h < -67108864) ∨ (67076096 < h ∧ h < 67092480)

/-- A number is chosen for the values within the limits, and for those just beyond them, which a
check of the value itself would refuse. -/
theorem exists_nearest_iff : (∃ s, nearest h = some s) ↔ InLimits h ∨ IsOverhang h := by
  have hfits : fits (mantissaAt h 15) = true ↔ InLimits h ∨ IsOverhang h := by
    rw [fits_mantissaAt_iff, InLimits, IsOverhang]
    constructor
    · rintro ⟨hl, hu⟩
      rcases lt_or_ge h (-67108864) with hlow | hlow
      · exact .inr (.inl ⟨by linarith, hlow⟩)
      · rcases le_or_gt h 67076096 with hhigh | hhigh
        · exact .inl ⟨hlow, hhigh⟩
        · exact .inr (.inr ⟨hhigh, by linarith⟩)
    · rintro (⟨hl, hu⟩ | ⟨hl, hu⟩ | ⟨hl, hu⟩) <;> constructor <;> linarith
  rw [← hfits, ← Option.ne_none_iff_exists', Ne, nearest_eq_none_iff, Bool.not_eq_false]

theorem InLimits.not_isOverhang (hi : InLimits h) : ¬IsOverhang h := by
  obtain ⟨hl, hu⟩ := hi
  rintro (⟨-, hlow⟩ | ⟨hhigh, -⟩) <;> linarith

/-! ## Literals -/

/-- A number of 64 bits is the same number, or neither is finite. It is how a value of 32 bits comes
to be a literal. -/
def SameNumber (v : Single) (w : Double) : Prop :=
  w.isFinite = v.isFinite ∧ (v.isFinite = true → w.toRat = v.toRat)

/-- A finite number of 32 bits is a number of 64 bits. -/
theorem sameNumber_convert (hv : v.isFinite = true) : SameNumber v (v.convert _) := by
  obtain ⟨hf, hr⟩ := Binary.toRat_convert_double hv
  exact ⟨hf.trans hv.symm, fun _ => hr⟩

/-- The numbers of 32 bits next to the least and the greatest number of the format: the limits for
literals lie between the same ones. -/
theorem limits_mem :
    (BinaryFormat.single.valueOf 0x4923D70A ≤ -leastLiteral.toRat ∧
      -leastLiteral.toRat < BinaryFormat.single.valueOf 0x4923D70B) ∧
    (BinaryFormat.single.valueOf 0x4923D70A ≤ 67108864 / 100 ∧
      67108864 / 100 < BinaryFormat.single.valueOf 0x4923D70B) ∧
    (BinaryFormat.single.valueOf 0x4923C28F ≤ greatestLiteral.toRat ∧
      greatestLiteral.toRat < BinaryFormat.single.valueOf 0x4923C290) ∧
    (BinaryFormat.single.valueOf 0x4923C28F ≤ 67076096 / 100 ∧
      67076096 / 100 < BinaryFormat.single.valueOf 0x4923C290) := by
  decide +kernel

/-- No number of 32 bits is between the least number of the format and its rounding. -/
theorem leastLiteral_le_iff (v : Single) :
    leastLiteral.toRat ≤ v.toRat ↔ -67108864 ≤ v.toRat * 100 := by
  obtain ⟨⟨hl, hu⟩, ⟨hl', hu'⟩, -⟩ := limits_mem
  have hcell : v.absRat ≤ -leastLiteral.toRat ↔ v.absRat ≤ 67108864 / 100 :=
    (BinaryFormat.valueOf_le_iff_of_mem hl hu).trans
      (BinaryFormat.valueOf_le_iff_of_mem hl' hu').symm
  rw [← neg_neg leastLiteral.toRat,
    Binary.neg_le_toRat_iff ((BinaryFormat.valueOf_nonneg _ _).trans hl), hcell,
    ← Binary.neg_le_toRat_iff (by norm_num)]
  constructor <;> intro h <;> linarith

/-- No number of 32 bits is between the greatest number of the format and its rounding. -/
theorem le_greatestLiteral_iff (v : Single) :
    v.toRat ≤ greatestLiteral.toRat ↔ v.toRat * 100 ≤ 67076096 := by
  obtain ⟨-, -, ⟨hl, hu⟩, hl', hu'⟩ := limits_mem
  have hcell : v.absRat ≤ greatestLiteral.toRat ↔ v.absRat ≤ 67076096 / 100 :=
    (BinaryFormat.valueOf_le_iff_of_mem hl hu).trans
      (BinaryFormat.valueOf_le_iff_of_mem hl' hu').symm
  rw [Binary.toRat_le_iff ((BinaryFormat.valueOf_nonneg _ _).trans hl), hcell,
    ← Binary.toRat_le_iff (by norm_num)]
  constructor <;> intro h <;> linarith

/-- A number is taken as a measured value exactly within the limits, and refused as out of range
otherwise. -/
theorem measured_eq (hw : SameNumber v w) (id : TypeId) :
    (v.isFinite = true ∧ InLimits (v.toRat * 100) →
      Layout.measured id (.float w) = .ok (w.convert _)) ∧
    (¬(v.isFinite = true ∧ InLimits (v.toRat * 100)) →
      Layout.measured id (.float w) = .error (.payload .outOfRange id)) := by
  obtain ⟨hfinite, hvalue⟩ := hw
  have hcheck : (w.isFinite = true ∧ leastLiteral.toRat ≤ w.toRat ∧
      w.toRat ≤ greatestLiteral.toRat) ↔ v.isFinite = true ∧ InLimits (v.toRat * 100) := by
    rw [hfinite]
    refine and_congr_right fun hv => ?_
    rw [hvalue hv, leastLiteral_le_iff, le_greatestLiteral_iff, InLimits]
  rw [← hcheck]
  exact ⟨fun h => if_pos h, fun h => if_neg h⟩

end ShortFloat

/-! ## Buffers -/

open ShortFloat

/-- **Which values are written.** For every type of the family 9, every value and every buffer of at
least two octets: the value is written exactly if it is finite and within the limits of the format
or just beyond them, and refused as out of range otherwise. A literal of the same number is taken
exactly within the limits. So the two agree about all values but those just beyond the limits. -/
theorem encodeInto_limits {t : DatapointType} (ht : t ∈ Registry.all) (h9 : t.id.main = 9) :
    ∃ unit, t = ⟨t.id, .shortFloat unit⟩ ∧
      ∀ (v : Single) (buffer : Octets), 2 ≤ buffer.length →
        let written := DatapointType.encodeInto ⟨t.id, .shortFloat unit⟩ v buffer
        let h := v.toRat * 100
        (written.2 = .ok 2 ↔ v.isFinite = true ∧ (InLimits h ∨ IsOverhang h)) ∧
        (written.2 ≠ .ok 2 → written = (buffer, .error (.payload .outOfRange t.id))) ∧
        ∀ w : Double, SameNumber v w →
          let literal := Layout.ofScalar t.id (.shortFloat unit) (.float w)
          ((∃ u, literal = .ok u) ↔ v.isFinite = true ∧ InLimits h) ∧
          ((∀ u, literal ≠ .ok u) → literal = .error (.payload .outOfRange t.id)) ∧
          ((written.2 = .ok 2 ↔ ∃ u, literal = .ok u) ↔ ¬(v.isFinite = true ∧ IsOverhang h)) := by
  obtain ⟨unit, hunit⟩ := Registry.exists_shortFloat ht h9
  refine ⟨unit, hunit, fun v buffer hb => ?_⟩
  intro written h
  have hwritten : written = _ := DatapointType.encodeInto_shortFloat hb v
  have haccepts : written.2 = .ok 2 ↔ v.isFinite = true ∧ (InLimits h ∨ IsOverhang h) := by
    rw [← exists_nearest_iff, hwritten]
    cases he : ShortFloat.codec.encode v with
    | ok bs =>
      obtain ⟨hv, s, hs, -⟩ := encode_eq_ok_iff.mp he
      exact iff_of_true rfl ⟨hv, s, hs⟩
    | error fault =>
      refine iff_of_false (fun h => by cases h) ?_
      rintro ⟨hv, s, hs⟩
      rw [encode_eq_ok_iff.mpr ⟨hv, s, hs, rfl⟩] at he
      cases he
  refine ⟨haccepts, fun hne => ?_, fun w hw => ?_⟩
  · rw [hwritten] at hne ⊢
    cases he : ShortFloat.codec.encode v with
    | ok bs =>
      rw [he] at hne
      exact absurd rfl hne
    | error fault =>
      obtain ⟨rfl, -⟩ := encode_eq_error_iff.mp he
      rfl
  · intro literal
    obtain ⟨hin, hout⟩ := measured_eq hw t.id
    have hliteral : (∃ u, literal = .ok u) ↔ v.isFinite = true ∧ InLimits h := by
      refine ⟨?_, fun hi => ⟨_, hin hi⟩⟩
      rintro ⟨u, hu⟩
      by_contra hn
      cases (hout hn).symm.trans hu
    refine ⟨hliteral, fun hn => hout fun hi => hn _ (hin hi), ?_⟩
    rw [haccepts, hliteral]
    constructor
    · rintro hiff ⟨hv, ho⟩
      exact (hiff.mp ⟨hv, .inr ho⟩).2.not_isOverhang ho
    · intro hn
      exact and_congr_right fun hv => or_iff_left fun ho => hn ⟨hv, ho⟩

/-- The greatest temperature that numbers of 32 bits can count within the limits is written, and
taken as a literal. -/
theorem encodeInto_limits_greatest :
    (⟨⟨9, 1⟩, .shortFloat "°C"⟩ : DatapointType) ∈ Registry.all ∧
    DatapointType.encodeInto ⟨⟨9, 1⟩, .shortFloat "°C"⟩ (Binary.ofBits .single 0x4923C28F)
      [0, 0] = ([0x7F, 0xFF], .ok 2) ∧
    ∃ u, Layout.ofScalar ⟨9, 1⟩ (.shortFloat "°C")
      (.float ((Binary.ofBits .single 0x4923C28F).convert .double)) = .ok u := by
  have ht : (⟨⟨9, 1⟩, .shortFloat "°C"⟩ : DatapointType) ∈ Registry.all := by decide
  have hw : DatapointType.encodeInto ⟨⟨9, 1⟩, .shortFloat "°C"⟩
      (Binary.ofBits .single 0x4923C28F) [0, 0] = ([0x7F, 0xFF], .ok 2) := by
    decide +kernel
  have hi : -67108864 ≤ (Binary.ofBits .single 0x4923C28F).toRat * 100 ∧
      (Binary.ofBits .single 0x4923C28F).toRat * 100 ≤ 67076096 := by
    decide +kernel
  have hv : (Binary.ofBits .single 0x4923C28F).isFinite = true := by decide +kernel
  obtain ⟨unit, hunit, h⟩ := encodeInto_limits ht rfl
  obtain rfl : "°C" = unit := (Layout.shortFloat.inj (DatapointType.mk.inj hunit).2)
  obtain ⟨-, -, hliteral⟩ := h (Binary.ofBits .single 0x4923C28F) [0, 0] (by decide)
  exact ⟨ht, hw, (hliteral _ (sameNumber_convert hv)).1.mpr ⟨hv, hi⟩⟩

/-- A temperature of 670800 is beyond the limits, and is written as the greatest number of the
format; as a literal it is refused. -/
theorem encodeInto_beyond_limits :
    (⟨⟨9, 1⟩, .shortFloat "°C"⟩ : DatapointType) ∈ Registry.all ∧
    (Binary.ofBits .single 0x4923C500).toRat = 670800 ∧ ¬(670800 : Rat) ≤ 67076096 / 100 ∧
    DatapointType.encodeInto ⟨⟨9, 1⟩, .shortFloat "°C"⟩ (Binary.ofBits .single 0x4923C500)
      [0xAA, 0xAA] = ([0x7F, 0xFF], .ok 2) ∧
    Layout.ofScalar ⟨9, 1⟩ (.shortFloat "°C")
      (.float ((Binary.ofBits .single 0x4923C500).convert .double)) =
        .error (.payload .outOfRange ⟨9, 1⟩) := by
  decide +kernel

end BuildingBus.Datapoint
