import BuildingBus.Proofs.Datapoint.Assigning
import BuildingBus.Proofs.Number.DoubleRounding
import BuildingBus.Proofs.Number.Fractions

/-!
# Numbers of 32 bits, from literals to payloads

A literal for a number of 32 bits is a decimal fraction. It is rounded to 64 bits when it is read, and
to 32 when it is taken over, and its payload are the bits of what comes of that. This is the number of
32 bits that is nearest to the exact value of the literal, unless that value is misled on the way
(`literalPayload_single`). Some literals are: one just above the middle between one and the next
number gets the payload of one (`literalPayload_misled`).
-/

namespace BuildingBus.Datapoint

open Number Text

/-! ## Types -/

/-- Whether the values of a layout are numbers of 32 bits that are packed as they are. -/
def Layout.isSingle : Layout → Bool
  | .single _ => true
  | _ => false

theorem Registry.isSingle_of_main {t : DatapointType} (ht : t ∈ Registry.all)
    (h14 : t.id.main = 14) : t.layout.isSingle = true := by
  revert t
  decide

/-- The types of the family 14 are those of numbers of 32 bits. -/
theorem Registry.exists_single {t : DatapointType} (ht : t ∈ Registry.all) (h14 : t.id.main = 14) :
    ∃ unit, t = ⟨t.id, .single unit⟩ := by
  have hs := Registry.isSingle_of_main ht h14
  obtain ⟨id, layout⟩ := t
  cases layout with
  | single unit => exact ⟨unit, rfl⟩
  | _ => cases hs

section

variable {identifier literal : String} {id : TypeId} {payload : Octets} {negative : Bool} {r : Rat}

/-- A literal of the family 14 is rounded twice: to the nearest number of 64 bits, and that to the
nearest of 32. Both roundings are kept, as the second one alone does not tell what the literal was.
-/
theorem exists_of_literalPayload_single (h14 : id.main = 14)
    (hw : WritesDecimal (trim literal.toList) negative r)
    (h : (literalPayload identifier literal).answer = .ok (id, payload)) :
    ∃ (y : Double) (v : Single), y.negative = negative ∧ y.IsNearest (signed negative r) ∧
      v.negative = negative ∧ v.IsNearest y.toRat ∧ payload = bigEndian 4 v.toBits := by
  obtain ⟨-, t, hf, hp⟩ := literalPayload_eq_ok_iff.mp h
  obtain ⟨unit, ht⟩ := Registry.exists_single (List.mem_of_find?_eq_some hf)
    ((Registry.id_of_find? hf).symm ▸ h14)
  rw [ht] at hp
  obtain ⟨p, v, hparse, hv, he⟩ := exists_of_packLiteral hp
  obtain ⟨_, rfl, hfinite, hle, d, hd, rfl⟩ := Scalar.exists_of_parse_float hparse
  obtain rfl := Except.ok.inj ((Layout.finiteSingle_of_le hfinite (hle rfl)).symm.trans hv)
  obtain ⟨d', hd', rfl, rfl⟩ := readDecimal_of_writes hw
  obtain rfl := Option.some.inj (hd.symm.trans hd')
  have hpayload := Except.ok.inj (DatapointType.encode_eq_ok_iff.mp he)
  refine ⟨d.toDouble, d.toDouble.convert _, rfl, d.isNearest_toDouble hfinite, rfl, ?_, hpayload.symm⟩
  exact Binary.isNearest_convert (by decide)
    (Binary.isFinite_convert (hle rfl) Layout.nearest_greatestSingle)

/-- **How literals of the family 14 are rounded.** The payload of a decimal fraction holds the bits of
a number of 32 bits, which has the sign of the fraction. With the number `y` of 64 bits that is
nearest to the exact value of the fraction, it is the number of 32 bits that is nearest to this value,
the even one of two, unless `y` lies in the middle between two neighbours and the value on the side of
the odd one. If that is so, then it is the even one of these two neighbours, between which the value
lies. -/
theorem literalPayload_single (h14 : id.main = 14)
    (hw : WritesDecimal (trim literal.toList) negative r)
    (h : (literalPayload identifier literal).answer = .ok (id, payload)) :
    ∃ (y : Double) (v : Single), y.IsNearest (signed negative r) ∧
      payload = bigEndian 4 v.toBits ∧ v.negative = negative ∧ v.isFinite = true ∧
      (v.IsNearest (signed negative r) ↔ ∀ k, ¬BinaryFormat.single.Misled r y.absRat k) ∧
      ∀ k, BinaryFormat.single.Misled r y.absRat k →
        v.magnitude.val = BinaryFormat.evenOne k ∧
        BinaryFormat.single.valueOf k < r ∧ r < BinaryFormat.single.valueOf (k + 1) := by
  obtain ⟨y, v, hneg, hy, hs, hv, hpayload⟩ := exists_of_literalPayload_single h14 hw h
  have hr := hw.nonneg
  obtain rfl := hneg
  refine ⟨y, v, hy, hpayload, hs, hv.finite, hy.twice_iff hr hv hs, fun k => ?_⟩
  exact hy.eq_evenOne hr hv hs

/-- A quarter with a minus sign is a number of 32 bits and is not misled. -/
theorem literalPayload_single_quarter :
    (literalPayload "DPST-14-68" "-2.5E-1 ").answer = .ok (⟨14, 68⟩, [0xBE, 0x80, 0, 0]) ∧
    WritesDecimal (trim "-2.5E-1 ".toList) true (1 / 4) ∧
    ∃ v : Single, [0xBE, 0x80, 0, 0] = bigEndian 4 v.toBits ∧ v.IsNearest (-1 / 4) := by
  have h : (literalPayload "DPST-14-68" "-2.5E-1 ").answer =
      .ok (⟨14, 68⟩, [0xBE, 0x80, 0, 0]) := by decide +kernel
  have hdigits : SpellsFraction "2.5".toList 25 1 :=
    .point (show Spells (['2'] ++ ['5']) 25 from .of_all (by decide) rfl)
  have hexponent : IsExponent "E-1".toList (-1) :=
    .mark (.inr rfl) .minus (show Spells ['1'] 1 from .of_all (by decide) rfl)
  have hw : WritesDecimal (trim "-2.5E-1 ".toList) true (1 / 4) := by
    have hw := WritesDecimal.mk .minus hdigits hexponent
    have hvalue : ((25 : Nat) : Rat) / 10 ^ 1 * 10 ^ (-1 : Int) = 1 / 4 := by norm_num
    exact hvalue ▸ hw
  refine ⟨h, hw, ?_⟩
  obtain ⟨y, v, hy, hpayload, -, -, hnearest, -⟩ := literalPayload_single rfl hw h
  have hx : signed true (1 / 4) = -1 / 4 := by
    rw [signed, if_pos rfl]
    norm_num
  rw [hx] at hy hnearest
  refine ⟨v, hpayload, hnearest.mpr fun k hk => hk.ne ?_⟩
  -- a quarter is a number of 64 bits
  have hvalue : y.toRat = -1 / 4 := hy.toRat_eq (u := Binary.ofRat _ (-1 / 4)) (by decide +kernel)
    (by decide +kernel)
  rw [← y.abs_toRat, hvalue]
  norm_num

/-- **A literal that is misled**: it is just above the middle between one and the next number of 32
bits, and gets the payload of one. -/
theorem literalPayload_misled :
    let literal := "1.0000000596046447753906251"
    let r : Rat := 10000000596046447753906251 / 10 ^ 25
    (literalPayload "14.056" literal).answer = .ok (⟨14, 56⟩, [0x3F, 0x80, 0, 0]) ∧
    WritesDecimal literal.toList false r ∧
    (∀ v : Single, [0x3F, 0x80, 0, 0] = bigEndian 4 v.toBits → ¬v.IsNearest r) ∧
    ∃ v : Single, [0x3F, 0x80, 0, 1] = bigEndian 4 v.toBits ∧ v.IsNearest r := by
  intro literal r
  have hspells : Spells ("1".toList ++ "0000000596046447753906251".toList)
      10000000596046447753906251 := .of_all (by decide) (by decide +kernel)
  have htext : literal.toList = "1".toList ++ '.' :: "0000000596046447753906251".toList := by
    decide +kernel
  have hdigits : SpellsFraction literal.toList 10000000596046447753906251 25 := by
    rw [htext]
    exact .point hspells
  have hnext : (Binary.ofBits .single 0x3F800001).IsNearest r := by
    have he : Binary.ofBits .single 0x3F800001 =
        .ofMagnitude .single false (BinaryFormat.single.nearest r) := by decide +kernel
    rw [he]
    exact Binary.isNearest_ofMagnitude (by decide) (by norm_num [r]) false (by decide +kernel)
  refine ⟨by decide +kernel, ?_, ?_, _, by decide +kernel, hnext⟩
  · have hw := WritesDecimal.mk .none hdigits .none
    rw [List.nil_append, List.append_nil, zpow_zero, mul_one] at hw
    exact hw
  · rintro v hbits hv
    have hv32 : v.toBits < 256 ^ 4 := v.toBits_lt
    have hone : v = Binary.ofBits .single 0x3F800000 := by
      rw [← v.ofBits_toBits, ← Nat.mod_eq_of_lt hv32, ← ofBigEndian_bigEndian, ← hbits]
      decide +kernel
    have hle := hv.le _ hnext.finite
    rw [hone] at hle
    exact absurd hle (by decide +kernel)

end

end BuildingBus.Datapoint
