import BuildingBus.Datapoint.Layout
import BuildingBus.Proofs.Text.Utf8

/-!
# The laws of codecs

A codec *reads back* when the payload of a value is read as that value, and *writes back* when a
payload that is read is the payload of its value, so that reading passes over no bit. It has a
*fixed size* when all its values have one length and the payloads that are refused for their length
are those of any other. A codec with all three laws is `Exact`.

Every codec of this library but four is exact. A scaled level reads back as long as its range has at
most as many steps as an octet and writes back as long as it has at least as many
(`scaledCodec_readsBack`, `scaledCodec_writesBack`); text in UTF-8 has no fixed size; short floats
and short strings have several payloads for one value.
-/

namespace BuildingBus.Datapoint

open BuildingBus.Number BuildingBus.Text

namespace Codec

variable {α : Type} (c : Codec α)

/-- The payload of a value is read as that value. No two values have one payload then. -/
def ReadsBack : Prop := ∀ v bs, c.encode v = .ok bs → c.decode bs = .ok v

/-- A payload that is read is the payload of the value it is read as. No other octets are read as
the same value then. -/
def WritesBack : Prop := ∀ bs v, c.decode bs = .ok v → c.encode v = .ok bs

/-- Octets are refused for their length exactly if it is not the one that all values have. -/
def HasFixedSize : Prop :=
  ∃ k, (∀ v, c.size v = k) ∧ ∀ bs, c.decode bs = .error .wrongLength ↔ bs.length ≠ k

/-- The laws of a codec that loses nothing in either direction: values and the payloads that are
read correspond one to one. -/
structure Exact : Prop where
  /-- from a value to its payload and back -/
  readsBack : c.ReadsBack
  /-- from a payload to its value and back -/
  writesBack : c.WritesBack
  /-- one length for all payloads -/
  hasFixedSize : c.HasFixedSize

/-- The codec reads payloads of one length only, and refuses any other for its length and for
nothing else. -/
structure Takes (k : Nat) : Prop where
  /-- values have this length -/
  size_eq : ∀ v, c.size v = k
  /-- octets of another length are refused for it -/
  decode_of_ne : ∀ bs, bs.length ≠ k → c.decode bs = .error .wrongLength
  /-- octets of this length are not refused for it -/
  decode_ne : ∀ bs, bs.length = k → c.decode bs ≠ .error .wrongLength

variable {c} {k : Nat}

theorem Takes.hasFixedSize (h : c.Takes k) : c.HasFixedSize := by
  refine ⟨k, h.size_eq, fun bs => ?_⟩
  exact ⟨fun he hk => h.decode_ne bs hk he, h.decode_of_ne bs⟩

/-- A codec reads single octets if it refuses none and more than one for their length. -/
theorem takes_one (hs : ∀ v, c.size v = 1) (h0 : c.decode [] = .error .wrongLength)
    (h2 : ∀ a b bs, c.decode (a :: b :: bs) = .error .wrongLength)
    (h1 : ∀ b, c.decode [b] ≠ .error .wrongLength) : c.Takes 1 where
  size_eq := hs
  decode_of_ne
    | [], _ => h0
    | [_], h => absurd rfl h
    | a :: b :: bs, _ => h2 a b bs
  decode_ne
    | [b], _ => h1 b

theorem Takes.length_of_decode (h : c.Takes k) {bs : Octets} {v : α} (hd : c.decode bs = .ok v) :
    bs.length = k := by
  by_contra hk
  rw [h.decode_of_ne bs hk] at hd
  cases hd

end Codec

/-! ## Flags -/

theorem beq_one_toNat (f : Bool) : (f.toNat == 1) = f := by cases f <;> rfl

/-- A flag is the bit that was read as it. -/
theorem toNat_beq_one {n : Nat} (h : n < 2) : (n == 1).toNat = n := by
  match n, h with
  | 0, _ => rfl
  | 1, _ => rfl

/-! ## States and steps -/

theorem stateCodec_takes : stateCodec.Takes 1 := by
  refine Codec.takes_one (fun _ => rfl) rfl (fun _ _ _ => rfl) fun b => ?_
  simp only [stateCodec]
  split <;> simp

theorem stateCodec_exact : stateCodec.Exact where
  readsBack v bs h := by
    obtain rfl : [UInt8.ofNat v.toNat] = bs := Except.ok.inj h
    cases v <;> rfl
  writesBack bs v h := by
    obtain ⟨b, rfl⟩ := List.length_eq_one_iff.mp (stateCodec_takes.length_of_decode h)
    simp only [stateCodec] at h ⊢
    split at h
    case isTrue hb =>
      obtain rfl := Except.ok.inj h
      rw [toNat_beq_one hb, octet_eq rfl]
    case isFalse => cases h
  hasFixedSize := stateCodec_takes.hasFixedSize

theorem ControlledState.codec_takes : ControlledState.codec.Takes 1 := by
  refine Codec.takes_one (fun _ => rfl) rfl (fun _ _ _ => rfl) fun b => ?_
  simp only [ControlledState.codec]
  split <;> simp

theorem ControlledState.codec_exact : ControlledState.codec.Exact where
  readsBack v bs h := by
    obtain rfl : [UInt8.ofNat (v.control.toNat * 2 + v.value.toNat)] = bs := Except.ok.inj h
    obtain ⟨control, value⟩ := v
    cases control <;> cases value <;> rfl
  writesBack bs v h := by
    obtain ⟨b, rfl⟩ := List.length_eq_one_iff.mp (codec_takes.length_of_decode h)
    simp only [ControlledState.codec] at h ⊢
    split at h
    case isTrue hb =>
      obtain rfl := Except.ok.inj h
      have h1 : (b.toNat / 2 == 1).toNat = b.toNat / 2 := toNat_beq_one (by omega)
      have h0 : (b.toNat % 2 == 1).toNat = b.toNat % 2 := toNat_beq_one (by omega)
      rw [h1, h0, octet_eq (b := b) (by omega)]
    case isFalse => cases h
  hasFixedSize := codec_takes.hasFixedSize

theorem StepCommand.codec_takes : StepCommand.codec.Takes 1 := by
  refine Codec.takes_one (fun _ => rfl) rfl (fun _ _ _ => rfl) fun b => ?_
  simp only [StepCommand.codec]
  split <;> simp

theorem StepCommand.codec_exact : StepCommand.codec.Exact where
  readsBack v bs h := by
    obtain rfl : [UInt8.ofNat (v.control.toNat * 8 + v.stepcode.val)] = bs := Except.ok.inj h
    obtain ⟨control, code⟩ := v
    revert control code
    decide
  writesBack bs v h := by
    obtain ⟨b, rfl⟩ := List.length_eq_one_iff.mp (codec_takes.length_of_decode h)
    simp only [StepCommand.codec] at h ⊢
    split at h
    case isTrue hb =>
      obtain rfl := Except.ok.inj h
      have h3 : (b.toNat / 8 == 1).toNat = b.toNat / 8 := toNat_beq_one (by omega)
      have hb8 : b.toNat = b.toNat / 8 * 8 + b.toNat % 8 := by omega
      rw [h3, StepCommand.stepcodeOf, octet_eq hb8]
    case isFalse => cases h
  hasFixedSize := codec_takes.hasFixedSize

/-! ## Numbers -/

theorem wordCodec_takes (octets : Nat) : (wordCodec octets).Takes octets where
  size_eq _ := rfl
  decode_of_ne bs h := if_neg h
  decode_ne bs h := by
    simp only [wordCodec, if_pos h]
    simp

theorem two_pow_eight_mul (k : Nat) : 2 ^ (8 * k) = 256 ^ k := Nat.pow_mul 2 8 k

theorem wordCodec_exact (octets : Nat) : (wordCodec octets).Exact where
  readsBack v bs h := by
    obtain rfl : bigEndian octets v.toNat = bs := Except.ok.inj h
    have hv : v.toNat % 256 ^ octets = v.toNat :=
      Nat.mod_eq_of_lt (two_pow_eight_mul octets ▸ v.isLt)
    simp only [wordCodec, length_bigEndian, if_true, ofBigEndian_bigEndian, hv,
      BitVec.ofNat_toNat, BitVec.setWidth_eq]
  writesBack bs v h := by
    have hl := (wordCodec_takes octets).length_of_decode h
    simp only [wordCodec, if_pos hl] at h ⊢
    obtain rfl := Except.ok.inj h
    have hb : ofBigEndian bs % 2 ^ (8 * octets) = ofBigEndian bs := by
      rw [two_pow_eight_mul, ← hl]
      exact Nat.mod_eq_of_lt (ofBigEndian_lt bs)
    rw [BitVec.toNat_ofNat, hb, ← hl, bigEndian_ofBigEndian]
  hasFixedSize := (wordCodec_takes octets).hasFixedSize

theorem singleCodec_takes : singleCodec.Takes 4 where
  size_eq _ := rfl
  decode_of_ne bs h := if_neg h
  decode_ne bs h := by
    simp only [singleCodec, if_pos h]
    simp

theorem singleCodec_exact : singleCodec.Exact where
  readsBack v bs h := by
    obtain rfl : bigEndian 4 v.toBits = bs := Except.ok.inj h
    have hv : v.toBits % 256 ^ 4 = v.toBits := Nat.mod_eq_of_lt v.toBits_lt
    simp only [singleCodec, length_bigEndian, if_true, ofBigEndian_bigEndian, hv,
      Binary.ofBits_toBits]
  writesBack bs v h := by
    have hl := singleCodec_takes.length_of_decode h
    simp only [singleCodec, if_pos hl] at h ⊢
    obtain rfl := Except.ok.inj h
    have hb : ofBigEndian bs < 256 ^ 4 := hl ▸ ofBigEndian_lt bs
    rw [Binary.toBits_ofBits hb, ← hl, bigEndian_ofBigEndian]
  hasFixedSize := singleCodec_takes.hasFixedSize

/-! ## Levels -/

/-- A word of two octets is read from a number that it holds. -/
theorem ofNat_toNat_word {n : Nat} {v : Word 2} (h : v.toNat = n) : BitVec.ofNat (8 * 2) n = v := by
  rw [← h, BitVec.ofNat_toNat, BitVec.setWidth_eq]

theorem levelCodec_takes (greatest : Nat) : (levelCodec greatest).Takes 1 := by
  refine Codec.takes_one (fun _ => rfl) rfl (fun _ _ _ => rfl) fun b => ?_
  simp only [levelCodec]
  split <;> simp

theorem levelCodec_exact {greatest : Nat} (hg : greatest ≤ 255) : (levelCodec greatest).Exact where
  readsBack v bs h := by
    simp only [levelCodec] at h
    split at h
    case isTrue hv =>
      obtain rfl := Except.ok.inj h
      have hb : (UInt8.ofNat v.toNat).toNat = v.toNat := toNat_octet (by omega)
      simp only [levelCodec, hb, if_pos hv, ofNat_toNat_word rfl]
    case isFalse => cases h
  writesBack bs v h := by
    obtain ⟨b, rfl⟩ := List.length_eq_one_iff.mp ((levelCodec_takes greatest).length_of_decode h)
    simp only [levelCodec] at h ⊢
    split at h
    case isTrue hb =>
      obtain rfl := Except.ok.inj h
      have hv : (BitVec.ofNat (8 * 2) b.toNat).toNat = b.toNat := by
        rw [BitVec.toNat_ofNat]
        omega
      rw [hv, if_pos hb, octet_eq rfl]
    case isFalse => cases h
  hasFixedSize := (levelCodec_takes greatest).hasFixedSize

theorem scaleDown_le {greatest level : Nat} (hg : 0 < greatest) (hl : level ≤ greatest) :
    scaleDown greatest level ≤ 255 := by
  have h : scaleDown greatest level < 256 := by
    rw [scaleDown, Nat.div_lt_iff_lt_mul hg]
    omega
  omega

theorem scaleUp_le {greatest octet : Nat} (ho : octet ≤ 255) :
    scaleUp greatest octet ≤ greatest := by
  have hm := Nat.mul_le_mul_right greatest ho
  rw [scaleUp]
  omega

/-- A level is found again in its octet if the range has at most as many steps as the octet. -/
theorem scaleUp_scaleDown {greatest level : Nat} (hg : 0 < greatest) (hg' : greatest ≤ 255) :
    scaleUp greatest (scaleDown greatest level) = level := by
  -- the octet is off by half of its own step at most, which is no more than half a step of a level
  have hle := Nat.div_mul_le_self (level * 255 + greatest / 2) greatest
  have hlt := Nat.lt_div_mul_add hg (a := level * 255 + greatest / 2)
  rw [scaleUp, scaleDown]
  omega

/-- An octet is found again in its level if the range has at least as many steps as the octet. -/
theorem scaleDown_scaleUp {greatest octet : Nat} (hg : 255 ≤ greatest) :
    scaleDown greatest (scaleUp greatest octet) = octet := by
  have hle : octet * greatest ≤ scaleUp greatest octet * 255 + greatest / 2 := by
    rw [scaleUp]
    omega
  have hlt : scaleUp greatest octet * 255 + greatest / 2 < (octet + 1) * greatest := by
    rw [scaleUp, Nat.succ_mul]
    omega
  rw [scaleDown]
  exact Nat.div_eq_of_lt_le hle hlt

theorem scaledCodec_takes (greatest : Nat) : (scaledCodec greatest).Takes 1 := by
  refine Codec.takes_one (fun _ => rfl) rfl (fun _ _ _ => rfl) fun b => ?_
  simp [scaledCodec]

theorem scaledCodec_readsBack {greatest : Nat} (hg : 0 < greatest) (hg' : greatest ≤ 255) :
    (scaledCodec greatest).ReadsBack := by
  intro v bs h
  simp only [scaledCodec] at h
  split at h
  case isTrue hv =>
    obtain rfl := Except.ok.inj h
    have hb := toNat_octet (Nat.lt_succ_of_le (scaleDown_le hg hv))
    simp only [scaledCodec, hb, scaleUp_scaleDown hg hg', ofNat_toNat_word rfl]
  case isFalse => cases h

theorem scaledCodec_writesBack {greatest : Nat} (hg : 255 ≤ greatest) (hg' : greatest < 65536) :
    (scaledCodec greatest).WritesBack := by
  intro bs v h
  obtain ⟨b, rfl⟩ := List.length_eq_one_iff.mp ((scaledCodec_takes greatest).length_of_decode h)
  obtain rfl := Except.ok.inj h
  have hle : scaleUp greatest b.toNat ≤ greatest := scaleUp_le (Nat.le_of_lt_succ b.toNat_lt)
  have hv : (BitVec.ofNat (8 * 2) (scaleUp greatest b.toNat)).toNat = scaleUp greatest b.toNat := by
    rw [BitVec.toNat_ofNat]
    omega
  simp only [scaledCodec, hv, if_pos hle, scaleDown_scaleUp hg, UInt8.ofNat_toNat]

/-! ## Scenes -/

theorem sceneCodec_takes : sceneCodec.Takes 1 := by
  refine Codec.takes_one (fun _ => rfl) rfl (fun _ _ _ => rfl) fun b => ?_
  simp only [sceneCodec]
  split <;> simp

theorem sceneCodec_exact : sceneCodec.Exact where
  readsBack v bs h := by
    simp only [sceneCodec] at h
    split at h
    case isTrue hv =>
      obtain rfl := Except.ok.inj h
      have hb : (UInt8.ofNat v.toNat).toNat = v.toNat := toNat_octet v.isLt
      simp only [sceneCodec, hb, if_pos hv, BitVec.ofNat_toNat, BitVec.setWidth_eq]
    case isFalse => cases h
  writesBack bs v h := by
    obtain ⟨b, rfl⟩ := List.length_eq_one_iff.mp (sceneCodec_takes.length_of_decode h)
    simp only [sceneCodec] at h ⊢
    split at h
    case isTrue hb =>
      obtain rfl := Except.ok.inj h
      have hv : (BitVec.ofNat (8 * 1) b.toNat).toNat = b.toNat := by
        rw [BitVec.toNat_ofNat]
        exact Nat.mod_eq_of_lt b.toNat_lt
      rw [hv, if_pos hb, octet_eq rfl]
    case isFalse => cases h
  hasFixedSize := sceneCodec_takes.hasFixedSize

theorem SceneControl.codec_takes : SceneControl.codec.Takes 1 := by
  refine Codec.takes_one (fun _ => rfl) rfl (fun _ _ _ => rfl) fun b => ?_
  simp only [SceneControl.codec]
  split <;> simp

theorem SceneControl.codec_exact : SceneControl.codec.Exact where
  readsBack v bs h := by
    simp only [SceneControl.codec] at h
    split at h
    case isTrue hv =>
      obtain rfl := Except.ok.inj h
      have hv : v.scene.toNat ≤ 63 := hv
      have hl := v.learn.toNat_le
      -- the scene ends below bit 6, which stays clear, and the request stands in bit 7
      have hb : (UInt8.ofNat (v.learn.toNat * 128 + v.scene.toNat)).toNat =
          v.learn.toNat * 128 + v.scene.toNat := toNat_octet (by omega)
      have h6 : (v.learn.toNat * 128 + v.scene.toNat) / 64 % 2 ≠ 1 := by omega
      have h7 : (v.learn.toNat * 128 + v.scene.toNat) / 128 = v.learn.toNat := by omega
      have h0 : (v.learn.toNat * 128 + v.scene.toNat) % 64 = v.scene.toNat := by omega
      simp only [SceneControl.codec, hb, if_neg h6, h7, h0, beq_one_toNat, UInt8.ofNat_toNat]
    case isFalse => cases h
  writesBack bs v h := by
    obtain ⟨b, rfl⟩ := List.length_eq_one_iff.mp (codec_takes.length_of_decode h)
    simp only [SceneControl.codec] at h ⊢
    split at h
    case isTrue => cases h
    case isFalse hb =>
      obtain rfl := Except.ok.inj h
      have hlt := b.toNat_lt
      have h0 : (UInt8.ofNat (b.toNat % 64)).toNat = b.toNat % 64 := toNat_octet (by omega)
      have h7 : (b.toNat / 128 == 1).toNat = b.toNat / 128 := toNat_beq_one (by omega)
      have hs : b.toNat % 64 ≤ lastScene := Nat.le_of_lt_succ (Nat.mod_lt _ (by decide))
      rw [h0, if_pos hs, h7, octet_eq (b := b) (by omega)]
  hasFixedSize := codec_takes.hasFixedSize

/-! ## Times and dates -/

theorem TimeOfDay.codec_takes : TimeOfDay.codec.Takes 3 where
  size_eq _ := rfl
  decode_of_ne
    | [_, _, _], h => absurd rfl h
    | [], _ | [_], _ | [_, _], _ | _ :: _ :: _ :: _ :: _, _ => rfl
  decode_ne
    | [dayHour, minute, second], _ => by
      simp only [TimeOfDay.codec]
      split
      · simp
      · split <;> simp

theorem TimeOfDay.isValid_iff (t : TimeOfDay) :
    t.isValid = true ↔ t.hour.toNat ≤ 23 ∧ t.minute.toNat ≤ 59 ∧ t.second.toNat ≤ 59 := by
  simp [isValid, and_assoc]

theorem TimeOfDay.codec_exact : TimeOfDay.codec.Exact where
  readsBack t bs h := by
    simp only [TimeOfDay.codec] at h
    split at h
    case isTrue ht =>
      obtain rfl := Except.ok.inj h
      obtain ⟨hh, hm, hs⟩ := t.isValid_iff.mp ht
      have hd := t.weekday.isLt
      have hb : (UInt8.ofNat (t.weekday.val * 32 + t.hour.toNat)).toNat =
          t.weekday.val * 32 + t.hour.toNat := toNat_octet (by omega)
      -- no field of a valid time reaches its reserved bits
      have hr : ¬(64 ≤ t.minute.toNat ∨ 64 ≤ t.second.toNat) := by omega
      have hday : (t.weekday.val * 32 + t.hour.toNat) / 32 = t.weekday.val := by omega
      have hhour : (t.weekday.val * 32 + t.hour.toNat) % 32 = t.hour.toNat := by omega
      simp only [TimeOfDay.codec, if_neg hr, hb, hday, hhour, UInt8.ofNat_toNat, ht, if_true]
    case isFalse => cases h
  writesBack bs t h := by
    obtain ⟨dayHour, minute, second, rfl⟩ :=
      List.length_eq_three.mp (codec_takes.length_of_decode h)
    simp only [TimeOfDay.codec] at h ⊢
    split at h
    case isTrue => cases h
    case isFalse =>
      split at h
      case isTrue ht =>
        obtain rfl := Except.ok.inj h
        have hh : (UInt8.ofNat (dayHour.toNat % 32)).toNat = dayHour.toNat % 32 :=
          toNat_octet (by omega)
        rw [if_pos ht]
        simp only [hh]
        rw [octet_eq (b := dayHour) (by omega)]
      case isFalse => cases h
  hasFixedSize := codec_takes.hasFixedSize

theorem Date.codec_takes : Date.codec.Takes 3 where
  size_eq _ := rfl
  decode_of_ne
    | [_, _, _], h => absurd rfl h
    | [], _ | [_], _ | [_, _], _ | _ :: _ :: _ :: _ :: _, _ => rfl
  decode_ne
    | [day, month, year], _ => by
      simp only [Date.codec]
      split
      · simp
      · split
        · simp
        · split <;> simp

theorem Date.isValid_iff (d : Date) :
    d.isValid = true ↔ (1990 ≤ d.year.toNat ∧ d.year.toNat ≤ 2089) ∧
      (1 ≤ d.month.toNat ∧ d.month.toNat ≤ 12) ∧ 1 ≤ d.day.toNat ∧ d.day.toNat ≤ 31 := by
  simp [isValid, and_assoc]

/-- The two digits of a year that they can write are read as that year. -/
theorem Date.fullYear_mod {year : Nat} (h : 1990 ≤ year) (h' : year ≤ 2089) :
    fullYear (year % 100) = year := by
  rw [fullYear]
  split <;> omega

/-- The year that two digits are read as has these two digits. -/
theorem Date.mod_fullYear {digits : Nat} (h : digits ≤ 99) : fullYear digits % 100 = digits := by
  rw [fullYear]
  split <;> omega

theorem Date.codec_exact : Date.codec.Exact where
  readsBack d bs h := by
    simp only [Date.codec] at h
    split at h
    case isTrue hd =>
      obtain rfl := Except.ok.inj h
      obtain ⟨⟨hy, hy'⟩, ⟨hm, hm'⟩, hd1, hd31⟩ := d.isValid_iff.mp hd
      have hb : (UInt8.ofNat (d.year.toNat % 100)).toNat = d.year.toNat % 100 :=
        toNat_octet (by omega)
      -- no field of a valid date reaches its reserved bits
      have hr : ¬(32 ≤ d.day.toNat ∨ 16 ≤ d.month.toNat ∨ 128 ≤ d.year.toNat % 100) := by omega
      have h99 : ¬99 < d.year.toNat % 100 := by omega
      simp only [Date.codec, hb, if_neg hr, if_neg h99, fullYear_mod hy hy', UInt16.ofNat_toNat,
        hd, if_true]
    case isFalse => cases h
  writesBack bs d h := by
    obtain ⟨day, month, year, rfl⟩ := List.length_eq_three.mp (codec_takes.length_of_decode h)
    simp only [Date.codec] at h ⊢
    split at h
    case isTrue => cases h
    case isFalse =>
      split at h
      case isTrue => cases h
      case isFalse h99 =>
        split at h
        case isTrue hd =>
          obtain rfl := Except.ok.inj h
          have hy : (UInt16.ofNat (fullYear year.toNat)).toNat = fullYear year.toNat := by
            apply UInt16.toNat_ofNat_of_lt'
            rw [fullYear, UInt16.size]
            split <;> omega
          have hm : fullYear year.toNat % 100 = year.toNat := mod_fullYear (by omega)
          rw [if_pos hd]
          simp only [hy, hm, UInt8.ofNat_toNat]
        case isFalse => cases h
  hasFixedSize := codec_takes.hasFixedSize

/-! ## Colours -/

theorem length_eq_six {bs : Octets} (h : bs.length = 6) :
    ∃ a b c d e f, bs = [a, b, c, d, e, f] := by
  match bs, h with
  | [a, b, c, d, e, f], _ => exact ⟨a, b, c, d, e, f, rfl⟩

theorem Rgb.codec_takes : Rgb.codec.Takes 3 where
  size_eq _ := rfl
  decode_of_ne
    | [_, _, _], h => absurd rfl h
    | [], _ | [_], _ | [_, _], _ | _ :: _ :: _ :: _ :: _, _ => rfl
  decode_ne
    | [red, green, blue], _ => by simp [Rgb.codec]

theorem Rgb.codec_exact : Rgb.codec.Exact where
  readsBack v bs h := by
    obtain rfl : [v.red, v.green, v.blue] = bs := Except.ok.inj h
    rfl
  writesBack bs v h := by
    obtain ⟨red, green, blue, rfl⟩ := List.length_eq_three.mp (codec_takes.length_of_decode h)
    obtain rfl := Except.ok.inj h
    rfl
  hasFixedSize := codec_takes.hasFixedSize

theorem XyY.codec_takes : XyY.codec.Takes 6 where
  size_eq _ := rfl
  decode_of_ne
    | [_, _, _, _, _, _], h => absurd rfl h
    | [], _ | [_], _ | [_, _], _ | [_, _, _], _ | [_, _, _, _], _ | [_, _, _, _, _], _
    | _ :: _ :: _ :: _ :: _ :: _ :: _ :: _, _ => rfl
  decode_ne bs h := by
    obtain ⟨_, _, _, _, _, _, rfl⟩ := length_eq_six h
    simp only [XyY.codec]
    split <;> simp

/-- A number of sixteen bits in two octets is read as that number. -/
theorem ofBigEndian_pair {a b : UInt8} {n : UInt16} (h : bigEndian 2 n.toNat = [a, b]) :
    UInt16.ofNat (ofBigEndian [a, b]) = n := by
  have hn : n.toNat % 256 ^ 2 = n.toNat := Nat.mod_eq_of_lt n.toNat_lt
  rw [← h, ofBigEndian_bigEndian, hn, UInt16.ofNat_toNat]

/-- Two octets are written from the number of sixteen bits that they are read as. -/
theorem bigEndian_pair (a b : UInt8) :
    bigEndian 2 (UInt16.ofNat (ofBigEndian [a, b])).toNat = [a, b] := by
  have hlt : ofBigEndian [a, b] < 256 ^ 2 := ofBigEndian_lt [a, b]
  have hn : (UInt16.ofNat (ofBigEndian [a, b])).toNat = ofBigEndian [a, b] :=
    UInt16.toNat_ofNat_of_lt' (by rw [UInt16.size]; omega)
  rw [hn]
  exact bigEndian_ofBigEndian [a, b]

theorem XyY.codec_exact : XyY.codec.Exact where
  readsBack v bs h := by
    obtain rfl := Except.ok.inj h
    obtain ⟨xHigh, xLow, hx⟩ := List.length_eq_two.mp (length_bigEndian 2 v.x.toNat)
    obtain ⟨yHigh, yLow, hy⟩ := List.length_eq_two.mp (length_bigEndian 2 v.y.toNat)
    -- the two flags are the lowest bits of the last octet
    have hc := v.colorValid.toNat_le
    have hv := v.brightnessValid.toNat_le
    have hb : (UInt8.ofNat (v.colorValid.toNat * 2 + v.brightnessValid.toNat)).toNat =
        v.colorValid.toNat * 2 + v.brightnessValid.toNat := toNat_octet (by omega)
    have hf : v.colorValid.toNat * 2 + v.brightnessValid.toNat < 4 := by omega
    have h1 : (v.colorValid.toNat * 2 + v.brightnessValid.toNat) / 2 = v.colorValid.toNat := by
      omega
    have h0 : (v.colorValid.toNat * 2 + v.brightnessValid.toNat) % 2 = v.brightnessValid.toNat := by
      omega
    simp only [XyY.codec, hx, hy, List.cons_append, List.nil_append, hb, if_pos hf, h1, h0,
      ofBigEndian_pair hx, ofBigEndian_pair hy, beq_one_toNat]
  writesBack bs v h := by
    obtain ⟨xHigh, xLow, yHigh, yLow, brightness, flags, rfl⟩ :=
      length_eq_six (codec_takes.length_of_decode h)
    simp only [XyY.codec] at h ⊢
    split at h
    case isTrue hf =>
      obtain rfl := Except.ok.inj h
      have h1 : (flags.toNat / 2 == 1).toNat = flags.toNat / 2 := toNat_beq_one (by omega)
      have h0 : (flags.toNat % 2 == 1).toNat = flags.toNat % 2 := toNat_beq_one (by omega)
      simp only [bigEndian_pair, h1, h0]
      rw [octet_eq (b := flags) (by omega)]
      rfl
    case isFalse => cases h
  hasFixedSize := codec_takes.hasFixedSize

theorem Rgbw.codec_takes : Rgbw.codec.Takes 6 where
  size_eq _ := rfl
  decode_of_ne
    | [_, _, _, _, _, _], h => absurd rfl h
    | [], _ | [_], _ | [_, _], _ | [_, _, _], _ | [_, _, _, _], _ | [_, _, _, _, _], _
    | _ :: _ :: _ :: _ :: _ :: _ :: _ :: _, _ => rfl
  decode_ne bs h := by
    obtain ⟨_, _, _, _, _, _, rfl⟩ := length_eq_six h
    simp only [Rgbw.codec]
    split <;> simp

theorem Rgbw.flags_lt (v : Rgbw) : v.flags < 16 := by
  have h3 := v.redValid.toNat_le
  have h2 := v.greenValid.toNat_le
  have h1 := v.blueValid.toNat_le
  have h0 := v.whiteValid.toNat_le
  rw [flags]
  omega

theorem Rgbw.codec_exact : Rgbw.codec.Exact where
  readsBack v bs h := by
    obtain rfl := Except.ok.inj h
    have hb : (UInt8.ofNat v.flags).toNat = v.flags :=
      toNat_octet (Nat.lt_trans v.flags_lt (by decide))
    have h3 := v.redValid.toNat_le
    have h2 := v.greenValid.toNat_le
    have h1 := v.blueValid.toNat_le
    have h0 := v.whiteValid.toNat_le
    have hr : v.flags / 8 = v.redValid.toNat := by rw [Rgbw.flags]; omega
    have hg : v.flags / 4 % 2 = v.greenValid.toNat := by rw [Rgbw.flags]; omega
    have hu : v.flags / 2 % 2 = v.blueValid.toNat := by rw [Rgbw.flags]; omega
    have hw : v.flags % 2 = v.whiteValid.toNat := by rw [Rgbw.flags]; omega
    simp only [Rgbw.codec, hb, v.flags_lt, and_true, if_true, hr, hg, hu, hw, beq_one_toNat]
  writesBack bs v h := by
    obtain ⟨red, green, blue, white, spare, flags, rfl⟩ :=
      length_eq_six (codec_takes.length_of_decode h)
    simp only [Rgbw.codec] at h ⊢
    split at h
    case isTrue hf =>
      obtain ⟨rfl, hf⟩ := hf
      obtain rfl := Except.ok.inj h
      have h3 : (flags.toNat / 8 == 1).toNat = flags.toNat / 8 := toNat_beq_one (by omega)
      have h2 : (flags.toNat / 4 % 2 == 1).toNat = flags.toNat / 4 % 2 := toNat_beq_one (by omega)
      have h1 : (flags.toNat / 2 % 2 == 1).toNat = flags.toNat / 2 % 2 := toNat_beq_one (by omega)
      have h0 : (flags.toNat % 2 == 1).toNat = flags.toNat % 2 := toNat_beq_one (by omega)
      simp only [Rgbw.flags, h3, h2, h1, h0]
      rw [octet_eq (b := flags) (by omega)]
    case isFalse => cases h
  hasFixedSize := codec_takes.hasFixedSize

/-! ## Strings of any length -/

theorem zero_mem_encode_iff (s : List Char) : 0 ∈ Utf8.encode s ↔ Char.ofNat 0 ∈ s :=
  Utf8.mem_encode_iff (b := 0) (by decide) s

theorem utf8Codec_readsBack : utf8Codec.ReadsBack := by
  intro s bs h
  simp only [utf8Codec] at h
  split at h
  case isTrue => cases h
  case isFalse hz =>
    obtain rfl := Except.ok.inj h
    have hz' : 0 ∉ Utf8.encode s.toList := fun h => hz ((zero_mem_encode_iff _).mp h)
    simp [utf8Codec, hz']

theorem utf8Codec_writesBack : utf8Codec.WritesBack := by
  intro bs s h
  simp only [utf8Codec] at h ⊢
  split at h
  case h_1 hl =>
    split at h
    case isTrue => cases h
    case isFalse hz =>
      split at h
      case h_1 t ht =>
        obtain rfl := Except.ok.inj h
        have he := Utf8.decode_eq_some_iff.mp ht
        -- a zero is written for the zero character alone, so that none stands in the text
        have hz' : Char.ofNat 0 ∉ t := fun h => hz (he ▸ (zero_mem_encode_iff t).mpr h)
        rw [String.toList_ofList, if_neg hz', he, List.dropLast_append_getLast? 0 hl]
      case h_2 => cases h
  case h_2 => cases h

/-- Octets are refused for their length exactly if no zero stands at their end. -/
theorem utf8Codec_decode_eq_wrongLength_iff (bs : Octets) :
    utf8Codec.decode bs = .error .wrongLength ↔ bs = [] ∨ bs.getLast? ≠ some 0 := by
  simp only [utf8Codec]
  split
  case h_1 hl =>
    have hne : bs ≠ [] := by
      rintro rfl
      cases hl
    split
    · simp [hl, hne]
    · split <;> simp [hl, hne]
  case h_2 hl => exact iff_of_true rfl (.inr hl)

end BuildingBus.Datapoint
