import BuildingBus.Datapoint.Basic
import BuildingBus.Proofs.Catalog.Checks
import BuildingBus.Proofs.Datapoint.Buffers
import BuildingBus.Proofs.Number.Rounding

/-!
# Literals that cannot be packed

A literal is taken over before it is packed. Most types take no literal whose value they cannot
pack: the kind of the literals keeps them within the octets (`Layout.exists_encode_of_read`). For
measured values this is a matter of rounding, as the limits hold for numbers of 64 bits and the
value is rounded to 32 bits before it is packed (`ShortFloat.exists_encode_of_measured`).

Seven types take literals for which there is no payload, and there the value of the refused literal
stays: a refused literal leaves every value as it was exactly for the types that are none of these
(`Datapoint.packLiteral_keeps_iff`).
-/

namespace BuildingBus.Datapoint

open BuildingBus.Number BuildingBus.Text

/-! ## Measured values -/

namespace ShortFloat

/-- A number of hundredths within the limits of the format fits with the last exponent. -/
theorem fits_last {h : Rat} (hl : -67108864 ≤ h) (hu : h ≤ 67076096) :
    fits (mantissaAt h 15) = true := by
  have hlow : (-2048 : Int) ≤ mantissaAt h 15 := by
    refine roundHalfAway_nearest.le_round ?_
    push_cast
    linarith
  have hhigh : mantissaAt h 15 ≤ (2047 : Int) := by
    refine roundHalfAway_nearest.round_le ?_
    push_cast
    linarith
  simp [fits, hlow, hhigh]

/-- Finite numbers within the limits of the format have a payload. -/
theorem exists_encode {v : Single} (hv : v.isFinite = true) (hl : -67108864 ≤ v.toRat * 100)
    (hu : v.toRat * 100 ≤ 67076096) : ∃ bs, codec.encode v = .ok bs := by
  have hs : (nearest (v.toRat * 100)).isSome = true := by
    rw [nearest, Option.isSome_map, List.find?_isSome]
    exact ⟨15, by decide, fits_last hl hu⟩
  obtain ⟨s, hs⟩ := Option.isSome_iff_exists.mp hs
  exact ⟨bigEndian 2 s.toBits, by simp only [codec, hv, hs, if_true]⟩

/-- Rounded to 32 bits, the limits for literals are still within those of the format. -/
theorem rounded_limits :
    greatestLiteral.toRat ≤ -leastLiteral.toRat ∧
    BinaryFormat.single.nearest (-leastLiteral.toRat) < BinaryFormat.single.infinity ∧
    BinaryFormat.single.valueOf (BinaryFormat.single.nearest (-leastLiteral.toRat)) * 100 ≤
      67108864 ∧
    BinaryFormat.single.valueOf (BinaryFormat.single.nearest greatestLiteral.toRat) * 100 ≤
      67076096 := by
  decide +kernel

/-- **Every number that is taken as a measured value has a payload.** The limits for literals see to
that: rounded to 32 bits, they are still among what sixteen bits can be chosen for. -/
theorem exists_encode_of_measured {id : TypeId} {p : Scalar} {v : Single}
    (h : Layout.measured id p = .ok v) : ∃ bs, codec.encode v = .ok bs := by
  cases p with
  | float w =>
    simp only [Layout.measured] at h
    split at h
    case isFalse => cases h
    case isTrue hw =>
      obtain rfl := Except.ok.inj h
      obtain ⟨-, hl, hu⟩ := hw
      obtain ⟨hle, hfinite, hleast, hgreatest⟩ := rounded_limits
      have ha : w.absRat ≤ -leastLiteral.toRat := by
        rw [← w.abs_toRat, abs_le, neg_neg]
        exact ⟨hl, hu.trans hle⟩
      obtain ⟨hl', hu'⟩ := Binary.toRat_convert_mem (G := .single)
        ((neg_neg leastLiteral.toRat).trans_le hl) hu
      exact exists_encode (Binary.isFinite_convert ha hfinite) (by linarith) (by linarith)
  | _ => cases h

end ShortFloat

/-! ## Layouts -/

theorem Scalar.exists_of_parse_unsigned {bits : Nat} {literal subject : String} {p : Scalar}
    (h : Scalar.parse (.unsigned bits) literal subject = .ok p) :
    ∃ n, p = .unsigned n ∧ n < 2 ^ bits := by
  simp only [Scalar.parse, Scalar.parseUnsigned] at h
  split at h
  case isTrue => cases h
  case isFalse =>
    split at h
    case h_1 => cases h
    case h_2 n hn =>
      split at h
      case isTrue hlt => exact ⟨n, (Except.ok.inj h).symm, hlt⟩
      case isFalse => cases h

/-- A level has a payload if its range takes in every number that its literals can write. -/
theorem exists_encode_of_level {greatest : Nat} (hg : 255 ≤ greatest) {id : TypeId}
    {literal subject : String} {p : Scalar} {v : Word 2}
    (hp : Scalar.parse (.unsigned 8) literal subject = .ok p)
    (hv : Layout.narrowUnsigned 2 id p = .ok v) : ∃ bs, (levelCodec greatest).encode v = .ok bs := by
  obtain ⟨n, rfl, hn⟩ := Scalar.exists_of_parse_unsigned hp
  simp only [Layout.narrowUnsigned] at hv
  rw [if_pos (by omega)] at hv
  obtain rfl := Except.ok.inj hv
  have hle : (BitVec.ofNat (8 * 2) n).toNat ≤ greatest := by
    rw [BitVec.toNat_ofNat, Nat.mod_eq_of_lt (by omega)]
    omega
  exact ⟨_, if_pos hle⟩

namespace Layout

/-- Whether a layout takes literals whose values have no payload. For these, and no others, a
datapoint may hold afterwards what it cannot write. -/
def overreaches : Layout → Bool
  | scaled _ _ | characters _ | utf8 | scene => true
  | level greatest _ => greatest < 255
  | _ => false

/-- **What a literal reads as has a payload**, for all other layouts. So a literal that fails there
has changed nothing. -/
theorem exists_encode_of_read {l : Layout} (hl : l.overreaches = false) {id : TypeId}
    {literal subject : String} {p : Scalar} {v : l.Value}
    (hp : Scalar.parse l.kind literal subject = .ok p) (hv : l.ofScalar id p = .ok v) :
    ∃ bs, l.codec.encode v = .ok bs := by
  cases l with
  | state off on => exact ⟨_, rfl⟩
  | scaled greatest unit => cases hl
  | level greatest unit =>
    exact exists_encode_of_level (Nat.le_of_not_lt (of_decide_eq_false hl)) hp hv
  | signed octets unit => exact ⟨_, rfl⟩
  | hundredths octets unit => exact ⟨_, rfl⟩
  | unsigned octets unit => exact ⟨_, rfl⟩
  | shortFloat unit => exact ShortFloat.exists_encode_of_measured hv
  | single unit => exact ⟨_, rfl⟩
  | characters greatest => cases hl
  | utf8 => cases hl
  | scene => cases hl
  -- structured values have no literals
  | _ => cases hv

end Layout

/-! ## Types -/

namespace Registry

/-- The types that take literals whose values have no payload: levels beyond the range, texts that
are too long or hold a character that cannot be written, scenes beyond the last. -/
def overreaching : List TypeId :=
  [⟨5, 1⟩, ⟨5, 3⟩, ⟨5, 6⟩, ⟨16, 0⟩, ⟨16, 1⟩, ⟨17, 1⟩, ⟨28, 1⟩]

theorem overreaches_iff {t : DatapointType} (ht : t ∈ Registry.all) :
    t.layout.overreaches = true ↔ t.id ∈ overreaching := by
  revert t
  decide

end Registry

/-! ## Datapoints -/

variable {d : Datapoint} {literal : String} {e : DatapointError}

/-- Taking over a literal changes the value and not the type. -/
theorem read_eq_ok_iff {d' : Datapoint} :
    d.read literal = .ok d' ↔ ∃ p v, Scalar.parse d.type.kind literal d.id.text = .ok p ∧
      d.type.layout.ofScalar d.id p = .ok v ∧ d' = { d with value := v } := by
  unfold Datapoint.read assign
  rw [bind_eq_ok_iff]
  refine exists_congr fun p => ?_
  cases d.type.layout.ofScalar d.id p <;> simp [Except.map, eq_comm]

/-- A literal that is refused is not taken over, or its value has no payload and stays. -/
theorem packLiteral_eq_error_iff :
    (d.packLiteral literal).2 = .error e ↔
      (d.read literal = .error e ∧ (d.packLiteral literal).1 = d) ∨
      ∃ d', d.read literal = .ok d' ∧ d'.pack = .error e ∧ (d.packLiteral literal).1 = d' := by
  unfold packLiteral
  cases d.read literal <;> simp

/-- A refused literal leaves a value as it was if all that its type reads has a payload. -/
theorem packLiteral_of_error (h : d.type.layout.overreaches = false)
    (he : (d.packLiteral literal).2 = .error e) : (d.packLiteral literal).1 = d := by
  rcases packLiteral_eq_error_iff.mp he with ⟨-, hd⟩ | ⟨d', hr, hp, -⟩
  · exact hd
  · obtain ⟨p, v, hp', hv, rfl⟩ := read_eq_ok_iff.mp hr
    obtain ⟨bs, hbs⟩ := Layout.exists_encode_of_read h hp' hv
    rw [pack_eq_encode, DatapointType.encode_eq_ok_iff.mpr hbs] at hp
    cases hp

/-- A literal whose value has no payload, for a layout that takes one. It shows that the layouts are
told apart exactly. -/
def beyond : Layout → String
  | .scaled greatest _ | .level greatest _ => String.ofList (Number.decimal (greatest + 1))
  | .characters _ => "fifteen letters"
  | .utf8 => "a\x00b"
  | .scene => "64"
  | _ => ""

/-- Such a literal is refused, and a new datapoint shows another value afterwards. -/
theorem packLiteral_beyond : ∀ t ∈ Registry.all, t.id ∈ Registry.overreaching →
    ((Datapoint.new t).packLiteral (beyond t.layout)).2.isOk = false ∧
    ((Datapoint.new t).packLiteral (beyond t.layout)).1.text ≠ (Datapoint.new t).text := by
  decide +kernel

/-- **Which types keep their values.** A literal that is refused, for whatever reason, leaves every
value of a registered type as it was exactly if the type is none of those that take literals whose
values have no payload. -/
theorem packLiteral_keeps_iff {t : DatapointType} (ht : t ∈ Registry.all) :
    (∀ v literal e, ((⟨t, v⟩ : Datapoint).packLiteral literal).2 = .error e →
      ((⟨t, v⟩ : Datapoint).packLiteral literal).1 = ⟨t, v⟩) ↔
      t.id ∉ Registry.overreaching := by
  constructor
  · intro h hid
    obtain ⟨he, hne⟩ := packLiteral_beyond t ht hid
    cases hr : ((Datapoint.new t).packLiteral (beyond t.layout)).2 with
    | ok bs =>
      rw [hr] at he
      cases he
    | error e => exact hne (congrArg Datapoint.text (h _ _ e hr))
  · intro hid v literal e he
    have hl : t.layout.overreaches = false :=
      Bool.eq_false_iff.mpr (mt (Registry.overreaches_iff ht).mp hid)
    exact packLiteral_of_error hl he

/-- A temperature is none of these types: a value of 21.5 stays when a literal beyond the limits is
refused. -/
theorem packLiteral_keeps_temperature :
    (⟨⟨9, 1⟩, .shortFloat "°C"⟩ : DatapointType) ∈ Registry.all ∧
    ((⟨⟨⟨9, 1⟩, .shortFloat "°C"⟩, .ofRat _ (43 / 2)⟩ : Datapoint).packLiteral "700000").2 =
      .error (.payload .outOfRange ⟨9, 1⟩) ∧
    ((⟨⟨⟨9, 1⟩, .shortFloat "°C"⟩, .ofRat _ (43 / 2)⟩ : Datapoint).packLiteral "700000").1 =
      ⟨⟨⟨9, 1⟩, .shortFloat "°C"⟩, .ofRat _ (43 / 2)⟩ := by
  have ht : (⟨⟨9, 1⟩, .shortFloat "°C"⟩ : DatapointType) ∈ Registry.all := by decide
  have he : ((⟨⟨⟨9, 1⟩, .shortFloat "°C"⟩, .ofRat _ (43 / 2)⟩ : Datapoint).packLiteral
      "700000").2 = .error (.payload .outOfRange ⟨9, 1⟩) := by
    decide +kernel
  exact ⟨ht, he, (packLiteral_keeps_iff ht).mpr (by decide) _ _ _ he⟩

/-- A scene number is one of these types: the scene after the last is refused, and the value 5 does
not stay. -/
theorem packLiteral_scene :
    (⟨⟨17, 1⟩, .scene⟩ : DatapointType) ∈ Registry.all ∧
    ((⟨⟨⟨17, 1⟩, .scene⟩, 5⟩ : Datapoint).packLiteral "64").2 =
      .error (.payload .outOfRange ⟨17, 1⟩) ∧
    ((⟨⟨⟨17, 1⟩, .scene⟩, 5⟩ : Datapoint).packLiteral "64").1 ≠ ⟨⟨⟨17, 1⟩, .scene⟩, 5⟩ := by
  refine ⟨by decide, by decide +kernel, fun h => ?_⟩
  have htext := congrArg Datapoint.text h
  revert htext
  decide +kernel

end BuildingBus.Datapoint
