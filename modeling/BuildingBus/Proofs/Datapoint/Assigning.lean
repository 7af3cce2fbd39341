import BuildingBus.Proofs.Datapoint.Integers

/-!
# From what a literal reads as to a value

The kind of a type fixes what its literals read as, and a value is made of that afterwards. The kinds
suit the values: what a literal reads as is never of another sort than the values, nor too great for
them, and a finite number of 64 bits within the greatest one of 32 bits stays finite when it is
rounded. Measured values alone have limits of their own (`Layout.ofScalar_of_parse`).

A value has a payload unless it is beyond a range that only the payload has: a level beyond the
greatest one, a scene beyond the last one, a text that is too long or has a character that the payload
cannot hold (`HasNoPayload`). `assign_of_parse` puts both together.
-/

namespace BuildingBus.Datapoint

open Number Text

/-! ## Scalars of a kind -/

namespace Scalar

variable {literal subject : String} {bits : Nat} {p : Scalar}

theorem exists_of_parse_bool (h : parse .bool literal subject = .ok p) : ∃ b, p = .bool b := by
  simp only [parse, parseBool] at h
  split_ifs at h
  · exact ⟨true, (Except.ok.inj h).symm⟩
  · exact ⟨false, (Except.ok.inj h).symm⟩

theorem exists_of_parse_signed (h : parse (.signed bits) literal subject = .ok p) :
    ∃ n, p = .signed n ∧ FitsBits true bits n := by
  have hwhole : parse (.whole true bits) literal subject = .ok p := h
  obtain ⟨n, -, hn, rfl⟩ := writes_of_parse_whole hwhole
  exact ⟨n, rfl, hn⟩

/-- A number is finite, and within the greatest one of 32 bits if the width is that. It is what a
decimal fraction is rounded to. -/
theorem exists_of_parse_float (h : parse (.float bits) literal subject = .ok p) :
    ∃ x, p = .float x ∧ x.isFinite = true ∧ (bits = 32 → x.absRat ≤ greatestSingle.absRat) ∧
      ∃ d, readDecimal (trim literal.toList) = some d ∧ d.toDouble = x := by
  simp only [parse, parseFloat] at h
  split at h
  case isTrue => cases h
  case isFalse =>
    split at h
    case h_1 => cases h
    case h_2 x hd =>
      split_ifs at h with hx hlt
      refine ⟨x, (Except.ok.inj h).symm, (Bool.not_eq_false _).mp hx, fun hb => ?_,
        Option.map_eq_some_iff.mp hd⟩
      exact le_of_not_gt fun hgt => hlt ⟨hb, hgt⟩

theorem exists_of_parse_text (h : parse .text literal subject = .ok p) : ∃ s, p = .text s := by
  simp only [parse] at h
  split at h
  case isTrue => cases h
  case isFalse => exact ⟨_, (Except.ok.inj h).symm⟩

/-- A number beyond the limits for the literals of measured values, which are the numbers of 64 bits
nearest to -671088.64 and 670760.96. -/
def IsBeyond : Scalar → Prop
  | float x => x.toRat < ShortFloat.leastLiteral.toRat ∨ ShortFloat.greatestLiteral.toRat < x.toRat
  | _ => False

end Scalar

/-! ## Values -/

namespace Layout

variable {id : TypeId} {literal subject : String} {l : Layout} {octets : Nat} {p : Scalar}

/-- A finite number is taken as a measured value unless it is beyond the limits. -/
theorem measured_of_isFinite {x : Double} (hx : x.isFinite = true) (id : TypeId) :
    (Scalar.IsBeyond (.float x) → measured id (.float x) = .error (.payload .outOfRange id)) ∧
    (¬Scalar.IsBeyond (.float x) → measured id (.float x) = .ok (x.convert _)) := by
  have hcheck : (x.isFinite = true ∧ ShortFloat.leastLiteral.toRat ≤ x.toRat ∧
      x.toRat ≤ ShortFloat.greatestLiteral.toRat) ↔ ¬Scalar.IsBeyond (.float x) := by
    rw [Scalar.IsBeyond, not_or, not_lt, not_lt, and_iff_right hx]
  constructor
  · intro h
    exact if_neg fun hc => hcheck.mp hc h
  · intro h
    exact if_pos (hcheck.mpr h)

/-- The greatest finite number of 32 bits is one of 64 bits. -/
theorem nearest_greatestSingle :
    BinaryFormat.single.nearest Scalar.greatestSingle.absRat < BinaryFormat.single.infinity := by
  decide +kernel

/-- A finite number within the greatest one of 32 bits stays finite with 32 bits. -/
theorem finiteSingle_of_le {x : Double} (hx : x.isFinite = true)
    (hle : x.absRat ≤ Scalar.greatestSingle.absRat) :
    finiteSingle id (.float x) = .ok (x.convert _) :=
  if_pos ⟨hx, Binary.isFinite_convert hle nearest_greatestSingle⟩

/-- Whether the values of a layout are measured values. -/
def isMeasured : Layout → Bool
  | shortFloat _ => true
  | _ => false

/-- **The kind of a layout suits its values**: what a literal reads as is taken over, unless it is a
measured value and beyond the limits. -/
theorem ofScalar_of_parse (h : Scalar.parse l.kind literal subject = .ok p) (id : TypeId) :
    (l.isMeasured = true ∧ p.IsBeyond → l.ofScalar id p = .error (.payload .outOfRange id)) ∧
    (¬(l.isMeasured = true ∧ p.IsBeyond) → ∃ v, l.ofScalar id p = .ok v) := by
  cases l with
  | state off on =>
    obtain ⟨b, rfl⟩ := Scalar.exists_of_parse_bool h
    exact ⟨nofun, fun _ => ⟨b, rfl⟩⟩
  | scaled greatest unit =>
    obtain ⟨n, rfl, hn⟩ := Scalar.exists_of_parse_unsigned h
    exact ⟨nofun, fun _ => ⟨_, if_pos hn⟩⟩
  | level greatest unit =>
    obtain ⟨n, rfl, hn⟩ := Scalar.exists_of_parse_unsigned h
    exact ⟨nofun, fun _ => ⟨_, if_pos (hn.trans (by decide))⟩⟩
  | scene | unsigned =>
    obtain ⟨n, rfl, hn⟩ := Scalar.exists_of_parse_unsigned h
    exact ⟨nofun, fun _ => ⟨_, if_pos hn⟩⟩
  | signed | hundredths =>
    obtain ⟨n, rfl, hn⟩ := Scalar.exists_of_parse_signed h
    exact ⟨nofun, fun _ => ⟨_, narrowSigned_whole hn⟩⟩
  | shortFloat unit =>
    obtain ⟨x, rfl, hx, -⟩ := Scalar.exists_of_parse_float h
    obtain ⟨hbeyond, hwithin⟩ := measured_of_isFinite hx id
    exact ⟨fun hb => hbeyond hb.2, fun hb => ⟨_, hwithin fun hp => hb ⟨rfl, hp⟩⟩⟩
  | single unit =>
    obtain ⟨x, rfl, hx, hle, -⟩ := Scalar.exists_of_parse_float h
    exact ⟨nofun, fun _ => ⟨_, finiteSingle_of_le hx (hle rfl)⟩⟩
  | characters | utf8 =>
    obtain ⟨s, rfl⟩ := Scalar.exists_of_parse_text h
    exact ⟨nofun, fun _ => ⟨s, rfl⟩⟩
  | controlled | step | time | date | sceneControl | rgb | xyY | rgbw =>
    exact absurd h (Scalar.parse_composite_ne _ _ p)

end Layout

/-! ## Payloads -/

/-- The greatest level of a type of the family 5. -/
def TypeId.greatestLevel (id : TypeId) : Nat :=
  if id.sub = 1 then 100 else if id.sub = 3 then 360 else if id.sub = 6 then 254 else 255

/-- The greatest character of a type of the family 16. -/
def TypeId.greatestCharacter (id : TypeId) : Nat := if id.sub = 0 then 0x7F else 0xFF

/-- What a type takes over and has no payload for, with the fault. That a value is taken over says
nothing about its payload: levels have more octets than they are written in, and texts may be too
long. -/
inductive HasNoPayload (id : TypeId) : Scalar → PayloadFault → Prop
  /-- a level beyond the greatest one -/
  | level {n : Nat} (family : id.main = 5) (beyond : id.greatestLevel < n) :
    HasNoPayload id (.unsigned n) .outOfRange
  /-- a scene beyond the last one -/
  | scene {n : Nat} (type : id = ⟨17, 1⟩) (beyond : 63 < n) :
    HasNoPayload id (.unsigned n) .outOfRange
  /-- a short string with more than fourteen characters -/
  | long {s : String} (family : id.main = 16) (beyond : 14 < s.toList.length) :
    HasNoPayload id (.text s) .outOfRange
  /-- a short string with a character that one octet cannot hold, or the one that fills it up -/
  | character {s : String} {c : Char} (family : id.main = 16) (mem : c ∈ s.toList)
    (beyond : c.toNat = 0 ∨ id.greatestCharacter < c.toNat) : HasNoPayload id (.text s) .outOfRange
  /-- a string with the character that ends it -/
  | zero {s : String} (type : id = ⟨28, 1⟩) (mem : Char.ofNat 0 ∈ s.toList) :
    HasNoPayload id (.text s) .invalidData

section

variable {id : TypeId} {p : Scalar} {fault : PayloadFault}

theorem hasNoPayload_unsigned_iff {n : Nat} : HasNoPayload id (.unsigned n) fault ↔
    fault = .outOfRange ∧
      (id.main = 5 ∧ id.greatestLevel < n ∨ id = ⟨17, 1⟩ ∧ 63 < n) := by
  constructor
  · rintro (⟨hm, hn⟩ | ⟨hid, hn⟩)
    · exact ⟨rfl, .inl ⟨hm, hn⟩⟩
    · exact ⟨rfl, .inr ⟨hid, hn⟩⟩
  · rintro ⟨rfl, ⟨hm, hn⟩ | ⟨hid, hn⟩⟩
    · exact .level hm hn
    · exact .scene hid hn

theorem hasNoPayload_text_iff {s : String} : HasNoPayload id (.text s) fault ↔
    (fault = .outOfRange ∧ id.main = 16 ∧ (14 < s.toList.length ∨
      ∃ c ∈ s.toList, c.toNat = 0 ∨ id.greatestCharacter < c.toNat)) ∨
    (fault = .invalidData ∧ id = ⟨28, 1⟩ ∧ Char.ofNat 0 ∈ s.toList) := by
  constructor
  · rintro (_ | _ | ⟨hm, hl⟩ | ⟨hm, hc, hb⟩ | ⟨hid, hc⟩)
    · exact .inl ⟨rfl, hm, .inl hl⟩
    · exact .inl ⟨rfl, hm, .inr ⟨_, hc, hb⟩⟩
    · exact .inr ⟨rfl, hid, hc⟩
  · rintro (⟨rfl, hm, hl | ⟨c, hc, hb⟩⟩ | ⟨rfl, hid, hc⟩)
    · exact .long hm hl
    · exact .character hm hc hb
    · exact .zero hid hc

/-- Only levels, scenes and strings may have no payload. -/
theorem HasNoPayload.main_mem (h : HasNoPayload id p fault) : id.main ∈ [5, 16, 17, 28] := by
  cases h with
  | level hm | long hm | character hm => simp [hm]
  | scene hid | zero hid => simp [hid]

end

/-- Whether a layout is the one of a type, as far as some of its values may have no payload. The
other layouts write all values that literals are taken over as. -/
def TypeId.limits (id : TypeId) : Layout → Bool
  | .scaled greatest _ | .level greatest _ => id.main = 5 && greatest = id.greatestLevel
  | .characters greatest => id.main = 16 && greatest = id.greatestCharacter
  | .scene => id = ⟨17, 1⟩
  | .utf8 => id = ⟨28, 1⟩
  | _ => id.main ∉ [5, 16, 17, 28]

namespace Layout

variable {id : TypeId} {literal subject : String} {l : Layout} {p : Scalar} {fault : PayloadFault}

/-- A number that is taken over as it is. -/
theorem toNat_of_narrowUnsigned {octets n : Nat} {v : Word octets}
    (h : narrowUnsigned octets id (.unsigned n) = .ok v) : v.toNat = n := by
  simp only [narrowUnsigned] at h
  split at h
  case isTrue hn =>
    obtain rfl := Except.ok.inj h
    rw [BitVec.toNat_ofNat, Nat.mod_eq_of_lt hn]
  case isFalse => cases h

/-- **Which values have no payload**, of those that literals are taken over as. They are told from
the literal and the type alone. -/
theorem encode_eq_error_iff_hasNoPayload {v : l.Value} (hl : id.limits l = true)
    (h : Scalar.parse l.kind literal subject = .ok p) (hv : l.ofScalar id p = .ok v) :
    l.codec.encode v = .error fault ↔ HasNoPayload id p fault := by
  cases l with
  | scaled greatest unit | level greatest unit =>
    obtain ⟨n, rfl, -⟩ := Scalar.exists_of_parse_unsigned h
    obtain ⟨hm, rfl⟩ := (Bool.and_eq_true_iff.mp hl).imp of_decide_eq_true of_decide_eq_true
    have hscene : id ≠ ⟨17, 1⟩ := fun hid => by simp [hid] at hm
    rw [hasNoPayload_unsigned_iff, or_iff_left fun hs => hscene hs.1, and_iff_right hm]
    simp only [codec, scaledCodec, levelCodec, toNat_of_narrowUnsigned hv]
    rw [guard_eq_error_iff, Nat.not_le]
  | scene =>
    obtain ⟨n, rfl, -⟩ := Scalar.exists_of_parse_unsigned h
    obtain rfl := of_decide_eq_true hl
    rw [hasNoPayload_unsigned_iff, or_iff_right fun hm => absurd hm.1 (by decide),
      and_iff_right rfl]
    simp only [codec, sceneCodec, toNat_of_narrowUnsigned hv]
    rw [guard_eq_error_iff, Nat.not_le, lastScene]
  | characters greatest =>
    obtain ⟨s, rfl⟩ := Scalar.exists_of_parse_text h
    obtain ⟨hm, rfl⟩ := (Bool.and_eq_true_iff.mp hl).imp of_decide_eq_true of_decide_eq_true
    obtain rfl := Except.ok.inj hv
    have hlong : id ≠ ⟨28, 1⟩ := fun hid => by simp [hid] at hm
    rw [hasNoPayload_text_iff, or_iff_left fun hs => hlong hs.2.1, and_iff_right hm]
    exact characterCodec_encode_eq_error_iff
  | utf8 =>
    obtain ⟨s, rfl⟩ := Scalar.exists_of_parse_text h
    obtain rfl := of_decide_eq_true hl
    obtain rfl := Except.ok.inj hv
    rw [hasNoPayload_text_iff, or_iff_right fun hm => absurd hm.2.1 (by decide),
      and_iff_right rfl]
    simp only [codec, utf8Codec]
    by_cases hz : Char.ofNat 0 ∈ s.toList
    · rw [if_pos hz, Except.error.injEq, and_iff_left hz, eq_comm]
    · rw [if_neg hz]
      refine iff_of_false (fun he => ?_) fun hc => hz hc.2
      cases he
  | _ =>
    obtain ⟨bs, hbs⟩ := exists_encode_of_read rfl h hv
    rw [hbs]
    refine iff_of_false (fun he => ?_) fun hn => of_decide_eq_true hl hn.main_mem
    cases he

end Layout

/-! ## Types -/

namespace Registry

theorem limits : ∀ t ∈ Registry.all, t.id.limits t.layout = true := by decide

/-- Measured values are those of the family 9. -/
theorem isMeasured_iff : ∀ t ∈ Registry.all, t.layout.isMeasured = true ↔ t.id.main = 9 := by
  decide

end Registry

/-- **The kind of a type suits its values.** Let a literal of a registered type read as something. It
is taken over by every datapoint of the type, unless it is a measured value beyond the limits, which
is out of range. Once it is taken over it is packed, unless it is one of those that have no payload,
and then its fault is told. -/
theorem assign_of_parse {t : DatapointType} (ht : t ∈ Registry.all) (v : t.Value)
    {literal subject : String} {p : Scalar} (hp : Scalar.parse t.kind literal subject = .ok p) :
    (t.id.main = 9 ∧ p.IsBeyond →
      (⟨t, v⟩ : Datapoint).assign p = .error (.payload .outOfRange t.id)) ∧
    (¬(t.id.main = 9 ∧ p.IsBeyond) → ∃ w, (⟨t, v⟩ : Datapoint).assign p = .ok ⟨t, w⟩) ∧
    ∀ d, (⟨t, v⟩ : Datapoint).assign p = .ok d →
      (∀ fault, d.pack = .error (.payload fault t.id) ↔ HasNoPayload t.id p fault) ∧
      ((∀ fault, ¬HasNoPayload t.id p fault) → ∃ bs, d.pack = .ok bs) := by
  obtain ⟨hbeyond, hwithin⟩ := Layout.ofScalar_of_parse hp t.id
  rw [Registry.isMeasured_iff t ht] at hbeyond hwithin
  refine ⟨fun hb => map_eq_error_iff.mpr (hbeyond hb), fun hb => ?_, fun d hd => ?_⟩
  · obtain ⟨w, hw⟩ := hwithin hb
    exact ⟨w, map_eq_ok_iff.mpr ⟨w, hw, rfl⟩⟩
  · obtain ⟨w, hw, rfl⟩ := map_eq_ok_iff.mp hd
    have hiff (fault : PayloadFault) : t.layout.codec.encode w = .error fault ↔
        HasNoPayload t.id p fault :=
      Layout.encode_eq_error_iff_hasNoPayload (Registry.limits t ht) hp hw
    rw [pack_eq_encode]
    change (∀ fault, t.encode w = _ ↔ _) ∧ (_ → ∃ bs, t.encode w = .ok bs)
    unfold DatapointType.encode
    cases he : t.layout.codec.encode w with
    | error fault =>
      refine ⟨fun fault' => ?_, fun hn => absurd ((hiff fault).mp he) (hn fault)⟩
      rw [← hiff, he]
      simp [Except.mapError]
    | ok bs =>
      refine ⟨fun fault => ?_, fun _ => ⟨bs, rfl⟩⟩
      rw [← hiff, he]
      simp [Except.mapError]

/-- The level 255 is taken over by a datapoint of a type that ends at 254, and has no payload. A
temperature beyond the limits is not taken over. -/
theorem assign_tariff :
    (⟨⟨5, 6⟩, .level 254 ""⟩ : DatapointType) ∈ Registry.all ∧
    (∃ d, (⟨⟨⟨5, 6⟩, .level 254 ""⟩, 7⟩ : Datapoint).assign (.unsigned 255) = .ok d ∧
      d.pack = .error (.payload .outOfRange ⟨5, 6⟩)) ∧
    ∃ x, Scalar.parse (.float 16) "700000" "9.001" = .ok (.float x) ∧
      (⟨⟨⟨9, 1⟩, .shortFloat "°C"⟩, .ofRat _ 21⟩ : Datapoint).assign (.float x) =
        .error (.payload .outOfRange ⟨9, 1⟩) := by
  have ht : (⟨⟨5, 6⟩, .level 254 ""⟩ : DatapointType) ∈ Registry.all := by decide
  have hp : Scalar.parse (.unsigned 8) "255" "5.006" = .ok (.unsigned 255) := by decide +kernel
  have ht' : (⟨⟨9, 1⟩, .shortFloat "°C"⟩ : DatapointType) ∈ Registry.all := by decide
  have hp' : Scalar.parse (.float 16) "700000" "9.001" = .ok (.float (.ofRat _ 700000)) := by
    decide +kernel
  refine ⟨ht, ?_, _, hp', ?_⟩
  · obtain ⟨-, hassign, hpack⟩ := assign_of_parse ht 7 hp
    obtain ⟨w, hw⟩ := hassign fun h => absurd h.1 (by decide)
    exact ⟨_, hw, ((hpack _ hw).1 _).mpr (.level rfl (by decide))⟩
  · obtain ⟨hassign, -⟩ := assign_of_parse ht' (.ofRat _ 21) hp'
    exact hassign ⟨rfl, .inr (by decide +kernel)⟩

end BuildingBus.Datapoint
