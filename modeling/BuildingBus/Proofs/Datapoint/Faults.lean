import BuildingBus.Proofs.Datapoint.Literals
import BuildingBus.Proofs.Datapoint.ShortFloat.Exponents

/-!
# The faults of payloads and literals

Octets are refused as a payload, and values for having none, for the faults that their layout knows:
`Layout.decodeFaults` and `Layout.encodeFaults` list them. The length of octets is checked by every
layout, reserved bits by those that have some, and what is out of range or no text is told apart from
both (`Layout.decode_fault_mem`). A value is never refused for a length or for reserved bits
(`Layout.encode_fault_mem`).

A literal is refused as a text, for what its value is, or because its type has no literals. The last
happens to every literal of such a type that is not blank, and to no other
(`packLiteral_eq_unsupportedKind_iff`).
-/

namespace BuildingBus.Datapoint

open Number Text

/-! ## Payloads -/

section

variable {α : Type} {c : Codec α} {faults : List PayloadFault} {fault : PayloadFault} {bs : Octets}

/-- The faults of a codec with one length are that of the length and those of octets with it. -/
theorem Codec.Takes.fault_mem {k : Nat} (hc : c.Takes k) (hl : .wrongLength ∈ faults)
    (hk : bs.length = k → c.decode bs = .error fault → fault ∈ faults)
    (h : c.decode bs = .error fault) : fault ∈ faults := by
  by_cases hb : bs.length = k
  · exact hk hb h
  · rw [hc.decode_of_ne bs hb] at h
    exact Except.error.inj h ▸ hl

/-- The faults of a codec for one octet. -/
theorem Codec.Takes.fault_mem_of_one (hc : c.Takes 1) (hl : .wrongLength ∈ faults)
    (hk : ∀ b, c.decode [b] = .error fault → fault ∈ faults) (h : c.decode bs = .error fault) :
    fault ∈ faults := by
  refine hc.fault_mem hl (fun hb h => ?_) h
  obtain ⟨b, rfl⟩ := List.length_eq_one_iff.mp hb
  exact hk b h

end

/-- Octets of a text are refused for being no characters of it. -/
theorem eq_of_characterText {greatest : Nat} {bs : Octets} {fault : PayloadFault}
    (h : characterText greatest bs = .error fault) : fault = .invalidData := by
  induction bs with
  | nil => cases h
  | cons b bs ih =>
    rw [characterText] at h
    split_ifs at h
    · exact ih (map_eq_error_iff.mp h)
    · exact (Except.error.inj h).symm

/-- Characters are refused for being out of range. -/
theorem eq_of_characterOctets {greatest : Nat} {s : List Char} {fault : PayloadFault}
    (h : characterOctets greatest s = .error fault) : fault = .outOfRange := by
  induction s with
  | nil => cases h
  | cons c s ih =>
    rw [characterOctets] at h
    split_ifs at h
    · exact ih (map_eq_error_iff.mp h)
    · exact (Except.error.inj h).symm

namespace Layout

/-- The faults that octets can have as a payload of a layout. Every layout refuses some for their
length, and some layouts have bits or values that are reserved. -/
def decodeFaults : Layout → List PayloadFault
  | state _ _ | controlled | step _ _ | scene | sceneControl | xyY | rgbw =>
    [.wrongLength, .reservedBits]
  | scaled _ _ | signed _ _ | hundredths _ _ | unsigned _ _ | shortFloat _ | single _ | rgb =>
    [.wrongLength]
  | level _ _ => [.wrongLength, .outOfRange]
  | time | date => [.wrongLength, .reservedBits, .outOfRange]
  | characters _ | utf8 => [.wrongLength, .invalidData]

/-- The faults that values of a layout can have. A layout whose values all have a payload has none.
-/
def encodeFaults : Layout → List PayloadFault
  | scaled _ _ | level _ _ | shortFloat _ | time | date | characters _ | scene | sceneControl =>
    [.outOfRange]
  | utf8 => [.invalidData]
  | state _ _ | controlled | step _ _ | signed _ _ | hundredths _ _ | unsigned _ _ | single _
  | rgb | xyY | rgbw => []

variable {l : Layout} {fault : PayloadFault}

/-- Octets are refused for the faults of their layout, and for no other, by cases on the layout. -/
theorem decode_fault_mem {bs : Octets} (h : l.codec.decode bs = .error fault) :
    fault ∈ l.decodeFaults := by
  cases l with
  | state off on =>
    refine stateCodec_takes.fault_mem_of_one (.head _) (fun b hb => ?_) h
    exact eq_of_check hb ▸ .tail _ (.head _)
  | controlled =>
    refine ControlledState.codec_takes.fault_mem_of_one (.head _) (fun b hb => ?_) h
    exact eq_of_check hb ▸ .tail _ (.head _)
  | step off on =>
    refine StepCommand.codec_takes.fault_mem_of_one (.head _) (fun b hb => ?_) h
    exact eq_of_check hb ▸ .tail _ (.head _)
  | scaled greatest unit =>
    refine (scaledCodec_takes greatest).fault_mem_of_one (.head _) (fun b hb => ?_) h
    cases hb
  | level greatest unit =>
    refine (levelCodec_takes greatest).fault_mem_of_one (.head _) (fun b hb => ?_) h
    exact eq_of_check hb ▸ .tail _ (.head _)
  | signed octets unit | hundredths octets unit | unsigned octets unit | single unit
  | shortFloat unit => exact eq_of_check h ▸ .head _
  | time =>
    refine TimeOfDay.codec_takes.fault_mem (.head _) (fun hl hb => ?_) h
    obtain ⟨dayHour, minute, second, rfl⟩ := List.length_eq_three.mp hl
    simp only [TimeOfDay.codec] at hb
    split at hb
    case isTrue => exact Except.error.inj hb ▸ .tail _ (.head _)
    case isFalse => exact eq_of_check hb ▸ .tail _ (.tail _ (.head _))
  | date =>
    refine Date.codec_takes.fault_mem (.head _) (fun hl hb => ?_) h
    obtain ⟨day, month, year, rfl⟩ := List.length_eq_three.mp hl
    simp only [Date.codec] at hb
    split at hb
    case isTrue => exact Except.error.inj hb ▸ .tail _ (.head _)
    case isFalse =>
      split at hb
      case isTrue => exact Except.error.inj hb ▸ .tail _ (.tail _ (.head _))
      case isFalse => exact eq_of_check hb ▸ .tail _ (.tail _ (.head _))
  | characters greatest =>
    simp only [codec, characterCodec] at h
    split at h
    case isTrue => exact eq_of_characterText (map_eq_error_iff.mp h) ▸ .tail _ (.head _)
    case isFalse => exact Except.error.inj h ▸ .head _
  | utf8 =>
    simp only [codec, utf8Codec] at h
    split at h
    case h_1 =>
      split at h
      case isTrue => exact Except.error.inj h ▸ .tail _ (.head _)
      case isFalse =>
        split at h
        case h_1 => cases h
        case h_2 => exact Except.error.inj h ▸ .tail _ (.head _)
    case h_2 => exact Except.error.inj h ▸ .head _
  | scene =>
    refine sceneCodec_takes.fault_mem_of_one (.head _) (fun b hb => ?_) h
    exact eq_of_check hb ▸ .tail _ (.head _)
  | sceneControl =>
    refine SceneControl.codec_takes.fault_mem_of_one (.head _) (fun b hb => ?_) h
    simp only [SceneControl.codec] at hb
    split at hb
    case isTrue => exact Except.error.inj hb ▸ .tail _ (.head _)
    case isFalse => cases hb
  | rgb =>
    refine Rgb.codec_takes.fault_mem (.head _) (fun hl hb => ?_) h
    obtain ⟨red, green, blue, rfl⟩ := List.length_eq_three.mp hl
    cases hb
  | xyY =>
    refine XyY.codec_takes.fault_mem (.head _) (fun hl hb => ?_) h
    obtain ⟨_, _, _, _, _, _, rfl⟩ := length_eq_six hl
    exact eq_of_check hb ▸ .tail _ (.head _)
  | rgbw =>
    refine Rgbw.codec_takes.fault_mem (.head _) (fun hl hb => ?_) h
    obtain ⟨_, _, _, _, _, _, rfl⟩ := length_eq_six hl
    exact eq_of_check hb ▸ .tail _ (.head _)

/-- Values are refused for the faults of their layout, and for no other, by cases on the layout. -/
theorem encode_fault_mem {v : l.Value} (h : l.codec.encode v = .error fault) :
    fault ∈ l.encodeFaults := by
  cases l with
  | state | controlled | step | signed | hundredths | unsigned | single | rgb | xyY | rgbw => cases h
  | scaled | level | time | date | scene | sceneControl => exact eq_of_check h ▸ .head _
  | shortFloat unit => exact (ShortFloat.encode_eq_error_iff.mp h).1 ▸ .head _
  | characters greatest =>
    simp only [codec, characterCodec] at h
    split at h
    case isTrue => exact eq_of_characterOctets (map_eq_error_iff.mp h) ▸ .head _
    case isFalse => exact Except.error.inj h ▸ .head _
  | utf8 =>
    simp only [codec, utf8Codec] at h
    split at h
    case isTrue => exact Except.error.inj h ▸ .head _
    case isFalse => cases h

/-- A value is refused for being out of range or for being no text. -/
theorem eq_or_eq_of_mem_encodeFaults (h : fault ∈ l.encodeFaults) :
    fault = .outOfRange ∨ fault = .invalidData := by
  cases l <;> simp_all [encodeFaults]

end Layout

/-! ## Literals -/

section

variable {kind : Kind} {literal subject : String} {s : List Char} {e : DatapointError}

/-- Whether a literal, or the kind of one, is refused as a text, before any type has looked at what
it reads as. -/
def DatapointError.isLiteralError : DatapointError → Bool
  | malformedLiteral _ | literalOverflow _ => true
  | _ => false

theorem isLiteralError_wholeError (literal : String) (fault : WholeFault) :
    (Scalar.wholeError literal fault).isLiteralError = true := by
  cases fault <;> rfl

theorem isLiteralError_of_parseBool (h : Scalar.parseBool literal s = .error e) :
    e.isLiteralError = true := by
  unfold Scalar.parseBool at h
  split_ifs at h
  exact Except.error.inj h ▸ rfl

theorem isLiteralError_of_parseSigned {bits : Nat}
    (h : Scalar.parseSigned bits literal s = .error e) : e.isLiteralError = true := by
  unfold Scalar.parseSigned at h
  split at h
  case h_1 fault _ => exact Except.error.inj h ▸ isLiteralError_wholeError literal fault
  case h_2 => exact eq_of_check h ▸ rfl

theorem isLiteralError_of_parseUnsigned {bits : Nat}
    (h : Scalar.parseUnsigned bits literal s = .error e) : e.isLiteralError = true := by
  unfold Scalar.parseUnsigned at h
  split at h
  case h_1 fault _ => exact Except.error.inj h ▸ isLiteralError_wholeError literal fault
  case h_2 => exact eq_of_check h ▸ rfl

theorem isLiteralError_of_parseFloat {bits : Nat}
    (h : Scalar.parseFloat bits literal s = .error e) : e.isLiteralError = true := by
  unfold Scalar.parseFloat at h
  split at h
  case h_1 => exact Except.error.inj h ▸ rfl
  case h_2 =>
    split_ifs at h
    · exact Except.error.inj h ▸ rfl
    · exact Except.error.inj h ▸ rfl

/-- A literal is refused as a text, or because its kind has none; the latter is told only of literals
that are not blank. -/
theorem Scalar.parse_error (h : Scalar.parse kind literal subject = .error e) :
    e.isLiteralError = true ∨
      kind = .composite ∧ trim literal.toList ≠ [] ∧ e = .unsupportedKind subject := by
  simp only [Scalar.parse] at h
  split at h
  case isTrue => exact .inl (Except.error.inj h ▸ rfl)
  case isFalse hblank =>
    cases kind with
    | bool => exact .inl (isLiteralError_of_parseBool h)
    | signed bits => exact .inl (isLiteralError_of_parseSigned h)
    | unsigned bits => exact .inl (isLiteralError_of_parseUnsigned h)
    | float bits => exact .inl (isLiteralError_of_parseFloat h)
    | text => cases h
    | composite => exact .inr ⟨rfl, hblank, (Except.error.inj h).symm⟩

/-- A literal that is not blank is refused for a kind that has none. -/
theorem Scalar.parse_composite (h : trim literal.toList ≠ []) :
    Scalar.parse .composite literal subject = .error (.unsupportedKind subject) :=
  if_neg h

/-- A kind that has no literals has no scalar. -/
theorem Scalar.parse_composite_ne (literal subject : String) (p : Scalar) :
    Scalar.parse .composite literal subject ≠ .ok p := by
  intro h
  simp only [Scalar.parse] at h
  split at h
  case isTrue => cases h
  case isFalse => cases h

end

section

variable {id : TypeId} {p : Scalar} {e : DatapointError}

theorem isLiteralError_of_narrowUnsigned {octets : Nat}
    (h : Layout.narrowUnsigned octets id p = .error e) : e.isLiteralError = true := by
  unfold Layout.narrowUnsigned at h
  split at h
  case h_1 => exact eq_of_check h ▸ rfl
  case h_2 => exact Except.error.inj h ▸ rfl

theorem isLiteralError_of_narrowSigned {octets : Nat}
    (h : Layout.narrowSigned octets id p = .error e) : e.isLiteralError = true := by
  unfold Layout.narrowSigned at h
  split at h
  case h_1 => exact eq_of_check h ▸ rfl
  case h_2 => exact Except.error.inj h ▸ rfl

theorem measured_error (h : Layout.measured id p = .error e) :
    e.isLiteralError = true ∨ e = .payload .outOfRange id := by
  unfold Layout.measured at h
  split at h
  case h_1 => exact .inr (eq_of_check h)
  case h_2 => exact .inl (Except.error.inj h ▸ rfl)

theorem finiteSingle_error (h : Layout.finiteSingle id p = .error e) :
    e.isLiteralError = true ∨ e = .payload .outOfRange id := by
  unfold Layout.finiteSingle at h
  split at h
  case h_1 => exact .inr (eq_of_check h)
  case h_2 => exact .inl (Except.error.inj h ▸ rfl)

/-- A scalar is refused as a literal, for being out of range, or because the layout has no
literals. -/
theorem Layout.ofScalar_error {l : Layout} (h : l.ofScalar id p = .error e) :
    e.isLiteralError = true ∨ e = .payload .outOfRange id ∨ l.kind = .composite := by
  cases l with
  | state off on =>
    simp only [ofScalar] at h
    split at h
    case h_1 => cases h
    case h_2 => exact .inl (Except.error.inj h ▸ rfl)
  | scaled | level | scene | unsigned => exact .inl (isLiteralError_of_narrowUnsigned h)
  | signed | hundredths => exact .inl (isLiteralError_of_narrowSigned h)
  | shortFloat unit => exact (measured_error h).imp_right .inl
  | single unit => exact (finiteSingle_error h).imp_right .inl
  | characters | utf8 =>
    simp only [ofScalar] at h
    split at h
    case h_1 => cases h
    case h_2 => exact .inl (Except.error.inj h ▸ rfl)
  | controlled | step | time | date | sceneControl | rgb | xyY | rgbw => exact .inr (.inr rfl)

end

/-! ## Datapoints -/

variable {d : Datapoint} {e : DatapointError} {literal : String} {bs : Octets}

/-- A payload is refused for a fault of its layout. -/
theorem unpack_error (h : d.unpack bs = .error e) :
    ∃ fault ∈ d.type.layout.decodeFaults, e = .payload fault d.id := by
  obtain ⟨fault, hd, rfl⟩ := mapError_eq_error_iff.mp (map_eq_error_iff.mp h)
  exact ⟨fault, Layout.decode_fault_mem hd, rfl⟩

/-- A value is refused for a fault of its layout. -/
theorem pack_error (h : d.pack = .error e) :
    ∃ fault ∈ d.type.layout.encodeFaults, e = .payload fault d.id := by
  rw [pack_eq_encode] at h
  obtain ⟨fault, he, rfl⟩ := mapError_eq_error_iff.mp h
  exact ⟨fault, Layout.encode_fault_mem he, rfl⟩

/-- Why a literal is refused for a datapoint: as a text, for a value without payload, or because the
type has no literals. -/
theorem packLiteral_error (h : (d.packLiteral literal).2 = .error e) :
    e.isLiteralError = true ∨ e = .payload .outOfRange d.id ∨ e = .payload .invalidData d.id ∨
      d.type.kind = .composite ∧ trim literal.toList ≠ [] ∧ e = .unsupportedKind d.id.text := by
  rcases packLiteral_eq_error_iff.mp h with ⟨hr, -⟩ | ⟨d', hr, hp, -⟩
  · rcases bind_eq_error_iff.mp hr with hs | ⟨p, hs, ha⟩
    · rcases Scalar.parse_error hs with ht | hk
      · exact .inl ht
      · exact .inr (.inr (.inr hk))
    · rcases Layout.ofScalar_error (map_eq_error_iff.mp ha) with ht | hr | hk
      · exact .inl ht
      · exact .inr (.inl hr)
      · have hkind : d.type.kind = .composite := hk
        rw [hkind] at hs
        exact absurd hs (Scalar.parse_composite_ne _ _ p)
  · obtain ⟨p, v, -, -, rfl⟩ := read_eq_ok_iff.mp hr
    obtain ⟨fault, hf, rfl⟩ := pack_error hp
    rcases Layout.eq_or_eq_of_mem_encodeFaults hf with rfl | rfl
    · exact .inr (.inl rfl)
    · exact .inr (.inr (.inl rfl))

/-- **Which literals are refused because their type has none**: those of a structured type that are
not blank. -/
theorem packLiteral_eq_unsupportedKind_iff :
    (∃ subject, (d.packLiteral literal).2 = .error (.unsupportedKind subject)) ↔
      d.type.kind = .composite ∧ trim literal.toList ≠ [] := by
  constructor
  · rintro ⟨subject, h⟩
    rcases packLiteral_error h with ht | hr | hr | ⟨hk, hl, -⟩
    · cases ht
    · cases hr
    · cases hr
    · exact ⟨hk, hl⟩
  · rintro ⟨hk, hl⟩
    have hr : d.read literal = .error (.unsupportedKind d.id.text) :=
      bind_eq_error_iff.mpr (.inl (by rw [hk, Scalar.parse_composite hl]))
    exact ⟨d.id.text, by rw [packLiteral, hr]⟩

end BuildingBus.Datapoint
