import BuildingBus.Datapoint.Basic
import BuildingBus.Proofs.Datapoint.Codecs

/-!
# Payloads of registered types

The laws of codecs carried over to the registered datapoint types. Outside of the families 9 and 16
three types alone have a codec that is not exact: the percentage 5.001, whose octets have more
values than it has levels; the angle 5.003, which has more levels than octets have values; and the
text 28.001, which has no fixed size (`Registry.isExact_or`).

The main statement is `DatapointType.payload_laws`: values and payloads of all these types determine
each other, each in the direction in which the type allows it.
-/

namespace BuildingBus.Datapoint

/-! ## Layouts -/

/-- The layouts whose codec loses nothing in either direction. The others round, fill up with zeros,
or have payloads of any length. -/
def Layout.isExact : Layout → Bool
  | .level greatest _ => greatest ≤ 255
  | .scaled _ _ | .shortFloat _ | .characters _ | .utf8 => false
  | _ => true

theorem Layout.codec_exact {l : Layout} (h : l.isExact = true) : l.codec.Exact := by
  cases l with
  | state off on => exact stateCodec_exact
  | controlled => exact ControlledState.codec_exact
  | step off on => exact StepCommand.codec_exact
  | scaled greatest unit => cases h
  | level greatest unit => exact levelCodec_exact (of_decide_eq_true h)
  | signed octets unit => exact wordCodec_exact octets
  | hundredths octets unit => exact wordCodec_exact octets
  | unsigned octets unit => exact wordCodec_exact octets
  | shortFloat unit => cases h
  | single unit => exact singleCodec_exact
  | time => exact TimeOfDay.codec_exact
  | date => exact Date.codec_exact
  | characters greatest => cases h
  | utf8 => cases h
  | scene => exact sceneCodec_exact
  | sceneControl => exact SceneControl.codec_exact
  | rgb => exact Rgb.codec_exact
  | xyY => exact XyY.codec_exact
  | rgbw => exact Rgbw.codec_exact

/-- The percentage in one octet. -/
def percentage : DatapointType := ⟨⟨5, 1⟩, .scaled 100 "%"⟩

/-- The angle in one octet. -/
def angle : DatapointType := ⟨⟨5, 3⟩, .scaled 360 "°"⟩

/-- The text of any length. -/
def longText : DatapointType := ⟨⟨28, 1⟩, .utf8⟩

/-- Outside of the families 9 and 16 all types but three have an exact codec. The three are looked
at one by one. -/
theorem Registry.isExact_or {t : DatapointType} (ht : t ∈ Registry.all) (h9 : t.id.main ≠ 9)
    (h16 : t.id.main ≠ 16) :
    (t.layout.isExact = true ∧ t.id ≠ longText.id) ∨ t = percentage ∨ t = angle ∨
      t = longText := by
  revert t
  decide

/-! ## Types -/

namespace DatapointType

variable {t : DatapointType}

theorem encode_eq_ok_iff {v : t.Value} {bs : Octets} :
    t.encode v = .ok bs ↔ t.layout.codec.encode v = .ok bs := by
  unfold encode
  cases t.layout.codec.encode v <;> simp [Except.mapError]

theorem decode_eq_ok_iff {v : t.Value} {bs : Octets} :
    t.decode bs = .ok v ↔ t.layout.codec.decode bs = .ok v := by
  unfold decode
  cases t.layout.codec.decode bs <;> simp [Except.mapError]

theorem decode_eq_error_iff {fault : PayloadFault} {bs : Octets} :
    t.decode bs = .error (.payload fault t.id) ↔ t.layout.codec.decode bs = .error fault := by
  unfold decode
  cases t.layout.codec.decode bs <;> simp [Except.mapError]

/-- The percentage reads back every level, and refuses octets for their length alone. -/
theorem percentage_laws :
    percentage.layout.codec.ReadsBack ∧ percentage.layout.codec.HasFixedSize :=
  ⟨scaledCodec_readsBack (by decide) (by decide), (scaledCodec_takes 100).hasFixedSize⟩

/-- The angle writes back every octet, and refuses octets for their length alone. -/
theorem angle_laws : angle.layout.codec.WritesBack ∧ angle.layout.codec.HasFixedSize :=
  ⟨scaledCodec_writesBack (by decide) (by decide), (scaledCodec_takes 360).hasFixedSize⟩

/-- **Payloads and values determine each other**, for all registered types outside of the families
of short floats and short strings. Levels of the angle 5.003 share octets, so that type is left out
of the way from a value to its payload and back; octets of the percentage 5.001 share levels, so
that type is left out of the way from a payload to its value and back. Payloads are refused for
their length exactly if it is not the one length that the type has, or, for the text 28.001, if no
zero stands at their end. -/
theorem payload_laws {t : DatapointType} (ht : t ∈ Registry.all) (h9 : t.id.main ≠ 9)
    (h16 : t.id.main ≠ 16) :
    (t.id ≠ ⟨5, 3⟩ → ∀ v bs, t.encode v = .ok bs → t.decode bs = .ok v) ∧
    (t.id ≠ ⟨5, 1⟩ → ∀ bs v, t.decode bs = .ok v → t.encode v = .ok bs) ∧
    (t.id ≠ ⟨28, 1⟩ → ∃ n, (∀ v, t.size v = n) ∧
      ∀ bs, t.decode bs = .error (.payload .wrongLength t.id) ↔ bs.length ≠ n) ∧
    (t.id = ⟨28, 1⟩ → ∀ bs,
      t.decode bs = .error (.payload .wrongLength t.id) ↔ bs = [] ∨ bs.getLast? ≠ some 0) := by
  simp only [encode_eq_ok_iff, decode_eq_ok_iff, decode_eq_error_iff]
  -- an exact codec has all the laws; of the other three types each lacks the one it is left out of
  rcases Registry.isExact_or ht h9 h16 with ⟨hl, hid⟩ | rfl | rfl | rfl
  · have he := Layout.codec_exact hl
    exact ⟨fun _ => he.readsBack, fun _ => he.writesBack, fun _ => he.hasFixedSize,
      fun h => absurd h hid⟩
  · obtain ⟨hr, hf⟩ := percentage_laws
    exact ⟨fun _ => hr, fun h => absurd rfl h, fun _ => hf, fun h => absurd h (by decide)⟩
  · obtain ⟨hw, hf⟩ := angle_laws
    exact ⟨fun h => absurd rfl h, fun _ => hw, fun _ => hf, fun h => absurd h (by decide)⟩
  · exact ⟨fun _ => utf8Codec_readsBack, fun _ => utf8Codec_writesBack, fun h => absurd rfl h,
      fun _ => utf8Codec_decode_eq_wrongLength_iff⟩

/-- The date 11.001 is one of these types, and the last day that it can write comes back. -/
theorem payload_laws_date :
    (⟨⟨11, 1⟩, .date⟩ : DatapointType) ∈ Registry.all ∧
    (⟨⟨11, 1⟩, .date⟩ : DatapointType).decode [31, 12, 89] = .ok ⟨2089, 12, 31⟩ ∧
    (⟨⟨11, 1⟩, .date⟩ : DatapointType).encode ⟨2089, 12, 31⟩ = .ok [31, 12, 89] := by
  have hm : (⟨⟨11, 1⟩, .date⟩ : DatapointType) ∈ Registry.all := by decide
  obtain ⟨-, hw, -⟩ := payload_laws hm (by decide) (by decide)
  have hd : (⟨⟨11, 1⟩, .date⟩ : DatapointType).decode [31, 12, 89] = .ok ⟨2089, 12, 31⟩ := by
    decide
  exact ⟨hm, hd, hw (by decide) _ _ hd⟩

end DatapointType

end BuildingBus.Datapoint
