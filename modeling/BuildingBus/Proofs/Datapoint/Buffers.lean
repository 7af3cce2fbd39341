import BuildingBus.Proofs.Datapoint.RoundTrip
import BuildingBus.Proofs.Datapoint.Strings

/-!
# Buffers

The octets that a value needs are known before it is encoded, and its payload has exactly as many
(`DatapointType.length_of_encode`): one function of each family counts them and another one writes
them. A buffer of that size therefore always holds the payload, and what is packed is what is
encoded (`Datapoint.pack_eq_encode`).

A buffer of another size is written in front or not at all (`DatapointType.encodeInto_laws`).
-/

namespace BuildingBus.Datapoint

open Text

/-! ## Sizes -/

/-- Every payload has the size of its value. So a buffer that is made by the size has room, and
nothing of it is left over. -/
def Codec.Sized {α : Type} (c : Codec α) : Prop :=
  ∀ v bs, c.encode v = .ok bs → bs.length = c.size v

section

variable {α : Type} {c : Codec α}

/-- A codec that refuses no value is sized if what it writes is. -/
theorem Codec.sized_of_total {octets : α → Octets} (h : ∀ v, c.encode v = .ok (octets v))
    (hl : ∀ v, (octets v).length = c.size v) : c.Sized := by
  intro v bs hv
  obtain rfl := Except.ok.inj ((h v).symm.trans hv)
  exact hl v

/-- A codec that refuses the values that fail a check is sized if what it writes is. -/
theorem Codec.sized_of_check {p : α → Prop} [DecidablePred p] {octets : α → Octets}
    {fault : PayloadFault}
    (h : ∀ v, c.encode v = if p v then .ok (octets v) else .error fault)
    (hl : ∀ v, (octets v).length = c.size v) : c.Sized := by
  intro v bs hv
  rw [h] at hv
  split at hv
  case isTrue =>
    obtain rfl := Except.ok.inj hv
    exact hl v
  case isFalse => cases hv

end

theorem ShortFloat.codec_sized : ShortFloat.codec.Sized := by
  intro v bs hv
  simp only [ShortFloat.codec] at hv
  split at hv
  case isFalse => cases hv
  case isTrue =>
    split at hv
    case h_1 s hs =>
      obtain rfl := Except.ok.inj hv
      exact length_bigEndian 2 s.toBits
    case h_2 => cases hv

/-- A text with fewer than fourteen characters is filled up. -/
theorem characterCodec_sized (greatest : Nat) : (characterCodec greatest).Sized := by
  intro s bs hs
  simp only [characterCodec] at hs
  split at hs
  case isFalse => cases hs
  case isTrue hle =>
    cases ho : characterOctets greatest s.toList with
    | error e =>
      rw [ho] at hs
      cases hs
    | ok octets =>
      rw [ho] at hs
      obtain rfl := Except.ok.inj hs
      have hl := length_characterOctets ho
      change (octets ++ List.replicate (shortLength - octets.length) 0).length = shortLength
      rw [List.length_append, List.length_replicate]
      omega

/-- The size of a text is that of its UTF-8 form, not its count of characters. -/
theorem utf8Codec_sized : utf8Codec.Sized := by
  intro s bs hs
  simp only [utf8Codec] at hs
  split at hs
  case isTrue => cases hs
  case isFalse =>
    obtain rfl := Except.ok.inj hs
    exact List.length_append

/-- Every layout counts the octets that it writes. For most of them the count is fixed; for texts it
depends on the value. -/
theorem Layout.codec_sized (l : Layout) : l.codec.Sized := by
  cases l with
  | state | controlled | step | rgb | xyY | rgbw =>
    exact Codec.sized_of_total (fun _ => rfl) fun _ => rfl
  | signed octets | hundredths octets | unsigned octets =>
    exact Codec.sized_of_total (fun _ => rfl) fun _ => length_bigEndian octets _
  | single => exact Codec.sized_of_total (fun _ => rfl) fun _ => length_bigEndian 4 _
  | scaled | level | time | date | scene | sceneControl =>
    exact Codec.sized_of_check (fun _ => rfl) fun _ => rfl
  | shortFloat => exact ShortFloat.codec_sized
  | characters greatest => exact characterCodec_sized greatest
  | utf8 => exact utf8Codec_sized

/-! ## Writing to a buffer -/

namespace DatapointType

variable {t : DatapointType} {v : t.Value} {bs buffer : Octets} {e : DatapointError}

theorem length_of_encode (h : t.encode v = .ok bs) : bs.length = t.size v :=
  t.layout.codec_sized v bs (encode_eq_ok_iff.mp h)

/-- A payload replaces the front of a buffer that has its size. -/
theorem encodeInto_of_le (h : t.encode v = .ok bs) (hb : t.size v ≤ buffer.length) :
    t.encodeInto v buffer = (bs ++ buffer.drop (t.size v), .ok (t.size v)) := by
  rw [← length_of_encode h] at hb ⊢
  simp only [encodeInto, h, if_pos hb]

/-- A buffer that is too small for a payload stays as it is. -/
theorem encodeInto_of_lt (h : t.encode v = .ok bs) (hb : buffer.length < t.size v) :
    t.encodeInto v buffer = (buffer, .error (.bufferTooSmall t.id)) := by
  rw [← length_of_encode h] at hb
  simp only [encodeInto, h, if_neg (Nat.not_le_of_lt hb)]

/-- A value without payload is refused before the buffer is looked at. -/
theorem encodeInto_of_error (h : t.encode v = .error e) (buffer : Octets) :
    t.encodeInto v buffer = (buffer, .error e) := by
  simp only [encodeInto, h]

/-- Encoding complains about values alone. It has no buffer, and that one is too small is found only
when the payload is copied. -/
theorem encode_ne_bufferTooSmall (v : t.Value) (id : TypeId) :
    t.encode v ≠ .error (.bufferTooSmall id) := by
  rw [encode]
  cases t.layout.codec.encode v with
  | error fault => exact nofun
  | ok bs => exact nofun

end DatapointType

/-! ## Packing -/

/-- What is packed is what is encoded: the buffer has the size of the value. Packing can thus fail
for what encoding fails for, and never for want of room. -/
theorem pack_eq_encode (d : Datapoint) : d.pack = d.type.encode d.value := by
  unfold pack
  cases h : d.type.encode d.value with
  | error e =>
    rw [DatapointType.encodeInto_of_error h]
    rfl
  | ok bs =>
    have hb : d.type.size d.value ≤ (List.replicate (d.type.size d.value) (0 : UInt8)).length :=
      Nat.le_of_eq List.length_replicate.symm
    have hl : bs.length = d.type.size d.value := DatapointType.length_of_encode h
    rw [DatapointType.encodeInto_of_le h hb]
    exact congrArg Except.ok (List.take_left' hl)

/-- **Encoding into a buffer agrees with packing**, for every value of every type. What is packed is
the payload of the value and has its size: a buffer that is not smaller gets the payload at its
front and keeps all octets after it, and any other buffer is refused and stays as it is. If the
value is not packed, every buffer is refused for the same reason and stays as it is. Packing never
finds its own buffer too small. -/
theorem encodeInto_laws (t : DatapointType) (v : t.Value) :
    pack ⟨t, v⟩ = t.encode v ∧
    (∀ bs, pack ⟨t, v⟩ = .ok bs → bs.length = t.size v ∧
      ∀ buffer : Octets,
        (t.size v ≤ buffer.length →
          t.encodeInto v buffer = (bs ++ buffer.drop (t.size v), .ok (t.size v))) ∧
        (buffer.length < t.size v →
          t.encodeInto v buffer = (buffer, .error (.bufferTooSmall t.id)))) ∧
    (∀ e, pack ⟨t, v⟩ = .error e → ∀ buffer, t.encodeInto v buffer = (buffer, .error e)) ∧
    ∀ id, pack ⟨t, v⟩ ≠ .error (.bufferTooSmall id) := by
  rw [pack_eq_encode]
  refine ⟨rfl, fun bs h => ⟨DatapointType.length_of_encode h, fun buffer => ⟨?_, ?_⟩⟩,
    fun e h => ?_, DatapointType.encode_ne_bufferTooSmall v⟩
  · exact DatapointType.encodeInto_of_le h
  · exact DatapointType.encodeInto_of_lt h
  · exact DatapointType.encodeInto_of_error h

/-- A letter of two octets in a text of any length: one buffer holds the payload, one does not. -/
example :
    pack ⟨longText, "é"⟩ = .ok [0xC3, 0xA9, 0] ∧
    longText.encodeInto "é" [1, 2, 3, 4] = ([0xC3, 0xA9, 0, 4], .ok 3) ∧
    longText.encodeInto "é" [1, 2] = ([1, 2], .error (.bufferTooSmall ⟨28, 1⟩)) := by
  decide

end BuildingBus.Datapoint
