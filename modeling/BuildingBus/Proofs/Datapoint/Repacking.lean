import BuildingBus.Proofs.Datapoint.RoundTrip
import BuildingBus.Proofs.Datapoint.Strings

/-!
# Payloads packed again

A payload that stems from a value can be read. What it is read as may be another value, where
several values share a payload, but then that value has the same payload: it *settles*. This holds
of every registered type outside of the family 9 (`DatapointType.exists_decode`). A short float is
read as well, as the number that its bits stand for.
-/

namespace BuildingBus.Datapoint

namespace Codec

variable {α : Type} {c : Codec α}

/-- The payload of a value is read as a value with that payload. It is less than reading the value
back: what was rounded may stay rounded. -/
def Settles (c : Codec α) : Prop :=
  ∀ v bs, c.encode v = .ok bs → ∃ w, c.decode bs = .ok w ∧ c.encode w = .ok bs

theorem ReadsBack.settles (h : c.ReadsBack) : c.Settles :=
  fun v bs he => ⟨v, h v bs he, he⟩

theorem WritesBack.settles (h : c.WritesBack)
    (hd : ∀ v bs, c.encode v = .ok bs → ∃ w, c.decode bs = .ok w) : c.Settles := by
  intro v bs he
  obtain ⟨w, hw⟩ := hd v bs he
  exact ⟨w, hw, h bs w hw⟩

end Codec

/-! ## Layouts -/

/-- A level settles whatever its range: a range with fewer steps than an octet reads back, one with
more writes back. -/
theorem scaledCodec_settles {greatest : Nat} (hg : 0 < greatest) (hg' : greatest < 65536) :
    (scaledCodec greatest).Settles := by
  rcases Nat.le_total greatest 255 with h | h
  · exact (scaledCodec_readsBack hg h).settles
  · refine (scaledCodec_writesBack h hg').settles fun v bs he => ?_
    simp only [scaledCodec] at he
    split at he
    case isTrue =>
      obtain rfl := Except.ok.inj he
      exact ⟨_, rfl⟩
    case isFalse => cases he

/-- A short float is read from the payload of any value. -/
theorem ShortFloat.exists_decode {v : Number.Single} {bs : Octets}
    (h : ShortFloat.codec.encode v = .ok bs) : ∃ w, ShortFloat.codec.decode bs = .ok w := by
  simp only [ShortFloat.codec] at h
  split at h
  case isTrue =>
    split at h
    case h_1 s hs =>
      obtain rfl := Except.ok.inj h
      refine ⟨(ofBits (ofBigEndian (bigEndian 2 s.toBits))).toSingle, ?_⟩
      simp only [ShortFloat.codec, length_bigEndian, if_true]
    case h_2 => cases h
  case isFalse => cases h

namespace Layout

/-- Whether the numbers of a layout fit its octets, as far as the layout itself does not see to
it. -/
def fitsOctets : Layout → Bool
  | level greatest _ | characters greatest => greatest ≤ 255
  | scaled greatest _ => 0 < greatest && greatest < 65536
  | _ => true

/-- Whether the values of a layout are short floats. -/
def isShortFloat : Layout → Bool
  | shortFloat _ => true
  | _ => false

theorem codec_settles {l : Layout} (hf : l.fitsOctets = true) (hs : l.isShortFloat = false) :
    l.codec.Settles := by
  by_cases he : l.isExact = true
  · exact (codec_exact he).readsBack.settles
  · -- the layouts that are left are not exact
    cases l with
    | scaled greatest unit =>
      simp only [fitsOctets, Bool.and_eq_true, decide_eq_true_eq] at hf
      exact scaledCodec_settles hf.1 hf.2
    | level greatest unit => exact absurd hf he
    | characters greatest => exact (characterCodec_readsBack (of_decide_eq_true hf)).settles
    | utf8 => exact utf8Codec_readsBack.settles
    | shortFloat unit => cases hs
    | _ => exact absurd rfl he

end Layout

/-! ## Types -/

theorem Registry.fitsOctets_of_mem {t : DatapointType} (h : t ∈ Registry.all) :
    t.layout.fitsOctets = true := by
  revert t
  decide

/-- Short floats are the types of the family 9. -/
theorem Registry.isShortFloat_iff {t : DatapointType} (h : t ∈ Registry.all) :
    t.layout.isShortFloat = true ↔ t.id.main = 9 := by
  revert t
  decide

/-- The payload of a value is read, and outside of the family 9 as a value with that payload. In
family 9 the second payload may have a lesser exponent. -/
theorem DatapointType.exists_decode {t : DatapointType} (ht : t ∈ Registry.all) {v : t.Value}
    {bs : Octets} (h : t.encode v = .ok bs) :
    ∃ w, t.decode bs = .ok w ∧ (t.id.main ≠ 9 → t.encode w = .ok bs) := by
  simp only [encode_eq_ok_iff, decode_eq_ok_iff] at h ⊢
  obtain ⟨id, layout⟩ := t
  cases hs : layout.isShortFloat with
  | false =>
    obtain ⟨w, hd, he⟩ := Layout.codec_settles (Registry.fitsOctets_of_mem ht) hs v bs h
    exact ⟨w, hd, fun _ => he⟩
  | true =>
    have hid : id.main = 9 := (Registry.isShortFloat_iff ht).mp hs
    cases layout with
    | shortFloat unit =>
      obtain ⟨w, hd⟩ := ShortFloat.exists_decode h
      exact ⟨w, hd, fun hn => absurd hid hn⟩
    | _ => cases hs

end BuildingBus.Datapoint
