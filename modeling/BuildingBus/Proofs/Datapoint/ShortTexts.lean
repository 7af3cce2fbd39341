import BuildingBus.Proofs.Datapoint.Faults

/-!
# What short strings hold

A payload of fourteen octets holds a text of at most fourteen characters, each with a code point
from one to a greatest one, and every such text has a payload. The text is what stands before the
first zero; what stands after it is not looked at. Writing the text again therefore gives the payload
with all octets after the first zero cleared (`encode_of_decode`).

Both ways go one by one, in two loops that end for different reasons: one at the end of the text,
one at a zero. `characterOctets_eq_ok_iff` and `characterText_eq_ok_iff` say what each loop comes to
as a whole, and the codec is what they come to with its checks of the length. The main statement is
that both registered types obey the laws (`shortTextLaws_of_types`).
-/

namespace BuildingBus.Datapoint

/-! ## Octets up to the first zero -/

/-- The octets before the first zero. -/
def beforeZero (bs : Octets) : Octets := bs.takeWhile (· ≠ 0)

/-- The octets with zeros for all that stand after the first zero. These octets are the same text,
and they are what is written for it. -/
def clearAfterZero : Octets → Octets
  | [] => []
  | b :: bs => if b = 0 then 0 :: List.replicate bs.length 0 else b :: clearAfterZero bs

section

variable {bs : Octets} {b : UInt8}

theorem beforeZero_cons_zero (bs : Octets) : beforeZero (0 :: bs) = [] := rfl

theorem beforeZero_cons_of_ne (h : b ≠ 0) (bs : Octets) :
    beforeZero (b :: bs) = b :: beforeZero bs :=
  List.takeWhile_cons_of_pos (by simpa using h)

theorem ne_zero_of_mem_beforeZero (h : b ∈ beforeZero bs) : b ≠ 0 :=
  of_decide_eq_true (List.all_eq_true.mp List.all_takeWhile b h)

/-- Clearing keeps what stands before the first zero and fills up with zeros. -/
theorem clearAfterZero_eq (bs : Octets) :
    clearAfterZero bs = beforeZero bs ++ List.replicate (bs.length - (beforeZero bs).length) 0 := by
  induction bs with
  | nil => rfl
  | cons b bs ih =>
    by_cases hb : b = 0
    · subst hb
      rfl
    · rw [clearAfterZero, if_neg hb, ih, beforeZero_cons_of_ne hb, List.length_cons,
        List.length_cons, Nat.add_sub_add_right, List.cons_append]

end

/-! ## The two loops -/

/-- A text fits into fourteen octets: it has at most fourteen characters, with code points from one
to `greatest`. -/
structure Fits (greatest : Nat) (s : List Char) : Prop where
  /-- there are at most fourteen characters -/
  length_le : s.length ≤ 14
  /-- none is zero or beyond the greatest -/
  mem : ∀ c ∈ s, 1 ≤ c.toNat ∧ c.toNat ≤ greatest

section

variable {greatest : Nat} {s : List Char} {bs : Octets}

/-- A text has octets exactly if each of its characters has one. -/
theorem characterOctets_eq_ok_iff :
    characterOctets greatest s = .ok bs ↔
      (∀ c ∈ s, 1 ≤ c.toNat ∧ c.toNat ≤ greatest) ∧ bs = s.map fun c => .ofNat c.toNat := by
  induction s generalizing bs with
  | nil => simp [characterOctets, eq_comm]
  | cons c s ih =>
    rw [characterOctets_cons_eq_ok_iff, List.forall_mem_cons, List.map_cons, and_assoc (c := bs = _)]
    refine and_congr_right fun _ => ?_
    constructor
    · rintro ⟨rest, hr, rfl⟩
      obtain ⟨hs, rfl⟩ := ih.mp hr
      exact ⟨hs, rfl⟩
    · rintro ⟨hs, rfl⟩
      exact ⟨_, ih.mpr ⟨hs, rfl⟩, rfl⟩

/-- Octets are read as a text exactly if none before the first zero is beyond the greatest code
point. -/
theorem characterText_eq_ok_iff :
    characterText greatest bs = .ok s ↔
      (∀ b ∈ beforeZero bs, b.toNat ≤ greatest) ∧
        s = (beforeZero bs).map fun b => .ofNat b.toNat := by
  induction bs generalizing s with
  | nil => simp [characterText, beforeZero, eq_comm]
  | cons b bs ih =>
    rw [characterText]
    by_cases hz : b = 0
    · subst hz
      simp [beforeZero_cons_zero, eq_comm]
    · rw [if_neg hz, beforeZero_cons_of_ne hz, List.forall_mem_cons, List.map_cons,
        and_assoc (c := s = _)]
      by_cases hb : b.toNat ≤ greatest
      · rw [if_pos hb, and_iff_right hb, map_eq_ok_iff]
        constructor
        · rintro ⟨rest, hr, rfl⟩
          obtain ⟨hs, rfl⟩ := ih.mp hr
          exact ⟨hs, rfl⟩
        · rintro ⟨hs, rfl⟩
          exact ⟨_, ih.mpr ⟨hs, rfl⟩, rfl⟩
      · rw [if_neg hb]
        refine ⟨fun h => ?_, fun h => absurd h.1 hb⟩
        cases h

/-- The character of an octet has the code point that the octet is. -/
theorem toNat_ofNat_octet (b : UInt8) : (Char.ofNat b.toNat).toNat = b.toNat := by
  have hb := b.toNat_lt
  exact Text.Utf8.toNat_charOfNat (.inl (by omega))

/-- What stands before the first zero of fourteen octets is a text that fits. -/
theorem fits_beforeZero (hl : bs.length = 14) (hb : ∀ b ∈ beforeZero bs, b.toNat ≤ greatest) :
    Fits greatest ((beforeZero bs).map fun b => .ofNat b.toNat) where
  length_le := by
    rw [List.length_map, ← hl]
    exact (List.takeWhile_prefix _).length_le
  mem := by
    rintro c hc
    obtain ⟨b, hm, rfl⟩ := List.mem_map.mp hc
    have hz : b.toNat ≠ 0 := fun h => ne_zero_of_mem_beforeZero hm (UInt8.toNat_inj.mp h)
    rw [toNat_ofNat_octet]
    exact ⟨Nat.pos_of_ne_zero hz, hb b hm⟩

/-! ## Payloads -/

theorem characterCodec_encode_eq_ok_iff {text : String} :
    (characterCodec greatest).encode text = .ok bs ↔ Fits greatest text.toList ∧
      bs = text.toList.map (fun c => .ofNat c.toNat) ++
        List.replicate (14 - text.toList.length) 0 := by
  simp only [characterCodec]
  by_cases hl : text.toList.length ≤ shortLength
  · rw [if_pos hl, map_eq_ok_iff]
    constructor
    · rintro ⟨os, ho, rfl⟩
      obtain ⟨hc, rfl⟩ := characterOctets_eq_ok_iff.mp ho
      exact ⟨⟨hl, hc⟩, by rw [List.length_map]; rfl⟩
    · rintro ⟨h, rfl⟩
      exact ⟨_, characterOctets_eq_ok_iff.mpr ⟨h.mem, rfl⟩, by rw [List.length_map]; rfl⟩
  · rw [if_neg hl]
    refine ⟨fun h => ?_, fun h => absurd h.1.length_le hl⟩
    cases h

/-- A text that does not fit is out of range. -/
theorem characterCodec_encode_of_not_fits {text : String} (h : ¬Fits greatest text.toList) :
    (characterCodec greatest).encode text = .error .outOfRange := by
  cases he : (characterCodec greatest).encode text with
  | ok bs => exact absurd (characterCodec_encode_eq_ok_iff.mp he).1 h
  | error fault => rw [(characterCodec_encode_eq_error_iff.mp he).1]

theorem characterCodec_decode_eq_ok_iff {text : String} :
    (characterCodec greatest).decode bs = .ok text ↔ bs.length = 14 ∧
      (∀ b ∈ beforeZero bs, b.toNat ≤ greatest) ∧
      text.toList = (beforeZero bs).map fun b => .ofNat b.toNat := by
  simp only [characterCodec]
  by_cases hl : bs.length = shortLength
  · rw [if_pos hl, map_eq_ok_iff, and_iff_right (show bs.length = 14 from hl),
      ← characterText_eq_ok_iff]
    constructor
    · rintro ⟨s, hs, rfl⟩
      rw [String.toList_ofList, hs]
    · exact fun h => ⟨_, h, String.ofList_toList⟩
  · rw [if_neg hl]
    refine ⟨fun h => ?_, fun h => absurd h.1 hl⟩
    cases h

/-- Octets are refused for their length, or else for an octet before the first zero. -/
theorem characterCodec_decode_eq_error_iff {fault : PayloadFault} :
    (characterCodec greatest).decode bs = .error fault ↔
      (bs.length ≠ 14 ∧ fault = .wrongLength) ∨
      (bs.length = 14 ∧ (¬∀ b ∈ beforeZero bs, b.toNat ≤ greatest) ∧ fault = .invalidData) := by
  by_cases hl : bs.length = 14
  · rw [or_iff_right fun h => h.1 hl, and_iff_right hl]
    by_cases hb : ∀ b ∈ beforeZero bs, b.toNat ≤ greatest
    · have ht : (characterCodec greatest).decode bs = .ok (.ofList _) :=
        characterCodec_decode_eq_ok_iff.mpr ⟨hl, hb, String.toList_ofList⟩
      rw [ht]
      refine ⟨fun h => ?_, fun h => absurd hb h.1⟩
      cases h
    · rw [and_iff_right hb]
      cases hd : (characterCodec greatest).decode bs with
      | ok text => exact absurd (characterCodec_decode_eq_ok_iff.mp hd).2.1 hb
      | error why =>
        simp only [characterCodec] at hd
        rw [if_pos (show bs.length = shortLength from hl), map_eq_error_iff] at hd
        rw [eq_of_characterText hd, Except.error.injEq, eq_comm]
  · have hd : (characterCodec greatest).decode bs = .error .wrongLength := if_neg hl
    rw [hd, and_iff_right hl, or_iff_left fun h => hl h.1, Except.error.injEq, eq_comm]

/-- A text that was read is written as the octets that it was read from, less all that stand after
the first zero. -/
theorem encode_of_decode {text : String} (h : (characterCodec greatest).decode bs = .ok text) :
    (characterCodec greatest).encode text = .ok (clearAfterZero bs) := by
  obtain ⟨hl, hb, ht⟩ := characterCodec_decode_eq_ok_iff.mp h
  rw [characterCodec_encode_eq_ok_iff, ht, clearAfterZero_eq, List.length_map, hl, List.map_map]
  refine ⟨fits_beforeZero hl hb, congrArg (· ++ _) ?_⟩
  refine (List.map_id'' (fun b => ?_) _).symm
  exact octet_eq (toNat_ofNat_octet b).symm

end

/-- An octet after the first zero is beyond the greatest code point, and it is not looked at. -/
example :
    (characterCodec 0x7F).decode [65, 66, 0, 200, 9, 9, 9, 9, 9, 9, 9, 9, 9, 9] = .ok "AB" ∧
    (characterCodec 0x7F).encode "AB" = .ok [65, 66, 0, 0, 0, 0, 0, 0, 0, 0, 0, 0, 0, 0] := by
  decide

/-! ## The registered types -/

/-- The type of texts with code points up to `greatest`, under an identifier. Two such types are
registered, and they differ in this bound alone. -/
def shortText (id : TypeId) (greatest : Nat) : DatapointType := ⟨id, .characters greatest⟩

/-- What holds of a registered type of texts with code points up to `greatest`: of every text and
every buffer that has room for fourteen octets, and of all octets. -/
structure ShortTextLaws (id : TypeId) (greatest : Nat) : Prop where
  /-- the type is registered -/
  registered : Registry.find? id = some (shortText id greatest)
  /-- the texts that fit are written, and no others -/
  written_iff (s : String) (buffer : Octets) (hb : 14 ≤ buffer.length) :
    (∃ n, ((shortText id greatest).encodeInto s buffer).2 = .ok n) ↔ Fits greatest s.toList
  /-- what was written are fourteen octets, and the text is read from them -/
  read_written (s : String) (buffer : Octets) (hb : 14 ≤ buffer.length) (n : Nat)
    (h : ((shortText id greatest).encodeInto s buffer).2 = .ok n) :
    n = 14 ∧ (shortText id greatest).decode
      (((shortText id greatest).encodeInto s buffer).1.take 14) = .ok s
  /-- a text that does not fit is out of range, and the buffer stays as it is -/
  refused (s : String) (buffer : Octets) (h : ¬Fits greatest s.toList) :
    (shortText id greatest).encodeInto s buffer = (buffer, .error (.payload .outOfRange id))
  /-- octets are refused for their length exactly if they are not fourteen -/
  wrongLength_iff (bs : Octets) :
    (shortText id greatest).decode bs = .error (.payload .wrongLength id) ↔ bs.length ≠ 14
  /-- fourteen octets are a text exactly if none before the first zero is beyond the greatest -/
  read_iff (bs : Octets) (hl : bs.length = 14) :
    (∃ s, (shortText id greatest).decode bs = .ok s) ↔ ∀ b ∈ beforeZero bs, b.toNat ≤ greatest
  /-- fourteen octets that are no text are refused as that -/
  invalidData (bs : Octets) (hl : bs.length = 14)
    (h : ¬∀ b ∈ beforeZero bs, b.toNat ≤ greatest) :
    (shortText id greatest).decode bs = .error (.payload .invalidData id)
  /-- a text that was read is written as its octets, with zeros for all after the first zero -/
  written_read (bs : Octets) (s : String) (h : (shortText id greatest).decode bs = .ok s)
    (buffer : Octets) (hb : 14 ≤ buffer.length) :
    (shortText id greatest).encodeInto s buffer = (clearAfterZero bs ++ buffer.drop 14, .ok 14)

section

variable {id : TypeId} {greatest : Nat} {s : String} {bs buffer : Octets}

/-- What is written to a buffer with room for fourteen octets. -/
theorem shortText_encodeInto_of_fits (h : Fits greatest s.toList) (hb : 14 ≤ buffer.length) :
    ∃ bs, (characterCodec greatest).encode s = .ok bs ∧ bs.length = 14 ∧
      (shortText id greatest).encodeInto s buffer = (bs ++ buffer.drop 14, .ok 14) := by
  have he := characterCodec_encode_eq_ok_iff.mpr ⟨h, rfl⟩
  refine ⟨_, he, characterCodec_sized greatest s _ he, ?_⟩
  exact DatapointType.encodeInto_of_le (DatapointType.encode_eq_ok_iff.mpr he) hb

/-- A text that does not fit leaves a buffer of any size as it is. -/
theorem shortText_encodeInto_of_not_fits (h : ¬Fits greatest s.toList) (buffer : Octets) :
    (shortText id greatest).encodeInto s buffer = (buffer, .error (.payload .outOfRange id)) := by
  have he : (shortText id greatest).encode s = .error (.payload .outOfRange id) :=
    mapError_eq_error_iff.mpr ⟨_, characterCodec_encode_of_not_fits h, rfl⟩
  exact DatapointType.encodeInto_of_error he buffer

theorem fits_of_encodeInto {n : Nat}
    (h : ((shortText id greatest).encodeInto s buffer).2 = .ok n) : Fits greatest s.toList := by
  by_contra hn
  rw [shortText_encodeInto_of_not_fits hn] at h
  cases h

end

/-- The laws hold of a registered type whose characters have one octet. -/
theorem shortTextLaws {id : TypeId} {greatest : Nat} (hg : greatest ≤ 255)
    (hr : Registry.find? id = some (shortText id greatest)) : ShortTextLaws id greatest where
  registered := hr
  written_iff s buffer hb := by
    constructor
    · rintro ⟨n, h⟩
      exact fits_of_encodeInto h
    · intro h
      obtain ⟨bs, -, -, hw⟩ := shortText_encodeInto_of_fits h hb
      exact ⟨14, by rw [hw]⟩
  read_written s buffer hb n h := by
    obtain ⟨bs, he, hl, hw⟩ := shortText_encodeInto_of_fits (fits_of_encodeInto h) hb
    rw [hw] at h ⊢
    refine ⟨(Except.ok.inj h).symm, ?_⟩
    rw [List.take_left' hl]
    exact DatapointType.decode_eq_ok_iff.mpr (characterCodec_readsBack hg s bs he)
  refused s buffer h := shortText_encodeInto_of_not_fits h buffer
  wrongLength_iff bs := by
    refine DatapointType.decode_eq_error_iff.trans (characterCodec_decode_eq_error_iff.trans ?_)
    constructor
    · rintro (⟨hl, -⟩ | ⟨-, -, hf⟩)
      · exact hl
      · cases hf
    · exact fun hl => .inl ⟨hl, rfl⟩
  read_iff bs hl := by
    constructor
    · rintro ⟨s, h⟩
      exact (characterCodec_decode_eq_ok_iff.mp (DatapointType.decode_eq_ok_iff.mp h)).2.1
    · intro hb
      have hd : (characterCodec greatest).decode bs = .ok (.ofList _) :=
        characterCodec_decode_eq_ok_iff.mpr ⟨hl, hb, String.toList_ofList⟩
      exact ⟨_, DatapointType.decode_eq_ok_iff.mpr hd⟩
  invalidData bs hl h := by
    refine DatapointType.decode_eq_error_iff.mpr ?_
    exact characterCodec_decode_eq_error_iff.mpr (.inr ⟨hl, h, rfl⟩)
  written_read bs s h buffer hb := by
    have he := encode_of_decode (DatapointType.decode_eq_ok_iff.mp h)
    exact DatapointType.encodeInto_of_le (DatapointType.encode_eq_ok_iff.mpr he) hb

/-- **What short strings hold**, for the two registered types. A text is written to a buffer with room
for fourteen octets exactly if it fits, and is read from what was written; any other text is out of
range. Octets are refused for their length exactly if they are not fourteen, and as no text exactly
if one before the first zero is beyond the greatest code point; a text that was read is written as
its octets, with zeros for all after the first zero. -/
theorem shortTextLaws_of_types : ShortTextLaws ⟨16, 0⟩ 0x7F ∧ ShortTextLaws ⟨16, 1⟩ 0xFF :=
  ⟨shortTextLaws (by decide) rfl, shortTextLaws (by decide) rfl⟩

end BuildingBus.Datapoint
