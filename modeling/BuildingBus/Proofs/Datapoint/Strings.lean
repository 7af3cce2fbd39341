import BuildingBus.Datapoint.Layout
import BuildingBus.Proofs.Datapoint.Codecs
import BuildingBus.Proofs.Steps

/-!
# Short strings

The octets of a short string are read back as the string (`characterCodec_readsBack`): a character
with a code point up to 255 stands in one octet, no octet of the text is zero, and the zeros that
fill up the payload end it.
-/

namespace BuildingBus.Datapoint

open BuildingBus.Text

section

variable {greatest : Nat} {s : List Char} {bs : Octets}

/-- The octets of a text that starts with a character. -/
theorem characterOctets_cons_eq_ok_iff {c : Char} :
    characterOctets greatest (c :: s) = .ok bs ↔
      (0 < c.toNat ∧ c.toNat ≤ greatest) ∧
        ∃ rest, characterOctets greatest s = .ok rest ∧ bs = UInt8.ofNat c.toNat :: rest := by
  rw [characterOctets]
  by_cases hc : 0 < c.toNat ∧ c.toNat ≤ greatest
  · rw [if_pos hc]
    cases characterOctets greatest s <;> simp [hc, Except.map, eq_comm]
  · rw [if_neg hc]
    exact ⟨nofun, fun h => absurd h.1 hc⟩

/-- There is one octet for each character. -/
theorem length_characterOctets (h : characterOctets greatest s = .ok bs) :
    bs.length = s.length := by
  induction s generalizing bs with
  | nil =>
    obtain rfl := Except.ok.inj h
    rfl
  | cons c s ih =>
    obtain ⟨-, rest, hr, rfl⟩ := characterOctets_cons_eq_ok_iff.mp h
    rw [List.length_cons, List.length_cons, ih hr]

/-- A text has no octets exactly if a character of it is the one of code point zero or beyond the
greatest. -/
theorem characterOctets_eq_error_iff {fault : PayloadFault} :
    characterOctets greatest s = .error fault ↔
      fault = .outOfRange ∧ ∃ c ∈ s, c.toNat = 0 ∨ greatest < c.toNat := by
  induction s with
  | nil => exact ⟨nofun, fun ⟨_, _, hc, _⟩ => absurd hc List.not_mem_nil⟩
  | cons c s ih =>
    have hcheck : ¬(0 < c.toNat ∧ c.toNat ≤ greatest) ↔ c.toNat = 0 ∨ greatest < c.toNat := by
      omega
    rw [characterOctets, List.exists_mem_cons_iff, ← hcheck]
    by_cases hc : 0 < c.toNat ∧ c.toNat ≤ greatest
    · rw [if_pos hc, map_eq_error_iff, ih, or_iff_right (not_not_intro hc)]
    · rw [if_neg hc, Except.error.injEq, or_iff_left_of_imp fun _ => hc, and_iff_left hc, eq_comm]

/-- A text has no payload exactly if it is too long or has no octets. -/
theorem characterCodec_encode_eq_error_iff {text : String} {fault : PayloadFault} :
    (characterCodec greatest).encode text = .error fault ↔ fault = .outOfRange ∧
      (shortLength < text.toList.length ∨
        ∃ c ∈ text.toList, c.toNat = 0 ∨ greatest < c.toNat) := by
  simp only [characterCodec]
  by_cases hl : text.toList.length ≤ shortLength
  · rw [if_pos hl, map_eq_error_iff, characterOctets_eq_error_iff,
      or_iff_right (Nat.not_lt_of_le hl)]
  · rw [if_neg hl, Except.error.injEq, and_iff_left (.inl (Nat.lt_of_not_le hl)), eq_comm]

/-- Zeros alone are read as no text. -/
theorem characterText_replicate (greatest k : Nat) :
    characterText greatest (List.replicate k 0) = .ok [] := by
  cases k with
  | zero => rfl
  | succ k => exact if_pos rfl

/-- A text is read from its octets, whatever count of zeros stands after them. -/
theorem characterText_characterOctets (hg : greatest ≤ 255)
    (h : characterOctets greatest s = .ok bs) (k : Nat) :
    characterText greatest (bs ++ List.replicate k 0) = .ok s := by
  induction s generalizing bs with
  | nil =>
    obtain rfl := Except.ok.inj h
    exact characterText_replicate greatest k
  | cons c s ih =>
    obtain ⟨⟨hpos, hle⟩, rest, hr, rfl⟩ := characterOctets_cons_eq_ok_iff.mp h
    have hb : (UInt8.ofNat c.toNat).toNat = c.toNat := toNat_octet (by omega)
    have hz : UInt8.ofNat c.toNat ≠ 0 := by
      intro h0
      rw [h0] at hb
      exact absurd hb.symm (Nat.ne_of_gt hpos)
    rw [List.cons_append, characterText, if_neg hz, hb, if_pos hle, ih hr, Char.ofNat_toNat]
    rfl

end

/-- A short string is read back from its payload. The zeros that fill it up end the text, as no
character of it is written as zero. -/
theorem characterCodec_readsBack {greatest : Nat} (hg : greatest ≤ 255) :
    (characterCodec greatest).ReadsBack := by
  intro s bs h
  simp only [characterCodec] at h
  split at h
  case isFalse => cases h
  case isTrue hs =>
    cases ho : characterOctets greatest s.toList with
    | error fault =>
      rw [ho] at h
      cases h
    | ok os =>
      rw [ho] at h
      obtain rfl := Except.ok.inj h
      have hl := length_characterOctets ho
      simp only [characterCodec]
      rw [if_pos (by rw [List.length_append, List.length_replicate]; omega),
        characterText_characterOctets hg ho]
      exact congrArg Except.ok String.ofList_toList

end BuildingBus.Datapoint
