import BuildingBus.Proofs.Text.Utf8
import BuildingBus.Text.Blank
import BuildingBus.Text.Case
import Mathlib.Data.List.Forall2

/-!
# Texts that differ in ASCII case

The lower case of a text does not depend on the case of its ASCII letters (`lower_congr`). This is
more than a fact about single characters: what becomes of a capital sigma depends on the characters
around it. But an ASCII letter is cased and not case-ignorable in either case, so that a sigma meets
the same kind of neighbour through both texts (`meetsCased_congr`).

Trimming goes along with this, as no letter is blank (`trim_congr`).
-/

namespace BuildingBus.Text

/-! ## Characters -/

/-- The second character is the first one, perhaps with its case changed if it is an ASCII letter. -/
def Recased (c d : Char) : Prop := d = c ∨ d = asciiLowerChar c ∨ d = asciiUpperChar c

/-- Two characters have the same lower case and do the same to their neighbours. The second part
matters for a sigma, whose lower case depends on what stands around it. -/
structure CaseAlike (c d : Char) : Prop where
  /-- both are blank or neither is -/
  blank : isBlank c = isBlank d
  /-- both are cased or neither is -/
  cased : isCased c = isCased d
  /-- both are passed over or neither is -/
  ignorable : isCaseIgnorable c = isCaseIgnorable d
  /-- they have one lower case -/
  lower : lowerChar c = lowerChar d
  /-- both are a capital sigma or neither is -/
  sigma : c = 'Σ' ↔ d = 'Σ'

section

variable {c d : Char}

theorem CaseAlike.refl (c : Char) : CaseAlike c c := ⟨rfl, rfl, rfl, rfl, .rfl⟩

theorem CaseAlike.symm (h : CaseAlike c d) : CaseAlike d c :=
  ⟨h.blank.symm, h.cased.symm, h.ignorable.symm, h.lower.symm, h.sigma.symm⟩

/-- The capital ASCII letters and the small ones, pair by pair. -/
theorem letters_alike : ∀ k < 26,
    isBlank (.ofNat (65 + k)) = isBlank (.ofNat (97 + k)) ∧
    isCased (.ofNat (65 + k)) = isCased (.ofNat (97 + k)) ∧
    isCaseIgnorable (.ofNat (65 + k)) = isCaseIgnorable (.ofNat (97 + k)) ∧
    lowerChar (.ofNat (65 + k)) = lowerChar (.ofNat (97 + k)) ∧
    (Char.ofNat (65 + k) = 'Σ' ↔ Char.ofNat (97 + k) = 'Σ') := by
  decide

theorem le_iff_toNat_le : c ≤ d ↔ c.toNat ≤ d.toNat :=
  UInt32.le_iff_toNat_le

/-- A capital ASCII letter does what the small one does, both to itself and to a sigma beside it. -/
theorem CaseAlike.of_toNat (hc : 65 ≤ c.toNat ∧ c.toNat ≤ 90) (hd : d.toNat = c.toNat + 32) :
    CaseAlike c d := by
  obtain ⟨k, hk⟩ := Nat.exists_eq_add_of_le hc.1
  have hl := letters_alike k (by omega)
  rw [← hk, show 97 + k = d.toNat by omega, Char.ofNat_toNat, Char.ofNat_toNat] at hl
  obtain ⟨hb, hcased, hi, hlower, hs⟩ := hl
  exact ⟨hb, hcased, hi, hlower, hs⟩

/-- A change of ASCII case keeps what a character does, so that texts may be compared character by
character. -/
theorem Recased.alike (h : Recased c d) : CaseAlike c d := by
  rcases h with rfl | rfl | rfl
  · exact .refl d
  · unfold asciiLowerChar
    split
    case isTrue hletter =>
      have hc : 65 ≤ c.toNat ∧ c.toNat ≤ 90 := hletter.imp le_iff_toNat_le.mp le_iff_toNat_le.mp
      exact .of_toNat hc (Utf8.toNat_charOfNat (.inl (by omega)))
    case isFalse => exact .refl c
  · unfold asciiUpperChar
    split
    case isTrue hletter =>
      have hc : 97 ≤ c.toNat ∧ c.toNat ≤ 122 := hletter.imp le_iff_toNat_le.mp le_iff_toNat_le.mp
      have hd : (Char.ofNat (c.toNat - 32)).toNat = c.toNat - 32 :=
        Utf8.toNat_charOfNat (.inl (by omega))
      exact .symm (.of_toNat (by omega) (by omega))
    case isFalse => exact .refl c

end

/-! ## Texts -/

section

variable {s t before before' : List Char}

/-- Related lists stay so without their fronts if related elements are both dropped or both kept. -/
theorem forall₂_dropWhile {α : Type} {r : α → α → Prop} {p : α → Bool} {s t : List α}
    (hp : ∀ c d, r c d → p c = p d) (h : List.Forall₂ r s t) :
    List.Forall₂ r (s.dropWhile p) (t.dropWhile p) := by
  induction h with
  | nil => exact .nil
  | @cons c d s t hcd hst ih =>
    rw [List.dropWhile_cons, List.dropWhile_cons, hp c d hcd]
    split
    · exact ih
    · exact .cons hcd hst

/-- Texts that are alike are alike after trimming. -/
theorem trim_congr (h : List.Forall₂ CaseAlike s t) :
    List.Forall₂ CaseAlike (trim s) (trim t) := by
  have hblank : ∀ c d, CaseAlike c d → isBlank c = isBlank d := fun _ _ => CaseAlike.blank
  have hs := forall₂_dropWhile hblank h
  exact List.rel_reverse (forall₂_dropWhile hblank (List.rel_reverse hs))

/-- A sigma meets a cased character through both of two texts that are alike, or through neither. -/
theorem meetsCased_congr (h : List.Forall₂ CaseAlike s t) : meetsCased s = meetsCased t := by
  have hd := forall₂_dropWhile (p := isCaseIgnorable) (fun _ _ hc => CaseAlike.ignorable hc) h
  unfold meetsCased
  revert hd
  generalize s.dropWhile isCaseIgnorable = u
  generalize t.dropWhile isCaseIgnorable = v
  rintro (_ | ⟨hc, -⟩)
  · rfl
  · exact hc.cased

/-- Texts that are alike have one lower case, between texts that are alike. -/
theorem lowerAfter_congr (hb : List.Forall₂ CaseAlike before before')
    (h : List.Forall₂ CaseAlike s t) : lowerAfter before s = lowerAfter before' t := by
  induction h generalizing before before' with
  | nil => rfl
  | @cons c d s t hcd hst ih =>
    have hc : lowerBetween before c s = lowerBetween before' d t := by
      rw [lowerBetween, lowerBetween, meetsCased_congr hb, meetsCased_congr hst, hcd.lower,
        if_congr hcd.sigma rfl rfl]
    rw [lowerAfter, lowerAfter, hc, ih (.cons hcd hb)]

/-- Texts that are alike have one lower case. It does not follow from the characters alone, since a
sigma looks at those around it. -/
theorem lower_congr (h : List.Forall₂ CaseAlike s t) : lower s = lower t :=
  lowerAfter_congr .nil h

/-- A text of ASCII characters without capital letters is its own lower case. -/
theorem lower_eq_self (h : ∀ c ∈ s, c.toNat < 128 ∧ asciiLowerChar c = c) : lower s = s := by
  suffices hs : ∀ before, lowerAfter before s = s from hs []
  induction s with
  | nil => exact fun _ => rfl
  | cons c s ih =>
    intro before
    rw [List.forall_mem_cons] at h
    obtain ⟨⟨hlt, hc⟩, hs⟩ := h
    have hsigma : c ≠ 'Σ' := by
      rintro rfl
      exact absurd hlt (by decide)
    rw [lowerAfter, ih hs, lowerBetween, if_neg hsigma, lowerChar, if_pos hlt, hc,
      List.singleton_append]

end

end BuildingBus.Text
