import BuildingBus.Catalog.Plan
import BuildingBus.Proofs.Catalog.Checks
import BuildingBus.Proofs.Datapoint.Identifiers

/-!
# Texts of declarations

The texts that a group is declared with are read back: its address from the decimal number of it
(`readAddress_toDigits`), and its datapoint types from their identifiers with commas between them
(`readTypes_joined`).
-/

namespace BuildingBus

open Address Catalog Datapoint Number Text

/-! ## Trimming and cutting -/

namespace Text

/-- A text that starts with a character that is not blank is not blank. -/
theorem trim_cons_ne_nil {c : Char} (h : isBlank c = false) (s : List Char) :
    trim (c :: s) ≠ [] := by
  intro hn
  have hs : trimStart (c :: s) = c :: s := trimStart_eq_self fun d hd => Option.some.inj hd ▸ h
  obtain ⟨t, ht, hb⟩ := trimEnd_append_blanks (c :: s)
  rw [trim, hs] at hn
  rw [hn, List.nil_append] at ht
  have hc := hb c (ht ▸ .head _)
  rw [h] at hc
  cases hc

theorem trim_space_cons (s : List Char) : trim (' ' :: s) = trim s := rfl

/-- Fields written with a comma and a space are cut at the comma; the space stays. -/
theorem fields_join_comma {f : List Char} {fs : List (List Char)} (h : ∀ t ∈ f :: fs, ',' ∉ t) :
    fields ',' (join ", ".toList (f :: fs)) = f :: fs.map (' ' :: ·) := by
  induction fs generalizing f with
  | nil => exact fields_of_not_mem (h f (.head _))
  | cons g fs ih =>
    have hi := ih (f := g) fun t ht => h t (.tail _ ht)
    have hj : join ", ".toList (f :: g :: fs) = f ++ ',' :: ' ' :: join ", ".toList (g :: fs) := by
      rw [join_cons_cons _ _ (List.cons_ne_nil g fs), List.append_assoc]
      rfl
    rw [hj, fields_append_cons (h f (.head _)), fields, if_neg (by decide), hi]
    rfl

end Text

namespace Catalog

/-! ## Addresses -/

/-- An address other than zero is read from its decimal number, which is the form that documents
have it in, whatever the style. -/
theorem readAddress_toDigits {a : GroupAddress} (h : a.isZero = false) {text : String}
    (ht : text.toList = Nat.toDigits 10 a.raw.toNat) : readAddress text = .ok a := by
  have hne : a.raw ≠ 0 := ne_of_beq_false h
  have hr := GroupAddress.scheme_balanced.read_write .free hne
  -- written as one field, an address is its decimal number
  have hw : GroupAddress.scheme.write .free a.raw = Nat.toDigits 10 a.raw.toNat := by
    simp [Scheme.write, Scheme.writeFields, Scheme.limitsOf, decompose, capacity, join]
  rw [readAddress_eq_ok_iff, ht, trim_toDigits, ← hw, hr]

end Catalog

/-! ## Datapoint types -/

namespace Datapoint.TypeId

/-- Identifiers with commas between them begin with the keyword. -/
theorem exists_join (id : TypeId) (ids : List TypeId) :
    ∃ s, join ", ".toList ((id :: ids).map (·.exchangeText.toList)) = 'D' :: s := by
  have hd : "DPST-".toList = 'D' :: "PST-".toList := by decide
  cases ids with
  | nil =>
    rw [List.map_cons, List.map_nil, join, toList_exchangeText, hd]
    exact ⟨_, rfl⟩
  | cons next ids =>
    rw [List.map_cons, List.map_cons, join_cons_cons _ _ (List.cons_ne_nil _ _),
      toList_exchangeText, hd]
    exact ⟨_, rfl⟩

end Datapoint.TypeId

namespace Catalog

theorem readType_exchangeText {id : TypeId} (h : Registry.contains id = true) {field : List Char}
    (hf : trim field = trim id.exchangeText.toList) : readType (String.ofList field) = .ok id := by
  rw [readType_eq_ok_iff, String.toList_ofList, TypeId.read_eq_some_iff, hf]
  exact ⟨TypeId.read_eq_some_iff.mp id.read_exchangeText, h⟩

/-- Registered types are read from their identifiers with commas between them, as documents have
them; none from none. -/
theorem readTypes_joined {types : List TypeId} (h : ∀ id ∈ types, Registry.contains id = true) :
    readTypes (joined ", " (types.map TypeId.exchangeText)) = .ok types := by
  cases types with
  | nil => rfl
  | cons id ids =>
    have hc : ∀ t ∈ (id :: ids).map (·.exchangeText.toList), ',' ∉ t := by
      intro t ht hm
      obtain ⟨o, -, rfl⟩ := List.mem_map.mp ht
      exact absurd (TypeId.isCodeChar_of_mem hm) (by decide)
    have hl : (joined ", " ((id :: ids).map TypeId.exchangeText)).toList =
        join ", ".toList ((id :: ids).map (·.exchangeText.toList)) := by
      rw [joined, String.toList_ofList, List.map_map]
      rfl
    have hne : trim (join ", ".toList ((id :: ids).map (·.exchangeText.toList))) ≠ [] := by
      obtain ⟨s, hs⟩ := TypeId.exists_join id ids
      rw [hs]
      exact trim_cons_ne_nil (by decide) s
    rw [readTypes, hl, if_neg hne, List.map_cons, fields_join_comma hc, List.map_map,
      mapM_eq_ok_iff]
    -- all fields but the first begin with the space that stands after the comma
    refine .cons (readType_exchangeText (h id (.head _)) rfl) ?_
    refine List.forall₂_map_left_iff.mpr (List.forall₂_same.mpr fun o ho => ?_)
    exact readType_exchangeText (h o (.tail _ ho)) (trim_space_cons _)

end Catalog

end BuildingBus
