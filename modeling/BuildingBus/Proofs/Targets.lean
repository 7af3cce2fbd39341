import BuildingBus.Failure
import BuildingBus.Proofs.Telegrams
import BuildingBus.Proofs.Text.Case

/-!
# What a target stands for

A target is the name of a group or the text of an address, and it is tried as a name first. Names
are compared in lower case, addresses are read as they are, and blank ends do not matter to either.
An address text has digits and slashes alone and is its own key (`nameKey_format`), so that only a
group with this very key can stand in its way.

The main statement is `Obtained.resolve_laws`: in a catalog that can be obtained, a group is found
by its name and by the texts of its address, whatever is found is listed as it was found, and any
other target is refused for the fault that it has as an address.
-/

namespace BuildingBus.Catalog

open Address Number Text

/-! ## Address texts -/

section

variable {a : GroupAddress}

/-- An address text is made of digits and slashes. -/
theorem isDigit_or_of_mem_format {style : Style} {c : Char} (h : c ∈ (a.format style).toList) :
    c.isDigit = true ∨ c = '/' := by
  rw [GroupAddress.format, String.toList_ofList] at h
  rcases mem_or_exists_of_mem_join h with h | ⟨f, hf, hc⟩
  · exact .inr (List.mem_singleton.mp h)
  · obtain ⟨n, -, rfl⟩ := List.mem_map.mp hf
    exact .inl (isDigit_of_mem_toDigits hc)

theorem trim_format (a : GroupAddress) (style : Style) :
    trim (a.format style).toList = (a.format style).toList := by
  refine trim_eq_self fun c hc => ?_
  rcases isDigit_or_of_mem_format hc with h | rfl
  · exact isBlank_of_isDigit h
  · rfl

theorem lower_format (a : GroupAddress) (style : Style) :
    lower (a.format style).toList = (a.format style).toList := by
  refine lower_eq_self fun c hc => ?_
  rcases isDigit_or_of_mem_format hc with h | rfl
  · have hn := toNat_of_isDigit h
    have hA : ¬ 'A' ≤ c := fun hle => absurd (Nat.le_trans hle hn.2) (by decide)
    exact ⟨by omega, if_neg fun hc => hA hc.1⟩
  · decide

/-- An address text is its own key, whatever blank characters stand around it: digits and separators
have no lower case. So a group can have the text of an address as its name. -/
theorem nameKey_format {before after : List Char} (hb : ∀ c ∈ before, isBlank c = true)
    (ha : ∀ c ∈ after, isBlank c = true) (a : GroupAddress) (style : Style) :
    nameKey (.ofList (before ++ (a.format style).toList ++ after)) = a.format style := by
  rw [nameKey, String.toList_ofList, trim_append_blanks hb ha, trim_format, lower_format,
    String.ofList_toList]

end

/-! ## Targets -/

variable {c : Catalog} {target : String} {a : GroupAddress} {g : Group} {r : Rejection}

/-- A target that is a name stands for the group that has it. -/
theorem resolve_of_lookup (h : c.lookup target = some g) :
    c.resolve target = .ok (g.address, some g) := by
  simp only [resolve, h]

/-- A target that is no name is read as an address. -/
theorem resolve_of_parse (h : c.lookup target = none)
    (ha : GroupAddress.parse (trimmed target) = .ok a) :
    c.resolve target = .ok (a, c.lookupAddress a) := by
  simp only [resolve, h, ha]

/-- A target without a group is the text of an address. -/
theorem of_resolve_none (h : c.resolve target = .ok (a, none)) :
    GroupAddress.parse (trimmed target) = .ok a ∧ c.lookupAddress a = none := by
  unfold resolve at h
  split at h
  case h_1 => cases h
  case h_2 =>
    split at h
    case h_1 b hb =>
      obtain ⟨rfl, hn⟩ := Prod.mk.inj (Except.ok.inj h)
      exact ⟨hb, hn⟩
    case h_2 => cases h

/-- A target is refused if it is no name and no address. -/
theorem resolve_eq_error_iff : c.resolve target = .error r ↔ c.lookup target = none ∧
    ∃ e, GroupAddress.parse (trimmed target) = .error e ∧
      r = ⟨.unknownGroup e, trimmed target, ""⟩ := by
  unfold resolve
  cases c.lookup target with
  | some g => simp
  | none =>
    cases GroupAddress.parse (trimmed target) with
    | ok b => simp
    | error e => simp [eq_comm]

namespace Sound

/-- A group is found by its name. -/
theorem resolve_name (h : c.Sound) (hg : g ∈ c.groups) :
    c.resolve g.name = .ok (g.address, some g) :=
  resolve_of_lookup (h.lookup_eq_some_iff.mpr ⟨hg, rfl⟩)

/-- A group is found by the texts of its address that are no names. -/
theorem resolve_format (h : c.Sound) (hg : g ∈ c.groups) {style : Style}
    (hn : ∀ b ∈ c.groups, nameKey b.name ≠ g.address.format style) {before after : List Char}
    (hb : ∀ c ∈ before, isBlank c = true) (ha : ∀ c ∈ after, isBlank c = true) :
    c.resolve (.ofList (before ++ (g.address.format style).toList ++ after)) =
      .ok (g.address, some g) := by
  have hl : c.lookup (.ofList (before ++ (g.address.format style).toList ++ after)) = none := by
    rw [h.lookup_eq_none_iff, nameKey_format hb ha]
    exact hn
  have ht : trimmed (.ofList (before ++ (g.address.format style).toList ++ after)) =
      g.address.format style := by
    rw [trimmed, String.toList_ofList, trim_append_blanks hb ha, trim_format,
      String.ofList_toList]
  have hp := GroupAddress.parse_format (h.groups g hg).address_ne style
  rw [resolve_of_parse hl (ht ▸ hp), h.lookupAddress_eq_some_iff.mpr ⟨hg, rfl⟩]

end Sound

/-- **Targets and groups fit together**, in a catalog that can be obtained. A group is found by its
name, even if this looks like an address, and by the text of its address in each style, with any
blank characters around it, unless some group has that text as its key. A group that is found is
listed under the address that is found with it, and an address that is found without a group is not
zero and not listed. Only a target that is neither a name nor, without blank ends, an address is
refused, and then as that text and for its fault as an address. -/
theorem Obtained.resolve_laws (h : Obtained c) :
    (∀ g ∈ c.groups, c.resolve g.name = .ok (g.address, some g)) ∧
    (∀ g ∈ c.groups, ∀ style, (∀ b ∈ c.groups, nameKey b.name ≠ g.address.format style) →
      ∀ before after : List Char, (∀ c ∈ before, isBlank c = true) →
        (∀ c ∈ after, isBlank c = true) →
        c.resolve (.ofList (before ++ (g.address.format style).toList ++ after)) =
          .ok (g.address, some g)) ∧
    (∀ target a g, c.resolve target = .ok (a, some g) →
      g ∈ c.groups ∧ a = g.address ∧ c.lookupAddress a = some g) ∧
    (∀ target a, c.resolve target = .ok (a, none) →
      a.isZero = false ∧ ∀ g ∈ c.groups, g.address ≠ a) ∧
    ∀ target r, c.resolve target = .error r ↔
      (∀ g ∈ c.groups, nameKey g.name ≠ nameKey target) ∧
      ∃ e, GroupAddress.parse (trimmed target) = .error e ∧
        r = ⟨.unknownGroup e, trimmed target, ""⟩ ∧
        (Failure.catalog r).source? = some (.addressing e) := by
  have hs := h.sound
  refine ⟨fun g => hs.resolve_name, fun g hg style hn before after hb ha => ?_,
    fun target a g hr => ?_, fun target a hr => ?_, fun target r => ?_⟩
  · exact hs.resolve_format hg hn hb ha
  · obtain ⟨hg, rfl⟩ := hs.of_resolve hr
    exact ⟨hg, rfl, hs.lookupAddress_eq_some_iff.mpr ⟨hg, rfl⟩⟩
  · obtain ⟨hp, hn⟩ := of_resolve_none hr
    exact ⟨GroupAddress.isZero_of_parse hp, hs.lookupAddress_eq_none_iff.mp hn⟩
  · rw [resolve_eq_error_iff, hs.lookup_eq_none_iff]
    refine and_congr_right fun _ => exists_congr fun e => and_congr_right fun _ => ?_
    constructor
    · rintro rfl
      exact ⟨rfl, rfl⟩
    · exact And.left

/-- A group is named like the address of another one: the text in three levels is its name, and the
text in two levels finds the other group. -/
theorem Obtained.resolve_laws_shadowed :
    let named : Group := ⟨"1/1/2", ⟨2305⟩, [], ["House"], .free⟩
    let light : Group := ⟨"Light", ⟨2306⟩, [], ["House"], .free⟩
    let p : Plan := ⟨[.mk "House" [⟨"1/1/2", "1/1/1", ""⟩, ⟨"Light", "1/1/2", ""⟩] []], .free,
      .unspecified⟩
    let c : Catalog := (p.start.push named).push light
    Obtained c ∧ c.resolve "1/1/2" = .ok (⟨2305⟩, some named) ∧
      c.resolve " 1/258" = .ok (⟨2306⟩, some light) ∧ c.lookupAddress ⟨2306⟩ = some light ∧
      c.resolve "1/0" = .ok (⟨2048⟩, none) ∧ (∀ g ∈ c.groups, g.address ≠ ⟨2048⟩) ∧
      c.resolve " Dark" = .error ⟨.unknownGroup (.malformedGroup "Dark"), "Dark", ""⟩ := by
  intro named light p c
  have hb : p.build.answer = .ok c := by decide +kernel
  have hz : c.resolve "1/0" = .ok (⟨2048⟩, none) := by decide +kernel
  obtain ⟨hname, hformat, hsome, hnone, herror⟩ := resolve_laws (.built hb)
  have hl := hformat light (.tail _ (.head _)) .twoLevel (by decide +kernel) [' '] []
    (List.forall_mem_singleton.mpr rfl) (List.forall_mem_nil _)
  have ht : String.ofList ([' '] ++ (light.address.format .twoLevel).toList ++ []) = " 1/258" := by
    decide +kernel
  rw [ht] at hl
  have hd : c.resolve " Dark" = .error ⟨.unknownGroup (.malformedGroup "Dark"), "Dark", ""⟩ :=
    (herror " Dark" _).mpr ⟨by decide +kernel, _, by decide +kernel, by decide +kernel, rfl⟩
  exact ⟨.built hb, hname named (.head _), hl, (hsome _ _ _ hl).2.2, hz, (hnone _ _ hz).2, hd⟩

end BuildingBus.Catalog
