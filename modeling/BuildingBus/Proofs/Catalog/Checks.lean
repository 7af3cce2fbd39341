import BuildingBus.Proofs.Address.Texts
import BuildingBus.Proofs.Catalog.Walk

/-!
# The checks of an entry

What an entry has to fulfil to become a group, with one condition for each check that building
makes: `checkEntry_eq_ok_iff`. The groups that pass are well-formed on their own, whatever the
catalog that they are added to (`Admitted.sound`).
-/

namespace BuildingBus.Catalog

open Address Datapoint Text

/-! ## Addresses and types -/

theorem readAddress_eq_ok_iff {text : String} {a : GroupAddress} :
    readAddress text = .ok a ↔ GroupAddress.scheme.read (trim text.toList) = .ok a.raw := by
  unfold readAddress GroupAddress.parse
  rw [toList_trimmed]
  cases GroupAddress.scheme.read (trim text.toList) with
  | ok raw =>
    obtain ⟨raw'⟩ := a
    simp
  | error fault => cases fault <;> simp [ReadFault.toError]

theorem readType_eq_ok_iff {field : String} {id : TypeId} :
    readType field = .ok id ↔ TypeId.read field.toList = some id ∧ Registry.contains id = true := by
  unfold readType TypeId.parse
  cases TypeId.read field.toList with
  | none => simp
  | some id' =>
    dsimp only
    by_cases hc : Registry.contains id' = true
    · rw [if_pos hc, Except.ok.injEq, Option.some.injEq]
      exact ⟨fun h => ⟨h, h ▸ hc⟩, fun h => h.1⟩
    · rw [if_neg hc, Option.some.injEq]
      exact ⟨nofun, fun ⟨h, h'⟩ => absurd (h ▸ h') hc⟩

/-- A text names the types that its fields write; a blank one names none. -/
theorem readTypes_eq_ok_iff {text : String} {types : List TypeId} :
    readTypes text = .ok types ↔
      (trim text.toList = [] ∧ types = []) ∨
      (trim text.toList ≠ [] ∧ List.Forall₂
        (fun field id => TypeId.read field = some id ∧ Registry.contains id = true)
        (fields ',' text.toList) types) := by
  unfold readTypes
  split
  case isTrue h =>
    simp only [h, true_and, ne_eq, not_true_eq_false, false_and, or_false, Except.ok.injEq]
    exact eq_comm
  case isFalse h =>
    simp only [h, false_and, ne_eq, not_false_eq_true, true_and, false_or, mapM_eq_ok_iff,
      readType_eq_ok_iff, String.toList_ofList]

/-- Types that are read are registered. -/
theorem registered_of_readTypes {text : String} {types : List TypeId}
    (h : readTypes text = .ok types) : ∀ id ∈ types, Registry.contains id = true := by
  have hr := readTypes_eq_ok_iff.mp h
  clear h
  rcases hr with ⟨-, rfl⟩ | ⟨-, h⟩
  · exact fun id hid => absurd hid List.not_mem_nil
  · generalize fields ',' text.toList = fs at h
    induction h with
    | nil => exact fun id hid => absurd hid List.not_mem_nil
    | cons hx _ ih =>
      intro id hid
      rcases List.mem_cons.mp hid with rfl | hid
      · exact hx.2
      · exact ih id hid

/-! ## Entries -/

/-- What the checks of an entry ask for, of the entry, the catalog and the group it becomes. There
is one field for each check, in whatever order they are made. -/
structure Admitted (c : Catalog) (e : LocatedEntry) (g : Group) : Prop where
  /-- the name of the entry is that of the group -/
  name_eq : g.name = trimmed e.entry.name
  /-- the name is not blank -/
  name_ne : g.name ≠ ""
  /-- no listed group has the name -/
  name_new : c.lookup g.name = none
  /-- the address of the entry is that of the group -/
  address_eq : readAddress e.entry.address = .ok g.address
  /-- the types of the entry are those of the group -/
  types_eq : readTypes e.entry.types = .ok g.types
  /-- no listed group has the address -/
  address_new : c.lookupAddress g.address = none
  /-- the group stands where the entry does -/
  path_eq : g.path = e.path
  /-- the group has the style of the catalog -/
  style_eq : g.style = c.groupStyle

/-- An entry passes the checks exactly if it is admitted, and then it becomes the group that it is
admitted as. -/
theorem checkEntry_eq_ok_iff {c : Catalog} {e : LocatedEntry} {g : Group} :
    checkEntry c e = .ok g ↔ Admitted c e g := by
  simp only [checkEntry, check_eq_ok_iff, bind_eq_ok_iff, Bool.not_eq_true,
    Option.isSome_eq_false_iff, Option.isNone_iff_eq_none]
  constructor
  · rintro ⟨hn, hl, a, ha, types, ht, hla, h⟩
    obtain rfl := Except.ok.inj h
    exact ⟨rfl, hn, hl, ha, ht, hla, rfl, rfl⟩
  · intro h
    obtain ⟨name, a, types, path, style⟩ := g
    obtain rfl := h.name_eq
    obtain rfl := h.path_eq
    obtain rfl := h.style_eq
    exact ⟨h.name_ne, h.name_new, a, h.address_eq, types, h.types_eq, h.address_new, rfl⟩

/-- An entry is added exactly if it is admitted as some group, which then stands at the end. -/
theorem add_eq_ok_iff {c c' : Catalog} {e : LocatedEntry} :
    add c e = .ok c' ↔ ∃ g, Admitted c e g ∧ c' = c.push g := by
  simp only [← checkEntry_eq_ok_iff, add]
  cases checkEntry c e with
  | ok g =>
    simp only [Except.ok.injEq]
    exact ⟨fun h => ⟨g, rfl, h.symm⟩, fun ⟨g', hg, h⟩ => hg ▸ h.symm⟩
  | error cause => simp

/-- An entry is rejected exactly if it fails a check, and for that cause. -/
theorem add_eq_error_iff {c : Catalog} {e : LocatedEntry} {r : Rejection} :
    add c e = .error r ↔ ∃ cause, checkEntry c e = .error cause ∧ r = e.rejection cause := by
  unfold add
  cases checkEntry c e with
  | ok g => simp
  | error cause => simp [eq_comm]

/-! ## Groups -/

/-- A group that is well-formed on its own: what can be said of it without the catalog that it is
in. Every group that passes the checks is. -/
structure Group.Sound (g : Group) : Prop where
  /-- the name has no blank ends -/
  name_trimmed : trimmed g.name = g.name
  /-- the name is not empty -/
  name_ne : g.name ≠ ""
  /-- the address is not zero -/
  address_ne : g.address.isZero = false
  /-- it stands in a range -/
  path_ne : g.path ≠ []
  /-- the ranges that enclose it have names without blank ends -/
  path_trimmed : ∀ name ∈ g.path, trimmed name = name
  /-- its types are registered -/
  registered : ∀ id ∈ g.types, Registry.contains id = true

/-- An entry stands in a range, and the ranges around it have names without blank ends. -/
structure LocatedEntry.Sound (e : LocatedEntry) : Prop where
  /-- it stands in a range -/
  path_ne : e.path ≠ []
  /-- the names of the ranges have no blank ends -/
  path_trimmed : ∀ name ∈ e.path, trimmed name = name

theorem trimmed_trimmed (s : String) : trimmed (trimmed s) = trimmed s := by
  rw [trimmed, toList_trimmed, trim_trim, ← trimmed]

/-- What is admitted is well-formed, provided that its entry stands in a range whose names have no
blank ends. -/
theorem Admitted.sound {c : Catalog} {e : LocatedEntry} {g : Group} (h : Admitted c e g)
    (he : e.Sound) : g.Sound where
  name_trimmed := by rw [h.name_eq, trimmed_trimmed]
  name_ne := h.name_ne
  address_ne := by
    have hr := GroupAddress.scheme_balanced.raw_ne_zero_of_read (readAddress_eq_ok_iff.mp h.address_eq)
    exact beq_eq_false_iff_ne.mpr hr
  path_ne := h.path_eq ▸ he.path_ne
  path_trimmed := h.path_eq ▸ he.path_trimmed
  registered := registered_of_readTypes h.types_eq

/-! ## Forests -/

mutual

/-- The entries of a range stand in it, and in the ranges around it. -/
theorem GroupRange.sound_of_mem_located {above : List String}
    (ha : ∀ name ∈ above, trimmed name = name) :
    ∀ (r : GroupRange), ∀ e ∈ r.located above, e.Sound
  | .mk name entries ranges, e, he => by
    have hp : ∀ n ∈ above ++ [trimmed name], trimmed n = n := by
      intro n hn
      rcases List.mem_append.mp hn with hn | hn
      · exact ha n hn
      · rw [List.mem_singleton.mp hn, trimmed_trimmed]
    rw [GroupRange.located, List.mem_append] at he
    rcases he with he | he
    · obtain ⟨entry, -, rfl⟩ := List.mem_map.mp he
      exact ⟨by simp, hp⟩
    · exact sound_of_mem_locatedAll hp ranges e he

/-- The entries of a forest stand in ranges: no entry comes into a forest but by a range. -/
theorem sound_of_mem_locatedAll {above : List String} (ha : ∀ name ∈ above, trimmed name = name) :
    ∀ (rs : List GroupRange), ∀ e ∈ locatedAll above rs, e.Sound
  | [], e, he => absurd he List.not_mem_nil
  | r :: rs, e, he => by
    rw [locatedAll, List.mem_append] at he
    rcases he with he | he
    · exact GroupRange.sound_of_mem_located ha r e he
    · exact sound_of_mem_locatedAll ha rs e he

end

theorem sound_of_mem_forest (rs : List GroupRange) : ∀ e ∈ locatedAll [] rs, e.Sound :=
  sound_of_mem_locatedAll (fun _ hn => absurd hn List.not_mem_nil) rs

end BuildingBus.Catalog
