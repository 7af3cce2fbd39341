import BuildingBus.Exchange.Import
import BuildingBus.Proofs.Catalog.Checks
import BuildingBus.Proofs.Catalog.Index

/-!
# Catalogs are sound

Whatever way a catalog is obtained, its groups are well-formed, no two of them share a name or an
address, and its indexes find exactly them (`Obtained.sound_and_found`).

The indexes hold positions, and a key that is inserted twice loses its first position; so it has to
be shown that building never adds a group whose name or address is taken. `Sound` says that both
indexes track the groups. The checks of an entry look up just what the next step needs to be new,
hence `Sound` holds after every step of building (`Sound.add`), after the whole walk
(`Sound.assemble`), and, since styles do not touch it, in every catalog that can be `Obtained`.
-/

namespace BuildingBus.Catalog

open Address Datapoint Exchange Text

/-! ## The invariant -/

/-- The groups are well-formed, and the indexes have their positions. What is found in a sound
catalog is what its list of groups says. -/
structure Sound (c : Catalog) : Prop where
  /-- each group is well-formed -/
  groups : ∀ g ∈ c.groups, g.Sound
  /-- the first index has the positions by name -/
  names : c.nameIndex.Tracks (fun g => nameKey g.name) c.groups
  /-- the second index has the positions by address -/
  addresses : c.addressIndex.Tracks Group.address c.groups

namespace Sound

variable {c : Catalog}

/-- A sound catalog finds by name the group that has the name. -/
theorem lookup_eq_some_iff (h : c.Sound) {name : String} {g : Group} :
    c.lookup name = some g ↔ g ∈ c.groups ∧ nameKey g.name = nameKey name :=
  h.names.find_eq_some_iff

theorem lookup_eq_none_iff (h : c.Sound) {name : String} :
    c.lookup name = none ↔ ∀ g ∈ c.groups, nameKey g.name ≠ nameKey name :=
  h.names.find_eq_none_iff

/-- A sound catalog finds by address the group that has the address. -/
theorem lookupAddress_eq_some_iff (h : c.Sound) {a : GroupAddress} {g : Group} :
    c.lookupAddress a = some g ↔ g ∈ c.groups ∧ g.address = a :=
  h.addresses.find_eq_some_iff

theorem lookupAddress_eq_none_iff (h : c.Sound) {a : GroupAddress} :
    c.lookupAddress a = none ↔ ∀ g ∈ c.groups, g.address ≠ a :=
  h.addresses.find_eq_none_iff

/-! ## Building -/

/-- A catalog without groups is sound. -/
theorem of_nil {groupStyle individualStyle : Style} :
    Sound { groupStyle, individualStyle } where
  groups _ hg := absurd hg List.not_mem_nil
  names := Index.tracks_nil
  addresses := Index.tracks_nil

/-- A well-formed group with a new name and a new address may be added. -/
theorem push (h : c.Sound) {g : Group} (hg : g.Sound) (hn : c.lookup g.name = none)
    (ha : c.lookupAddress g.address = none) : (c.push g).Sound where
  groups b hb := by
    rcases List.mem_append.mp hb with hb | hb
    · exact h.groups b hb
    · exact List.mem_singleton.mp hb ▸ hg
  names := h.names.push (h.lookup_eq_none_iff.mp hn)
  addresses := h.addresses.push (h.lookupAddress_eq_none_iff.mp ha)

/-- One step of building. The checks see to it that both keys of the new group are new. -/
theorem add (h : c.Sound) {e : LocatedEntry} (he : e.Sound) {c' : Catalog}
    (ha : Catalog.add c e = .ok c') : c'.Sound := by
  obtain ⟨g, hg, rfl⟩ := add_eq_ok_iff.mp ha
  exact h.push (hg.sound he) hg.name_new hg.address_new

/-- All steps of building: the checks are made against a sound catalog each time, so that what is
added keeps it sound. -/
theorem foldlM_add (h : c.Sound) {es : List LocatedEntry} (hes : ∀ e ∈ es, e.Sound) {c' : Catalog}
    (ha : es.foldlM Catalog.add c = .ok c') : c'.Sound := by
  induction es generalizing c with
  | nil =>
    obtain rfl := Except.ok.inj ha
    exact h
  | cons e es ih =>
    rw [List.foldlM_cons] at ha
    obtain ⟨d, hd, ha⟩ := bind_eq_ok_iff.mp ha
    exact ih (h.add (hes e (.head _)) hd) (fun x hx => hes x (.tail _ hx)) ha

/-- What is assembled from a forest is sound, whatever the forest: an unsound one would have been
rejected. -/
theorem assemble {p : Plan} (h : p.assemble = .ok c) : c.Sound := by
  rw [Plan.assemble_eq] at h
  exact of_nil.foldlM_add (sound_of_mem_forest p.ranges) h

theorem withGroupStyle (h : c.Sound) (style : Style) : (c.withGroupStyle style).Sound :=
  ⟨h.groups, h.names, h.addresses⟩

theorem withIndividualStyle (h : c.Sound) (style : Style) : (c.withIndividualStyle style).Sound :=
  ⟨h.groups, h.names, h.addresses⟩

end Sound

/-! ## The ways to a catalog -/

/-- Building answers with what is assembled. The report of a rejection does not change the answer.
-/
theorem answer_build (p : Plan) : p.build.answer = p.assemble := by
  unfold Plan.build
  cases p.assemble <;> rfl

/-- A catalog that is built, with what was computed from it. -/
theorem exists_build {α : Type} {p : Plan} {f : Catalog → α} {a : α}
    (h : p.build.answer.toOption.map f = some a) : ∃ c, p.build.answer = .ok c ∧ f c = a := by
  cases hb : p.build.answer with
  | error r =>
    rw [hb] at h
    cases h
  | ok c =>
    rw [hb] at h
    exact ⟨c, rfl, Option.some.inj h⟩

/-- Importing builds from the ranges of the document, and answers with a catalog exactly if there
are ranges and building accepts them. -/
theorem answer_importWith_eq_ok_iff {d : Delivery} {config : Configuration} {c : Catalog} :
    (importWith d config).answer = .ok c ↔ ∃ ranges, d.ranges = .ok ranges ∧
      Plan.assemble ⟨ranges, config.groupStyle, config.individualStyle⟩ = .ok c := by
  unfold importWith
  rw [Logged.answer_bind]
  cases d.ranges with
  | error fault =>
    rw [Logged.answer_bind]
    exact ⟨nofun, nofun⟩
  | ok ranges =>
    simp only [Except.ok.injEq, exists_eq_left']
    rw [Logged.answer_bind, answer_build]
    cases Plan.assemble ⟨ranges, config.groupStyle, config.individualStyle⟩ with
    | error r => exact ⟨nofun, nofun⟩
    | ok c' =>
      rw [Logged.answer_bind, Logged.answer_pure, Except.ok.injEq, Except.ok.injEq]

/-- The catalogs that can be obtained: a new one, one that is built or imported, and each of them
after any changes of its styles. -/
inductive Obtained : Catalog → Prop where
  /-- a new catalog -/
  | new : Obtained {}
  /-- a catalog that is built -/
  | built {p : Plan} {c : Catalog} (h : p.build.answer = .ok c) : Obtained c
  /-- a catalog that is imported -/
  | imported {d : Delivery} {c : Catalog} (h : (importDocument d).answer = .ok c) : Obtained c
  /-- a catalog that is imported with configured styles -/
  | importedWith {d : Delivery} {config : Configuration} {c : Catalog}
      (h : (importWith d config).answer = .ok c) : Obtained c
  /-- a catalog whose style of group addresses is changed -/
  | withGroupStyle {c : Catalog} (h : Obtained c) (style : Style) :
      Obtained (c.withGroupStyle style)
  /-- a catalog whose style of individual addresses is changed -/
  | withIndividualStyle {c : Catalog} (h : Obtained c) (style : Style) :
      Obtained (c.withIndividualStyle style)

namespace Obtained

variable {c : Catalog}

/-- Every catalog that can be obtained is sound. Of all ways to a catalog only building adds groups.
-/
theorem sound (h : Obtained c) : c.Sound := by
  induction h with
  | new => exact Sound.of_nil
  | built h => exact Sound.assemble (answer_build _ ▸ h)
  | imported h =>
    obtain ⟨ranges, -, hc⟩ := answer_importWith_eq_ok_iff.mp h
    exact Sound.assemble hc
  | importedWith h =>
    obtain ⟨ranges, -, hc⟩ := answer_importWith_eq_ok_iff.mp h
    exact Sound.assemble hc
  | withGroupStyle _ style ih => exact ih.withGroupStyle style
  | withIndividualStyle _ style ih => exact ih.withIndividualStyle style

/-- **Groups are well-formed, told apart, and found.** In a catalog that can be obtained, every
group has a name without blank ends that is not empty, an address other than zero, a path that is
not empty, and registered types alone; no two groups have names with one key, or one address; and
by a name, or by an address, exactly the group that has it is found. -/
theorem sound_and_found (h : Obtained c) :
    (∀ g ∈ c.groups, trimmed g.name = g.name ∧ g.name ≠ "" ∧ g.address.isZero = false ∧
      g.path ≠ [] ∧ ∀ id ∈ g.types, Registry.contains id = true) ∧
    c.groups.Pairwise (fun g b => nameKey g.name ≠ nameKey b.name) ∧
    c.groups.Pairwise (fun g b => g.address ≠ b.address) ∧
    (∀ name g, c.lookup name = some g ↔ g ∈ c.groups ∧ nameKey g.name = nameKey name) ∧
    (∀ name, c.lookup name = none ↔ ∀ g ∈ c.groups, nameKey g.name ≠ nameKey name) ∧
    (∀ a g, c.lookupAddress a = some g ↔ g ∈ c.groups ∧ g.address = a) := by
  have hs := h.sound
  refine ⟨?_, hs.names.pairwise, hs.addresses.pairwise, ?_, ?_, ?_⟩
  · intro g hg
    have hg := hs.groups g hg
    exact ⟨hg.name_trimmed, hg.name_ne, hg.address_ne, hg.path_ne, hg.registered⟩
  · exact fun _ _ => hs.lookup_eq_some_iff
  · exact fun _ => hs.lookup_eq_none_iff
  · exact fun _ _ => hs.lookupAddress_eq_some_iff

/-- Two groups in nested ranges, in a catalog whose style is changed after it is built: the name
with other case and blank ends, and the address, find the inner group. -/
theorem sound_and_found_nested :
    let inner : GroupRange := .mk " " [⟨"Ä B", "1/1/2", ""⟩] []
    let p : Plan :=
      ⟨[.mk "House" [⟨" Light", "1", "DPST-1-1, 9.001"⟩] [inner]], .free, .unspecified⟩
    ∃ c g, p.build.answer = .ok c ∧ Obtained (c.withGroupStyle .twoLevel) ∧
      (c.withGroupStyle .twoLevel).groups.length = 2 ∧ g.path = ["House", ""] ∧
      (c.withGroupStyle .twoLevel).lookup " ä b" = some g ∧
      (c.withGroupStyle .twoLevel).lookupAddress ⟨2306⟩ = some g := by
  intro inner p
  obtain ⟨c, hc, hn⟩ : ∃ c, p.build.answer = .ok c ∧
      c.groups = [⟨"Light", ⟨1⟩, [⟨1, 1⟩, ⟨9, 1⟩], ["House"], .free⟩,
        ⟨"Ä B", ⟨2306⟩, [], ["House", ""], .free⟩] :=
    exists_build (by decide +kernel)
  have ho : Obtained (c.withGroupStyle .twoLevel) := (built hc).withGroupStyle .twoLevel
  have hg : (c.withGroupStyle .twoLevel).groups = c.groups := rfl
  obtain ⟨-, -, -, hl, -, ha⟩ := sound_and_found ho
  refine ⟨c, ⟨"Ä B", ⟨2306⟩, [], ["House", ""], .free⟩, hc, ho, by rw [hg, hn]; rfl, rfl, ?_, ?_⟩
  · exact (hl _ _).mpr ⟨by rw [hg, hn]; exact .tail _ (.head _), by decide +kernel⟩
  · exact (ha _ _).mpr ⟨by rw [hg, hn]; exact .tail _ (.head _), rfl⟩

end Obtained

end BuildingBus.Catalog
