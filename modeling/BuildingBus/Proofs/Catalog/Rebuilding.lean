import BuildingBus.Proofs.Catalog.Branches
import BuildingBus.Proofs.Catalog.Soundness
import BuildingBus.Proofs.Catalog.Texts

/-!
# Declaring the groups of a catalog again

The groups of a catalog can be declared again, in the ranges that their branches are: a group is
declared with its name, the decimal number of its address and the identifiers of its types
(`Group.entry`). From this the same groups are built, in pre-order and with the style of the new
catalog (`assemble_rangesFor`).

Every check of an entry passes: the texts are read back, and as the groups are told apart, none of
the names and addresses is taken when its turn comes.
-/

namespace BuildingBus.Catalog

open Address Datapoint Text

/-! ## Declarations -/

/-- The declaration of a group, in the texts that an export writes for it: the number of its address
and the identifiers of its types. -/
def Group.entry (g : Group) : Entry where
  name := g.name
  address := toString g.address.raw.toNat
  types := joined ", " (g.types.map TypeId.exchangeText)

/-- The declaration of a group, in the ranges that enclose it. -/
def Group.located (g : Group) : LocatedEntry := ⟨g.path, g.entry⟩

/-- The group in another style. -/
def Group.restyled (style : Style) (g : Group) : Group := { g with style }

mutual

/-- The range that a branch is when it is declared, with the entries of its groups. Spans are not
part of a declaration. -/
def Branch.range : Branch → GroupRange
  | .mk name groups inner => .mk name (groups.map Group.entry) (rangesFor inner)

/-- The ranges that branches are. -/
def rangesFor : List Branch → List GroupRange
  | [] => []
  | b :: bs => b.range :: rangesFor bs

end

mutual

/-- The entries of the range of a branch declare its groups in pre-order. -/
theorem Branch.located_range {above : List String} : ∀ {b : Branch}, b.Placed above →
    b.range.located above = b.preorder.map Group.located
  | .mk name groups inner, ⟨ht, _, hg, hi⟩ => by
    have hown : (groups.map Group.entry).map (fun e => LocatedEntry.mk (above ++ [name]) e) =
        groups.map Group.located := by
      rw [List.map_map]
      refine List.map_congr_left fun g hm => ?_
      rw [Group.located, hg g hm]
      rfl
    rw [Branch.range, GroupRange.located, ht, Branch.preorder, List.map_append, hown,
      locatedAll_rangesFor hi]

/-- The entries of the ranges of branches declare their groups in pre-order. -/
theorem locatedAll_rangesFor {above : List String} : ∀ {bs : List Branch}, AllPlaced above bs →
    locatedAll above (rangesFor bs) = (preorderOf bs).map Group.located
  | [], _ => rfl
  | b :: bs, ⟨hb, _, hbs⟩ => by
    rw [rangesFor, locatedAll, preorderOf, List.map_append, b.located_range hb,
      locatedAll_rangesFor hbs]

end

/-! ## Checks -/

theorem Group.Sound.restyled {g : Group} (h : g.Sound) (style : Style) : (g.restyled style).Sound :=
  ⟨h.name_trimmed, h.name_ne, h.address_ne, h.path_ne, h.path_trimmed, h.registered⟩

/-- The declaration of a group is admitted where its name and its address are new. -/
theorem Group.Sound.admitted {c : Catalog} {g : Group} (h : g.Sound) (hn : c.lookup g.name = none)
    (ha : c.lookupAddress g.address = none) :
    Admitted c g.located (g.restyled c.groupStyle) where
  name_eq := h.name_trimmed.symm
  name_ne := h.name_ne
  name_new := hn
  address_eq := readAddress_toDigits h.address_ne String.toList_ofList
  types_eq := readTypes_joined h.registered
  address_new := ha
  path_eq := rfl
  style_eq := rfl

/-- A key in a list without equal keys is not one of those before it. -/
theorem ne_of_nodup {α κ : Type} {key : α → κ} {l : List α} {a : α} {as : List α}
    (h : ((l ++ a :: as).map key).Nodup) : ∀ b ∈ l, key b ≠ key a := by
  rw [List.map_append, List.nodup_append] at h
  exact fun b hb => h.2.2 (key b) (List.mem_map_of_mem hb) (key a) (.head _)

/-- Groups that are told apart, from each other and from those that are listed, can be declared. -/
theorem exists_foldlM_add {c : Catalog} (hc : c.Sound) {gs : List Group} (hs : ∀ g ∈ gs, g.Sound)
    (hn : ((c.groups ++ gs).map fun g => nameKey g.name).Nodup)
    (ha : ((c.groups ++ gs).map Group.address).Nodup) :
    ∃ c', (gs.map Group.located).foldlM add c = .ok c' ∧
      c'.groups = c.groups ++ gs.map (Group.restyled c.groupStyle) ∧
      c'.groupStyle = c.groupStyle ∧ c'.individualStyle = c.individualStyle := by
  induction gs generalizing c with
  | nil => exact ⟨c, rfl, (List.append_nil _).symm, rfl, rfl⟩
  | cons g gs ih =>
    have hg := hs g (.head _)
    have hname : c.lookup g.name = none := hc.lookup_eq_none_iff.mpr (ne_of_nodup hn)
    have haddress : c.lookupAddress g.address = none :=
      hc.lookupAddress_eq_none_iff.mpr (ne_of_nodup ha)
    have hadd : add c g.located = .ok (c.push (g.restyled c.groupStyle)) :=
      add_eq_ok_iff.mpr ⟨_, hg.admitted hname haddress, rfl⟩
    have hpush := hc.push (hg.restyled c.groupStyle) hname haddress
    -- the group that is pushed has another style, but the same name and address
    have hkeys {κ : Type} (key : Group → κ) (hk : key (g.restyled c.groupStyle) = key g) :
        ((c.push (g.restyled c.groupStyle)).groups ++ gs).map key =
          (c.groups ++ g :: gs).map key := by
      rw [groups_push, List.append_assoc, List.map_append, List.map_append, List.map_append,
        List.map_singleton, hk]
      rfl
    obtain ⟨c', hc', hgroups, hstyles⟩ := ih hpush (fun o ho => hs o (.tail _ ho))
      ((hkeys (fun g => nameKey g.name) rfl).symm ▸ hn) ((hkeys Group.address rfl).symm ▸ ha)
    refine ⟨c', ?_, ?_, hstyles⟩
    · rw [List.map_cons, List.foldlM_cons, hadd]
      exact hc'
    · rw [hgroups, groups_push, groupStyle_push, List.append_assoc]
      rfl

/-- The ranges of branches build the groups in them, in pre-order. No entry is refused, as groups
that share neither name nor address keep every rule. -/
theorem assemble_rangesFor {bs : List Branch} (hp : AllPlaced [] bs)
    (hs : ∀ g ∈ preorderOf bs, g.Sound)
    (hn : ((preorderOf bs).map fun g => nameKey g.name).Nodup)
    (ha : ((preorderOf bs).map Group.address).Nodup) (groupStyle individualStyle : Style) :
    ∃ c, Plan.assemble ⟨rangesFor bs, groupStyle, individualStyle⟩ = .ok c ∧
      c.groups = (preorderOf bs).map (Group.restyled groupStyle) ∧
      c.groupStyle = groupStyle ∧ c.individualStyle = individualStyle := by
  rw [Plan.assemble_eq, locatedAll_rangesFor hp]
  exact exists_foldlM_add Sound.of_nil hs hn ha

end BuildingBus.Catalog
