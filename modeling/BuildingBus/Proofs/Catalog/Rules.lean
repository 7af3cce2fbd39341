import BuildingBus.Failure
import BuildingBus.Proofs.Catalog.Soundness

/-!
# The rules of a declaration

An entry of a forest has to keep five rules. Two of them are relative to the entries before it: no
two entries may have names with one key, and no two may write one address. `Breaks earlier e cause`
says that the entry `e` after the entries `earlier` breaks the rule that `cause` reports, whatever
it does with the other rules; `Cause.rank` puts the rules in the order in which they are checked.

Building does not look at the earlier entries but at the catalog of the groups that they declare.
Such a catalog `Lists` them, and then the checks of the next entry answer to the rules alone: they
fail with the first rule that is broken (`Lists.breaks_of_checkEntry`), and they pass if and only if
every rule is kept (`Lists.exists_checkEntry_iff`).
-/

namespace BuildingBus.Catalog

open Address Datapoint Text

/-! ## What an entry writes -/

/-- Whether a field writes a registered type. -/
def writesType (field : List Char) : Bool :=
  match TypeId.parse (String.ofList field) with
  | .ok id => Registry.contains id
  | .error _ => false

namespace Entry

/-- The address that the text of an entry writes, if it writes one. -/
def address? (e : Entry) : Option GroupAddress :=
  (GroupAddress.parse (trimmed e.address)).toOption

/-- The fields between the commas of the text for datapoint types. A blank text has none. -/
def typeFields (e : Entry) : List (List Char) :=
  if trim e.types.toList = [] then [] else fields ',' e.types.toList

/-- The first field that does not write a registered type. Fields are read from the left, so it is
the one that is told. -/
def badField? (e : Entry) : Option (List Char) :=
  e.typeFields.find? fun field => !writesType field

end Entry

/-- The group that an entry declares: its texts as they are read, the names of the ranges around it,
and a style. Other entries have no part in it. -/
structure Declares (style : Style) (e : LocatedEntry) (g : Group) : Prop where
  /-- the name without blank ends -/
  name_eq : g.name = trimmed e.entry.name
  /-- the address that is written -/
  address_eq : GroupAddress.parse (trimmed e.entry.address) = .ok g.address
  /-- the types that are written, in the order of their fields -/
  types_eq : List.Forall₂ (fun field id => TypeId.parse (String.ofList field) = .ok id)
    e.entry.typeFields g.types
  /-- the names of the enclosing ranges -/
  path_eq : g.path = e.path
  /-- the style -/
  style_eq : g.style = style

/-! ## Rules -/

/-- The rule that a cause reports is broken by an entry that is declared after others. A cause that
no entry can be refused for reports no rule. -/
def Breaks (earlier : List LocatedEntry) (e : LocatedEntry) : Cause → Prop
  | .missingName => trimmed e.entry.name = ""
  | .duplicateName => ∃ f ∈ earlier, nameKey f.entry.name = nameKey e.entry.name
  | .zeroAddress => ∃ text, GroupAddress.parse (trimmed e.entry.address) = .error (.zero text)
  | .invalidAddress why =>
    GroupAddress.parse (trimmed e.entry.address) = .error why ∧ why.isZero = false
  | .invalidDatapoint why =>
    ∃ field, e.entry.badField? = some field ∧ TypeId.parse (String.ofList field) = .error why
  | .unknownDatapoint why =>
    ∃ field id, e.entry.badField? = some field ∧ TypeId.parse (String.ofList field) = .ok id ∧
      Registry.contains id = false ∧ why = .unknownType id
  | .duplicateAddress => ∃ a, e.entry.address? = some a ∧ ∃ f ∈ earlier, f.entry.address? = some a
  | .emptyPath | .untyped | .unknownGroup _ => False

/-- The place of a cause in the order of the checks. Two causes with one rank are never the case
together. -/
def Cause.rank : Cause → Nat
  | missingName => 0
  | duplicateName => 1
  | zeroAddress | invalidAddress _ => 2
  | invalidDatapoint _ | unknownDatapoint _ => 3
  | duplicateAddress => 4
  | emptyPath | untyped | unknownGroup _ => 5

/-- The rule of a rank is kept by an entry that is declared after others. The rules of lower ranks
need not be kept for this. -/
def Keeps (earlier : List LocatedEntry) (e : LocatedEntry) : Nat → Prop
  | 0 => trimmed e.entry.name ≠ ""
  | 1 => ∀ f ∈ earlier, nameKey f.entry.name ≠ nameKey e.entry.name
  | 2 => ∃ a, e.entry.address? = some a
  | 3 => ∀ field ∈ e.entry.typeFields, writesType field = true
  | 4 => ∀ f ∈ earlier, f.entry.address? ≠ e.entry.address?
  | _ => True

section

variable {earlier : List LocatedEntry} {e : LocatedEntry} {cause other : Cause}

theorem Entry.address?_eq_some_iff {e : Entry} {a : GroupAddress} :
    e.address? = some a ↔ GroupAddress.parse (trimmed e.address) = .ok a := by
  unfold Entry.address?
  cases GroupAddress.parse (trimmed e.address) <;> simp [Except.toOption]

/-- A rule that is broken is not kept. -/
theorem Breaks.not_keeps (h : Breaks earlier e cause) : ¬Keeps earlier e cause.rank := by
  have htypes {field : List Char} (hf : e.entry.badField? = some field) : ¬Keeps earlier e 3 := by
    intro hk
    have hbad := List.find?_some hf
    rw [hk field (List.mem_of_find?_eq_some hf)] at hbad
    cases hbad
  cases cause with
  | missingName => exact fun hk => hk h
  | duplicateName =>
    obtain ⟨f, hf, hn⟩ := h
    exact fun hk => hk f hf hn
  | zeroAddress =>
    obtain ⟨text, h⟩ := h
    rintro ⟨a, ha⟩
    rw [Entry.address?_eq_some_iff, h] at ha
    cases ha
  | invalidAddress why =>
    rintro ⟨a, ha⟩
    rw [Entry.address?_eq_some_iff, h.1] at ha
    cases ha
  | invalidDatapoint why =>
    obtain ⟨field, hf, -⟩ := h
    exact htypes hf
  | unknownDatapoint why =>
    obtain ⟨field, id, hf, -⟩ := h
    exact htypes hf
  | duplicateAddress =>
    obtain ⟨a, ha, f, hf, hfa⟩ := h
    exact fun hk => hk f hf (hfa.trans ha.symm)
  | emptyPath | untyped | unknownGroup _ => exact h.elim

/-- Where the rules below a rank are kept, those that are broken have at least that rank. -/
theorem Breaks.le_rank (h : Breaks earlier e cause) {k : Nat}
    (hk : ∀ j < k, Keeps earlier e j) : k ≤ cause.rank :=
  Nat.le_of_not_lt fun hlt => h.not_keeps (hk _ hlt)

/-- At each rank an entry breaks one rule for one cause. -/
theorem Breaks.unique (h : Breaks earlier e cause) (ho : Breaks earlier e other)
    (hr : cause.rank = other.rank) : cause = other := by
  cases cause <;> cases other <;> grind [Breaks, Cause.rank, AddressError.isZero]

end

/-! ## Checks of texts -/

section

variable {earlier : List LocatedEntry} {e : LocatedEntry} {cause : Cause}

theorem readAddress_eq_ok_iff_parse {text : String} {a : GroupAddress} :
    readAddress text = .ok a ↔ GroupAddress.parse (trimmed text) = .ok a := by
  unfold readAddress
  cases GroupAddress.parse (trimmed text) with
  | ok _ => simp
  | error why => cases why <;> simp

/-- An address is refused for what its text writes. The rule that is broken has rank 2, whichever of
its two causes it is. -/
theorem breaks_of_readAddress (h : readAddress e.entry.address = .error cause) :
    Breaks earlier e cause ∧ cause.rank = 2 := by
  unfold readAddress at h
  split at h
  case h_1 => cases h
  case h_2 text ht =>
    obtain rfl := Except.error.inj h
    exact ⟨⟨text, ht⟩, rfl⟩
  case h_3 why hz hw =>
    obtain rfl := Except.error.inj h
    refine ⟨⟨hw, ?_⟩, rfl⟩
    cases why with
    | zero text => exact absurd rfl (hz text)
    | malformedGroup _ | malformedIndividual _ | outOfRange _ | unknownStyle _ => rfl

theorem writesType_iff {field : List Char} :
    writesType field = true ↔ ∃ id, readType (String.ofList field) = .ok id := by
  unfold writesType readType
  cases TypeId.parse (String.ofList field) with
  | error why => simp
  | ok id => by_cases hc : Registry.contains id = true <;> simp [hc]

/-- A field that is read as a registered type writes that type. -/
theorem parse_of_readType {field : String} {id : TypeId} (h : readType field = .ok id) :
    TypeId.parse field = .ok id := by
  unfold readType at h
  split at h
  case h_1 => cases h
  case h_2 id' hp =>
    split at h
    case isTrue => rw [hp, Except.ok.inj h]
    case isFalse => cases h

/-- Types are read field by field, so that the first field that fails gives the error. A blank text
has no fields at all. -/
theorem readTypes_eq_mapM (e : Entry) :
    readTypes e.types = e.typeFields.mapM fun field => readType (String.ofList field) := by
  unfold readTypes Entry.typeFields
  split
  case isTrue => rfl
  case isFalse => rfl

/-- Datapoint types are refused for the first field that writes none. -/
theorem breaks_of_readTypes (h : readTypes e.entry.types = .error cause) :
    Breaks earlier e cause ∧ cause.rank = 3 := by
  rw [readTypes_eq_mapM] at h
  obtain ⟨field, hf, h⟩ := find?_of_mapM_eq_error (fun _ => writesType_iff) h
  unfold readType at h
  split at h
  case h_1 why hw =>
    obtain rfl := Except.error.inj h
    exact ⟨⟨field, hf, hw⟩, rfl⟩
  case h_2 id hp =>
    split at h
    case isTrue => cases h
    case isFalse hc =>
      obtain rfl := Except.error.inj h
      exact ⟨⟨field, id, hf, hp, Bool.not_eq_true _ ▸ hc, rfl⟩, rfl⟩

/-- The types that are read are those that the fields write. -/
theorem readTypes_eq_ok {e : Entry} {types : List TypeId} (h : readTypes e.types = .ok types) :
    List.Forall₂ (fun field id => TypeId.parse (String.ofList field) = .ok id) e.typeFields types ∧
      ∀ field ∈ e.typeFields, writesType field = true := by
  rw [readTypes_eq_mapM, mapM_eq_ok_iff] at h
  refine ⟨h.imp fun _ _ => parse_of_readType, fun field hf => ?_⟩
  obtain ⟨id, -, hid⟩ := exists_of_mem_left h hf
  exact writesType_iff.mpr ⟨id, hid⟩

end

/-! ## Catalogs of the entries before -/

/-- The catalog has the groups that entries declare, in their order. It is the invariant of a walk,
where the entries are those behind it. -/
structure Lists (c : Catalog) (es : List LocatedEntry) : Prop where
  /-- the catalog finds its groups -/
  sound : c.Sound
  /-- each group is declared by one entry -/
  declares : List.Forall₂ (Declares c.groupStyle) es c.groups

namespace Lists

variable {c : Catalog} {es : List LocatedEntry} {e : LocatedEntry} {g : Group} {cause : Cause}

theorem nameKey_trimmed (name : String) : nameKey (trimmed name) = nameKey name := by
  rw [nameKey, toList_trimmed, trim_trim, nameKey]

/-- What the groups have under a key is what the entries have that declare them. -/
theorem exists_group_iff (h : Lists c es) {α : Type} {key : Group → α} {field : LocatedEntry → α}
    (hk : ∀ e g, Declares c.groupStyle e g → key g = field e) (x : α) :
    (∃ g ∈ c.groups, key g = x) ↔ ∃ f ∈ es, field f = x := by
  constructor
  · rintro ⟨g, hg, rfl⟩
    obtain ⟨f, hf, hd⟩ := exists_of_mem_left h.declares.flip hg
    exact ⟨f, hf, (hk f g hd).symm⟩
  · rintro ⟨f, hf, rfl⟩
    obtain ⟨g, hg, hd⟩ := exists_of_mem_left h.declares hf
    exact ⟨g, hg, hk f g hd⟩

/-- A name is taken in the catalog if an entry has it. -/
theorem isSome_lookup_iff (h : Lists c es) (name : String) :
    (c.lookup (trimmed name)).isSome = true ↔ ∃ f ∈ es, nameKey f.entry.name = nameKey name := by
  have hk : ∀ e g, Declares c.groupStyle e g → nameKey g.name = nameKey e.entry.name :=
    fun e g hd => by rw [hd.name_eq, nameKey_trimmed]
  rw [← h.exists_group_iff hk, ← not_iff_not, Bool.not_eq_true, Option.isSome_eq_false_iff,
    Option.isNone_iff_eq_none, h.sound.lookup_eq_none_iff, nameKey_trimmed]
  simp

/-- An address is taken in the catalog if an entry writes it. -/
theorem isSome_lookupAddress_iff (h : Lists c es) (a : GroupAddress) :
    (c.lookupAddress a).isSome = true ↔ ∃ f ∈ es, f.entry.address? = some a := by
  have hk : ∀ e g, Declares c.groupStyle e g → some g.address = e.entry.address? :=
    fun e g hd => (Entry.address?_eq_some_iff.mpr hd.address_eq).symm
  rw [← h.exists_group_iff hk, ← not_iff_not, Bool.not_eq_true, Option.isSome_eq_false_iff,
    Option.isNone_iff_eq_none, h.sound.lookupAddress_eq_none_iff]
  simp

/-- **A refused entry breaks the rule it is refused for**, and no rule before that. -/
theorem breaks_of_checkEntry (h : Lists c es) (he : checkEntry c e = .error cause) :
    Breaks es e cause ∧ ∀ other, Breaks es e other → cause.rank ≤ other.rank := by
  -- the rules below the rank of the cause are kept, as their checks have passed
  suffices hs : Breaks es e cause ∧ ∀ j < cause.rank, Keeps es e j from
    ⟨hs.1, fun _ ho => ho.le_rank hs.2⟩
  simp only [checkEntry, check_eq_error_iff, bind_eq_error_iff] at he
  have h0 : ∀ j < 0, Keeps es e j := fun j hj => absurd hj (Nat.not_lt_zero j)
  rcases he with ⟨hn, rfl⟩ | ⟨hn, he⟩
  · exact ⟨hn, h0⟩
  have h1 : ∀ j < 1, Keeps es e j := Nat.forall_lt_succ_right.mpr ⟨h0, hn⟩
  rcases he with ⟨hd, rfl⟩ | ⟨hd, he⟩
  · exact ⟨(h.isSome_lookup_iff _).mp hd, h1⟩
  have h2 : ∀ j < 2, Keeps es e j :=
    Nat.forall_lt_succ_right.mpr ⟨h1, fun f hf hk => hd ((h.isSome_lookup_iff _).mpr ⟨f, hf, hk⟩)⟩
  rcases he with ha | ⟨a, ha, he⟩
  · obtain ⟨hb, hr⟩ := breaks_of_readAddress ha
    exact ⟨hb, hr ▸ h2⟩
  have ha := Entry.address?_eq_some_iff.mpr (readAddress_eq_ok_iff_parse.mp ha)
  have h3 : ∀ j < 3, Keeps es e j := Nat.forall_lt_succ_right.mpr ⟨h2, a, ha⟩
  rcases he with ht | ⟨types, ht, he⟩
  · obtain ⟨hb, hr⟩ := breaks_of_readTypes ht
    exact ⟨hb, hr ▸ h3⟩
  have h4 : ∀ j < 4, Keeps es e j := Nat.forall_lt_succ_right.mpr ⟨h3, (readTypes_eq_ok ht).2⟩
  rcases he with ⟨hd, rfl⟩ | ⟨-, he⟩
  · exact ⟨⟨a, ha, (h.isSome_lookupAddress_iff a).mp hd⟩, h4⟩
  · cases he

/-- **An entry that passes** declares the group that it becomes, and keeps every rule. -/
theorem declares_of_checkEntry (h : Lists c es) (he : checkEntry c e = .ok g) :
    Declares c.groupStyle e g ∧ ∀ k, Keeps es e k := by
  have hg := checkEntry_eq_ok_iff.mp he
  have ha := readAddress_eq_ok_iff_parse.mp hg.address_eq
  obtain ⟨htypes, hwrites⟩ := readTypes_eq_ok hg.types_eq
  refine ⟨⟨hg.name_eq, ha, htypes, hg.path_eq, hg.style_eq⟩, fun k => ?_⟩
  match k with
  | 0 => exact fun hn => hg.name_ne (hg.name_eq.trans hn)
  | 1 =>
    intro f hf hk
    have hs := (h.isSome_lookup_iff _).mpr ⟨f, hf, hk⟩
    rw [← hg.name_eq, hg.name_new] at hs
    cases hs
  | 2 => exact ⟨_, Entry.address?_eq_some_iff.mpr ha⟩
  | 3 => exact hwrites
  | 4 =>
    intro f hf hk
    rw [Entry.address?_eq_some_iff.mpr ha] at hk
    have hs := (h.isSome_lookupAddress_iff _).mpr ⟨f, hf, hk⟩
    rw [hg.address_new] at hs
    cases hs
  | _ + 5 => trivial

/-- An entry passes if and only if it keeps every rule. -/
theorem exists_checkEntry_iff (h : Lists c es) :
    (∃ g, checkEntry c e = .ok g) ↔ ∀ k, Keeps es e k := by
  refine ⟨fun ⟨g, hg⟩ => (h.declares_of_checkEntry hg).2, fun hk => ?_⟩
  cases he : checkEntry c e with
  | ok g => exact ⟨g, rfl⟩
  | error cause => exact absurd (hk _) (h.breaks_of_checkEntry he).1.not_keeps

/-- After an entry that is added the catalog lists it as well. -/
theorem add (h : Lists c es) (he : e.Sound) {c' : Catalog} (ha : Catalog.add c e = .ok c') :
    Lists c' (es ++ [e]) ∧ c'.groupStyle = c.groupStyle ∧
      c'.individualStyle = c.individualStyle := by
  obtain ⟨g, hg, rfl⟩ := add_eq_ok_iff.mp ha
  have hd := (h.declares_of_checkEntry (checkEntry_eq_ok_iff.mpr hg)).1
  exact ⟨⟨h.sound.add he ha, List.rel_append h.declares (.cons hd .nil)⟩, rfl, rfl⟩

end Lists

end BuildingBus.Catalog
