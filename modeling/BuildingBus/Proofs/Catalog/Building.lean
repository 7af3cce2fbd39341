import BuildingBus.Proofs.Catalog.Rules

/-!
# What building makes of a forest

A forest is built if and only if its entries are `Compatible`: each is well-formed, and no two of
them share a name or an address. The groups of the catalog are then what the entries declare, in
walk order, and since compatible entries are so in any order, the order of entries and ranges
decides nothing but the order of the groups (`build_forest`).

A forest that is not built is rejected for the first entry in walk order that breaks a rule, and for
the first rule that this entry breaks (`build_eq_error_iff`).

Both rest on one invariant of the walk: the catalog in the middle of it lists the entries that are
behind. One step of the walk keeps it (`Lists.add`), and so do all of them (`Lists.foldlM_add`).
-/

namespace BuildingBus.Catalog

open Address Datapoint Text

/-! ## Compatible entries -/

/-- What an entry has to be on its own, apart from all others: its texts can be read, and say
something that a group may have. -/
structure Entry.WellFormed (e : Entry) : Prop where
  /-- its name is not blank -/
  name_ne : trimmed e.name ≠ ""
  /-- it writes an address other than zero -/
  address : ∃ a, GroupAddress.parse (trimmed e.address) = .ok a ∧ a.isZero = false
  /-- each of its fields writes a registered type -/
  types : ∀ field ∈ e.typeFields,
    ∃ id, TypeId.parse (String.ofList field) = .ok id ∧ Registry.contains id = true

/-- Entries that can be declared together. Apart from each entry, this is about pairs of them and
not about their order, though they are checked one by one. -/
structure Compatible (es : List LocatedEntry) : Prop where
  /-- each is well-formed -/
  wellFormed : ∀ e ∈ es, e.entry.WellFormed
  /-- no two have names with one key -/
  names : es.Pairwise fun e f => nameKey e.entry.name ≠ nameKey f.entry.name
  /-- no two write one address -/
  addresses : es.Pairwise fun e f => e.entry.address? ≠ f.entry.address?

section

variable {es fs : List LocatedEntry} {e : LocatedEntry}

theorem writesType_iff_parse {field : List Char} : writesType field = true ↔
    ∃ id, TypeId.parse (String.ofList field) = .ok id ∧ Registry.contains id = true := by
  unfold writesType
  cases TypeId.parse (String.ofList field) <;> simp

/-- All rules are kept by an entry that is well-formed and new. -/
theorem forall_keeps_iff : (∀ k, Keeps es e k) ↔ e.entry.WellFormed ∧
    (∀ f ∈ es, nameKey f.entry.name ≠ nameKey e.entry.name) ∧
    ∀ f ∈ es, f.entry.address? ≠ e.entry.address? := by
  constructor
  · intro h
    obtain ⟨a, ha⟩ := h 2
    have ha := Entry.address?_eq_some_iff.mp ha
    exact ⟨⟨h 0, ⟨a, ha, GroupAddress.isZero_of_parse ha⟩,
      fun field hf => writesType_iff_parse.mp (h 3 field hf)⟩, h 1, h 4⟩
  · rintro ⟨hw, hn, hd⟩ k
    match k with
    | 0 => exact hw.name_ne
    | 1 => exact hn
    | 2 =>
      obtain ⟨a, ha, -⟩ := hw.address
      exact ⟨a, Entry.address?_eq_some_iff.mpr ha⟩
    | 3 => exact fun field hf => writesType_iff_parse.mpr (hw.types field hf)
    | 4 => exact hd
    | _ + 5 => trivial

theorem compatible_nil : Compatible [] :=
  ⟨fun _ he => absurd he List.not_mem_nil, .nil, .nil⟩

/-- Entries are compatible with one more if it keeps the rules after them. -/
theorem compatible_concat_iff :
    Compatible (es ++ [e]) ↔ Compatible es ∧ ∀ k, Keeps es e k := by
  rw [forall_keeps_iff]
  constructor
  · rintro ⟨hw, hn, ha⟩
    rw [List.pairwise_append] at hn ha
    rw [List.forall_mem_append] at hw
    exact ⟨⟨hw.1, hn.1, ha.1⟩, hw.2 e (.head _), fun f hf => hn.2.2 f hf e (.head _),
      fun f hf => ha.2.2 f hf e (.head _)⟩
  · rintro ⟨⟨hw, hn, ha⟩, hwe, hne, hae⟩
    refine ⟨?_, ?_, ?_⟩
    · exact List.forall_mem_append.mpr ⟨hw, fun f hf => List.mem_singleton.mp hf ▸ hwe⟩
    · exact List.pairwise_append.mpr ⟨hn, List.pairwise_singleton _ _,
        fun f hf g hg => List.mem_singleton.mp hg ▸ hne f hf⟩
    · exact List.pairwise_append.mpr ⟨ha, List.pairwise_singleton _ _,
        fun f hf g hg => List.mem_singleton.mp hg ▸ hae f hf⟩

theorem Compatible.of_append (h : Compatible (es ++ fs)) : Compatible es where
  wellFormed e he := h.wellFormed e (List.mem_append_left _ he)
  names := (List.pairwise_append.mp h.names).1
  addresses := (List.pairwise_append.mp h.addresses).1

/-- Whether entries are compatible does not depend on their order, although they are checked in one.
It is said of pairs, and pairs may be turned round. -/
theorem compatible_perm (h : es.Perm fs) : Compatible es ↔ Compatible fs := by
  suffices hs : ∀ {es fs : List LocatedEntry}, es.Perm fs → Compatible es → Compatible fs from
    ⟨hs h, hs h.symm⟩
  intro es fs h hc
  exact ⟨fun e he => hc.wellFormed e (h.mem_iff.mpr he), h.pairwise hc.names Ne.symm,
    h.pairwise hc.addresses Ne.symm⟩

end

/-! ## The walk -/

namespace Lists

variable {c c' : Catalog} {before es : List LocatedEntry}

/-- A catalog without groups lists no entries. -/
theorem start (p : Plan) : Lists p.start [] := ⟨Sound.of_nil, .nil⟩

/-- After a walk the catalog lists what is behind it. The induction is on the entries that are
ahead, and the list of those behind grows with it. -/
theorem foldlM_add (h : Lists c before) (hs : ∀ e ∈ es, e.Sound)
    (hf : es.foldlM Catalog.add c = .ok c') :
    Lists c' (before ++ es) ∧ c'.groupStyle = c.groupStyle ∧
      c'.individualStyle = c.individualStyle := by
  induction es generalizing c before with
  | nil =>
    obtain rfl := Except.ok.inj hf
    exact ⟨(List.append_nil before).symm ▸ h, rfl, rfl⟩
  | cons e es ih =>
    rw [List.foldlM_cons] at hf
    obtain ⟨d, hd, hf⟩ := bind_eq_ok_iff.mp hf
    obtain ⟨hl, hg, hi⟩ := h.add (hs e (.head _)) hd
    obtain ⟨hl', hg', hi'⟩ := ih hl (fun x hx => hs x (.tail _ hx)) hf
    rw [List.append_assoc] at hl'
    exact ⟨hl', hg'.trans hg, hi'.trans hi⟩

/-- A walk comes to its end if and only if the entries on the way are compatible. -/
theorem exists_foldlM_add_iff (h : Lists c before) (hb : Compatible before)
    (hs : ∀ e ∈ es, e.Sound) :
    (∃ c', es.foldlM Catalog.add c = .ok c') ↔ Compatible (before ++ es) := by
  induction es generalizing c before with
  | nil => exact iff_of_true ⟨c, rfl⟩ ((List.append_nil before).symm ▸ hb)
  | cons e es ih =>
    have hstep : before ++ e :: es = (before ++ [e]) ++ es := by
      rw [List.append_assoc, List.singleton_append]
    have hes : ∀ x ∈ es, x.Sound := fun x hx => hs x (.tail _ hx)
    rw [List.foldlM_cons, hstep]
    constructor
    · rintro ⟨c', hf⟩
      obtain ⟨d, hd, hf⟩ := bind_eq_ok_iff.mp hf
      obtain ⟨g, hg, -⟩ := add_eq_ok_iff.mp hd
      have hk := h.exists_checkEntry_iff.mp ⟨g, checkEntry_eq_ok_iff.mpr hg⟩
      exact (ih (h.add (hs e (.head _)) hd).1 (compatible_concat_iff.mpr ⟨hb, hk⟩) hes).mp ⟨c', hf⟩
    · intro hc
      have hbe := hc.of_append
      obtain ⟨g, hg⟩ := h.exists_checkEntry_iff.mpr (compatible_concat_iff.mp hbe).2
      have hd : Catalog.add c e = .ok (c.push g) :=
        add_eq_ok_iff.mpr ⟨g, checkEntry_eq_ok_iff.mp hg, rfl⟩
      obtain ⟨c', hf⟩ := (ih (h.add (hs e (.head _)) hd).1 hbe hes).mpr hc
      exact ⟨c', bind_eq_ok_iff.mpr ⟨c.push g, hd, hf⟩⟩

end Lists

/-! ## Forests in another order -/

/-- Forests of the same ranges with the same entries, up to the order of the entries in each range
and of the ranges side by side. -/
inductive Reordered : List GroupRange → List GroupRange → Prop where
  /-- two forests without ranges -/
  | nil : Reordered [] []
  /-- one range more on both sides, its entries and its inner ranges in another order -/
  | cons {name : String} {es es' : List Entry} {inner inner' rs rs' : List GroupRange}
    (entries : es.Perm es') (ranges : Reordered inner inner') (rest : Reordered rs rs') :
    Reordered (.mk name es inner :: rs) (.mk name es' inner' :: rs')
  /-- two ranges that change places -/
  | swap (r s : GroupRange) (rs : List GroupRange) : Reordered (r :: s :: rs) (s :: r :: rs)
  /-- one change after another -/
  | trans {rs ss ts : List GroupRange} (first : Reordered rs ss) (second : Reordered ss ts) :
    Reordered rs ts

/-- Forests in another order have the same entries, in another order. -/
theorem Reordered.perm {rs ss : List GroupRange} (h : Reordered rs ss) (above : List String) :
    (locatedAll above rs).Perm (locatedAll above ss) := by
  induction h generalizing above with
  | nil => exact .refl _
  | @cons name es es' inner inner' rs rs' entries _ _ ihInner ihRest =>
    rw [locatedAll, locatedAll, GroupRange.located, GroupRange.located]
    exact ((entries.map _).append (ihInner _)).append (ihRest above)
  | swap r s rs =>
    simp only [locatedAll, ← List.append_assoc]
    exact List.perm_append_comm.append_right _
  | trans _ _ ih ih' => exact (ih above).trans (ih' above)

/-! ## Building -/

/-- A forest is built if and only if its entries are compatible. -/
theorem exists_build_iff (p : Plan) :
    (∃ c, p.build.answer = .ok c) ↔ Compatible (locatedAll [] p.ranges) := by
  rw [answer_build, Plan.assemble_eq]
  exact (Lists.start p).exists_foldlM_add_iff compatible_nil (sound_of_mem_forest _)

/-- **Which forests are built, and to what.** A forest is built if and only if its entries are
compatible. The groups are then what the entries declare, in walk order and in the style that was
asked for, and the catalog has the styles that were asked for. A forest in another order is built if
and only if this one is. -/
theorem build_forest (p : Plan) :
    ((∃ c, p.build.answer = .ok c) ↔ Compatible (locatedAll [] p.ranges)) ∧
    (∀ c, p.build.answer = .ok c →
      List.Forall₂ (Declares p.groupStyle) (locatedAll [] p.ranges) c.groups ∧
      c.groupStyle = p.groupStyle ∧ c.individualStyle = p.individualStyle) ∧
    ∀ q : Plan, Reordered p.ranges q.ranges →
      ((∃ c, p.build.answer = .ok c) ↔ ∃ c, q.build.answer = .ok c) := by
  refine ⟨exists_build_iff p, fun c hc => ?_, fun q hq => ?_⟩
  · rw [answer_build, Plan.assemble_eq] at hc
    obtain ⟨hl, hg, hi⟩ := (Lists.start p).foldlM_add (sound_of_mem_forest _) hc
    have hd := hl.declares
    rw [hg] at hd
    exact ⟨hd, hg, hi⟩
  · rw [exists_build_iff, exists_build_iff]
    exact compatible_perm (hq.perm [])

/-- Two orders of a forest with a range inside another: both are built, and the groups of the first
one are what its entries declare. The gate stands after the attic has been left and below nothing but
the yard. -/
theorem build_forest_swapped :
    let light : Entry := ⟨" Light", "1/1/2", "DPST-1-1, 9.001"⟩
    let door : Entry := ⟨"Door", "3", " "⟩
    let attic : GroupRange := .mk " Attic " [⟨"light ↑", "2/1", "5.1"⟩] []
    let yard : GroupRange := .mk "Yard" [⟨"Gate", "1/1/7", ""⟩] []
    let p : Plan := ⟨[.mk "House" [light, door] [attic], yard], .free, .unspecified⟩
    let q : Plan := ⟨[yard, .mk "House" [door, light] [attic]], .twoLevel, .free⟩
    Reordered p.ranges q.ranges ∧ (∃ c, q.build.answer = .ok c) ∧
    ∃ c, p.build.answer = .ok c ∧
      List.Forall₂ (Declares .free) (locatedAll [] p.ranges) c.groups ∧
      c.groups.map (·.path) = [["House"], ["House"], ["House", "Attic"], ["Yard"]] := by
  intro light door attic yard p q
  have hr : Reordered p.ranges q.ranges :=
    .trans (.cons (.swap _ _ _) (.cons (.refl _) .nil .nil) (.cons (.refl _) .nil .nil))
      (.swap _ _ _)
  obtain ⟨-, hd, ho⟩ := build_forest p
  obtain ⟨c, hc, hg⟩ : ∃ c, p.build.answer = .ok c ∧
      c.groups = [⟨"Light", ⟨2306⟩, [⟨1, 1⟩, ⟨9, 1⟩], ["House"], .free⟩,
        ⟨"Door", ⟨3⟩, [], ["House"], .free⟩,
        ⟨"light ↑", ⟨4097⟩, [⟨5, 1⟩], ["House", "Attic"], .free⟩,
        ⟨"Gate", ⟨2311⟩, [], ["Yard"], .free⟩] :=
    exists_build (by decide +kernel)
  refine ⟨hr, (ho q hr).mp ⟨c, hc⟩, c, hc, (hd c hc).1, ?_⟩
  rw [hg]
  rfl

/-! ## Rejections -/

/-- Each entry on the way of a walk that comes to its end keeps the rules. -/
theorem Compatible.not_breaks {first rest : List LocatedEntry} {f : LocatedEntry} {cause : Cause}
    (h : Compatible (first ++ f :: rest)) : ¬Breaks first f cause := by
  rw [← List.singleton_append, ← List.append_assoc] at h
  exact fun hb => hb.not_keeps ((compatible_concat_iff.mp h.of_append).2 _)

/-- A rejection of an entry after others: it names the entry and the ranges around it, and its cause
is the first of the rules that are broken. -/
structure Rejection.Blames (r : Rejection) (before : List LocatedEntry) (e : LocatedEntry) :
    Prop where
  /-- the name of the entry -/
  group_eq : r.group = trimmed e.entry.name
  /-- the names of the ranges around it, with slashes between them -/
  path_eq : r.path = joined "/" e.path
  /-- the rule is broken -/
  breaks : Breaks before e r.cause
  /-- no rule before it is broken -/
  le_rank : ∀ cause, Breaks before e cause → r.cause.rank ≤ cause.rank

/-- One entry has one rejection: of the rules that it breaks, only one is the first. -/
theorem Rejection.Blames.unique {r s : Rejection} {before : List LocatedEntry} {e : LocatedEntry}
    (hr : r.Blames before e) (hs : s.Blames before e) : r = s := by
  have hc : r.cause = s.cause :=
    hr.breaks.unique hs.breaks (Nat.le_antisymm (hr.le_rank _ hs.breaks) (hs.le_rank _ hr.breaks))
  obtain ⟨cause, group, path⟩ := r
  obtain ⟨cause', group', path'⟩ := s
  obtain rfl : cause = cause' := hc
  obtain rfl : group = group' := hr.group_eq.trans hs.group_eq.symm
  obtain rfl : path = path' := hr.path_eq.trans hs.path_eq.symm
  rfl

namespace Lists

variable {c : Catalog} {before es : List LocatedEntry} {e : LocatedEntry} {r : Rejection}

/-- An entry that is rejected is blamed for the first rule that it breaks. -/
theorem blames (h : Lists c before) (ha : Catalog.add c e = .error r) : r.Blames before e := by
  obtain ⟨cause, hc, rfl⟩ := add_eq_error_iff.mp ha
  obtain ⟨hb, hr⟩ := h.breaks_of_checkEntry hc
  exact ⟨rfl, rfl, hb, hr⟩

/-- An entry that can be blamed is rejected, and with no other rejection than that. -/
theorem add_eq_error (h : Lists c before) (hr : r.Blames before e) : Catalog.add c e = .error r := by
  cases ha : Catalog.add c e with
  | error s => rw [(h.blames ha).unique hr]
  | ok c' =>
    obtain ⟨g, hg, -⟩ := add_eq_ok_iff.mp ha
    have hk := (h.declares_of_checkEntry (checkEntry_eq_ok_iff.mpr hg)).2
    exact absurd (hk _) hr.breaks.not_keeps

end Lists

/-- The source of a rejection that blames an entry is the error of a text that was not read. -/
theorem Rejection.Blames.source?_eq_some_iff {r : Rejection} {before : List LocatedEntry}
    {e : LocatedEntry} (h : r.Blames before e) (s : Failure) :
    (Failure.catalog r).source? = some s ↔
      (∃ why, r.cause = .invalidAddress why ∧ s = .addressing why) ∨
      (∃ why, r.cause = .invalidDatapoint why ∧ s = .datapoint why) ∨
      ∃ id, r.cause = .unknownDatapoint (.unknownType id) ∧ s = .datapoint (.unknownType id) := by
  have hb := h.breaks
  obtain ⟨cause, group, path⟩ := r
  cases cause with
  | invalidAddress why => simpa [Failure.source?, Failure.ofCause?] using eq_comm
  | invalidDatapoint why => simpa [Failure.source?, Failure.ofCause?] using eq_comm
  | unknownDatapoint why =>
    obtain ⟨field, id, -, -, -, rfl⟩ := hb
    simpa [Failure.source?, Failure.ofCause?] using eq_comm
  | unknownGroup why => exact hb.elim
  | missingName | emptyPath | duplicateName | duplicateAddress | zeroAddress | untyped =>
    simp [Failure.source?, Failure.ofCause?]

/-- The rejection of a walk blames the first entry that breaks a rule. -/
theorem blames_of_foldlM_add {p : Plan} {es : List LocatedEntry} {r : Rejection}
    (hs : ∀ e ∈ es, e.Sound) (h : es.foldlM add p.start = .error r) :
    ∃ before e after, es = before ++ e :: after ∧ Compatible before ∧ r.Blames before e := by
  obtain ⟨before, e, after, c, rfl, hb, he⟩ := foldlM_eq_error_iff.mp h
  have hs : ∀ x ∈ before, x.Sound := fun x hx => hs x (List.mem_append_left _ hx)
  have hc := ((Lists.start p).exists_foldlM_add_iff compatible_nil hs).mp ⟨c, hb⟩
  exact ⟨before, e, after, rfl, hc, ((Lists.start p).foldlM_add hs hb).1.blames he⟩

/-- Whatever is rejected, it is for an entry of the forest and for a rule that this entry breaks after
some others. -/
theorem exists_blames_of_assemble {p : Plan} {r : Rejection} (h : p.assemble = .error r) :
    ∃ before e, r.Blames before e := by
  rw [Plan.assemble_eq] at h
  obtain ⟨before, e, -, -, -, hr⟩ := blames_of_foldlM_add (sound_of_mem_forest p.ranges) h
  exact ⟨before, e, hr⟩

/-- Entries are compatible if and only if none of them breaks a rule after those before it. -/
theorem compatible_iff_forall_not_breaks {es : List LocatedEntry} (hs : ∀ e ∈ es, e.Sound) :
    Compatible es ↔
      ∀ first f rest, es = first ++ f :: rest → ∀ cause, ¬Breaks first f cause := by
  refine ⟨fun h first f rest he cause => (he ▸ h).not_breaks, fun h => ?_⟩
  have hiff := (Lists.start {}).exists_foldlM_add_iff compatible_nil hs
  cases hf : es.foldlM add (Plan.start {}) with
  | ok c => exact hiff.mp ⟨c, hf⟩
  | error r =>
    obtain ⟨first, f, rest, he, -, hr⟩ := blames_of_foldlM_add hs hf
    exact absurd hr.breaks (h first f rest he _)

/-- **A rejected forest names its first offence.** A forest is rejected if and only if some entry
breaks a rule after the entries before it in walk order, while none of those does. The rejection
blames the first such entry for the first rule that it breaks, and has the error of the text as its
source if the rule is about a text that was not read. -/
theorem build_eq_error_iff (p : Plan) (r : Rejection) :
    p.build.answer = .error r ↔
      ∃ before e after, locatedAll [] p.ranges = before ++ e :: after ∧
        (∀ first f rest, before = first ++ f :: rest → ∀ cause, ¬Breaks first f cause) ∧
        r.Blames before e ∧
        ∀ s, (Failure.catalog r).source? = some s ↔
          (∃ why, r.cause = .invalidAddress why ∧ s = .addressing why) ∨
          (∃ why, r.cause = .invalidDatapoint why ∧ s = .datapoint why) ∨
          ∃ id, r.cause = .unknownDatapoint (.unknownType id) ∧
            s = .datapoint (.unknownType id) := by
  rw [answer_build, Plan.assemble_eq]
  have hs := sound_of_mem_forest p.ranges
  constructor
  · intro h
    obtain ⟨before, e, after, he, hc, hr⟩ := blames_of_foldlM_add hs h
    have hb : ∀ x ∈ before, x.Sound := fun x hx => hs x (he ▸ List.mem_append_left _ hx)
    exact ⟨before, e, after, he, (compatible_iff_forall_not_breaks hb).mp hc, hr,
      hr.source?_eq_some_iff⟩
  · rintro ⟨before, e, after, he, hn, hr, -⟩
    have hb : ∀ x ∈ before, x.Sound := fun x hx => hs x (he ▸ List.mem_append_left _ hx)
    have hc := (compatible_iff_forall_not_breaks hb).mpr hn
    obtain ⟨c, hf⟩ := ((Lists.start p).exists_foldlM_add_iff compatible_nil hb).mpr hc
    have hl := ((Lists.start p).foldlM_add hb hf).1
    exact foldlM_eq_error_iff.mpr ⟨before, e, after, c, he, hf, hl.add_eq_error hr⟩

/-- A name that is taken comes before an address and types that are wrong as well. -/
example : (Plan.build ⟨[.mk "Root" [⟨"light", "1", ""⟩]
    [.mk " Inner" [⟨" LIGHT", "0", "9.x"⟩] []]], .free, .free⟩).answer =
    .error ⟨.duplicateName, "LIGHT", "Root/Inner"⟩ := by
  decide +kernel

end BuildingBus.Catalog
