import BuildingBus.Exchange.Export
import BuildingBus.Proofs.Catalog.RangeTable

/-!
# The hierarchy of an exported document

A document may be written from the table of the groups, range by range, each with the ranges in it
that have a span (`written`). This gives the elements of the branches (`writtenIn_build`).

The ranges of a document are read off its elements, each with the names of the ranges around it and
its own (`rangesAmong`). In the document of groups they are the beginnings of the paths, one range
for each. A range has the groups with its path, then the ranges that paths go on with, and its bounds
are the least and the greatest address of the groups in it (`RangeAt`). All this is
`hierarchy_of_groups`.
-/

namespace BuildingBus.Exchange

open Catalog Markup

variable {gs : List Group} {t : RangeTable} {i : Nat} {node : RangeNode}

/-! ## Writing a table -/

/-- The elements for the range at a position of a table: that of the range, with those of its groups
and of the ranges in it that have a span. -/
def written (t : RangeTable) (i : Nat) : List Element :=
  match _ : t.nodes[i]? with
  | none => []
  | some node =>
    let (first, last) := node.span.getD (0, 0)
    [.mk rangeName (rangeAttributes node.name first last)
      (node.groups.map groupElement ++ (t.visible node).attach.flatMap fun c => written t c.1)]
termination_by t.nodes.length - i
decreasing_by
  have hn : t.nodes[i]? = some node := ‹_›
  have hlt : i < t.nodes.length := (List.getElem?_eq_some_iff.mp hn).1
  have hc : i < c := t.ascending i node hn c (List.mem_of_mem_filter c.2)
  omega

/-- The elements in the document element for a table. They are written from position to position and
not from branches. -/
def writtenIn (t : RangeTable) : List Element :=
  match t.nodes[0]? with
  | none => []
  | some root => (t.visible root).flatMap (written t)

theorem written_eq (h : t.nodes[i]? = some node) :
    written t i = [.mk rangeName
      (rangeAttributes node.name (node.span.getD (0, 0)).1 (node.span.getD (0, 0)).2)
      (node.groups.map groupElement ++ (t.visible node).flatMap (written t))] := by
  rw [written]
  split
  case h_1 hn => exact absurd (hn.symm.trans h) (Option.some_ne_none _).symm
  case h_2 n hn =>
    obtain rfl := Option.some.inj (hn.symm.trans h)
    have hinner := List.flatMap_subtype (l := (t.visible n).attach) (f := fun c => written t c.1)
      (g := written t) fun _ _ => rfl
    rw [hinner, List.unattach_attach]

mutual

/-- The range where a branch stands is written as the branch is. -/
theorem written_of_holds (hspan : ∀ i b, t.Holds i b → t.span? i = b.span) :
    ∀ {b : Branch} {i : Nat}, t.Holds i b → written t i = [rangeElement b]
  | .mk name groups inner, i, h => by
    have hs := hspan i _ h
    obtain ⟨node, hn, rfl, rfl, hinner⟩ := h
    rw [RangeTable.span?, hn, Option.bind_some] at hs
    rw [written_eq hn, RangeTable.visible, flatMap_written_of_holdsAll hspan hinner, hs,
      rangeElement]

theorem flatMap_written_of_holdsAll (hspan : ∀ i b, t.Holds i b → t.span? i = b.span) :
    ∀ {bs : List Branch} {is : List Nat}, t.HoldsAll is bs →
      (is.filter fun c => (t.span? c).isSome).flatMap (written t) = rangeElements bs
  | [], _, rfl => rfl
  | b :: bs, _, ⟨i, rest, rfl, hb, hbs⟩ => by
    have hrest := flatMap_written_of_holdsAll hspan hbs
    rw [rangeElements, List.filter_cons, hspan i b hb]
    split
    · rw [List.flatMap_cons, written_of_holds hspan hb, hrest]
      rfl
    · exact hrest

end

/-- **The table of groups is written as their branches are**, so that what is proved of branches
holds of the document. -/
theorem writtenIn_build (gs : List Group) :
    writtenIn (.build gs) = rangeElements (branchesOf gs) := by
  obtain ⟨root, hroot, hall⟩ := RangeTable.holdsAll_build gs
  rw [writtenIn, hroot]
  exact flatMap_written_of_holdsAll (fun _ _ => RangeTable.span?_build) hall

/-! ## Ranges in a document -/

/-- The name in the element of a range. -/
def nameOfRange? : Element → Option String
  | .mk tag attributes _ => if tag = rangeName then attributes.lookup "Name" else none

mutual

/-- The elements of ranges in an element, that itself included, each with the names of the ranges
around it and its own. -/
def rangesFrom (above : List String) : Element → List (List String × Element)
  | .mk tag attributes inner =>
    match nameOfRange? (.mk tag attributes inner) with
    | some name =>
      (above ++ [name], .mk tag attributes inner) :: rangesAmong (above ++ [name]) inner
    | none => []

/-- The elements of ranges among elements and in them, each with the names of the ranges around it
and its own. -/
def rangesAmong (above : List String) : List Element → List (List String × Element)
  | [] => []
  | e :: es => rangesFrom above e ++ rangesAmong above es

end

theorem nameOfRange?_rangeElement (b : Branch) :
    nameOfRange? (rangeElement b) = some b.name := by
  obtain ⟨name, groups, inner⟩ := b
  rfl

theorem rangesAmong_append (above : List String) (es fs : List Element) :
    rangesAmong above (es ++ fs) = rangesAmong above es ++ rangesAmong above fs := by
  induction es with
  | nil => rfl
  | cons e es ih => rw [List.cons_append, rangesAmong, rangesAmong, ih, List.append_assoc]

/-- There is no range in groups. -/
theorem rangesAmong_groupElements (above : List String) (groups : List Group) :
    rangesAmong above (groups.map groupElement) = [] := by
  induction groups with
  | nil => rfl
  | cons g groups ih => exact ih

mutual

/-- The ranges in the element of a branch are the branches in it. -/
theorem rangesFrom_rangeElement : ∀ {b : Branch} {above : List String},
    (∀ q ∈ b.paths above, q.2.span.isSome) →
    rangesFrom above (rangeElement b) = (b.paths above).map (Prod.map id rangeElement)
  | .mk name groups inner, above, h => by
    obtain ⟨hspan, hinner⟩ := List.forall_mem_cons.mp h
    have hname := nameOfRange?_rangeElement (.mk name groups inner)
    rw [rangeElement] at hname
    rw [rangeElement, rangesFrom, hname, Branch.paths, List.map_cons,
      ← rangesAmong_rangeElements hinner, Branch.name]
    simp only [rangesAmong_append, rangesAmong_groupElements, List.nil_append, Prod.map, id,
      rangeElement]

theorem rangesAmong_rangeElements : ∀ {bs : List Branch} {above : List String},
    (∀ q ∈ pathsOf above bs, q.2.span.isSome) →
    rangesAmong above (rangeElements bs) = (pathsOf above bs).map (Prod.map id rangeElement)
  | [], _, _ => rfl
  | b :: bs, above, h => by
    obtain ⟨hb, hbs⟩ := List.forall_mem_append.mp h
    have hspan : b.span.isSome := by
      obtain ⟨name, groups, inner⟩ := b
      exact hb _ (.head _)
    rw [rangeElements, if_pos hspan, rangesAmong, rangesFrom_rangeElement hb,
      rangesAmong_rangeElements hbs, pathsOf, List.map_append]

end

/-! ## The range at a path -/

/-- The addresses of the groups whose path is the given one or goes on from there. The span of a
range is that of these. -/
def addressesAt (gs : List Group) (path : List String) : List Nat :=
  (gs.filter fun g => path <+: g.path).map (·.address.raw.toNat)

/-- An element is that of the range at a path, with the groups that have the path, each once and in
order, and then the ranges that paths go on with. -/
structure RangeAt (gs : List Group) (path : List String) (first last : Nat) (e : Element) :
    Prop where
  /-- what is written -/
  element : ∃ front name inner, path = front ++ [name] ∧
    e = .mk rangeName (rangeAttributes name first last)
      ((gs.filter (·.path = path)).map groupElement ++ inner) ∧
    inner.map nameOfRange? = (groupNames gs path).map some
  /-- the least and the greatest address in it -/
  covers : Covers (addressesAt gs path) (some (first, last))

theorem mem_addressesAt_iff {path : List String} {a : Nat} :
    a ∈ addressesAt gs path ↔ ∃ g ∈ gs, path <+: g.path ∧ g.address.raw.toNat = a := by
  simp [addressesAt, and_assoc]

/-- The bounds of a range lie within those of the ranges around it. -/
theorem RangeAt.bounds_le {path inside : List String} {first last first' last' : Nat}
    {e e' : Element} (h : RangeAt gs path first last e) (h' : RangeAt gs inside first' last' e')
    (hp : path <+: inside) : first ≤ first' ∧ last' ≤ last := by
  have hsub : ∀ a ∈ addressesAt gs inside, a ∈ addressesAt gs path := by
    intro a ha
    obtain ⟨g, hg, hpre, rfl⟩ := mem_addressesAt_iff.mp ha
    exact mem_addressesAt_iff.mpr ⟨g, hg, hp.trans hpre, rfl⟩
  obtain ⟨⟨-, hleast⟩, -, hgreatest⟩ := h.covers
  obtain ⟨⟨hfirst, -⟩, hlast, -⟩ := h'.covers
  exact ⟨hleast _ (hsub _ hfirst), hgreatest _ (hsub _ hlast)⟩

/-- The names of branches that have spans, each of which has an element with its name. -/
theorem map_nameOfRange?_rangeElements {bs : List Branch} (h : ∀ b ∈ bs, b.span.isSome) :
    (rangeElements bs).map nameOfRange? = (bs.map Branch.name).map some := by
  induction bs with
  | nil => rfl
  | cons b bs ih =>
    obtain ⟨hb, hbs⟩ := List.forall_mem_cons.mp h
    rw [rangeElements, if_pos hb, List.map_cons, List.map_cons, List.map_cons, ih hbs,
      nameOfRange?_rangeElement]

/-- The names of described branches are written, all of them and in their order, since each has a
span. -/
theorem map_nameOfRange?_of_described {bs : List Branch} {above : List String}
    (hn : bs.map Branch.name = groupNames gs above) (h : AllDescribed gs above bs) :
    (rangeElements bs).map nameOfRange? = (groupNames gs above).map some := by
  rw [← hn]
  refine map_nameOfRange?_rangeElements fun b hb => ?_
  have hmem : b.name ∈ groupNames gs above := hn ▸ List.mem_map_of_mem hb
  exact (allDescribed_iff.mp h b hb).isSome_span (mem_groupNames_iff.mp hmem)

/-- **The element of a described branch** is that of the range at its path. -/
theorem rangeAt_rangeElement {b : Branch} {front : List String} (h : b.Described gs front)
    (hg : ∃ g ∈ gs, front ++ [b.name] <+: g.path) :
    ∃ first last, RangeAt gs (front ++ [b.name]) first last (rangeElement b) := by
  obtain ⟨⟨first, last⟩, hspan⟩ := Option.isSome_iff_exists.mp (h.isSome_span hg)
  have hcovers := b.covers_span.congr fun a => h.mem_addresses_iff.trans mem_addressesAt_iff.symm
  rw [hspan] at hcovers
  obtain ⟨name, groups, inner⟩ := b
  obtain ⟨hgroups, hnames, hinner⟩ := h
  refine ⟨first, last, ⟨front, name, rangeElements inner, rfl, ?_, ?_⟩, hcovers⟩
  · rw [rangeElement, hspan, hgroups]
    rfl
  · exact map_nameOfRange?_of_described hnames hinner

/-! ## The document of groups -/

/-- The ranges in the document of groups are their branches, with the same paths and in the same
order. -/
theorem rangesAmong_writtenIn_build (gs : List Group) :
    rangesAmong [] (writtenIn (.build gs)) =
      (pathsOf [] (branchesOf gs)).map (Prod.map id rangeElement) := by
  rw [writtenIn_build]
  refine rangesAmong_rangeElements fun q hq => ?_
  obtain ⟨front, hfront, hd, hg⟩ := described_of_mem_pathsOf hq
  exact hd.isSome_span (hfront ▸ hg)

/-- Each range in the document of groups is as they describe it. -/
theorem rangeAt_of_mem {path : List String} {e : Element}
    (h : (path, e) ∈ rangesAmong [] (writtenIn (.build gs))) :
    ∃ first last, RangeAt gs path first last e := by
  rw [rangesAmong_writtenIn_build] at h
  obtain ⟨q, hq, heq⟩ := List.mem_map.mp h
  obtain ⟨hpath, rfl⟩ : q.1 = path ∧ rangeElement q.2 = e := Prod.mk.inj heq
  obtain ⟨front, hfront, hd, hg⟩ := described_of_mem_pathsOf hq
  rw [hfront] at hpath hg
  rw [← hpath]
  exact rangeAt_rangeElement hd hg

/-- **The ranges of a document are the paths of its groups.** There is one range for each beginning
of a path and no other; ranges side by side have different names and stand in the order of their
first mention; each has its own groups, and a span that is just wide enough for all groups in it and
further in. -/
theorem hierarchy_of_groups (gs : List Group) :
    let table := RangeTable.build gs
    let ranges := rangesAmong [] (writtenIn table)
    -- the document is that of the table, and each range of the table has a span and is written
    documentOf gs = document (.mk rootName [("xmlns", documentNamespace)] (writtenIn table)) ∧
    (∀ i, i + 1 < table.nodes.length → (table.span? (i + 1)).isSome) ∧
    (∀ (i : Nat) (node : RangeNode), table.nodes[i]? = some node →
      table.visible node = node.children) ∧
    table.nodes.length = ranges.length + 1 ∧
    -- there is one range for each beginning of a path
    (ranges.map (·.1)).Nodup ∧
    (∀ path, path ∈ ranges.map (·.1) ↔ path ≠ [] ∧ ∃ g ∈ gs, path <+: g.path) ∧
    -- ranges side by side have different names, in the order of their first mentions
    (∀ path, (groupNames gs path).Nodup) ∧
    (writtenIn table).map nameOfRange? = (groupNames gs []).map some ∧
    -- a range has the groups with its path and the bounds of all groups in it, so that the bounds
    -- of a range in it lie within them
    (∀ path e, (path, e) ∈ ranges → ∃ first last, RangeAt gs path first last e) ∧
    ∀ path e inside f, (path, e) ∈ ranges → (inside, f) ∈ ranges → path <+: inside →
      ∃ first last first' last', RangeAt gs path first last e ∧ RangeAt gs inside first' last' f ∧
        first ≤ first' ∧ last' ≤ last := by
  intro table ranges
  have hranges : ranges = (pathsOf [] (branchesOf gs)).map (Prod.map id rangeElement) :=
    rangesAmong_writtenIn_build gs
  have hpaths : ranges.map (·.1) = (pathsOf [] (branchesOf gs)).map (·.1) := by
    rw [hranges, List.map_map]
    rfl
  obtain ⟨hnames, hall⟩ := described_branchesOf gs
  refine ⟨?_, fun i => RangeTable.isSome_span?_build, fun i node => RangeTable.visible_build,
    ?_, ?_, ?_, nodup_groupNames gs, ?_, fun path e => rangeAt_of_mem, ?_⟩
  · rw [documentOf, writtenIn_build]
  · rw [hranges, List.length_map]
    exact RangeTable.length_build gs
  · rw [hpaths]
    exact nodup_pathsOf gs
  · rw [hpaths]
    exact mem_pathsOf_iff gs
  · rw [writtenIn_build]
    exact map_nameOfRange?_of_described hnames hall
  · intro path e inside f he hf hp
    obtain ⟨first, last, h⟩ := rangeAt_of_mem he
    obtain ⟨first', last', h'⟩ := rangeAt_of_mem hf
    exact ⟨first, last, first', last', h, h', h.bounds_le h' hp⟩

end BuildingBus.Exchange
