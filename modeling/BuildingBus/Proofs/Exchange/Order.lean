import BuildingBus.Exchange.Import
import BuildingBus.Proofs.Markup.Spelling
import BuildingBus.Proofs.Steps
import Mathlib.Data.List.Find
import Mathlib.Data.List.Rotate
import Mathlib.Logic.Relation

/-!
# The order of attributes

Attributes are looked up by their local names, the first one with a name is taken, and each kind of
element has its own names that are looked up (`readKeys`). An import depends on an element through
what is found under these names (`Reader.start_congr`), and through its name. So the attributes of an
element may stand in any order, as long as the first one with each of these local names stays the
first (`importWith_reordered`). If their local names differ, this is any order at all
(`importWith_reordered_of_nodup`).

Different keys may have the same local name. Then the order does matter: the first of them counts
(`import_swapped_names`).
-/

namespace BuildingBus.Exchange

open Catalog Markup

/-! ## What is looked up -/

/-- The local names of the attributes that are looked up in an element with a name. An element of
another name has none, and its attributes are free. -/
def readKeys (name : Octets) : List String :=
  if localName name = octets rangeName then ["RangeStart", "RangeEnd", "Name"]
  else if localName name = octets groupName then ["Name", "Address", "DPTs"]
  else []

/-- Two tags in which the same is found. They may differ in all that is never looked up, and in
where it stands. -/
structure SameFound (a b : Tag) : Prop where
  /-- the elements have one name -/
  name : a.name = b.name
  /-- the same is found under each name that is looked up -/
  found : ∀ key ∈ readKeys a.name, a.attribute key = b.attribute key

/-- Marks that are read alike: the same marks, or tags in which the same is found. -/
inductive Alike : Mark → Mark → Prop
  /-- the same mark -/
  | same (mark : Mark) : Alike mark mark
  /-- start tags in which the same is found -/
  | opening {a b : Tag} (h : SameFound a b) : Alike (.opening a) (.opening b)
  /-- tags of empty elements in which the same is found -/
  | empty {a b : Tag} (h : SameFound a b) : Alike (.empty a) (.empty b)

section

variable {a b : Tag}

theorem requireBound_congr {key : String} (h : a.attribute key = b.attribute key) :
    requireBound a key = requireBound b key := by
  rw [requireBound, h, requireBound]

theorem attributeOrEmpty_congr {key : String} (h : a.attribute key = b.attribute key) :
    attributeOrEmpty a key = attributeOrEmpty b key := by
  rw [attributeOrEmpty, h, attributeOrEmpty]

/-- A range is what is found under its three names. -/
theorem readRange_congr (h : ∀ key ∈ ["RangeStart", "RangeEnd", "Name"],
    a.attribute key = b.attribute key) : readRange a = readRange b := by
  rw [readRange, requireBound_congr (h "RangeStart" (by decide)),
    requireBound_congr (h "RangeEnd" (by decide)), attributeOrEmpty_congr (h "Name" (by decide)),
    readRange]

/-- An entry is what is found under its three names. -/
theorem readEntry_congr (h : ∀ key ∈ ["Name", "Address", "DPTs"],
    a.attribute key = b.attribute key) : readEntry a = readEntry b := by
  rw [readEntry, attributeOrEmpty_congr (h "Name" (by decide)),
    attributeOrEmpty_congr (h "Address" (by decide)), attributeOrEmpty_congr (h "DPTs" (by decide)),
    readEntry]

namespace Reader

theorem startInside_congr (r : Reader) (h : SameFound a b) (empty : Bool) :
    r.startInside a empty = r.startInside b empty := by
  obtain ⟨hname, hfound⟩ := h
  unfold readKeys at hfound
  unfold startInside
  rw [← hname]
  dsimp only
  split
  case isTrue hr =>
    rw [if_pos hr] at hfound
    rw [readRange_congr hfound]
  case isFalse hr =>
    rw [if_neg hr] at hfound
    split
    case isTrue hg =>
      rw [if_pos hg] at hfound
      rw [readEntry_congr hfound]
    case isFalse => rfl

/-- A tag is read as far as its name goes and what is found in it. -/
theorem start_congr (r : Reader) (h : SameFound a b) (empty : Bool) :
    r.start a empty = r.start b empty := by
  rw [start, start, startRoot, startRoot, h.name, startInside_congr r h]

end Reader

end

namespace Alike

variable {m n : Mark}

instance : Std.Refl Alike := ⟨.same⟩

/-- **The reader does the same with marks that are alike**, wherever it stands. It may as well
refuse both. -/
theorem step (h : Alike m n) (r : Reader) : r.step m = r.step n := by
  cases h with
  | same => rfl
  | opening h => exact r.start_congr h false
  | empty h => exact r.start_congr h true

/-- Marks that are alike, one by one, take the reader from one state to one state. -/
theorem foldlM {ms ns : List Mark} (h : List.Forall₂ Alike ms ns) (r : Reader) :
    ms.foldlM Reader.step r = ns.foldlM Reader.step r := by
  induction h generalizing r with
  | nil => rfl
  | cons hm _ ih =>
    rw [List.foldlM_cons, List.foldlM_cons, hm.step r]
    exact congrArg _ (funext ih)

/-- The rule for end tags keeps as many of marks that are alike. -/
theorem nestFrom {ms ns : List Mark} (h : List.Forall₂ Alike ms ns) (stop : Stop)
    (opened : List Octets) :
    (nestFrom stop opened ms).stop = (nestFrom stop opened ns).stop ∧
      List.Forall₂ Alike (nestFrom stop opened ms).marks (nestFrom stop opened ns).marks := by
  induction h generalizing opened with
  | nil => exact ⟨rfl, .nil⟩
  | @cons mark _ _ _ hm _ ih =>
    cases hm with
    | opening hs =>
      obtain ⟨hstop, hmarks⟩ := ih (_ :: opened)
      rw [Markup.nestFrom, Markup.nestFrom, ← hs.name]
      exact ⟨hstop, .cons (.opening hs) hmarks⟩
    | empty hs =>
      obtain ⟨hstop, hmarks⟩ := ih opened
      exact ⟨hstop, .cons (.empty hs) hmarks⟩
    | same =>
      cases mark with
      | declaration | empty =>
        obtain ⟨hstop, hmarks⟩ := ih opened
        exact ⟨hstop, .cons (.same _) hmarks⟩
      | opening tag =>
        obtain ⟨hstop, hmarks⟩ := ih (tag.name :: opened)
        exact ⟨hstop, .cons (.same _) hmarks⟩
      | closing name =>
        cases opened with
        | nil => exact ⟨rfl, .nil⟩
        | cons innermost rest =>
          rw [Markup.nestFrom, Markup.nestFrom]
          split
          case isTrue =>
            obtain ⟨hstop, hmarks⟩ := ih rest
            exact ⟨hstop, .cons (.same _) hmarks⟩
          case isFalse => exact ⟨rfl, .nil⟩

/-- Streams with marks that are alike declare the same ranges, or fail alike. -/
theorem rangesOf_nest {ms ns : List Mark} (h : List.Forall₂ Alike ms ns) (stop : Stop) :
    rangesOf (Stream.nest ⟨ms, stop⟩) = rangesOf (Stream.nest ⟨ns, stop⟩) := by
  obtain ⟨hstop, hmarks⟩ := nestFrom h stop []
  rw [rangesOf, rangesOf, Stream.nest, Stream.nest, hstop, foldlM hmarks]

end Alike

/-! ## Documents -/

/-- A document in which the attributes of one element stand in another order: an element with
well-formed attributes whose keys differ, and the first attribute with each local name that is looked
up in it is still the first. -/
inductive Reorders : Octets → Octets → Prop
  /-- what stands before the element, the element with its attributes in both orders, and what stands
  after its tag -/
  | tag {before : Octets} {marks : List Mark} (outside : Finds before marks) (t : TagSpelling)
      {attributes : List Spelling} (order : t.attributes.Perm attributes)
      (first : ∀ key ∈ readKeys t.name, firstNamed key t.attributes = firstNamed key attributes)
      (after : Octets) :
      Reorders (before ++ t.octets ++ after) (before ++ (t.reorder order).octets ++ after)

/-- The marks around a spelled tag: what stands before it and after it is scanned as if the tag were
not there. -/
theorem scan_tag {before : Octets} {marks : List Mark} (h : Finds before marks) (t : TagSpelling)
    (after : Octets) (ending : Ending) :
    scan ending (before ++ t.octets ++ after) =
      ⟨marks ++ t.mark :: (scan ending after).marks, (scan ending after).stop⟩ := by
  have hfinds : Finds (before ++ t.octets) (marks ++ [t.mark]) := h.append t.finds
  rw [scan, Scanner.run_append, hfinds]
  simp [scan]

/-- A tag is read alike in both orders, since under each name that is looked up the same attribute
comes first. -/
theorem alike_reorder (t : TagSpelling) {attributes : List Spelling}
    (order : t.attributes.Perm attributes)
    (first : ∀ key ∈ readKeys t.name, firstNamed key t.attributes = firstNamed key attributes) :
    Alike t.mark (t.reorder order).mark := by
  have hs : SameFound t.tag (t.reorder order).tag := by
    refine ⟨rfl, fun key hk => ?_⟩
    rw [t.attribute_tag, (t.reorder order).attribute_tag, first key hk]
    rfl
  unfold TagSpelling.mark
  change Alike (if t.empty then _ else _) (if t.empty then _ else _)
  split
  case isTrue => exact .empty hs
  case isFalse => exact .opening hs

/-- Both documents declare the same ranges, or fail alike. -/
theorem Reorders.ranges_eq {octets other : Octets} (h : Reorders octets other) (ending : Ending) :
    (⟨octets, ending⟩ : Delivery).ranges = (⟨other, ending⟩ : Delivery).ranges := by
  cases h with
  | @tag before marks outside t attributes order first after =>
    unfold Delivery.ranges
    rw [scan_tag outside, scan_tag outside]
    refine Alike.rangesOf_nest ?_ _
    exact List.rel_append (List.forall₂_refl marks)
      (.cons (alike_reorder t order first) (List.forall₂_refl _))

/-- Both documents are imported alike, with one journal. -/
theorem Reorders.importWith_eq {octets other : Octets} (h : Reorders octets other) (ending : Ending)
    (config : Configuration) :
    importWith ⟨octets, ending⟩ config = importWith ⟨other, ending⟩ config := by
  rw [importWith, importWith, h.ranges_eq ending]

/-- **The order of attributes does not matter** for an import, whether it gives a catalog or fails,
nor for what it reports, as long as the first attribute with each local name that is looked up in an
element stays the first. -/
theorem importWith_reordered {octets other : Octets} (h : Relation.ReflTransGen Reorders octets other)
    (ending : Ending) (config : Configuration) :
    importWith ⟨octets, ending⟩ config = importWith ⟨other, ending⟩ config := by
  induction h with
  | refl => rfl
  | tail _ hs ih => exact ih.trans (hs.importWith_eq ending config)

/-- A group with a foreign name after its own. -/
def entryTag : TagSpelling where
  name := octets groupName
  attributes := [.quoted (octets "Name") (octets "g") (by decide) (by decide),
    .quoted (octets "a:Name") (octets "h") (by decide) (by decide),
    .quoted (octets "Address") (octets "1/2/3") (by decide) (by decide)]
  blanks := []
  empty := true
  isTagName_name := by decide
  nodup := by decide
  all_blanks := rfl

/-- The address of a group may stand before its names, since these keep their order. -/
theorem importWith_reordered_entry :
    ∃ order : entryTag.attributes.Perm (entryTag.attributes.rotate 2),
      let before := octets "<GroupAddress-Export><GroupRange Name=\"r\">"
      let after := octets "</GroupRange></GroupAddress-Export>"
      Reorders (before ++ entryTag.octets ++ after)
        (before ++ (entryTag.reorder order).octets ++ after) ∧
      importDocument (.whole (before ++ entryTag.octets ++ after)) =
        importDocument (.whole (before ++ (entryTag.reorder order).octets ++ after)) := by
  have order : entryTag.attributes.Perm (entryTag.attributes.rotate 2) :=
    (List.rotate_perm _ 2).symm
  have outside : Finds (octets "<GroupAddress-Export><GroupRange Name=\"r\">")
      [.opening ⟨octets rootName, []⟩, .opening ⟨octets rangeName, octets " Name=\"r\""⟩] := by
    rw [Finds]
    decide +kernel
  have first : ∀ key ∈ readKeys entryTag.name,
      firstNamed key entryTag.attributes = firstNamed key (entryTag.attributes.rotate 2) := by
    decide +kernel
  have h := Reorders.tag outside entryTag order first (octets "</GroupRange></GroupAddress-Export>")
  exact ⟨order, h, importWith_reordered (.single h) .complete {}⟩

/-- Attributes with a local name that no other one has are the first with it in any order. -/
theorem firstNamed_eq_of_nodup {attributes other : List Spelling}
    (hd : (attributes.map fun a => localName a.key).Nodup) (order : attributes.Perm other)
    (key : String) : firstNamed key attributes = firstNamed key other := by
  refine List.find?_eq_find?_of_perm order ?_
  rintro a ⟨ha, hka⟩ b ⟨hb, hkb⟩
  exact List.inj_on_of_nodup_map hd ha hb ((beq_iff_eq.mp hka).trans (beq_iff_eq.mp hkb).symm)

/-- Attributes whose local names differ may stand in any order. Keys that differ are not enough: two
of them may have one local name with different prefixes. -/
theorem importWith_reordered_of_nodup {before : Octets} {marks : List Mark}
    (outside : Finds before marks) (t : TagSpelling) {attributes : List Spelling}
    (order : t.attributes.Perm attributes)
    (hd : (t.attributes.map fun a => localName a.key).Nodup) (after : Octets) (ending : Ending)
    (config : Configuration) :
    importWith ⟨before ++ t.octets ++ after, ending⟩ config =
      importWith ⟨before ++ (t.reorder order).octets ++ after, ending⟩ config := by
  have first : ∀ key ∈ readKeys t.name, firstNamed key t.attributes = firstNamed key attributes :=
    fun key _ => firstNamed_eq_of_nodup hd order key
  exact (Reorders.tag outside t order first after).importWith_eq ending config

/-- A range with two names, a foreign one and its own. -/
def foreignName : TagSpelling where
  name := octets rangeName
  attributes := [.quoted (octets "a:Name") (octets "x") (by decide) (by decide),
    .quoted (octets "Name") (octets "y") (by decide) (by decide)]
  blanks := []
  empty := false
  isTagName_name := by decide
  nodup := by decide
  all_blanks := rfl

/-- A document with such a range and one group in it, whose path tells which of the two names was
taken. -/
def foreignNameDocument (range : TagSpelling) : Octets :=
  octets "<GroupAddress-Export xmlns:a=\"urn:a\">" ++ range.octets ++
    octets "<GroupAddress Name=\"g\" Address=\"1/2/3\"/></GroupRange></GroupAddress-Export>"

/-- The range has the name that comes first, be it the foreign one. So its group stands elsewhere when
the two names are exchanged, although their keys differ. -/
theorem import_swapped_names :
    ∃ order : foreignName.attributes.Perm foreignName.attributes.reverse,
      importDocument (.whole (foreignNameDocument foreignName)) ≠
        importDocument (.whole (foreignNameDocument (foreignName.reorder order))) ∧
      (importDocument (.whole (foreignNameDocument foreignName))).answer.map
        (·.groups.map (·.path)) = .ok [["x"]] ∧
      (importDocument (.whole (foreignNameDocument (foreignName.reorder order)))).answer.map
        (·.groups.map (·.path)) = .ok [["y"]] := by
  have hx : (importDocument (.whole (foreignNameDocument foreignName))).answer.map
      (·.groups.map (·.path)) = .ok [["x"]] := by
    decide +kernel
  have hy : (importDocument (.whole (foreignNameDocument (foreignName.reorder
      (List.reverse_perm foreignName.attributes).symm)))).answer.map
        (·.groups.map (·.path)) = .ok [["y"]] := by
    decide +kernel
  refine ⟨(List.reverse_perm foreignName.attributes).symm, fun h => ?_, hx, hy⟩
  rw [h, hy] at hx
  exact absurd hx (by decide)

end BuildingBus.Exchange
