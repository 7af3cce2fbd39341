import BuildingBus.Exchange.Export
import BuildingBus.Exchange.Import
import BuildingBus.Proofs.Catalog.Rebuilding
import BuildingBus.Proofs.Exchange.Reading
import BuildingBus.Proofs.Markup.Attributes

/-!
# Export and import

A catalog that was built is exported to a text, and from this text a catalog with the same groups is
imported (`import_export`). The ranges in the text are the branches of the groups, so that the
groups come back in pre-order; from then on neither the text nor the order changes any more.

The way through the text is followed in four steps. The octets are read as the marks of the elements
(`scan_document`), and these are plain. What the elements mean is what the branches are
(`forestRanges_rootElement`). From that the groups are built (`assemble_rangesFor`). And the groups
in pre-order have the same branches (`branchesOf_map_preorderOf`), hence the same text.
-/

namespace BuildingBus.Exchange

open Address Catalog Datapoint Markup Number Text

/-! ## The elements of an export are plain -/

theorem plainTag_of_keys (keys : List String) {name : String} {attributes : List (String × String)}
    (hk : attributes.map (·.1) = keys) (hn : isPlain name = true) (hp : keys.all isPlain = true)
    (hd : keys.Nodup) : PlainTag name attributes where
  name := hn
  keys a ha := List.all_eq_true.mp hp a.1 (hk ▸ List.mem_map_of_mem ha)
  nodup := hk ▸ hd

theorem plainTag_group (g : Group) : PlainTag groupName (groupAttributes g) :=
  plainTag_of_keys ["Name", "Address", "DPTs"] rfl (by decide) (by decide) (by decide)

theorem plainTag_range (name : String) (first last : Nat) :
    PlainTag rangeName (rangeAttributes name first last) :=
  plainTag_of_keys ["Name", "RangeStart", "RangeEnd"] rfl (by decide) (by decide) (by decide)

theorem plain_groupElement (g : Group) : (groupElement g).Plain := ⟨plainTag_group g, trivial⟩

mutual

theorem plain_rangeElement : ∀ b : Branch, (rangeElement b).Plain
  | .mk _ groups inner =>
    ⟨plainTag_range _ _ _,
      (allPlain_map plain_groupElement groups).append (allPlain_rangeElements inner)⟩

theorem allPlain_rangeElements : ∀ bs : List Branch, AllPlain (rangeElements bs)
  | [] => trivial
  | b :: bs => by
    rw [rangeElements]
    split
    · exact ⟨plain_rangeElement b, allPlain_rangeElements bs⟩
    · exact allPlain_rangeElements bs

end

/-! ## What the elements of an export mean -/

theorem contentOf_append {ms ns : List Node} {a b : Content} (ha : contentOf ms = .ok a)
    (hb : contentOf ns = .ok b) : contentOf (ms ++ ns) = .ok (a.append b) := by
  induction ms generalizing a with
  | nil =>
    obtain rfl := Except.ok.inj ha
    exact hb
  | cons n ms ih =>
    rw [contentOf] at ha
    obtain ⟨c, hc, ha⟩ := bind_eq_ok_iff.mp ha
    obtain ⟨d, hd, ha⟩ := bind_eq_ok_iff.mp ha
    obtain rfl := Except.ok.inj ha
    rw [List.cons_append, contentOf, hc, ih hd]
    simp [Content.append, bind, Except.bind, pure, Except.pure]

/-- The element of a group contributes the declaration of the group. -/
theorem nodeContent_groupElement (g : Group) :
    nodeContent (groupElement g).node = .ok { entries := [g.entry] } := by
  have hl : localName (octets groupName) = octets groupName := localName_octets (by decide)
  have hn : octets groupName ≠ octets rangeName := by decide
  have ha (key : String) (hk : isPlain key = true) :
      attributeOrEmpty (tagOf groupName (groupAttributes g)) key =
        .ok (((groupAttributes g).lookup key).getD "") := by
    rw [attributeOrEmpty, attribute_tagOf (plainTag_group g) hk]
    rfl
  have he : readEntry (tagOf groupName (groupAttributes g)) = .ok g.entry := by
    rw [readEntry, ha "Name" (by decide), ha "Address" (by decide), ha "DPTs" (by decide)]
    rfl
  rw [nodeContent_eq, groupElement, Element.tag_node, tagContent]
  change (if localName (octets groupName) = octets rangeName then _ else
    if localName (octets groupName) = octets groupName then _ else _) = _
  rw [hl, if_neg hn, if_pos rfl, he]
  rfl

theorem contentOf_groupElements (groups : List Group) :
    contentOf (nodesOf (groups.map groupElement)) = .ok { entries := groups.map Group.entry } := by
  induction groups with
  | nil => rfl
  | cons g groups ih =>
    rw [List.map_cons, nodesOf, contentOf, nodeContent_groupElement, ih]
    rfl

/-- Numbers of sixteen bits are accepted as the bounds of a range. -/
theorem boundFits_rangeAttributes {name key : String} {first last n : Nat} (hn : n ≤ 65535)
    (hk : isPlain key = true)
    (hl : (rangeAttributes name first last).lookup key = some (toString n)) :
    BoundFits (tagOf rangeName (rangeAttributes name first last)) key := by
  refine .inr ⟨toString n, n, ?_, ?_⟩
  · rw [attribute_tagOf (plainTag_range name first last) hk, hl]
  · have ht : (toString n).toList = Nat.toDigits 10 n := String.toList_ofList
    rw [ht, trim_toDigits, readUnsigned_toDigits hn]

/-- The tag of a range declares the range. -/
theorem readRange_rangeAttributes {name : String} {first last : Nat} (hf : first ≤ 65535)
    (hl : last ≤ 65535) :
    readRange (tagOf rangeName (rangeAttributes name first last)) = .ok (.mk name [] []) := by
  refine readRange_eq_ok_iff.mpr ⟨?_, ?_, some name, ?_, rfl⟩
  · exact boundFits_rangeAttributes hf (by decide) rfl
  · exact boundFits_rangeAttributes hl (by decide) rfl
  · exact attribute_tagOf (plainTag_range name first last) (by decide)

/-- The span of a branch with groups in it is made of numbers of sixteen bits. -/
theorem exists_span_le {b : Branch} (h : b.preorder ≠ []) :
    ∃ first last, b.span = some (first, last) ∧ first ≤ 65535 ∧ last ≤ 65535 := by
  obtain ⟨first, last, hs, hf, hl⟩ := Branch.exists_span h
  have hle : ∀ a ∈ b.addresses, a ≤ 65535 := by
    rw [Branch.addresses_eq]
    intro a ha
    obtain ⟨g, -, rfl⟩ := List.mem_map.mp ha
    exact Nat.le_of_lt_succ g.address.raw.toNat_lt
  exact ⟨first, last, hs, hle first hf, hle last hl⟩

/-- A placed branch has an element. -/
theorem rangeElements_cons {above : List String} {b : Branch} (hb : b.Placed above)
    (bs : List Branch) : rangeElements (b :: bs) = rangeElement b :: rangeElements bs := by
  obtain ⟨first, last, hs, -⟩ := exists_span_le hb.preorder_ne_nil
  have hspan : b.span.isSome = true := by rw [hs]; rfl
  rw [rangeElements, if_pos hspan]

mutual

/-- The element of a branch contributes the range that the branch is. -/
theorem nodeContent_rangeElement {above : List String} : ∀ {b : Branch}, b.Placed above →
    nodeContent (rangeElement b).node = .ok { ranges := [b.range] }
  | .mk name groups inner, hb => by
    obtain ⟨first, last, hs, hf, hl⟩ := exists_span_le hb.preorder_ne_nil
    obtain ⟨-, -, -, hi⟩ := hb
    have hn : localName (octets rangeName) = octets rangeName := localName_octets (by decide)
    have hc := contentOf_append (contentOf_groupElements groups) (contentOf_rangeElements hi)
    have he : rangeElement (.mk name groups inner) = .mk rangeName (rangeAttributes name first last)
        (groups.map groupElement ++ rangeElements inner) := by
      rw [rangeElement, hs]
      rfl
    rw [nodeContent_eq, he, Element.tag_node, Element.children_node, nodesOf_append, hc, tagContent]
    change (if localName (octets rangeName) = octets rangeName then _ else _) = _
    rw [if_pos hn, readRange_rangeAttributes hf hl]
    simp [bind, Except.bind, pure, Except.pure, Content.append, Branch.range, GroupRange.name]

/-- The elements of branches contribute the ranges that the branches are. -/
theorem contentOf_rangeElements {above : List String} : ∀ {bs : List Branch}, AllPlaced above bs →
    contentOf (nodesOf (rangeElements bs)) = .ok { ranges := rangesFor bs }
  | [], _ => rfl
  | b :: bs, ⟨hb, _, hbs⟩ => by
    rw [rangeElements_cons hb, nodesOf, contentOf, nodeContent_rangeElement hb,
      contentOf_rangeElements hbs]
    rfl

end

/-- The elements of branches declare the ranges that the branches are. -/
theorem rangesIn_rangeElements {above : List String} {bs : List Branch} (h : AllPlaced above bs) :
    rangesIn (nodesOf (rangeElements bs)) = .ok (rangesFor bs) := by
  induction bs with
  | nil => rfl
  | cons b bs ih =>
    obtain ⟨hb, -, hbs⟩ := h
    rw [rangeElements_cons hb, nodesOf, rangesIn, nodeContent_rangeElement hb, ih hbs]
    rfl

/-! ## The document of an export -/

/-- The document element of an export, with an element for each branch in it. -/
def rootElement (gs : List Group) : Element :=
  .mk rootName [("xmlns", documentNamespace)] (rangeElements (branchesOf gs))

theorem plain_rootElement (gs : List Group) : (rootElement gs).Plain :=
  ⟨plainTag_of_keys ["xmlns"] rfl (by decide) (by decide) (by decide),
    allPlain_rangeElements (branchesOf gs)⟩

theorem requireDeclaration_declarationAttributes :
    requireDeclaration declarationAttributes = .ok () := by
  decide +kernel

/-- The forest with the document element of an export declares the ranges that the branches are. -/
theorem forestRanges_rootElement {gs : List Group} (h : AllPlaced [] (branchesOf gs)) :
    forestRanges [(rootElement gs).node] = .ok (rangesFor (branchesOf gs)) := by
  have hn : localName (octets rootName) = octets rootName := localName_octets (by decide)
  rw [forestRanges, rootElement, Element.tag_node, Element.children_node, rangesIn_rangeElements h]
  change (if localName (octets rootName) = octets rootName then _ else _) = _
  rw [if_pos hn]
  rfl

/-- The document of an export declares the ranges that the branches of its groups are. -/
theorem ranges_documentOf {gs : List Group} (h : AllPlaced [] (branchesOf gs)) :
    (Delivery.whole (Utf8.encode (documentOf gs).toList)).ranges =
      .ok (rangesFor (branchesOf gs)) := by
  have hscan : scan .complete (Utf8.encode (documentOf gs).toList) =
      ⟨.declaration declarationAttributes :: (rootElement gs).node.marks, .endOfInput⟩ :=
    scan_document (plain_rootElement gs)
  -- every end tag closes the element opened last, so that no mark is dropped
  have hnest : Stream.nest ⟨.declaration declarationAttributes :: (rootElement gs).node.marks,
      .endOfInput⟩ =
      ⟨.declaration declarationAttributes :: (rootElement gs).node.marks, .endOfInput⟩ := by
    change (nestFrom .endOfInput [] (rootElement gs).node.marks).cons _ = _
    rw [((rootElement gs).node.nested_marks []).nestFrom_eq]
    rfl
  have hf := Reader.result_of_forest [(rootElement gs).node]
  rw [forestRanges_rootElement h, marksOf, marksOf, List.append_nil] at hf
  change rangesOf (scan .complete (Utf8.encode (documentOf gs).toList)).nest = _
  rw [hscan, hnest, rangesOf, List.foldlM_cons, Reader.step,
    requireDeclaration_declarationAttributes]
  exact hf

/-! ## Export and import -/

theorem span_restyled (style : Style) (b : Branch) :
    (b.mapGroups (Group.restyled style)).span = b.span :=
  Branch.span_mapGroups (f := Group.restyled style) (fun _ => rfl) b

mutual

/-- The element of a branch does not depend on the style of the groups. -/
theorem rangeElement_restyled (style : Style) : ∀ b : Branch,
    rangeElement (b.mapGroups (Group.restyled style)) = rangeElement b
  | .mk name groups inner => by
    have hs := span_restyled style (.mk name groups inner)
    rw [Branch.mapGroups] at hs ⊢
    rw [rangeElement, rangeElement, hs, rangeElements_restyled style inner, List.map_map]
    rfl

/-- The elements of branches do not depend on the style of the groups. -/
theorem rangeElements_restyled (style : Style) : ∀ bs : List Branch,
    rangeElements (mapAllGroups (Group.restyled style) bs) = rangeElements bs
  | [] => rfl
  | b :: bs => by
    rw [mapAllGroups, rangeElements, rangeElements, span_restyled, rangeElement_restyled style b,
      rangeElements_restyled style bs]

end

/-- The groups in pre-order, in another style, have the same document. -/
theorem documentOf_restyled_preorderOf {gs : List Group} (h : AllPlaced [] (branchesOf gs))
    (style : Style) :
    documentOf ((preorderOf (branchesOf gs)).map (Group.restyled style)) = documentOf gs := by
  have hb : branchesOf ((preorderOf (branchesOf gs)).map (Group.restyled style)) =
      mapAllGroups (Group.restyled style) (branchesOf gs) :=
    branchesOf_map_preorderOf (f := Group.restyled style) (fun _ => rfl) h
  rw [documentOf, documentOf, hb, rangeElements_restyled]

/-- The export of a sound catalog is imported as a catalog with its groups in pre-order. -/
theorem exists_import_of_sound {c : Catalog} (h : c.Sound) :
    ∃ c', (importText (documentOf c.groups)).answer = .ok c' ∧
      c'.groups = (preorderOf (branchesOf c.groups)).map (Group.restyled .unspecified) ∧
      c'.groupStyle = .unspecified ∧ c'.individualStyle = .unspecified := by
  have hplaced : AllPlaced [] (branchesOf c.groups) :=
    allPlaced_branchesOf fun g hg => (h.groups g hg).path_trimmed
  have hperm : (preorderOf (branchesOf c.groups)).Perm c.groups :=
    preorderOf_branchesOf fun g hg => (h.groups g hg).path_ne
  have hsound : ∀ g ∈ preorderOf (branchesOf c.groups), g.Sound :=
    fun g hg => h.groups g (hperm.mem_iff.mp hg)
  -- names and addresses are told apart in any order of the groups
  have hn : ((preorderOf (branchesOf c.groups)).map fun g => nameKey g.name).Nodup :=
    (hperm.map _).nodup_iff.mpr (List.pairwise_map.mpr h.names.pairwise)
  have ha : ((preorderOf (branchesOf c.groups)).map Group.address).Nodup :=
    (hperm.map _).nodup_iff.mpr (List.pairwise_map.mpr h.addresses.pairwise)
  obtain ⟨c', hc', hgroups, hstyles⟩ :=
    assemble_rangesFor hplaced hsound hn ha .unspecified .unspecified
  refine ⟨c', ?_, hgroups, hstyles⟩
  rw [importText, importDocument, answer_importWith_eq_ok_iff]
  exact ⟨rangesFor (branchesOf c.groups), ranges_documentOf hplaced, hc'⟩

/-- **Import undoes export, up to order.** A catalog that was built is exported to a text from which
a catalog is imported. Its groups are those of the first one, each once and with unspecified style,
in the pre-order of the branches; its own styles are unspecified. It is exported to the same text,
and so the groups of a further import are the same, in the same order. -/
theorem import_export {p : Plan} {c : Catalog} (h : p.build.answer = .ok c) :
    ∃ c', (importText (exportText c).answer).answer = .ok c' ∧
      c'.groups = (preorderOf (branchesOf c.groups)).map (Group.restyled .unspecified) ∧
      c'.groups.Perm (c.groups.map (Group.restyled .unspecified)) ∧
      c'.groupStyle = .unspecified ∧ c'.individualStyle = .unspecified ∧
      (exportText c').answer = (exportText c).answer ∧
      ∃ c'', (importText (exportText c').answer).answer = .ok c'' ∧ c''.groups = c'.groups := by
  have hs : c.Sound := Sound.assemble (answer_build p ▸ h)
  have hplaced : AllPlaced [] (branchesOf c.groups) :=
    allPlaced_branchesOf fun g hg => (hs.groups g hg).path_trimmed
  have hperm : (preorderOf (branchesOf c.groups)).Perm c.groups :=
    preorderOf_branchesOf fun g hg => (hs.groups g hg).path_ne
  obtain ⟨c', hc', hgroups, hgs, his⟩ := exists_import_of_sound hs
  -- the second text is the first one, so that the second import is the first one as well
  have hdoc : documentOf c'.groups = documentOf c.groups := by
    rw [hgroups, documentOf_restyled_preorderOf hplaced]
  refine ⟨c', hc', hgroups, hgroups ▸ hperm.map _, hgs, his, hdoc, c', ?_, rfl⟩
  change (importText (documentOf c'.groups)).answer = .ok c'
  rw [hdoc]
  exact hc'

/-- A range that the declaration comes back to, with markup in its name: the group that was declared
last is the second one after the way through the text. -/
theorem import_export_repeated :
    let p : Plan := ⟨[.mk "A & B" [⟨"one", "1", "DPST-1-1"⟩] [], .mk "\"C\"" [⟨"two", "2", ""⟩] [],
      .mk "A & B" [⟨"three", "3", "9.001, 1.001"⟩] []], .free, .twoLevel⟩
    ∃ c c', p.build.answer = .ok c ∧ (importText (exportText c).answer).answer = .ok c' ∧
      c.groups.map (·.name) = ["one", "two", "three"] ∧
      c'.groups.map (·.name) = ["one", "three", "two"] ∧
      (exportText c').answer = (exportText c).answer := by
  intro p
  obtain ⟨c, hc, hgs⟩ : ∃ c, p.build.answer = .ok c ∧
      c.groups = [⟨"one", ⟨1⟩, [⟨1, 1⟩], ["A & B"], .free⟩, ⟨"two", ⟨2⟩, [], ["\"C\""], .free⟩,
        ⟨"three", ⟨3⟩, [⟨9, 1⟩, ⟨1, 1⟩], ["A & B"], .free⟩] :=
    exists_build (by decide +kernel)
  obtain ⟨c', hc', hgroups, -, -, -, hdoc, -⟩ := import_export hc
  refine ⟨c, c', hc, hc', ?_, ?_, hdoc⟩
  · rw [hgs]
    rfl
  · rw [hgroups, hgs]
    decide +kernel

end BuildingBus.Exchange
