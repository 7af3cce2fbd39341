import BuildingBus.Exchange.Document
import BuildingBus.Proofs.Catalog.Checks
import BuildingBus.Proofs.Markup.Tree

/-!
# What a document means

The ranges that a document declares are defined here on its forest of elements, by recursion: what
an element contributes to the range it stands in (`nodeContent`), what the elements in the document
element declare (`rangesIn`), and what the whole forest does (`forestRanges`). The first element
that fails, in the order of the document, is the error.

The reader has no tree. It keeps open ranges on a stack and counts how deep it is in an element that
says nothing. The main statement is that it computes the same, for marks that follow the rule for end
tags (`rangesOf_eq_forestRanges`). The marks that are kept of a document do so, and thus what any
document declares is the meaning of its elements (`ranges_eq_forestRanges`).

Two facts about reading lead to it. The marks of one element take the reader from its state to the
state with the contribution of the element put into the innermost open range (`foldlM_marks`). And
the names that are open are at any time those of elements that say nothing, then those of the open
ranges, and that of the document element (`Standing`), so that a document that ends early is
noticed.
-/

namespace BuildingBus.Exchange

open Catalog Datapoint Markup Number Text

/-! ## The meaning of a forest -/

/-- What elements contribute to the range they stand in. Entries and ranges are kept apart, as a
range keeps them, so that their order among each other is lost. -/
structure Content where
  /-- entries of the range -/
  entries : List Entry := []
  /-- ranges in the range -/
  ranges : List GroupRange := []

/-- What is contributed first, and then. -/
def Content.append (first rest : Content) : Content :=
  ⟨first.entries ++ rest.entries, first.ranges ++ rest.ranges⟩

/-- What an element with a tag contributes, from what the elements in it contribute to it. Only for
a range does it matter what these are, or whether one of them fails. -/
def tagContent (tag : Tag) (inside : Except ReadFault Content) : Except ReadFault Content := do
  if localName tag.name = octets rangeName then
    let range ← readRange tag
    let content ← inside
    return { ranges := [.mk range.name content.entries content.ranges] }
  else if localName tag.name = octets groupName then
    return { entries := [← readEntry tag] }
  else return {}

mutual

/-- What an element contributes to the range it stands in. The recursion is on the tree, and needs
no state at all. -/
def nodeContent : Node → Except ReadFault Content
  | .empty tag => tagContent tag (.ok {})
  | .full tag children => tagContent tag (contentOf children)

/-- What elements contribute to the range they stand in. -/
def contentOf : List Node → Except ReadFault Content
  | [] => .ok {}
  | n :: ns => do
    let first ← nodeContent n
    let rest ← contentOf ns
    return first.append rest

end

theorem nodeContent_eq (n : Node) : nodeContent n = tagContent n.tag (contentOf n.children) := by
  cases n <;> rfl

/-- The ranges that elements in the document element declare. There is no range for an entry there,
and that is its error. -/
def rangesIn : List Node → Except ReadFault (List GroupRange)
  | [] => .ok []
  | n :: ns => do
    let first ← nodeContent n
    match first.entries with
    | entry :: _ => throw (.outsideRanges entry.name)
    | [] =>
      let rest ← rangesIn ns
      return first.ranges ++ rest

/-- The ranges that a forest declares: those in its first element, which must be a document element
and the only one. -/
def forestRanges : List Node → Except ReadFault (List GroupRange)
  | [] => .error (.exchange (.unexpectedRoot ""))
  | root :: others => do
    let name := localName root.tag.name
    if name = octets rootName then
      let ranges ← rangesIn root.children
      match others with
      | [] => return ranges
      | _ :: _ => throw (.exchange .contentAfterRoot)
    else throw (.exchange (.unexpectedRoot (String.ofList (Utf8.decodeLossy name))))

/-! ## Tags of ranges -/

/-- The bound of a range is not given or is a number of sixteen bits. -/
def BoundFits (tag : Tag) (key : String) : Prop :=
  tag.attribute key = .ok none ∨
    ∃ value n, tag.attribute key = .ok (some value) ∧
      readUnsigned 65535 (trim value.toList) = .ok n

theorem requireBound_eq_ok_iff {tag : Tag} {key : String} :
    requireBound tag key = .ok () ↔ BoundFits tag key := by
  unfold requireBound BoundFits
  cases tag.attribute key with
  | error fault => simp [wellFormed, bind, Except.bind]
  | ok value =>
    cases value with
    | none => simp [wellFormed, bind, Except.bind, pure, Except.pure]
    | some value =>
      cases h : readUnsigned 65535 (trim value.toList) with
      | error fault => simp [wellFormed, bind, Except.bind, h, throw, throwThe, MonadExceptOf.throw]
      | ok n => simp [wellFormed, bind, Except.bind, h, pure, Except.pure]

theorem attributeOrEmpty_eq_ok_iff {tag : Tag} {key text : String} :
    attributeOrEmpty tag key = .ok text ↔
      ∃ value, tag.attribute key = .ok value ∧ text = value.getD "" := by
  unfold attributeOrEmpty
  cases tag.attribute key with
  | error fault => simp [wellFormed, bind, Except.bind]
  | ok value => simp [wellFormed, bind, Except.bind, pure, Except.pure, eq_comm]

/-- A tag declares a range exactly if both bounds fit and the name can be read. The bounds leave no
trace in the range. -/
theorem readRange_eq_ok_iff {tag : Tag} {range : GroupRange} :
    readRange tag = .ok range ↔ BoundFits tag "RangeStart" ∧ BoundFits tag "RangeEnd" ∧
      ∃ name, tag.attribute "Name" = .ok name ∧ range = .mk (name.getD "") [] [] := by
  simp only [readRange, bind_eq_ok_iff, ← requireBound_eq_ok_iff, attributeOrEmpty_eq_ok_iff]
  constructor
  · rintro ⟨⟨⟩, hs, ⟨⟩, he, name, ⟨value, hv, rfl⟩, h⟩
    exact ⟨hs, he, value, hv, (Except.ok.inj h).symm⟩
  · rintro ⟨hs, he, value, hv, rfl⟩
    exact ⟨(), hs, (), he, _, ⟨value, hv, rfl⟩, rfl⟩

/-! ## Receiving contributions -/

namespace Reader

variable {r r' : Reader}

/-- A range with more entries and ranges at its end. -/
def withContent (c : Content) : GroupRange → GroupRange
  | .mk name entries ranges => .mk name (entries ++ c.entries) (ranges ++ c.ranges)

/-- The reader with a contribution put into the innermost open range, or on its own. Without an open
range an entry has no place, and is the error. -/
def receive (r : Reader) (c : Content) : Except ReadFault Reader :=
  match r.opened with
  | range :: rest => .ok { r with opened := withContent c range :: rest }
  | [] =>
    match c.entries with
    | entry :: _ => .error (.outsideRanges entry.name)
    | [] => .ok { r with ranges := r.ranges ++ c.ranges }

/-- The reader is in the document element, and in no element that says nothing. -/
structure Inside (r : Reader) : Prop where
  /-- the document element has begun -/
  rootSeen : r.rootSeen = true
  /-- it has not ended -/
  rootClosed : r.rootClosed = false
  /-- no element is passed over -/
  skipped : r.skipped = 0

theorem start_inside (h : r.Inside) (tag : Tag) (empty : Bool) :
    r.start tag empty = r.startInside tag empty := by
  simp [start, h.rootSeen, h.rootClosed, h.skipped]

theorem Inside.openRange (h : r.Inside) (range : GroupRange) : (r.openRange range).Inside :=
  ⟨h.rootSeen, h.rootClosed, h.skipped⟩

theorem finish_openRange (h : r.Inside) {name : Octets} (hn : localName name = octets rangeName)
    (range : GroupRange) : (r.openRange range).finish name = r.attach range := by
  have hs : (r.openRange range).skipped = 0 := h.skipped
  rw [finish, hs, if_neg (Nat.lt_irrefl 0), if_pos hn]
  rfl

theorem finish_root (h : r.Inside) {name : Octets} (hn : localName name = octets rootName) :
    r.finish name = { r with rootClosed := true } := by
  have hr : octets rootName ≠ octets rangeName := by decide
  rw [finish, h.skipped, if_neg (Nat.lt_irrefl 0), hn, if_neg hr, if_pos rfl]

theorem receive_nothing (r : Reader) : r.receive {} = .ok r := by
  obtain ⟨ranges, opened, rootSeen, rootClosed, skipped⟩ := r
  cases opened with
  | nil => simp [receive]
  | cons range rest =>
    obtain ⟨name, entries, inner⟩ := range
    simp [receive, withContent]

theorem receive_range (r : Reader) (range : GroupRange) :
    r.receive { ranges := [range] } = .ok (r.attach range) := by
  obtain ⟨ranges, opened, rootSeen, rootClosed, skipped⟩ := r
  cases opened with
  | nil => rfl
  | cons parent rest =>
    obtain ⟨name, entries, inner⟩ := parent
    simp [receive, attach, withContent, withRange]

/-- In an open range everything is received, and the range stays open. -/
theorem exists_receive (ho : r.opened ≠ []) (c : Content) :
    ∃ s, r.receive c = .ok s ∧ s.opened ≠ [] := by
  unfold receive
  cases h : r.opened with
  | nil => exact absurd h ho
  | cons range rest => exact ⟨_, rfl, List.cons_ne_nil _ _⟩

theorem inside_of_receive (hr : r.Inside) {c : Content} (h : r.receive c = .ok r') :
    r'.Inside := by
  unfold receive at h
  split at h
  · obtain rfl := Except.ok.inj h
    exact ⟨hr.rootSeen, hr.rootClosed, hr.skipped⟩
  · split at h
    · cases h
    · obtain rfl := Except.ok.inj h
      exact ⟨hr.rootSeen, hr.rootClosed, hr.skipped⟩

/-- In an open range one contribution can be received after the other. -/
theorem receive_append (ho : r.opened ≠ []) (first rest : Content) :
    r.receive (first.append rest) = r.receive first >>= (·.receive rest) := by
  unfold receive
  cases hr : r.opened with
  | nil => exact absurd hr ho
  | cons range others =>
    obtain ⟨name, entries, ranges⟩ := range
    simp [withContent, Content.append, bind, Except.bind]

/-! ## The marks of an element -/

mutual

/-- In an element that says nothing the marks of an element change nothing. -/
theorem foldlM_marks_skipped :
    ∀ (n : Node) {r : Reader}, 0 < r.skipped → n.marks.foldlM step r = .ok r
  | .empty tag, r, h => by
    rw [Node.marks, List.foldlM_cons, step, start, if_pos h]
    rfl
  | .full tag children, r, h => by
    have hs : 0 < (r.skip false).skipped := Nat.succ_pos _
    rw [Node.marks, List.foldlM_cons, step, start, if_pos h]
    change (marksOf children ++ [Mark.closing tag.name]).foldlM step (r.skip false) = _
    rw [List.foldlM_append, foldlM_marksOf_skipped children hs]
    change Except.ok ((r.skip false).finish tag.name) = _
    rw [finish, if_pos hs]
    rfl

/-- In an element that says nothing the marks of elements change nothing. -/
theorem foldlM_marksOf_skipped :
    ∀ (ns : List Node) {r : Reader}, 0 < r.skipped → (marksOf ns).foldlM step r = .ok r
  | [], _, _ => rfl
  | n :: ns, r, h => by
    rw [marksOf, List.foldlM_append, foldlM_marks_skipped n h]
    exact foldlM_marksOf_skipped ns h

end

/-- An element is passed over if the reader takes its tag for one that says nothing. -/
theorem foldlM_marks_of_skip {n : Node} {s : Reader}
    (h : ∀ empty, r.start n.tag empty = .ok (s.skip empty)) : n.marks.foldlM step r = .ok s := by
  cases n with
  | empty tag =>
    rw [Node.marks, List.foldlM_cons, step]
    exact congrArg (· >>= pure) (h true)
  | full tag children =>
    have hs : 0 < (s.skip false).skipped := Nat.succ_pos _
    have ht : r.start tag false = .ok (s.skip false) := h false
    rw [Node.marks, List.foldlM_cons, step, ht]
    change (marksOf children ++ [Mark.closing tag.name]).foldlM step (s.skip false) = _
    rw [List.foldlM_append, foldlM_marksOf_skipped children hs]
    change Except.ok ((s.skip false).finish tag.name) = _
    rw [finish, if_pos hs]
    rfl

/-- An element fails if its tag does. -/
theorem foldlM_marks_of_error {n : Node} {fault : ReadFault}
    (h : ∀ empty, r.start n.tag empty = .error fault) : n.marks.foldlM step r = .error fault := by
  cases n with
  | empty tag =>
    rw [Node.marks, List.foldlM_cons, step]
    exact congrArg (· >>= pure) (h true)
  | full tag children =>
    have ht : r.start tag false = .error fault := h false
    rw [Node.marks, List.foldlM_cons, step, ht]
    rfl

/-- A range contributes itself if the elements in it contribute to it what they do. -/
theorem foldlM_marks_range (hr : r.Inside) {n : Node}
    (hn : localName n.tag.name = octets rangeName)
    (hc : ∀ {s : Reader}, s.Inside → s.opened ≠ [] →
      (marksOf n.children).foldlM step s = contentOf n.children >>= s.receive) :
    n.marks.foldlM step r = nodeContent n >>= r.receive := by
  have hs : ∀ empty, r.start n.tag empty = do
      let range ← readRange n.tag
      return if empty then r.attach range else r.openRange range := by
    intro empty
    rw [start_inside hr, startInside, if_pos hn]
  rw [nodeContent_eq, tagContent, if_pos hn]
  cases hd : readRange n.tag with
  | error fault =>
    rw [hd] at hs
    exact foldlM_marks_of_error hs
  | ok range =>
    obtain ⟨-, -, name, -, rfl⟩ := readRange_eq_ok_iff.mp hd
    rw [hd] at hs
    cases n with
    | empty tag =>
      have ht : r.start tag true = .ok (r.attach (.mk (name.getD "") [] [])) := hs true
      rw [Node.marks, List.foldlM_cons, step, ht]
      exact (receive_range _ _).symm
    | full tag children =>
      have ht : r.start tag false = .ok (r.openRange (.mk (name.getD "") [] [])) := hs false
      rw [Node.marks, List.foldlM_cons, step, ht]
      change (marksOf children ++ [Mark.closing tag.name]).foldlM step _ = _
      rw [List.foldlM_append]
      -- the range is open and empty while the elements in it are read, and is attached at its end
      have hf := hc (hr.openRange (.mk (name.getD "") [] [])) (List.cons_ne_nil _ _)
      rw [Node.children] at *
      rw [hf]
      cases contentOf children with
      | error fault => rfl
      | ok c =>
        refine Eq.trans ?_ (receive_range r (.mk (name.getD "") c.entries c.ranges)).symm
        exact congrArg Except.ok (finish_openRange hr hn _)

/-- What the tag of an element other than a range does: it puts in what the element contributes, and
the rest of the element is passed over. -/
theorem start_of_ne_range (hr : r.Inside) {tag : Tag}
    (hn : localName tag.name ≠ octets rangeName) (inside : Except ReadFault Content)
    (empty : Bool) :
    r.start tag empty = (tagContent tag inside >>= r.receive).map (·.skip empty) := by
  rw [start_inside hr, tagContent, if_neg hn]
  by_cases hg : localName tag.name = octets groupName
  · rw [if_pos hg]
    refine ((if_neg hn).trans (if_pos hg)).trans ?_
    cases readEntry tag with
    | error fault => rfl
    | ok entry =>
      obtain ⟨ranges, opened, rootSeen, rootClosed, skipped⟩ := r
      cases opened with
      | nil => rfl
      | cons parent rest =>
        obtain ⟨name, entries, inner⟩ := parent
        simp [receive, withContent, withEntry, bind, Except.bind, pure, Except.pure, Except.map]
  · rw [if_neg hg]
    refine ((if_neg hn).trans (if_neg hg)).trans ?_
    exact (congrArg (Except.map (·.skip empty)) (receive_nothing r)).symm

/-- A group contributes its entry, which needs an open range, and an unknown element nothing. -/
theorem foldlM_marks_of_ne_range (hr : r.Inside) {n : Node}
    (hn : localName n.tag.name ≠ octets rangeName) :
    n.marks.foldlM step r = nodeContent n >>= r.receive := by
  have hs := start_of_ne_range hr hn (contentOf n.children)
  rw [nodeContent_eq]
  cases hc : tagContent n.tag (contentOf n.children) >>= r.receive with
  | error fault =>
    rw [hc] at hs
    exact foldlM_marks_of_error hs
  | ok s =>
    -- the contribution comes from the tag alone; what stands in the element is passed over
    rw [hc] at hs
    exact foldlM_marks_of_skip hs

mutual

/-- The marks of an element contribute what the element does: run over them, the reader comes back
to where it was, with the contribution received. It is proved for elements and for forests together,
as each is made of the other. -/
theorem foldlM_marks : ∀ (n : Node) {r : Reader}, r.Inside →
    n.marks.foldlM step r = nodeContent n >>= r.receive
  | n, r, hr => by
    by_cases hn : localName n.tag.name = octets rangeName
    · refine foldlM_marks_range hr hn ?_
      cases n with
      | empty tag => exact fun _ _ => (receive_nothing _).symm
      | full tag children => exact fun h ho => foldlM_marksOf children h ho
    · exact foldlM_marks_of_ne_range hr hn

/-- In an open range the marks of elements contribute what the elements do. -/
theorem foldlM_marksOf : ∀ (ns : List Node) {r : Reader}, r.Inside → r.opened ≠ [] →
    (marksOf ns).foldlM step r = contentOf ns >>= r.receive
  | [], r, _, _ => (receive_nothing r).symm
  | n :: ns, r, hr, ho => by
    rw [marksOf, List.foldlM_append, foldlM_marks n hr, contentOf]
    cases nodeContent n with
    | error fault => rfl
    | ok first =>
      obtain ⟨s, hs, hso⟩ := exists_receive ho first
      have hf := foldlM_marksOf ns (inside_of_receive hr hs) hso
      change (r.receive first >>= fun s => (marksOf ns).foldlM step s) = _
      rw [hs]
      refine hf.trans ?_
      cases contentOf ns with
      | error fault => rfl
      | ok rest =>
        change s.receive rest = r.receive (first.append rest)
        rw [receive_append ho, hs]
        rfl

end

/-! ## The marks of a document -/

/-- The reader with more outermost ranges. -/
def withRanges (r : Reader) (ranges : List GroupRange) : Reader :=
  { r with ranges := r.ranges ++ ranges }

/-- In the document element the marks of elements declare the ranges that the elements do. -/
theorem foldlM_marksOf_root : ∀ (ns : List Node) {r : Reader}, r.Inside → r.opened = [] →
    (marksOf ns).foldlM step r = (rangesIn ns).map r.withRanges
  | [], r, _, _ => by
    rw [rangesIn, Except.map, withRanges, List.append_nil]
    rfl
  | n :: ns, r, hr, ho => by
    rw [marksOf, List.foldlM_append, foldlM_marks n hr, rangesIn]
    cases nodeContent n with
    | error fault => rfl
    | ok first =>
      change (r.receive first >>= fun s => (marksOf ns).foldlM step s) = _
      obtain ⟨entries, ranges⟩ := first
      -- no range is open, so that an entry has no place and ranges go to the outermost ones
      cases entries with
      | cons entry entries =>
        rw [receive, ho]
        rfl
      | nil =>
        have hs : r.receive ⟨[], ranges⟩ = .ok (r.withRanges ranges) := by
          simp [receive, ho, withRanges]
        have hi : (r.withRanges ranges).Inside := ⟨hr.rootSeen, hr.rootClosed, hr.skipped⟩
        rw [hs]
        refine (foldlM_marksOf_root ns hi ho).trans ?_
        cases rangesIn ns with
        | error fault => rfl
        | ok rest => simp [bind, Except.bind, pure, Except.pure, Except.map, withRanges]

/-- The reader after a document element with these ranges. -/
def done (ranges : List GroupRange) : Reader := { ranges, rootSeen := true, rootClosed := true }

/-- The marks of the first element declare the ranges in it, if it is a document element. -/
theorem foldlM_marks_first {root : Node} (h : localName root.tag.name = octets rootName) :
    root.marks.foldlM step {} = (rangesIn root.children).map done := by
  have hs : ∀ empty, start {} root.tag empty = .ok { rootSeen := true, rootClosed := empty } :=
    fun _ => if_pos h
  cases root with
  | empty tag =>
    have ht : start {} tag true = .ok { rootSeen := true, rootClosed := true } := hs true
    rw [Node.marks, List.foldlM_cons, step, ht]
    rfl
  | full tag children =>
    have ht : start {} tag false = .ok { rootSeen := true } := hs false
    have hf := foldlM_marksOf_root children (r := { rootSeen := true }) ⟨rfl, rfl, rfl⟩ rfl
    rw [Node.marks, List.foldlM_cons, step, ht]
    change (marksOf children ++ [Mark.closing tag.name]).foldlM step { rootSeen := true } = _
    rw [List.foldlM_append, hf, Node.children]
    cases rangesIn children with
    | error fault => rfl
    | ok ranges => exact congrArg Except.ok (finish_root ⟨rfl, rfl, rfl⟩ h)

/-- The reader makes of the marks of a forest what the forest means. -/
theorem result_of_forest (forest : List Node) :
    ((marksOf forest).foldlM step {} >>= result) = forestRanges forest := by
  cases forest with
  | nil => rfl
  | cons root others =>
    rw [marksOf, List.foldlM_append, forestRanges]
    by_cases h : localName root.tag.name = octets rootName
    · rw [if_pos h, foldlM_marks_first h]
      cases rangesIn root.children with
      | error fault => rfl
      | ok ranges =>
        cases others with
        | nil => rfl
        | cons n ns =>
          -- whatever the second element is, its tag comes after the document element
          have hn : ∀ empty, (done ranges).start n.tag empty =
              .error (.exchange .contentAfterRoot) := fun _ => rfl
          change ((n.marks ++ marksOf ns).foldlM step (done ranges) >>= result) = _
          rw [List.foldlM_append, foldlM_marks_of_error hn]
          rfl
    · have hs : ∀ empty, start {} root.tag empty = .error (.exchange
          (.unexpectedRoot (String.ofList (Utf8.decodeLossy (localName root.tag.name))))) :=
        fun _ => if_neg h
      rw [if_neg h, foldlM_marks_of_error hs]
      rfl

/-! ## Documents that end early -/

/-- The names that are open where a reader stands, the innermost first. Only those of open ranges
and of the document element can be found in the reader; of those that say nothing it has the count.
-/
inductive Standing : Reader → List Octets → Prop where
  /-- before the document element nothing is open -/
  | before : Standing {} []
  /-- in the document element: elements that say nothing, then ranges, then the document element -/
  | within {r : Reader} {hidden inner : List Octets} {root : Octets} (seen : r.rootSeen = true)
      (closed : r.rootClosed = false) (hs : hidden.length = r.skipped)
      (ho : inner.length = r.opened.length)
      (hi : ∀ name ∈ inner, localName name = octets rangeName)
      (hr : localName root = octets rootName) : Standing r (hidden ++ (inner ++ [root]))
  /-- after the document element nothing is open -/
  | after {r : Reader} (seen : r.rootSeen = true) (closed : r.rootClosed = true)
      (hs : r.skipped = 0) : Standing r []

theorem attach_eq (r : Reader) (range : GroupRange) :
    ∃ ranges opened, opened.length = r.opened.length ∧
      r.attach range = { r with ranges, opened } := by
  obtain ⟨ranges, opened, rootSeen, rootClosed, skipped⟩ := r
  cases opened with
  | nil => exact ⟨ranges ++ [range], [], rfl, rfl⟩
  | cons parent rest => exact ⟨ranges, withRange range parent :: rest, rfl, rfl⟩

theorem exists_openRange {n : Nat} (h : r.opened.length = n + 1) :
    ∃ s range, s.opened.length = n ∧ r = openRange s range := by
  obtain ⟨ranges, opened, rootSeen, rootClosed, skipped⟩ := r
  obtain ⟨range, rest, rfl⟩ := List.exists_cons_of_length_eq_add_one h
  exact ⟨⟨ranges, rest, rootSeen, rootClosed, skipped⟩, range, Nat.succ.inj h, rfl⟩

/-- What a tag in the document element can do: begin a range, or be passed over, perhaps after an
entry of the innermost range. -/
theorem startInside_cases {tag : Tag} {empty : Bool} (h : r.startInside tag empty = .ok r') :
    (localName tag.name = octets rangeName ∧
      ∃ range, r' = if empty then r.attach range else r.openRange range) ∨
    ∃ opened, opened.length = r.opened.length ∧ r' = skip { r with opened } empty := by
  unfold startInside at h
  by_cases hn : localName tag.name = octets rangeName
  · rw [if_pos hn] at h
    obtain ⟨range, -, h⟩ := bind_eq_ok_iff.mp h
    exact .inl ⟨hn, range, (Except.ok.inj h).symm⟩
  · rw [if_neg hn] at h
    by_cases hg : localName tag.name = octets groupName
    · rw [if_pos hg] at h
      obtain ⟨entry, -, h⟩ := bind_eq_ok_iff.mp h
      cases ho : r.opened with
      | nil =>
        rw [ho] at h
        cases h
      | cons parent rest =>
        rw [ho] at h
        exact .inr ⟨withEntry entry parent :: rest, rfl, (Except.ok.inj h).symm⟩
    · rw [if_neg hg] at h
      exact .inr ⟨r.opened, rfl, (Except.ok.inj h).symm⟩

namespace Standing

variable {names : List Octets}

/-- A start tag that does not fail opens its name, be it that of a range, of the document element,
or of an element that says nothing. -/
theorem opening (h : Standing r names) {tag : Tag} (hs : r.start tag false = .ok r') :
    Standing r' (tag.name :: names) := by
  cases h with
  | before =>
    by_cases hn : localName tag.name = octets rootName
    · have hr := hs.symm.trans (if_pos hn)
      obtain rfl := Except.ok.inj hr
      exact @within _ [] [] _ rfl rfl rfl rfl nofun hn
    · cases hs.symm.trans (if_neg hn)
  | after seen closed hk =>
    simp [start, seen, closed, hk] at hs
  | @within r hidden inner root seen closed hk ho hi hr =>
    cases hidden with
    | cons name hidden =>
      have hp : 0 < r.skipped := hk ▸ Nat.succ_pos _
      rw [start, if_pos hp] at hs
      obtain rfl := Except.ok.inj hs
      exact @within _ (tag.name :: name :: hidden) _ _ seen closed (congrArg (· + 1) hk) ho hi hr
    | nil =>
      rw [start_inside ⟨seen, closed, hk.symm⟩] at hs
      -- a new range joins the open ranges, another element those that say nothing
      rcases startInside_cases hs with ⟨hn, range, rfl⟩ | ⟨opened, hl, rfl⟩
      · refine @within _ [] (tag.name :: inner) _ seen closed hk (congrArg (· + 1) ho) ?_ hr
        intro name hname
        rcases List.mem_cons.mp hname with rfl | hname
        · exact hn
        · exact hi name hname
      · exact @within _ [tag.name] _ _ seen closed (congrArg (· + 1) hk) (ho.trans hl.symm) hi hr

/-- The tag of an empty element that does not fail opens nothing. -/
theorem empty (h : Standing r names) {tag : Tag} (hs : r.start tag true = .ok r') :
    Standing r' names := by
  cases h with
  | before =>
    by_cases hn : localName tag.name = octets rootName
    · have hr := hs.symm.trans (if_pos hn)
      obtain rfl := Except.ok.inj hr
      exact after rfl rfl rfl
    · cases hs.symm.trans (if_neg hn)
  | after seen closed hk =>
    simp [start, seen, closed, hk] at hs
  | @within r hidden inner root seen closed hk ho hi hr =>
    cases hidden with
    | cons name hidden =>
      have hp : 0 < r.skipped := hk ▸ Nat.succ_pos _
      rw [start, if_pos hp] at hs
      obtain rfl := Except.ok.inj hs
      exact within seen closed hk ho hi hr
    | nil =>
      rw [start_inside ⟨seen, closed, hk.symm⟩] at hs
      rcases startInside_cases hs with ⟨hn, range, rfl⟩ | ⟨opened, hl, rfl⟩
      · obtain ⟨ranges, opened, hl, ha⟩ := attach_eq r range
        rw [if_pos rfl, ha]
        exact within seen closed hk (ho.trans hl.symm) hi hr
      · exact within seen closed hk (ho.trans hl.symm) hi hr

/-- An end tag closes the innermost name. What the reader closes then is what that name belongs to,
though it looks at little more than its own counts. -/
theorem closing {name : Octets} (h : Standing r (name :: names)) :
    Standing (r.finish name) names := by
  generalize hall : name :: names = all at h
  cases h with
  | before => cases hall
  | after => cases hall
  | @within r hidden inner root seen closed hk ho hi hr =>
    -- the name belongs to an element that says nothing, or to a range, or to the document element
    cases hidden with
    | cons first hidden =>
      obtain ⟨rfl, rfl⟩ := List.cons.inj hall
      have hp : 0 < r.skipped := hk ▸ Nat.succ_pos _
      rw [finish, if_pos hp]
      exact within seen closed (congrArg (· - 1) hk) ho hi hr
    | nil =>
      cases inner with
      | cons first inner =>
        obtain ⟨rfl, rfl⟩ := List.cons.inj hall
        obtain ⟨s, range, hl, rfl⟩ := exists_openRange ho.symm
        obtain ⟨ranges, opened, hlen, ha⟩ := attach_eq s range
        have hs : s.Inside := ⟨seen, closed, hk.symm⟩
        rw [finish_openRange hs (hi _ List.mem_cons_self), ha]
        refine @within _ [] inner root seen closed hk (hl.symm.trans hlen.symm) ?_ hr
        exact fun n hn => hi n (List.mem_cons_of_mem _ hn)
      | nil =>
        obtain ⟨rfl, rfl⟩ := List.cons.inj hall
        rw [finish_root ⟨seen, closed, hk.symm⟩ hr]
        exact after seen rfl hk.symm

/-- Nested marks that do not fail leave the names open that they do. -/
theorem run (h : Standing r names) {marks : List Mark} {last : List Octets}
    (hm : Nested names marks last) (hr : marks.foldlM step r = .ok r') : Standing r' last := by
  induction hm generalizing r with
  | nil => exact Except.ok.inj hr ▸ h
  | opening _ ih =>
    rw [List.foldlM_cons] at hr
    obtain ⟨s, hs, hr⟩ := bind_eq_ok_iff.mp hr
    exact ih (h.opening hs) hr
  | empty _ ih =>
    rw [List.foldlM_cons] at hr
    obtain ⟨s, hs, hr⟩ := bind_eq_ok_iff.mp hr
    exact ih (h.empty hs) hr
  | closing _ ih => exact ih h.closing hr

/-- A document that ends where something is open ends too early. -/
theorem result_of_ne_nil (h : Standing r names) (hn : names ≠ []) :
    r.result = .error (.exchange .unexpectedEnd) := by
  cases h with
  | before => exact absurd rfl hn
  | after => exact absurd rfl hn
  | within seen closed => simp [result, seen, closed]

end Standing

@[simp] theorem rootSeen_finish (r : Reader) (name : Octets) :
    (r.finish name).rootSeen = r.rootSeen := by
  unfold finish closeRange attach
  repeat' split
  all_goals rfl

/-- End tags do not fail, and the document element stays seen. -/
theorem exists_foldlM_closings (names : List Octets) (r : Reader) :
    ∃ s, (closings names).foldlM step r = .ok s ∧ s.rootSeen = r.rootSeen := by
  induction names generalizing r with
  | nil => exact ⟨r, rfl, rfl⟩
  | cons name names ih =>
    obtain ⟨s, hs, hseen⟩ := ih (r.finish name)
    exact ⟨s, hs, hseen.trans (rootSeen_finish r name)⟩

/-- With the end tags that are missing, a document is not too short. -/
theorem exists_result_of_closings {names : List Octets} (h : Standing r names) (hn : names ≠ []) :
    ∃ ranges, ((closings names).foldlM step r >>= result) = .ok ranges := by
  obtain ⟨s, hs, hseen⟩ := exists_foldlM_closings names r
  have hlast : Standing s [] := h.run (nested_closings names) hs
  have hr : r.rootSeen = true := by
    cases h with
    | before => exact absurd rfl hn
    | within seen => exact seen
    | after => exact absurd rfl hn
  rw [hs]
  change ∃ ranges, s.result = .ok ranges
  generalize hnil : ([] : List Octets) = last at hlast
  cases hlast with
  | before => cases hseen.trans hr
  | within => simp at hnil
  | after seen closed => exact ⟨s.ranges, by simp [result, seen, closed]⟩

end Reader

/-- What is read from marks is the meaning of a forest that they are written with, or begin. An error
of the forest comes first; a name that is still open is noticed at the end. -/
theorem rangesOf_eq_of_marksOf {marks : List Mark} {names : List Octets} (h : Nested [] marks names)
    {forest : List Node} (hf : marksOf forest = marks ++ closings names) :
    rangesOf ⟨marks, .endOfInput⟩ = (do
      let ranges ← forestRanges forest
      if names = [] then return ranges else throw (.exchange .unexpectedEnd)) := by
  rw [← Reader.result_of_forest, hf, List.foldlM_append, rangesOf]
  cases hr : marks.foldlM Reader.step {} with
  | error fault => rfl
  | ok r =>
    have hs := Reader.Standing.before.run h hr
    -- with a name still open, the end tags that are missing would have closed the document element
    by_cases hn : names = []
    · subst hn
      change r.result = r.result >>= fun ranges => if [] = [] then _ else _
      cases r.result <;> rfl
    · obtain ⟨ranges, hc⟩ := Reader.exists_result_of_closings hs hn
      change r.result = ((closings names).foldlM Reader.step r >>= Reader.result) >>= _
      rw [hc, hs.result_of_ne_nil hn]
      exact (if_neg hn).symm

/-- **The reader computes the meaning of a document.** Marks in which every end tag closes the
element opened last are, with the end tags that are missing at their end, those of a forest; and for
each such forest the answer is what the forest means, provided that no end tag is missing. If some
are, the answer is the error of the forest or else an early end. A tag declares a range exactly if
its bounds are sixteen-bit numbers where they are given, and the range does not depend on them. -/
theorem rangesOf_eq_forestRanges {marks : List Mark} {names : List Octets}
    (h : Nested [] marks names) :
    (∃ forest, marksOf forest = marks ++ closings names) ∧
    (∀ forest, marksOf forest = marks ++ closings names →
      rangesOf ⟨marks, .endOfInput⟩ = do
        let ranges ← forestRanges forest
        if names = [] then return ranges else throw (.exchange .unexpectedEnd)) ∧
    (∀ tag range, readRange tag = .ok range ↔
      BoundFits tag "RangeStart" ∧ BoundFits tag "RangeEnd" ∧
        ∃ name, tag.attribute "Name" = .ok name ∧ range = .mk (name.getD "") [] []) := by
  refine ⟨h.exists_forest, ?_, fun _ _ => readRange_eq_ok_iff⟩
  intro forest hf
  exact rangesOf_eq_of_marksOf h hf

/-- A document in which an unknown element hides a range, a group hides a range, and a range has a
prefix: the two ranges that are not hidden are read. -/
theorem rangesOf_eq_forestRanges_hidden :
    let tag : String → String → Tag := fun name attributes => ⟨octets name, octets attributes⟩
    let hidden := Node.full (tag "note" "") [.empty (tag "GroupRange" " Name='lost'")]
    let group := Node.full (tag "GroupAddress" " Name='lamp' Address='1'")
      [.empty (tag "GroupRange" "")]
    let range := Node.full (tag "x:GroupRange" " RangeEnd='7' Name='a'")
      [group, .empty (tag "GroupRange" "")]
    let forest := [Node.full (tag "GroupAddress-Export" "") [hidden, range]]
    Nested [] (marksOf forest) [] ∧
      rangesOf ⟨marksOf forest, .endOfInput⟩ =
        .ok [.mk "a" [⟨"lamp", "1", ""⟩] [.mk "" [] []]] := by
  intro tag hidden group range forest
  have hn : Nested [] (marksOf forest) [] := nested_marksOf forest []
  obtain ⟨-, hf, -⟩ := rangesOf_eq_forestRanges hn
  exact ⟨hn, (hf forest (List.append_nil _).symm).trans rfl⟩

/-! ## Documents -/

/-- Declarations that are accepted leave the reader as it is. -/
theorem Reader.foldlM_filter_declarations {marks : List Mark}
    (h : ∀ attributes, .declaration attributes ∈ marks → requireDeclaration attributes = .ok ())
    (r : Reader) :
    (marks.filter (!·.isDeclaration)).foldlM step r = marks.foldlM step r := by
  induction marks generalizing r with
  | nil => rfl
  | cons mark marks ih =>
    have ih := ih fun attributes hm => h attributes (.tail _ hm)
    cases mark with
    | declaration attributes =>
      rw [List.foldlM_cons, step, h attributes (.head _)]
      exact ih r
    | opening _ | empty _ | closing _ =>
      rw [List.filter_cons_of_pos rfl, List.foldlM_cons, List.foldlM_cons]
      exact congrArg _ (funext ih)

/-- **What a document declares.** The marks of a document follow the rule for end tags, whatever its
octets are. So a document that is scanned to its end, and whose declarations are accepted, has a
forest of elements, of which some end tags may be missing; and it declares what the forest means. -/
theorem ranges_eq_forestRanges {d : Delivery} {marks : List Mark}
    (hs : (scan d.ending d.octets).nest = ⟨marks, .endOfInput⟩)
    (hd : ∀ attributes, .declaration attributes ∈ marks → requireDeclaration attributes = .ok ()) :
    ∃ forest names, marksOf forest = marks.filter (!·.isDeclaration) ++ closings names ∧
      d.ranges = (do
        let ranges ← forestRanges forest
        if names = [] then return ranges else throw (.exchange .unexpectedEnd)) := by
  obtain ⟨names, hn⟩ := (scan d.ending d.octets).exists_nested_nest
  rw [hs] at hn
  obtain ⟨forest, hf⟩ := hn.exists_forest
  refine ⟨forest, names, hf, ?_⟩
  rw [← rangesOf_eq_of_marksOf hn hf, Delivery.ranges, hs, rangesOf, rangesOf,
    Reader.foldlM_filter_declarations hd]

end BuildingBus.Exchange
