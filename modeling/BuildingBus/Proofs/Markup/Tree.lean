import BuildingBus.Markup.Stream

/-!
# Trees of elements

The marks of a document, declarations left out, stand for a forest of elements as long as every end
tag closes the element that was opened last. Here are the forests (`Node`), the marks that they are
written with (`marksOf`), and the rule for end tags (`Nested`), which leaves elements open that have
no end tag yet.

The main statements: the marks that are kept of a document follow the rule
(`Stream.exists_nested_nest`), and so do those of a forest (`nested_marksOf`); and marks that follow
it, with end tags for the elements they leave open, are the marks of a forest
(`Nested.exists_forest`).
-/

namespace BuildingBus.Markup

/-! ## Forests -/

/-- An element, as far as it has structure. One that is a single tag and one with nothing between
its two tags are kept apart, because their marks differ. -/
inductive Node where
  /-- an element that is one tag -/
  | empty (tag : Tag)
  /-- an element with a start tag, the elements in it, and an end tag -/
  | full (tag : Tag) (children : List Node)

namespace Node

/-- The tag that an element begins with. -/
def tag : Node → Tag
  | empty tag => tag
  | full tag _ => tag

/-- The elements that stand in an element. -/
def children : Node → List Node
  | empty _ => []
  | full _ children => children

end Node

mutual

/-- The marks of an element. -/
def Node.marks : Node → List Mark
  | .empty tag => [.empty tag]
  | .full tag children => .opening tag :: (marksOf children ++ [.closing tag.name])

/-- The marks of a forest, in the order of the document: those of an element come between its own
two marks. -/
def marksOf : List Node → List Mark
  | [] => []
  | n :: ns => n.marks ++ marksOf ns

end

/-! ## Nesting -/

/-- Marks that follow the rule for end tags: the names that are open before them, the innermost
first, the marks, and the names that are open after them. -/
inductive Nested : List Octets → List Mark → List Octets → Prop where
  /-- no marks leave open what is open -/
  | nil {names : List Octets} : Nested names [] names
  /-- a start tag opens a name -/
  | opening {tag : Tag} {names last : List Octets} {marks : List Mark}
      (h : Nested (tag.name :: names) marks last) : Nested names (.opening tag :: marks) last
  /-- the tag of an empty element opens none -/
  | empty {tag : Tag} {names last : List Octets} {marks : List Mark}
      (h : Nested names marks last) : Nested names (.empty tag :: marks) last
  /-- an end tag closes the innermost name -/
  | closing {name : Octets} {names last : List Octets} {marks : List Mark}
      (h : Nested names marks last) : Nested (name :: names) (.closing name :: marks) last

/-- Nested marks are kept as they are. -/
theorem Nested.nestFrom_eq {names last : List Octets} {marks : List Mark}
    (h : Nested names marks last) (stop : Stop) : nestFrom stop names marks = ⟨marks, stop⟩ := by
  induction h with
  | nil => rfl
  | opening _ ih =>
    rw [nestFrom, ih]
    rfl
  | empty _ ih =>
    rw [nestFrom, ih]
    · rfl
    · exact nofun
    · exact nofun
  | closing _ ih =>
    rw [nestFrom, if_pos rfl, ih]
    rfl

/-- Whether a mark is a declaration, which stands outside of all nesting. -/
def Mark.isDeclaration : Mark → Bool
  | .declaration _ => true
  | .opening _ | .empty _ | .closing _ => false

/-- Whatever is open before them, the marks that are kept follow the rule. -/
theorem exists_nested_nestFrom (stop : Stop) (names : List Octets) (marks : List Mark) :
    ∃ last, Nested names ((nestFrom stop names marks).marks.filter (!·.isDeclaration)) last := by
  induction marks generalizing names with
  | nil => exact ⟨names, .nil⟩
  | cons mark marks ih =>
    cases mark with
    | declaration _ => exact ih names
    | opening tag =>
      obtain ⟨last, h⟩ := ih (tag.name :: names)
      exact ⟨last, .opening h⟩
    | empty _ =>
      obtain ⟨last, h⟩ := ih names
      exact ⟨last, .empty h⟩
    | closing name =>
      cases names with
      | nil => exact ⟨[], .nil⟩
      | cons innermost rest =>
        rw [nestFrom]
        split
        case isTrue hn =>
          obtain ⟨last, h⟩ := ih rest
          exact ⟨last, hn ▸ .closing h⟩
        case isFalse => exact ⟨_, .nil⟩

/-- The marks that are kept of a document follow the rule, declarations left out. -/
theorem Stream.exists_nested_nest (s : Stream) :
    ∃ last, Nested [] (s.nest.marks.filter (!·.isDeclaration)) last :=
  exists_nested_nestFrom s.stop [] s.marks

/-- The end tags for names that are open. -/
def closings (names : List Octets) : List Mark := names.map .closing

theorem nested_closings (names : List Octets) : Nested names (closings names) [] := by
  induction names with
  | nil => exact .nil
  | cons name names ih => exact .closing ih

/-- Nested marks can be followed by others that go on where they end. -/
theorem Nested.append {names middle last : List Octets} {first rest : List Mark}
    (h : Nested names first middle) (hr : Nested middle rest last) :
    Nested names (first ++ rest) last := by
  induction h with
  | nil => exact hr
  | opening _ ih => exact .opening (ih hr)
  | empty _ ih => exact .empty (ih hr)
  | closing _ ih => exact .closing (ih hr)

mutual

/-- The marks of an element are nested. -/
theorem Node.nested_marks : ∀ (n : Node) (names : List Octets), Nested names n.marks names
  | .empty _, _ => .empty .nil
  | .full tag children, names =>
    .opening ((nested_marksOf children (tag.name :: names)).append (.closing .nil))

/-- The marks of a forest are nested. -/
theorem nested_marksOf : ∀ (forest : List Node) (names : List Octets),
    Nested names (marksOf forest) names
  | [], _ => .nil
  | n :: ns, names => (n.nested_marks names).append (nested_marksOf ns names)

end

/-- Marks that finish the elements with the given names, the innermost first, each after some more
elements in it. They are cut at the end tags of these elements, so that what stands between two cuts
is a forest. -/
inductive Finishes : List Octets → List Mark → Prop where
  /-- elements on their own -/
  | top (forest : List Node) : Finishes [] (marksOf forest)
  /-- elements in the innermost open one, its end tag, and what finishes the others -/
  | inner (forest : List Node) {name : Octets} {names : List Octets} {marks : List Mark}
      (h : Finishes names marks) :
      Finishes (name :: names) (marksOf forest ++ .closing name :: marks)

namespace Finishes

/-- An element in front belongs to the elements in the innermost open one. -/
theorem node {names : List Octets} {marks : List Mark} (h : Finishes names marks) (n : Node) :
    Finishes names (n.marks ++ marks) := by
  cases h with
  | top forest => exact .top (n :: forest)
  | inner forest h =>
    rw [← List.append_assoc]
    exact .inner (n :: forest) h

theorem closings (names : List Octets) : Finishes names (closings names) := by
  induction names with
  | nil => exact .top []
  | cons name names ih => exact .inner [] ih

theorem exists_children {name : Octets} {names : List Octets} {marks : List Mark}
    (h : Finishes (name :: names) marks) :
    ∃ children rest, marks = marksOf children ++ .closing name :: rest ∧ Finishes names rest := by
  cases h with
  | inner children h => exact ⟨children, _, rfl, h⟩

theorem exists_forest {marks : List Mark} (h : Finishes [] marks) :
    ∃ forest, marks = marksOf forest := by
  cases h with
  | top forest => exact ⟨forest, rfl⟩

end Finishes

namespace Nested

/-- Nested marks with end tags for what they leave open finish what was open before them. -/
theorem finishes {names last : List Octets} {marks : List Mark} (h : Nested names marks last) :
    Finishes names (marks ++ Markup.closings last) := by
  induction h with
  | nil => exact .closings _
  | @opening tag _ _ _ _ ih =>
    -- what stands before the end tag of the new name are its children
    obtain ⟨children, rest, hm, hr⟩ := ih.exists_children
    have hn := hr.node (.full tag children)
    rw [Node.marks, List.cons_append, List.append_assoc, List.singleton_append, ← hm] at hn
    exact hn
  | empty _ ih => exact ih.node (.empty _)
  | closing _ ih => exact .inner [] ih

/-- Nested marks begin a forest; its other marks are the end tags that are missing. -/
theorem exists_forest {names : List Octets} {marks : List Mark} (h : Nested [] marks names) :
    ∃ forest, marksOf forest = marks ++ Markup.closings names := by
  obtain ⟨forest, hf⟩ := h.finishes.exists_forest
  exact ⟨forest, hf.symm⟩

end Nested

end BuildingBus.Markup
