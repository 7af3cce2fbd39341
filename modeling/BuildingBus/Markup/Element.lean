import BuildingBus.Markup.Entity
import BuildingBus.Text.Fields

/-!
# Elements

A document is written from a tree of elements. Each tag stands on a line of its own, two spaces
deeper than that of the enclosing element; an element without children is one tag.
-/

namespace BuildingBus.Markup

open Text

/-- An element with its attributes and children, as it is written. There is no text between elements
but line ends and indentation. -/
inductive Element where
  /-- the element with a name, attributes in order, and children in order -/
  | mk (name : String) (attributes : List (String × String)) (children : List Element)

/-- An attribute with a space before it. -/
def attributeText (key value : String) : List Char :=
  [' '] ++ key.toList ++ ['=', '"'] ++ escape value.toList ++ ['"']

/-- A tag without its closing bracket. -/
def tagStart (name : String) (attributes : List (String × String)) : List Char :=
  ['<'] ++ name.toList ++ attributes.flatMap fun (key, value) => attributeText key value

/-- The spaces before a tag. -/
def indentation (depth : Nat) : List Char := List.replicate (2 * depth) ' '

mutual

/-- The lines of an element at a depth: one line if it has no children, and otherwise one for its
start tag, those of its children, and one for its end tag. -/
def Element.lines (depth : Nat) : Element → List (List Char)
  | .mk name attributes children =>
    let start := indentation depth ++ tagStart name attributes
    match children with
    | [] => [start ++ ['/', '>']]
    | child :: rest =>
      [start ++ ['>']] ++ (child.lines (depth + 1) ++ linesOf (depth + 1) rest)
        ++ [indentation depth ++ ['<', '/'] ++ name.toList ++ ['>']]

/-- The lines of elements at a depth. -/
def linesOf (depth : Nat) : List Element → List (List Char)
  | [] => []
  | element :: elements => element.lines depth ++ linesOf depth elements

end

/-- The declaration that a document begins with. -/
def declarationLine : List Char :=
  "<?xml version=\"1.0\" encoding=\"utf-8\" standalone=\"yes\"?>".toList

/-- The text of a document with one element. Every line ends in a line feed. -/
def document (root : Element) : String :=
  String.ofList ((declarationLine :: root.lines 0).flatMap (· ++ ['\n']))

end BuildingBus.Markup
