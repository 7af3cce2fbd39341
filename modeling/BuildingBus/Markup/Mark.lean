import BuildingBus.Octets

/-!
# Marks

A document is a sequence of octets in which `<` opens markup and everything else is text. The
*marks* of a document are the pieces of markup that carry structure: declarations, start tags, end
tags and the tags of empty elements. Text, comments, character data, document types and other
instructions are none.
-/

namespace BuildingBus.Markup

/-! ## Octets -/

/-- The octet of an ASCII character. -/
def octet (c : Char) : UInt8 := .ofNat c.toNat

/-- The octets of a text of ASCII characters. -/
def octets (s : String) : Octets := s.toList.map octet

/-- Whether an octet is a space, a tab or one of the two line ends. -/
def isSpace (b : UInt8) : Bool :=
  b == 0x20 || b == 0x09 || b == 0x0D || b == 0x0A

/-- A rule of the markup is broken. Which one does not matter to any caller, so nothing else is
kept. -/
structure Malformed where
  deriving DecidableEq, Repr

/-! ## Tags -/

/-- What a start tag or the tag of an empty element holds. The attributes are kept as octets and
read where one is looked for. -/
structure Tag where
  /-- the name of the element -/
  name : Octets
  /-- what follows the name -/
  attributes : Octets
  deriving DecidableEq, Repr

/-- Markup that carries structure. Text, comments and instructions have been passed over; only a
declaration is kept of what stands outside of elements. -/
inductive Mark where
  /-- a declaration, from what follows its keyword -/
  | declaration (attributes : Octets)
  /-- a start tag -/
  | opening (tag : Tag)
  /-- the tag of an empty element -/
  | empty (tag : Tag)
  /-- an end tag -/
  | closing (name : Octets)
  deriving DecidableEq, Repr

/-- A tag from the octets between its angle brackets. -/
def Tag.ofContent (content : Octets) : Tag where
  name := content.takeWhile (!isSpace ·)
  attributes := content.dropWhile (!isSpace ·)

/-- Octets without blank ones at their end. -/
def dropTrailingSpace (content : Octets) : Octets :=
  (content.reverse.dropWhile isSpace).reverse

/-- The name in an end tag, from the octets after its slash. Blank octets after a name do not count.
Blank octets alone are no name followed by blanks: they stay, and as no element has such a name
they close none. -/
def closingName (content : Octets) : Octets :=
  match dropTrailingSpace content with
  | [] => content
  | name => name

theorem dropTrailingSpace_append {name blanks : Octets}
    (hn : ∀ b, name.getLast? = some b → isSpace b = false) (hb : ∀ b ∈ blanks, isSpace b = true) :
    dropTrailingSpace (name ++ blanks) = name := by
  have hd : name.reverse.dropWhile isSpace = name.reverse := by
    cases h : name.reverse with
    | nil => rfl
    | cons b bs =>
      have hl : name.getLast? = some b := by rw [← List.head?_reverse, h]; rfl
      rw [List.dropWhile_cons, hn b hl]
      rfl
  have ha : ∀ b ∈ blanks.reverse, isSpace b = true := fun b h => hb b (List.mem_reverse.mp h)
  rw [dropTrailingSpace, List.reverse_append, List.dropWhile_append_of_pos ha, hd,
    List.reverse_reverse]

/-- Blank octets after a name are taken away. -/
theorem closingName_append {name blanks : Octets} (h : name ≠ [])
    (hn : ∀ b, name.getLast? = some b → isSpace b = false) (hb : ∀ b ∈ blanks, isSpace b = true) :
    closingName (name ++ blanks) = name := by
  rw [closingName, dropTrailingSpace_append hn hb]
  cases name with
  | nil => exact absurd rfl h
  | cons b bs => rfl

end BuildingBus.Markup
