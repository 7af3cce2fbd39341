import BuildingBus.Catalog.Branch
import BuildingBus.Exchange.Document
import BuildingBus.Markup.Element

/-!
# Export

A catalog is exported to an exchange document, which depends on the groups alone: the branches that
their paths describe become `GroupRange` elements with the spans of the branches, and each group
becomes a `GroupAddress` element in the range where its path ends.
-/

namespace BuildingBus.Exchange

open Catalog Datapoint Markup Text

/-! ## Elements -/

/-- The namespace of exchange documents. -/
def documentNamespace : String := "http://knx.org/xml/ga-export/01"

/-- The attributes of the element of a group. -/
def groupAttributes (g : Group) : List (String × String) :=
  [("Name", g.name), ("Address", toString g.address.raw.toNat),
    ("DPTs", joined ", " (g.types.map TypeId.exchangeText))]

/-- The element of a group. -/
def groupElement (g : Group) : Element := .mk groupName (groupAttributes g) []

/-- The attributes of the element of a range. -/
def rangeAttributes (name : String) (first last : Nat) : List (String × String) :=
  [("Name", name), ("RangeStart", toString first), ("RangeEnd", toString last)]

mutual

/-- The element of a branch: its groups, then its inner branches. That is the order in which a walk
visits them, so that reading the document keeps it. -/
def rangeElement : Branch → Element
  | .mk name groups inner =>
    let (first, last) := (Branch.mk name groups inner).span.getD (0, 0)
    .mk rangeName (rangeAttributes name first last)
      (groups.map groupElement ++ rangeElements inner)

/-- The elements of branches. A branch without any address in it has none. -/
def rangeElements : List Branch → List Element
  | [] => []
  | b :: bs => if b.span.isSome then rangeElement b :: rangeElements bs else rangeElements bs

end

/-! ## Documents -/

/-- The document of a list of groups. It depends on them alone, and neither the styles nor the
indexes of a catalog are in it. -/
def documentOf (groups : List Group) : String :=
  document (.mk rootName [("xmlns", documentNamespace)] (rangeElements (branchesOf groups)))

/-- The exchange document of a catalog. -/
def exportText (c : Catalog) : Logged String := do
  .report (.exported c.groups.length)
  return documentOf c.groups

/-- Writes the exchange document of a catalog where there is room for so many octets: how many were
written. -/
def exportWithin (capacity : Nat) (c : Catalog) : Logged (Except ExchangeError Nat) :=
  let size := (Utf8.encode (documentOf c.groups).toList).length
  if size ≤ capacity then do
    .report (.exported c.groups.length)
    return .ok size
  else return .error .transport

end BuildingBus.Exchange
