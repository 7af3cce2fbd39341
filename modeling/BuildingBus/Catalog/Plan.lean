import BuildingBus.Catalog.Basic
import BuildingBus.Datapoint.Registry

/-!
# Building a catalog

The groups of an installation are declared in a forest of named ranges: a range holds entries and
further ranges. A *walk* goes through the forest and takes a range's own entries before those of its
inner ranges. It carries one path, which grows where a range begins and shrinks where the range ends,
and one catalog, to which each entry is added after it has been checked against those before it. The
first entry that fails a check rejects the whole forest.

An entry is checked in this order: it has a name; no earlier group has that name; its address is one
and not zero; its datapoint types are registered; no earlier group has that address.
-/

namespace BuildingBus.Catalog

open Address Datapoint Text

/-! ## Forests -/

/-- A declared group, in the texts of its declaration. Nothing about it is read yet, so that one
error may tell of the text as it was written. -/
structure Entry where
  /-- the name -/
  name : String
  /-- the address -/
  address : String
  /-- the identifiers of its datapoint types, with commas between them -/
  types : String
  deriving DecidableEq, Repr

/-- A range with its entries and inner ranges. Ranges may have blank names, and several ranges side
by side may have one name; neither is an error. -/
inductive GroupRange where
  /-- the range with a name, its own entries and its inner ranges -/
  | mk (name : String) (entries : List Entry) (ranges : List GroupRange)

namespace GroupRange

/-- The name of a range. -/
def name : GroupRange → String
  | mk name _ _ => name

/-- A range's own entries. -/
def entries : GroupRange → List Entry
  | mk _ entries _ => entries

/-- The ranges in a range. -/
def ranges : GroupRange → List GroupRange
  | mk _ _ ranges => ranges

end GroupRange

/-- An entry with the names of the ranges that enclose it, the outermost first. It is all that a
check needs to know about the forest. -/
structure LocatedEntry where
  /-- names of the enclosing ranges -/
  path : List String
  /-- the entry -/
  entry : Entry
  deriving DecidableEq, Repr

/-! ## Checks -/

/-- A registered datapoint type from its text. -/
def readType (field : String) : Except Cause TypeId :=
  match TypeId.parse field with
  | .error why => .error (.invalidDatapoint why)
  | .ok id => if Registry.contains id then .ok id else .error (.unknownDatapoint (.unknownType id))

/-- Registered datapoint types from their texts with commas between them. A blank text names none,
but a blank field between commas is an error. -/
def readTypes (text : String) : Except Cause (List TypeId) :=
  if trim text.toList = [] then .ok []
  else (fields ',' text.toList).mapM fun field => readType (String.ofList field)

/-- The address of an entry, whose text may have blank ends. Zero has a cause of its own, since it
is well-formed and merely not an address. -/
def readAddress (text : String) : Except Cause GroupAddress :=
  match GroupAddress.parse (trimmed text) with
  | .ok address => .ok address
  | .error (.zero _) => .error .zeroAddress
  | .error why => .error (.invalidAddress why)

/-- What an entry declares, checked against the groups that are listed already. The checks are made
in this order, and the first that fails is told; an address that is taken is noticed only after the
types were read. -/
def checkEntry (listed : Catalog) (e : LocatedEntry) : Except Cause Group := do
  let name := trimmed e.entry.name
  if name = "" then throw .missingName
  if (listed.lookup name).isSome then throw .duplicateName
  let address ← readAddress e.entry.address
  let types ← readTypes e.entry.types
  if (listed.lookupAddress address).isSome then throw .duplicateAddress
  return { name, address, types, path := e.path, style := listed.groupStyle }

/-- A path as one text. -/
def pathText (path : List String) : String := joined "/" path

/-- The rejection of an entry. -/
def LocatedEntry.rejection (e : LocatedEntry) (cause : Cause) : Rejection :=
  ⟨cause, trimmed e.entry.name, pathText e.path⟩

/-- The catalog with the group that an entry declares, or the rejection of the entry. It is one step
of building. -/
def add (c : Catalog) (e : LocatedEntry) : Except Rejection Catalog :=
  match checkEntry c e with
  | .ok g => .ok (c.push g)
  | .error cause => .error (e.rejection cause)

/-! ## Walks -/

/-- Where a walk through a forest stands. The path belongs to the walk and not to the range that is
being read: whoever enters a range has to leave it, or all later paths are too long. -/
structure Walk where
  /-- the names of the ranges around, the outermost first -/
  path : List String
  /-- the catalog of the entries that are behind -/
  catalog : Catalog

namespace Walk

/-- The walk in a range that has just begun. -/
def enter (w : Walk) (name : String) : Walk := { w with path := w.path ++ [trimmed name] }

/-- The walk after the end of the range that it stands in. -/
def leave (w : Walk) : Walk := { w with path := w.path.dropLast }

section

variable {m : Type → Type} [Monad m] (add : Catalog → LocatedEntry → m Catalog)

/-- The walk after an entry, which is added with the path as it is. What adding does besides, be it
to fail or to report, is left to `add`. -/
def visit (w : Walk) (e : Entry) : m Walk := do
  return { w with catalog := ← add w.catalog ⟨w.path, e⟩ }

mutual

/-- The walk after a range: into it, past its own entries, through the ranges in it, and out. -/
def throughRange (w : Walk) : GroupRange → m Walk
  | .mk name entries ranges => do
    let w ← entries.foldlM (visit add) (w.enter name)
    return (← through w ranges).leave

/-- The walk after ranges side by side. -/
def through (w : Walk) : List GroupRange → m Walk
  | [] => pure w
  | range :: ranges => do through (← throughRange w range) ranges

end

end

end Walk

/-! ## Building -/

/-- What a catalog is built from: a forest of declared groups, and the styles that the catalog shall
have. -/
structure Plan where
  /-- the ranges, outermost -/
  ranges : List GroupRange := []
  /-- the style of group addresses -/
  groupStyle : Style := .unspecified
  /-- the style of individual addresses -/
  individualStyle : Style := .unspecified

namespace Plan

/-- The catalog without groups that building starts from. -/
def start (p : Plan) : Catalog :=
  { groupStyle := p.groupStyle, individualStyle := p.individualStyle }

/-- The catalog after a walk through all ranges, or the rejection of the first entry that fails. -/
def assemble (p : Plan) : Except Rejection Catalog := do
  return (← Walk.through add ⟨[], p.start⟩ p.ranges).catalog

/-- Builds the catalog and reports a rejection. The report names the group and the path that the
error has. -/
def build (p : Plan) : Logged (Except Rejection Catalog) :=
  match p.assemble with
  | .ok c => pure (.ok c)
  | .error r => do
    .report (.rejected r.group r.path)
    pure (.error r)

end Plan

end BuildingBus.Catalog
