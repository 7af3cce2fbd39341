import BuildingBus.Address.Basic
import BuildingBus.Catalog.Index
import BuildingBus.Datapoint.Error
import BuildingBus.Text.Case

/-!
# The catalog

A catalog lists the groups of an installation in the order in which they were declared. A group has
a name, an address, the datapoint types of its payloads, and the ranges that enclose it. Groups are
found by name, without regard to case and blank ends, and by address. Names and addresses are each
other's equals in this: no two groups of a catalog that was built share either.

For both ways of finding a catalog keeps an index with the positions of its groups. A group whose
key is taken would hide the one that had it, so that only groups with new keys may be added.
-/

namespace BuildingBus.Catalog

open Address Datapoint Text

/-! ## Groups -/

/-- A group address with its name and meaning. All fields are kept as they were accepted: the name
without blank ends, the types registered, and the style that the catalog had when the group was
added. -/
structure Group where
  /-- the name -/
  name : String
  /-- the address -/
  address : GroupAddress
  /-- the datapoint types of its payloads, the primary one first -/
  types : List TypeId
  /-- names of the enclosing ranges, the outermost first -/
  path : List String
  /-- the style its address is shown in -/
  style : Style
  deriving DecidableEq, Repr

namespace Group

/-- The type that literals for the group are encoded with, which is the first one declared. The
further types are only for decoding. -/
def primary (g : Group) : Option TypeId := g.types.head?

/-- The address in the style of the group. -/
def addressText (g : Group) : String := g.address.format g.style

end Group

/-! ## Catalogs -/

/-- The form in which names are compared: without blank ends and in lower case. Duplicates are found
by it and names are looked up by it, so that the two cannot disagree. -/
def nameKey (name : String) : String :=
  String.ofList (lower (trim name.toList))

end BuildingBus.Catalog

namespace BuildingBus

open Address Catalog

/-- The groups of an installation, with an index for each way of finding them. Nothing in the type
keeps the indexes true to the groups; that they are is `Catalog.Sound`, and holds of every catalog
that can be obtained. -/
structure Catalog where
  /-- the groups in the order of their declaration -/
  groups : List Group := []
  /-- positions of the groups, by name -/
  nameIndex : Index String := {}
  /-- positions of the groups, by address -/
  addressIndex : Index GroupAddress := {}
  /-- the style that group addresses are shown in -/
  groupStyle : Style := .unspecified
  /-- the style that individual addresses are shown in -/
  individualStyle : Style := .unspecified
  deriving DecidableEq, Repr, Inhabited

namespace Catalog

/-- The group at a position. -/
def groupAt (c : Catalog) (position : Nat) : Option Group := c.groups[position]?

/-- The group that the index has under a name. The name may be in any case and have blank ends, as
`nameKey` takes both away. -/
def lookup (c : Catalog) (name : String) : Option Group :=
  (c.nameIndex.get? (nameKey name)).bind c.groupAt

/-- The group that the index has under an address, in whatever style the address was written. -/
def lookupAddress (c : Catalog) (address : GroupAddress) : Option Group :=
  (c.addressIndex.get? address).bind c.groupAt

/-- The catalog with one more group at its end. Nothing is checked here: with a key that is taken,
the new group would hide the one that had it. -/
def push (c : Catalog) (g : Group) : Catalog :=
  let position := c.groups.length
  { c with
    groups := c.groups ++ [g]
    nameIndex := c.nameIndex.insert (nameKey g.name) position
    addressIndex := c.addressIndex.insert g.address position }

/-- The catalog with another style for group addresses. Its groups keep theirs. -/
def withGroupStyle (c : Catalog) (style : Style) : Catalog := { c with groupStyle := style }

/-- The catalog with another style for individual addresses. -/
def withIndividualStyle (c : Catalog) (style : Style) : Catalog :=
  { c with individualStyle := style }

/-- A group address in the style of the catalog. -/
def formatGroup (c : Catalog) (a : GroupAddress) : String := a.format c.groupStyle

/-- An individual address in the style of the catalog. -/
def formatIndividual (c : Catalog) (a : IndividualAddress) : String :=
  a.format c.individualStyle

@[simp] theorem groups_push (c : Catalog) (g : Group) :
    (c.push g).groups = c.groups ++ [g] := rfl

@[simp] theorem groupStyle_push (c : Catalog) (g : Group) :
    (c.push g).groupStyle = c.groupStyle := rfl

@[simp] theorem individualStyle_push (c : Catalog) (g : Group) :
    (c.push g).individualStyle = c.individualStyle := rfl

end Catalog

end BuildingBus

namespace BuildingBus.Catalog

open Address Datapoint Text

/-! ## Rejections -/

/-- Why an entry or a request is rejected. The causes that come from an error in a text keep that
error; `untyped` has none, as no identifier was given at all. -/
inductive Cause where
  /-- a name that is blank -/
  | missingName
  /-- a group that stands in no range -/
  | emptyPath
  /-- a name that is taken -/
  | duplicateName
  /-- an address that is taken -/
  | duplicateAddress
  /-- a text that is no address -/
  | invalidAddress (why : AddressError)
  /-- the zero address -/
  | zeroAddress
  /-- a text that is no datapoint type -/
  | invalidDatapoint (why : DatapointError)
  /-- a datapoint type that is not registered -/
  | unknownDatapoint (why : DatapointError)
  /-- no datapoint type where one is needed -/
  | untyped
  /-- a target that is neither a name nor an address -/
  | unknownGroup (why : AddressError)
  deriving DecidableEq, Repr

/-- A rejection: its cause, the name of the group, and the path that it was found on. It tells where
in a large installation the mistake is. -/
structure Rejection where
  /-- why -/
  cause : Cause
  /-- the name of the group -/
  group : String
  /-- names of the enclosing ranges, with slashes between them -/
  path : String
  deriving DecidableEq, Repr

/-- The name of a cause. -/
def Cause.label : Cause → String
  | missingName => "MissingName"
  | emptyPath => "EmptyPath"
  | duplicateName => "DuplicateName"
  | duplicateAddress => "DuplicateAddress"
  | invalidAddress _ => "InvalidAddress"
  | zeroAddress => "ZeroAddress"
  | invalidDatapoint _ => "InvalidDatapoint"
  | unknownDatapoint _ | untyped => "UnknownDatapoint"
  | unknownGroup _ => "UnknownGroup"

/-- A cause in words. -/
def Cause.words : Cause → String
  | missingName => "group address without name"
  | emptyPath => "group outside of any range"
  | duplicateName => "duplicated group name"
  | duplicateAddress => "duplicated group address"
  | invalidAddress _ => "invalid address"
  | zeroAddress => "invalid address 0"
  | invalidDatapoint _ => "invalid datapoint definition"
  | unknownDatapoint _ | untyped => "unknown datapoint type"
  | unknownGroup _ => "unknown group"

/-- Whether the cause is a datapoint type, be it malformed, not registered or missing. -/
def Cause.concernsType : Cause → Bool
  | invalidDatapoint _ | unknownDatapoint _ | untyped => true
  | _ => false

/-- The message of the error that a cause rests on, if it rests on one. -/
def Cause.sourceMessage : Cause → Option String
  | invalidAddress why | unknownGroup why => some why.message
  | invalidDatapoint why | unknownDatapoint why => some why.message
  | _ => none

/-- The message shown for a rejection. -/
def Rejection.message (r : Rejection) : String :=
  "Catalog error: " ++ r.cause.words ++ " for group " ++ quoted r.group ++ " in path "
    ++ quoted r.path ++ (r.cause.sourceMessage.elim "" (": " ++ ·))

end BuildingBus.Catalog
