import BuildingBus.Exchange.Document
import BuildingBus.Failure

/-!
# Import

A catalog is imported from an exchange document: the ranges of the document are read, and the
catalog is built from them. The spans of ranges in the document are checked to be numbers and
otherwise not used. An import reports its beginning, what it is refused for, and its end.
-/

namespace BuildingBus.Exchange

open Catalog Text

/-- The failure that an early end of reading amounts to. The rejection of a group outside of every
range has an empty path, since there is none. -/
def ReadFault.failure : ReadFault → Failure
  | exchange e => .exchange e
  | outsideRanges name => .catalog ⟨.emptyPath, trimmed name, ""⟩

/-- What is reported of an early end of reading: a character set that is not read, and a group
outside of every range. Broken markup is not reported, but only told. -/
def ReadFault.events : ReadFault → List Event
  | exchange (.unsupportedCharset name) => [.unsupportedCharset name]
  | exchange _ => []
  | outsideRanges name => [.outsideRanges name]

/-- The catalog that a document declares, with the configured styles. All of the document is read
before the first entry is checked, so that a fault of the document comes before any rejection by
building. -/
def importWith (d : Delivery) (config : Configuration) : Logged (Except Failure Catalog) := do
  .report .importing
  match d.ranges with
  | .error fault =>
    .reportAll fault.events
    return .error fault.failure
  | .ok ranges =>
    match ← Plan.build ⟨ranges, config.groupStyle, config.individualStyle⟩ with
    | .error r => return .error (.catalog r)
    | .ok c =>
      .report (.imported c.groups.length)
      return .ok c

/-- The catalog that a document declares. -/
def importDocument (d : Delivery) : Logged (Except Failure Catalog) := importWith d {}

/-- The catalog that a text declares. -/
def importText (text : String) : Logged (Except Failure Catalog) :=
  importDocument (.whole (Utf8.encode text.toList))

end BuildingBus.Exchange
