import BuildingBus.Catalog.Plan
import BuildingBus.Exchange.Error
import BuildingBus.Markup.Attribute
import BuildingBus.Markup.Stream

/-!
# Exchange documents

An exchange document declares the forest of ranges in XML. Its document element is
`GroupAddress-Export`; in it, and in one another, stand `GroupRange` elements with the ranges, and
in these `GroupAddress` elements with the entries. Elements with other names say nothing, whatever
they hold, and nor does what a `GroupAddress` element holds. Names are compared without their part
before the first colon.

The reader takes the marks of a document one by one. It keeps the ranges that are open, how deep it
stands in an element that says nothing, and whether the document element has begun and ended.
-/

namespace BuildingBus.Exchange

open Catalog Datapoint Markup Number Text

/-! ## Faults -/

/-- Why the reading of a document ends early. A group outside of every range is no fault of the
document but of the forest in it, and callers get it as a rejection. -/
inductive ReadFault where
  /-- the document is refused -/
  | exchange (e : ExchangeError)
  /-- a group with this name stands outside of every range -/
  | outsideRanges (name : String)
  deriving DecidableEq, Repr

/-- A broken rule of the markup refuses the document. -/
def wellFormed {α : Type} : Except Malformed α → Except ReadFault α
  | .ok a => .ok a
  | .error _ => .error (.exchange .malformed)

/-! ## Names -/

/-- The name of the document element. -/
def rootName : String := "GroupAddress-Export"

/-- The name of the element of a range. -/
def rangeName : String := "GroupRange"

/-- The name of the element of a group. -/
def groupName : String := "GroupAddress"

/-! ## Parts of the document -/

/-- Checks that a character set is the one that is read. The name may be in any case and blank; in
the error it is in lower case. -/
def requireCharset (name : List Char) : Except ReadFault Unit :=
  let name := String.ofList (asciiLower (trim name))
  if name = "" ∨ name = "utf-8" ∨ name = "utf8" then .ok ()
  else .error (.exchange (.unsupportedCharset name))

/-- Checks the character set that a declaration names, if it names one. Octets are read as UTF-8 in
any case, so that another name would mean wrong texts. -/
def requireDeclaration (attributes : Octets) : Except ReadFault Unit := do
  match ← wellFormed (declared "encoding" attributes) with
  | some value => requireCharset (Utf8.decodeLossy value)
  | none => return ()

/-- Checks that the bound of a range, if it is given, is a number of sixteen bits. The bound is not
used for anything: spans are found from the groups. -/
def requireBound (tag : Tag) (key : String) : Except ReadFault Unit := do
  match ← wellFormed (tag.attribute key) with
  | some value =>
    match readUnsigned 65535 (trim value.toList) with
    | .ok _ => return ()
    | .error _ => throw (.exchange (.invalidBound key value))
  | none => return ()

/-- The text of an attribute, empty if there is none. What is missing is left to be refused by
building, if it has to be. -/
def attributeOrEmpty (tag : Tag) (key : String) : Except ReadFault String := do
  return (← wellFormed (tag.attribute key)).getD ""

/-- The range that a tag declares, with nothing in it yet. The bounds are checked before the name is
looked up, so a bad bound is told first. -/
def readRange (tag : Tag) : Except ReadFault GroupRange := do
  requireBound tag "RangeStart"
  requireBound tag "RangeEnd"
  return .mk (← attributeOrEmpty tag "Name") [] []

/-- The entry that a tag declares, in its own texts. Neither address nor types are read here. -/
def readEntry (tag : Tag) : Except ReadFault Entry := do
  let name ← attributeOrEmpty tag "Name"
  let address ← attributeOrEmpty tag "Address"
  let types ← attributeOrEmpty tag "DPTs"
  return { name, address, types }

/-! ## The reader -/

/-- How far a document is read. There is no tree of it: what is closed has been put into its parent,
and of what is open only ranges are kept. -/
structure Reader where
  /-- the outermost ranges that are closed -/
  ranges : List GroupRange := []
  /-- the ranges that are open, the innermost first -/
  opened : List GroupRange := []
  /-- whether the document element has begun -/
  rootSeen : Bool := false
  /-- whether the document element has ended -/
  rootClosed : Bool := false
  /-- the depth in an element that says nothing -/
  skipped : Nat := 0

namespace Reader

/-- A range with an entry at its end. -/
def withEntry (e : Entry) : GroupRange → GroupRange
  | .mk name entries ranges => .mk name (entries ++ [e]) ranges

/-- A range with an inner range at its end. -/
def withRange (inner : GroupRange) : GroupRange → GroupRange
  | .mk name entries ranges => .mk name entries (ranges ++ [inner])

/-- The reader with a closed range put into the innermost open one, or on its own. Ranges side by
side stay in the order in which they were closed, which is that of the document. -/
def attach (r : Reader) (range : GroupRange) : Reader :=
  match r.opened with
  | [] => { r with ranges := r.ranges ++ [range] }
  | parent :: rest => { r with opened := withRange range parent :: rest }

/-- The reader in a range that has just begun. -/
def openRange (r : Reader) (range : GroupRange) : Reader := { r with opened := range :: r.opened }

/-- The first element of the document. -/
def startRoot (r : Reader) (tag : Tag) (empty : Bool) : Except ReadFault Reader :=
  let name := localName tag.name
  if name = octets rootName then .ok { r with rootSeen := true, rootClosed := empty }
  else .error (.exchange (.unexpectedRoot (String.ofList (Utf8.decodeLossy name))))

/-- The reader in an element that says nothing; an empty one is passed over at once. -/
def skip (r : Reader) (empty : Bool) : Reader :=
  if empty then r else { r with skipped := r.skipped + 1 }

/-- An element in the document element, outside of those that say nothing. A range is opened, an
entry is put into the innermost range, and any other element is skipped with all that it holds. -/
def startInside (r : Reader) (tag : Tag) (empty : Bool) : Except ReadFault Reader := do
  let name := localName tag.name
  if name = octets rangeName then
    let range ← readRange tag
    return if empty then r.attach range else r.openRange range
  else if name = octets groupName then
    let entry ← readEntry tag
    match r.opened with
    | [] => throw (.outsideRanges entry.name)
    | parent :: rest => return { r with opened := withEntry entry parent :: rest }.skip empty
  else return r.skip empty

/-- The tag of an element that is empty or has just begun. Inside of an element that says nothing no
tag is read at all, not even its name. -/
def start (r : Reader) (tag : Tag) (empty : Bool) : Except ReadFault Reader :=
  if 0 < r.skipped then .ok (r.skip empty)
  else if !r.rootSeen then r.startRoot tag empty
  else if r.rootClosed then .error (.exchange .contentAfterRoot)
  else r.startInside tag empty

/-- The end of a range. -/
def closeRange (r : Reader) : Reader :=
  match r.opened with
  | [] => r
  | range :: rest => { r with opened := rest }.attach range

/-- The end tag of an element with a name. It is taken to close what was opened last, which the
marks have been held to before. -/
def finish (r : Reader) (name : Octets) : Reader :=
  if 0 < r.skipped then { r with skipped := r.skipped - 1 }
  else if localName name = octets rangeName then r.closeRange
  else if localName name = octets rootName then { r with rootClosed := true }
  else r

/-- The reader after a mark. Only declarations and the tags of elements can fail; an end tag that
does not belong ends the marks before it comes here. -/
def step (r : Reader) : Mark → Except ReadFault Reader
  | .declaration attributes => (requireDeclaration attributes).map fun () => r
  | .opening tag => r.start tag false
  | .empty tag => r.start tag true
  | .closing name => .ok (r.finish name)

/-- The ranges of a document that has come to an end. It must have begun its document element and
ended it. -/
def result (r : Reader) : Except ReadFault (List GroupRange) :=
  if !r.rootSeen then .error (.exchange (.unexpectedRoot ""))
  else if !r.rootClosed then .error (.exchange .unexpectedEnd)
  else .ok r.ranges

/-- The ranges that a reader has when there are no more marks. -/
def stopped (r : Reader) : Stop → Except ReadFault (List GroupRange)
  | .endOfInput => r.result
  | .readFailure => .error (.exchange .transport)
  | .malformed => .error (.exchange .malformed)

end Reader

/-- The ranges that a stream of marks declares. A fault in the marks comes before whatever ended the
stream. -/
def rangesOf (s : Stream) : Except ReadFault (List GroupRange) := do
  (← s.marks.foldlM Reader.step {}).stopped s.stop

/-- What a source has delivered of a document, and whether that was all. A source that fails looks
like one that ends until the octets are used up. -/
structure Delivery where
  /-- the octets -/
  octets : Octets
  /-- what comes after them -/
  ending : Ending
  deriving DecidableEq, Repr

/-- A document that is delivered as a whole. -/
def Delivery.whole (octets : Octets) : Delivery := ⟨octets, .complete⟩

/-- A source that fails after the first octets of a document. -/
def Delivery.failing (octets : Octets) (after : Nat) : Delivery := ⟨octets.take after, .failed⟩

/-- The ranges that a document declares. Its octets are scanned for marks, the marks are held to the
rule for end tags, and the reader goes through what is left. -/
def Delivery.ranges (d : Delivery) : Except ReadFault (List GroupRange) :=
  rangesOf (scan d.ending d.octets).nest

end BuildingBus.Exchange
