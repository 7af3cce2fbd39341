import BuildingBus.Address.Levels
import BuildingBus.Text.Blank
import BuildingBus.Text.Quoted

/-!
# Group and individual addresses

A group address names a set of objects that are told together; it is written with slashes, in the
levels main, middle and sub. An individual address names one device; it is written with points, in
the levels area, line and device. Either is a number of sixteen bits, and zero names nothing: no
text is read as the zero address.
-/

namespace BuildingBus.Address

/-! ## Errors -/

/-- Why an address or a style is refused, with the text in question as it was given, blanks
included. -/
inductive AddressError where
  /-- a text that is not of the form of a group address -/
  | malformedGroup (text : String)
  /-- a text that is not of the form of an individual address -/
  | malformedIndividual (text : String)
  /-- a field beyond its limit -/
  | outOfRange (text : String)
  /-- the zero address -/
  | zero (text : String)
  /-- a name that is no style's -/
  | unknownStyle (text : String)
  deriving DecidableEq, Repr

namespace AddressError

/-- The text that is refused. -/
def input : AddressError → String
  | malformedGroup text | malformedIndividual text | outOfRange text | zero text
  | unknownStyle text => text

/-- The name of the cause. -/
def label : AddressError → String
  | malformedGroup _ => "InvalidGroupAddress"
  | malformedIndividual _ => "InvalidIndividualAddress"
  | outOfRange _ => "OutOfRange"
  | zero _ => "ZeroAddress"
  | unknownStyle _ => "InvalidStyle"

/-- Whether a field is beyond its limit. -/
def isOutOfRange : AddressError → Bool
  | outOfRange _ => true
  | _ => false

/-- Whether the text writes the zero address. -/
def isZero : AddressError → Bool
  | zero _ => true
  | _ => false

/-- The message shown for the error. -/
def message (e : AddressError) : String :=
  "Addressing error: " ++ e.label ++ " in " ++ Text.quoted e.input

end AddressError

/-- The error that a failed reading of a text amounts to. -/
def ReadFault.toError (malformed : String → AddressError) (text : String) :
    ReadFault → AddressError
  | .malformed => malformed text
  | .outOfRange => .outOfRange text
  | .zero => .zero text

/-- The style that a text names, apart from blank characters around it. -/
def Style.parse (text : String) : Except AddressError Style :=
  match Style.ofName? (Text.trimmed text) with
  | some style => .ok style
  | none => .error (.unknownStyle (Text.trimmed text))

/-! ## Group addresses -/

/-- The address of a group: sixteen bits, whose division into levels is a matter of writing alone.
Two texts in different styles can thus write one address. -/
structure GroupAddress where
  /-- the sixteen bits -/
  raw : UInt16
  deriving DecidableEq, Repr, Inhabited

namespace GroupAddress

/-- Main, middle and sub group are written with slashes; in two levels the sub group takes the
place of the middle one. -/
def scheme : Scheme where
  separator := '/'
  two := [31, 2047]
  three := [31, 7, 255]

/-- The address that a text writes in one, two or three levels. -/
def parse (text : String) : Except AddressError GroupAddress :=
  match scheme.read text.toList with
  | .ok raw => .ok ⟨raw⟩
  | .error fault => .error (fault.toError .malformedGroup text)

/-- The text of an address in a style. -/
def format (a : GroupAddress) (style : Style) : String :=
  String.ofList (scheme.write style a.raw)

/-- The address with the given fields, which are held against their limits like those of a text; the
error shows them with the separator that a group address has. -/
def ofFields (limits fields : List Nat) : Except AddressError GroupAddress :=
  if within limits fields then .ok ⟨.ofNat (compose limits fields)⟩
  else .error (.outOfRange (String.ofList (scheme.writeFields fields)))

/-- The address with the given main, middle and sub group. -/
def ofThreeLevels (main middle sub : Nat) : Except AddressError GroupAddress :=
  ofFields scheme.three [main, middle, sub]

/-- The address with the given main and sub group. -/
def ofTwoLevels (main sub : Nat) : Except AddressError GroupAddress :=
  ofFields scheme.two [main, sub]

/-- Whether this is the zero address. -/
def isZero (a : GroupAddress) : Bool := a.raw == 0

/-- The main group. -/
def mainGroup (a : GroupAddress) : Nat := a.raw.toNat / 2048

/-- The middle group in three levels. -/
def middleGroup (a : GroupAddress) : Nat := a.raw.toNat / 256 % 8

/-- The sub group in three levels. -/
def subGroup (a : GroupAddress) : Nat := a.raw.toNat % 256

/-- The sub group in two levels. -/
def subGroupOfTwo (a : GroupAddress) : Nat := a.raw.toNat % 2048

end GroupAddress

/-! ## Individual addresses -/

/-- The address of a device. It is another type than that of a group, though both have sixteen bits,
since a telegram goes from the one to the other. -/
structure IndividualAddress where
  /-- the sixteen bits -/
  raw : UInt16
  deriving DecidableEq, Repr, Inhabited

namespace IndividualAddress

/-- Area, line and device are written with points; in two levels area and line are one subnet. -/
def scheme : Scheme where
  separator := '.'
  two := [255, 255]
  three := [15, 15, 255]

/-- The address that a text writes in one, two or three levels. -/
def parse (text : String) : Except AddressError IndividualAddress :=
  match scheme.read text.toList with
  | .ok raw => .ok ⟨raw⟩
  | .error fault => .error (fault.toError .malformedIndividual text)

/-- The text of an address in a style. -/
def format (a : IndividualAddress) (style : Style) : String :=
  String.ofList (scheme.write style a.raw)

/-- The address with the given area, line and device. -/
def ofThreeLevels (area line device : Nat) : Except AddressError IndividualAddress :=
  let fields := [area, line, device]
  if within scheme.three fields then .ok ⟨.ofNat (compose scheme.three fields)⟩
  else .error (.outOfRange (String.ofList (scheme.writeFields fields)))

/-- The area. -/
def area (a : IndividualAddress) : Nat := a.raw.toNat / 4096

/-- The line within its area. -/
def line (a : IndividualAddress) : Nat := a.raw.toNat / 256 % 16

/-- The device within its line. -/
def device (a : IndividualAddress) : Nat := a.raw.toNat % 256

/-- Area and line as one number. -/
def subnet (a : IndividualAddress) : Nat := a.raw.toNat / 256

end IndividualAddress

end BuildingBus.Address
