import BuildingBus.Datapoint.Error
import BuildingBus.Number.Decimal
import BuildingBus.Text.Blank

/-!
# Scalars and literals

A user writes a value as a literal. The kind of a datapoint type says how its literals are read: as
a truth value, as an integer of some width, as a decimal fraction or as a text. Structured values
have no literals. What a literal reads as is a *scalar*, which the layout then takes over.
-/

namespace BuildingBus.Datapoint

open BuildingBus.Number BuildingBus.Text

/-- How the literals of a type are read. The kind is coarser than the layout: it has the width of a
number, and not its unit or its limits. -/
inductive Kind where
  /-- `true` or `false` -/
  | bool
  /-- an integer in two's complement of a width -/
  | signed (bits : Nat)
  /-- an integer without sign of a width -/
  | unsigned (bits : Nat)
  /-- a finite number of a width -/
  | float (bits : Nat)
  /-- a text -/
  | text
  /-- a structured value, which has no literals -/
  | composite
  deriving DecidableEq, Repr

/-- What a literal reads as, before a type takes it over. Integers are whole here and not yet bits,
so that a layout can say whether they fit. -/
inductive Scalar where
  /-- a truth value -/
  | bool (b : Bool)
  /-- an integer -/
  | signed (n : Int)
  /-- an integer without sign -/
  | unsigned (n : Nat)
  /-- a number -/
  | float (v : Double)
  /-- a text -/
  | text (s : String)
  deriving DecidableEq

namespace Scalar

/-- The greatest finite number of 32 bits, as a number of 64 bits. -/
def greatestSingle : Double :=
  .ofRat _ (BinaryFormat.single.valueOf (BinaryFormat.single.infinity - 1))

/-- The error for a literal that is no whole number within its limits. -/
def wholeError (literal : String) : WholeFault → DatapointError
  | .malformed => .malformedLiteral literal
  | .overflow => .literalOverflow literal

/-- A truth value. -/
def parseBool (literal : String) (s : List Char) : Except DatapointError Scalar :=
  if s = "true".toList then .ok (.bool true)
  else if s = "false".toList then .ok (.bool false)
  else .error (.malformedLiteral literal)

/-- An integer of at most 64 bits that fits two's complement of a width. One that fits 64 bits and
not the width overflows, and so does one beyond 64 bits. -/
def parseSigned (bits : Nat) (literal : String) (s : List Char) :
    Except DatapointError Scalar :=
  match readSigned 64 s with
  | .error fault => .error (wholeError literal fault)
  | .ok n =>
    if -(2 ^ (bits - 1) : Nat) ≤ n ∧ n < (2 ^ (bits - 1) : Nat) then .ok (.signed n)
    else .error (.literalOverflow literal)

/-- An integer without sign of at most 64 bits that fits a width. -/
def parseUnsigned (bits : Nat) (literal : String) (s : List Char) :
    Except DatapointError Scalar :=
  match readUnsigned 0xFFFFFFFFFFFFFFFF s with
  | .error fault => .error (wholeError literal fault)
  | .ok n => if n < 2 ^ bits then .ok (.unsigned n) else .error (.literalOverflow literal)

/-- A decimal fraction that is finite as a number of 64 bits; for the width 32 it must not be beyond
the greatest number of that width. The width 16 has no such limit here: a type with measured values
has its own. -/
def parseFloat (bits : Nat) (literal : String) (s : List Char) :
    Except DatapointError Scalar :=
  match (readDecimal s).map Decimal.toDouble with
  | none => .error (.malformedLiteral literal)
  | some v =>
    if v.isFinite = false then .error (.malformedLiteral literal)
    else if bits = 32 ∧ greatestSingle.absRat < v.absRat then .error (.literalOverflow literal)
    else .ok (.float v)

/-- What a literal reads as for a kind. Blank ends do not count, and a blank literal is refused for
every kind. `subject` names the type in an error. -/
def parse (kind : Kind) (literal subject : String) : Except DatapointError Scalar :=
  let s := trim literal.toList
  if s = [] then .error (.malformedLiteral literal)
  else
    match kind with
    | .bool => parseBool literal s
    | .signed bits => parseSigned bits literal s
    | .unsigned bits => parseUnsigned bits literal s
    | .float bits => parseFloat bits literal s
    | .text => .ok (.text (String.ofList s))
    | .composite => .error (.unsupportedKind subject)

end Scalar

end BuildingBus.Datapoint
