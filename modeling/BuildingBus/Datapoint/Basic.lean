import BuildingBus.Datapoint.Registry

/-!
# Datapoints

A datapoint is a registered type together with a value of it. It is packed into a payload, takes
over the value of a payload or of a literal, and is shown with its unit. A payload or literal that
is refused leaves the datapoint as it was. A literal may also be taken over and then have no
payload; the new value stays in that case.
-/

namespace BuildingBus.Datapoint

namespace DatapointType

/-- The values of a type. -/
abbrev Value (t : DatapointType) : Type := t.layout.Value

/-- The payload of a value. What the codec refuses is told with the identifier of the type, which
the codec does not know. -/
def encode (t : DatapointType) (v : t.Value) : Except DatapointError Octets :=
  (t.layout.codec.encode v).mapError (.payload · t.id)

/-- The value of a payload. -/
def decode (t : DatapointType) (bs : Octets) : Except DatapointError t.Value :=
  (t.layout.codec.decode bs).mapError (.payload · t.id)

/-- Octets that a buffer for a value has. It is known without encoding, and is the length of the
payload where there is one. -/
def size (t : DatapointType) (v : t.Value) : Nat := t.layout.codec.size v

/-- Writes the payload of a value to the front of a buffer: the buffer as it is afterwards, and how
many octets were written. Nothing is written unless all of the payload has room. -/
def encodeInto (t : DatapointType) (v : t.Value) (buffer : Octets) :
    Octets × Except DatapointError Nat :=
  match t.encode v with
  | .error e => (buffer, .error e)
  | .ok bs =>
    if bs.length ≤ buffer.length then (bs ++ buffer.drop bs.length, .ok bs.length)
    else (buffer, .error (.bufferTooSmall t.id))

/-- How literals of the type are read. -/
def kind (t : DatapointType) : Kind := t.layout.kind

end DatapointType

end BuildingBus.Datapoint

namespace BuildingBus

open Datapoint

/-- A type and a value of it. The value has the type that the layout asks for, so that no value of
another layout can be stored. -/
structure Datapoint where
  /-- the type -/
  type : DatapointType
  /-- the value -/
  value : type.Value

namespace Datapoint

/-- A new datapoint of a type. -/
protected def new (t : DatapointType) : Datapoint := ⟨t, t.layout.initial⟩

/-- The identifier of the type. -/
protected def id (d : Datapoint) : TypeId := d.type.id

/-- The value with its unit. -/
protected def text (d : Datapoint) : String := d.type.layout.text d.value

/-- Whether two datapoints have one type and equal values, as the layout compares them. -/
def same (a b : Datapoint) : Bool :=
  if h : a.type = b.type then a.type.layout.same a.value (h ▸ b.value) else false

/-- The payload of the value: what is written to a buffer of zeros that has the size of the value.
So packing depends on `encodeInto` and on `size` being right together. -/
def pack (d : Datapoint) : Except DatapointError Octets :=
  let (buffer, written) := d.type.encodeInto d.value (List.replicate (d.type.size d.value) 0)
  written.map buffer.take

/-- The datapoint with the value of a payload. An error has no datapoint in it, and leaves the
caller with the old one. -/
def unpack (d : Datapoint) (bs : Octets) : Except DatapointError Datapoint :=
  (d.type.decode bs).map fun v => { d with value := v }

/-- The datapoint with the value that a scalar stands for. -/
def assign (d : Datapoint) (p : Scalar) : Except DatapointError Datapoint :=
  (d.type.layout.ofScalar d.id p).map fun v => { d with value := v }

/-- The datapoint that takes over a literal. -/
protected def read (d : Datapoint) (literal : String) : Except DatapointError Datapoint := do
  d.assign (← Scalar.parse d.type.kind literal d.id.text)

/-- Takes over a literal and packs it: the datapoint as it is afterwards, and the payload. The value
is taken over before it is packed, so one that cannot be packed stays. -/
def packLiteral (d : Datapoint) (literal : String) :
    Datapoint × Except DatapointError Octets :=
  match d.read literal with
  | .error e => (d, .error e)
  | .ok d => (d, d.pack)

end Datapoint

end BuildingBus

namespace BuildingBus.Datapoint

/-! ## New datapoints -/

/-- A new datapoint of the type with an identifier, if it is registered. That it is not is reported,
since callers may go on with another type. -/
def create (id : TypeId) : Logged (Option Datapoint) :=
  match Registry.find? id with
  | some t => pure (some (.new t))
  | none => do
    .report (.notRegistered id)
    pure none

/-- A new datapoint of the type whose identifier a text writes. -/
def createText (identifier : String) : Logged (Except DatapointError Datapoint) :=
  match TypeId.parse identifier with
  | .error e => pure (.error e)
  | .ok id => do
    match ← create id with
    | some d => pure (.ok d)
    | none => pure (.error (.unknownType id))

/-- The type that an identifier writes and the payload of a literal of it. -/
def literalPayload (identifier literal : String) :
    Logged (Except DatapointError (TypeId × Octets)) :=
  match TypeId.parse identifier with
  | .error e => pure (.error e)
  | .ok id => do
    match ← create id with
    | some d => pure ((d.packLiteral literal).2.map fun bs => (id, bs))
    | none => do
      .report (.literalNotRegistered id)
      pure (.error (.unknownType id))

end BuildingBus.Datapoint
