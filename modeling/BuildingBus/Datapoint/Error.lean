import BuildingBus.Datapoint.TypeId
import BuildingBus.Octets

/-!
# Codecs and errors

A *codec* fixes how the values of a type stand in payloads. The families of datapoint types each have
one; the octets that a value has are known before it is encoded, so that a buffer can be provided.

Why a payload, a value, a literal or an identifier is refused. A *payload fault* is the cause as a
codec sees it; a *datapoint error* is the cause together with what it happened to: the type, or the
text that was read.
-/

namespace BuildingBus.Datapoint

/-! ## Codecs -/

/-- Why bytes are no payload of a layout, or a value has no payload. These four are all that a codec
may answer with; everything else is told of the type or of a literal. -/
inductive PayloadFault where
  /-- too few or too many bytes -/
  | wrongLength
  /-- a bit that has to be zero is set -/
  | reservedBits
  /-- a value beyond the limits of the layout -/
  | outOfRange
  /-- bytes that are no text, or a text that cannot be written -/
  | invalidData
  deriving DecidableEq, Repr

/-- How the values of a type are laid out as payloads. Both directions may fail, and neither knows
the type by its identifier, so that one codec serves all types of a family. -/
structure Codec (α : Type) where
  /-- the payload of a value -/
  encode : α → Except PayloadFault Octets
  /-- the value of a payload -/
  decode : Octets → Except PayloadFault α
  /-- octets that a buffer for a value has -/
  size : α → Nat

/-! ## Errors -/

/-- Why a datapoint operation fails. An error has the type or the text in question, so that it can
be understood without the call that it came from. -/
inductive DatapointError where
  /-- a payload or value that the type refuses -/
  | payload (fault : PayloadFault) (type : TypeId)
  /-- a buffer that does not hold the payload of the type -/
  | bufferTooSmall (type : TypeId)
  /-- a type that is not registered -/
  | unknownType (type : TypeId)
  /-- a text that writes no identifier -/
  | malformedIdentifier (text : String)
  /-- a literal, or the kind of one, that does not suit the type -/
  | malformedLiteral (text : String)
  /-- a literal beyond the limits of its kind -/
  | literalOverflow (text : String)
  /-- a type that has no literals -/
  | unsupportedKind (subject : String)
  deriving DecidableEq, Repr

namespace DatapointError

/-- The name of the cause. -/
def label : DatapointError → String
  | payload .wrongLength _ => "InvalidLength"
  | payload .reservedBits _ => "ReservedBits"
  | payload .outOfRange _ => "ValueOutOfRange"
  | payload .invalidData _ => "InvalidData"
  | bufferTooSmall _ => "BufferTooSmall"
  | unknownType _ => "UnknownType"
  | malformedIdentifier _ => "InvalidIdentifier"
  | malformedLiteral _ => "InvalidLiteral"
  | literalOverflow _ => "LiteralOverflow"
  | unsupportedKind _ => "UnsupportedKind"

/-- What the error happened to. -/
def detail : DatapointError → String
  | payload _ type | bufferTooSmall type | unknownType type => type.text
  | malformedIdentifier text | malformedLiteral text | literalOverflow text => text
  | unsupportedKind subject => subject

/-- Whether a payload or value is refused for this fault. -/
def isFault (fault : PayloadFault) : DatapointError → Bool
  | payload f _ => f = fault
  | _ => false

/-- The message shown for the error. -/
def message (e : DatapointError) : String :=
  if e.detail = "" then "DPT error: " ++ e.label
  else "DPT error: " ++ e.label ++ " (" ++ e.detail ++ ")"

end DatapointError

/-- The identifier that a text writes. -/
def TypeId.parse (text : String) : Except DatapointError TypeId :=
  match TypeId.read text.toList with
  | some id => .ok id
  | none => .error (.malformedIdentifier text)

end BuildingBus.Datapoint
