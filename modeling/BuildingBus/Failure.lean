import BuildingBus.Catalog.Basic
import BuildingBus.Configuration
import BuildingBus.Exchange.Error

/-!
# Failures

Everything that can go wrong, with the questions that a caller asks about it: was a text refused,
did the catalog reject something, does a payload have the wrong length or reserved bits, has a type
no literals, is a type not registered.
-/

namespace BuildingBus

open Address Catalog Datapoint Exchange

/-- Why an operation fails. Each part of the project has errors of its own, and here they are put
together for callers; an error inside a rejection stays there and is found by `source?`. -/
inductive Failure where
  /-- an address or style -/
  | addressing (e : AddressError)
  /-- a datapoint type, payload, value or literal -/
  | datapoint (e : DatapointError)
  /-- an entry of a catalog, or a request to it -/
  | catalog (r : Rejection)
  /-- a document -/
  | exchange (e : ExchangeError)
  /-- a configuration text -/
  | config (e : ConfigError)
  deriving DecidableEq, Repr

namespace Failure

/-- The message shown for the failure. -/
def message : Failure → String
  | addressing e => e.message
  | datapoint e => e.message
  | catalog r => r.message
  | exchange e => e.message
  | config e => e.message

/-- The failure that a cause of a rejection rests on. -/
def ofCause? : Cause → Option Failure
  | .invalidAddress why | .unknownGroup why => some (.addressing why)
  | .invalidDatapoint why | .unknownDatapoint why => some (.datapoint why)
  | _ => none

/-- The failure that this one rests on, if it rests on one. Only rejections do, and the chain has no
more than one link. -/
def source? : Failure → Option Failure
  | catalog r => ofCause? r.cause
  | _ => none

/-! ## Questions -/

/-- Whether a text is refused: that of an address, a style, an identifier or a literal. Whether the
text would be right in another catalog or for another type does not matter for this. -/
def isTextError : Failure → Bool
  | addressing _ => true
  | datapoint (.malformedIdentifier _) | datapoint (.malformedLiteral _)
  | datapoint (.literalOverflow _) => true
  | _ => false

/-- Whether a catalog has rejected something. -/
def isRejection : Failure → Bool
  | catalog _ => true
  | _ => false

/-- Whether a payload is too short or too long. -/
def isWrongLength : Failure → Bool
  | datapoint (.payload .wrongLength _) => true
  | _ => false

/-- Whether a payload has reserved bits set. -/
def hasReservedBits : Failure → Bool
  | datapoint (.payload .reservedBits _) => true
  | _ => false

/-- Whether a type has no literals. -/
def isUnsupportedKind : Failure → Bool
  | datapoint (.unsupportedKind _) => true
  | _ => false

/-- Whether a datapoint type is not registered. A rejection that rests on such a type is a rejection
and not this. -/
def isUnregistered : Failure → Bool
  | datapoint (.unknownType _) => true
  | _ => false

end Failure

end BuildingBus
