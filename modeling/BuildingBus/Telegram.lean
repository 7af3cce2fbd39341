import BuildingBus.Catalog.Plan
import BuildingBus.Datapoint.Basic
import BuildingBus.Failure

/-!
# Telegrams

A group telegram tells a group to show, take over or announce a value: it has a command, the device
that sent it, the group it goes to, and the payload. A catalog gives telegrams their meaning: it
resolves targets by name or by address, decodes payloads with the datapoint types of the group, the
primary one first, and encodes literals to be sent.
-/

namespace BuildingBus

open Address Catalog Datapoint Number Text

/-! ## Commands -/

/-- What a telegram asks for. A read telegram has no payload; the other two have the same, and
differ in what the receiver is expected to do. -/
inductive Command where
  /-- to tell the value -/
  | read
  /-- to take over the value -/
  | write
  /-- nothing: it tells the value -/
  | response
  deriving DecidableEq, Repr

namespace Command

/-- The bits of a command in the first octet of a telegram's data. -/
def bits : Command → UInt8
  | read => 0x00
  | response => 0x40
  | write => 0x80

/-- The command in the two highest bits of an octet, if they are those of a command. The other bits
may hold a short payload. -/
def ofOctet? (b : UInt8) : Option Command :=
  match b.toNat / 64 with
  | 0 => some read
  | 1 => some response
  | 2 => some write
  | _ => none

/-- The name of a command. -/
def name : Command → String
  | read => "read"
  | write => "write"
  | response => "response"

/-- The command that a text names, in any letter case and apart from blank ends. -/
def parse (text : String) : Except DatapointError Command :=
  let key := String.ofList (asciiLower (trim text.toList))
  match [read, write, response].find? fun c => c.name == key with
  | some c => .ok c
  | none => .error (.malformedLiteral text)

@[simp] theorem ofOctet?_bits (c : Command) : ofOctet? c.bits = some c := by
  cases c <;> rfl

end Command

/-- A telegram to a group, with its payload as octets. What they mean is not in the telegram but in
the catalog. -/
structure Telegram where
  /-- what it asks for -/
  command : Command
  /-- the device that sent it -/
  source : IndividualAddress
  /-- the group it goes to -/
  destination : GroupAddress
  /-- the payload -/
  data : Octets
  deriving DecidableEq, Repr

/-- Octets in hexadecimal digits with spaces between them. -/
def hexText (data : Octets) : String :=
  String.ofList (join [' '] (data.map hexOctet))

/-! ## Telegrams and the catalog -/

namespace Catalog

/-- The address of a target, and the group it belongs to if it is listed. A name is looked up before
the target is read as an address, so that a group whose name is the address of another one is found
by it. An address that is not listed is an answer, too. -/
def resolve (c : Catalog) (target : String) : Except Rejection (GroupAddress × Option Group) :=
  match c.lookup target with
  | some g => .ok (g.address, some g)
  | none =>
    match GroupAddress.parse (trimmed target) with
    | .ok address => .ok (address, c.lookupAddress address)
    | .error why => .error ⟨.unknownGroup why, trimmed target, ""⟩

/-- The value of a payload by the first of some types that accepts it. A type that refuses the
payload is no error: types of different lengths may be declared for one group, and the payload tells
them apart. -/
def firstAccepted (data : Octets) : List TypeId → Logged (Option Datapoint)
  | [] => pure none
  | id :: ids => do
    match ← create id with
    | none => firstAccepted data ids
    | some d =>
      match d.unpack data with
      | .ok d => pure (some d)
      | .error _ => firstAccepted data ids

/-- The group that a telegram goes to, with the value of its payload. A telegram that asks for the
value has none. -/
def decode (c : Catalog) (t : Telegram) : Logged (Option (Group × Datapoint)) :=
  if t.command = .read then pure none
  else
    match c.lookupAddress t.destination with
    | none => pure none
    | some g => do
      match ← firstAccepted t.data g.types with
      | some d => pure (some (g, d))
      | none => do
        .report (.notDecoded g.name t.data.length)
        pure none

/-- The type that a literal for a target is encoded with: the given one, or the primary type of the
group. A given type need not be among those of the group. -/
def literalType (target : String) (group : Option Group) : Option String → Except Failure TypeId
  | some identifier =>
    match TypeId.parse identifier with
    | .ok id => .ok id
    | .error e => .error (.datapoint e)
  | none =>
    match group with
    | none => .error (.catalog ⟨.untyped, trimmed target, ""⟩)
    | some g =>
      match g.primary with
      | some id => .ok id
      | none => .error (.catalog ⟨.untyped, g.name, pathText g.path⟩)

/-- The address of a target and the payload of a literal for it. The target is resolved first, then
the type is chosen, and only then is the literal looked at, so that the first of these to fail is
the error. -/
def payloadFor (c : Catalog) (target literal : String) (type : Option String) :
    Logged (Except Failure (GroupAddress × Octets)) :=
  match c.resolve target with
  | .error r => pure (.error (.catalog r))
  | .ok (address, group) =>
    match literalType target group type with
    | .error e => pure (.error e)
    | .ok id => do
      match ← create id with
      | none => pure (.error (.datapoint (.unknownType id)))
      | some d =>
        match (d.packLiteral literal).2 with
        | .ok data => pure (.ok (address, data))
        | .error e => pure (.error (.datapoint e))

/-- Command, addresses and group of a telegram. -/
def headline (c : Catalog) (t : Telegram) : String :=
  t.command.name ++ " " ++ c.formatIndividual t.source ++ " -> " ++ c.formatGroup t.destination
    ++ (c.lookupAddress t.destination).elim "" fun g => " (" ++ g.name ++ ")"

/-- A telegram on one line, with its value or, if it has none, its octets. -/
def describe (c : Catalog) (t : Telegram) : Logged String :=
  if t.command = .read then pure (c.headline t)
  else do
    match ← c.decode t with
    | some (_, d) => pure (c.headline t ++ " " ++ d.text)
    | none => pure (c.headline t ++ " " ++ hexText t.data)

end Catalog

end BuildingBus
