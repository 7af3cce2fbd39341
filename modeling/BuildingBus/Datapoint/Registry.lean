import BuildingBus.Datapoint.Layout
import BuildingBus.Journal

/-!
# The registry

The registered datapoint types: a table that gives each identifier its layout. Everything else about
a type follows from the layout, so that a type is described in one place.

The table is written family by family, each with its main number; main numbers and the subtype
numbers within a family are in ascending order, so that the list of all types is sorted.
-/

namespace BuildingBus.Datapoint

/-- A registered datapoint type: its identifier, and the layout of its payloads. Nothing else tells
two types apart. -/
structure DatapointType where
  /-- what identifies it -/
  id : TypeId
  /-- what its payloads mean -/
  layout : Layout
  deriving DecidableEq, Repr

namespace Registry

/-! ## The table -/

/-- The types with one main number, from their subtype numbers. Within a family the layouts are of
one sort. -/
def family (main : UInt16) (members : List (UInt16 × Layout)) : List DatapointType :=
  members.map fun (sub, layout) => ⟨⟨main, sub⟩, layout⟩

/-- States in one bit. -/
def states : List DatapointType := family 1
  [(1, .state "off" "on"), (2, .state "false" "true"), (3, .state "disable" "enable"),
    (4, .state "no ramp" "ramp"), (5, .state "no alarm" "alarm"), (6, .state "low" "high"),
    (7, .state "decrease" "increase"), (8, .state "up" "down"), (9, .state "open" "close"),
    (10, .state "stop" "start"), (11, .state "inactive" "active"),
    (12, .state "not inverted" "inverted"), (15, .state "no action" "reset"),
    (16, .state "no action" "acknowledge"), (17, .state "trigger" "trigger"),
    (18, .state "not occupied" "occupied"), (19, .state "closed" "open"),
    (24, .state "day" "night"), (100, .state "cooling" "heating")]

/-- States under priority control. -/
def controlledStates : List DatapointType := family 2
  [(1, .controlled), (2, .controlled), (3, .controlled), (4, .controlled), (5, .controlled),
    (6, .controlled), (7, .controlled), (8, .controlled), (9, .controlled), (10, .controlled),
    (11, .controlled), (12, .controlled)]

/-- Dimming and blinds. -/
def steps : List DatapointType := family 3
  [(7, .step "decrease" "increase"), (8, .step "up" "down")]

/-- Levels in one octet. -/
def levels : List DatapointType := family 5
  [(1, .scaled 100 "%"), (3, .scaled 360 "°"), (4, .level 255 ""), (5, .level 255 ""),
    (6, .level 254 ""), (10, .level 255 "pulses")]

/-- Integers in one octet. -/
def signedOctets : List DatapointType := family 6
  [(1, .signed 1 "%"), (10, .signed 1 "pulses")]

/-- Integers without sign in two octets. -/
def unsignedPairs : List DatapointType := family 7
  [(1, .unsigned 2 "pulses"), (2, .unsigned 2 "ms"), (3, .unsigned 2 "ms"),
    (4, .unsigned 2 "ms"), (5, .unsigned 2 "s"), (6, .unsigned 2 "min"), (7, .unsigned 2 "h"),
    (10, .unsigned 2 ""), (11, .unsigned 2 "mm"), (12, .unsigned 2 "mA"),
    (13, .unsigned 2 "lux"), (600, .unsigned 2 "K")]

/-- Integers in two octets. -/
def signedPairs : List DatapointType := family 8
  [(1, .signed 2 "pulses"), (2, .signed 2 "ms"), (5, .signed 2 "s"), (6, .signed 2 "min"),
    (7, .signed 2 "h"), (10, .hundredths 2 "%"), (11, .signed 2 "°"), (12, .signed 2 "m")]

/-- Measured values in two octets. -/
def shortFloats : List DatapointType := family 9
  [(1, .shortFloat "°C"), (2, .shortFloat "K"), (3, .shortFloat "K/h"), (4, .shortFloat "lux"),
    (5, .shortFloat "m/s"), (6, .shortFloat "Pa"), (7, .shortFloat "%"), (8, .shortFloat "ppm"),
    (10, .shortFloat "s"), (11, .shortFloat "ms"), (20, .shortFloat "mV"),
    (21, .shortFloat "mA"), (22, .shortFloat "W/m²"), (23, .shortFloat "K/%"),
    (24, .shortFloat "kW")]

/-- Times of day. -/
def times : List DatapointType := family 10 [(1, .time)]

/-- Dates. -/
def dates : List DatapointType := family 11 [(1, .date)]

/-- Integers without sign in four octets. -/
def unsignedQuads : List DatapointType := family 12
  [(1, .unsigned 4 "pulses"), (100, .unsigned 4 "s"), (101, .unsigned 4 "min"),
    (102, .unsigned 4 "h")]

/-- Integers in four octets. -/
def signedQuads : List DatapointType := family 13
  [(1, .signed 4 "pulses"), (2, .signed 4 "l/h"), (10, .signed 4 "Wh"), (11, .signed 4 "VAh"),
    (12, .signed 4 "VArh"), (13, .signed 4 "kWh"), (14, .signed 4 "kVAh"),
    (15, .signed 4 "kVArh"), (100, .signed 4 "s")]

/-- Numbers of 32 bits. -/
def singles : List DatapointType := family 14
  [(7, .single "°"), (19, .single "A"), (27, .single "V"), (31, .single "J"), (33, .single "Hz"),
    (56, .single "W"), (57, .single ""), (68, .single "°C"), (76, .single "m³"),
    (77, .single "m³/s")]

/-- Strings of fourteen characters. -/
def shortStrings : List DatapointType := family 16
  [(0, .characters 0x7F), (1, .characters 0xFF)]

/-- Scene numbers. -/
def scenes : List DatapointType := family 17 [(1, .scene)]

/-- Scene commands. -/
def sceneControls : List DatapointType := family 18 [(1, .sceneControl)]

/-- Strings of any length. -/
def longStrings : List DatapointType := family 28 [(1, .utf8)]

/-- Integers in eight octets. -/
def signedOctads : List DatapointType := family 29
  [(10, .signed 8 "Wh"), (11, .signed 8 "VAh"), (12, .signed 8 "VArh")]

/-- Colours. -/
def colours : List DatapointType :=
  family 232 [(600, .rgb)] ++ family 242 [(600, .xyY)] ++ family 251 [(600, .rgbw)]

/-- Every registered type, by ascending main number, then subtype number. Searching, asking and
listing all go by this one list. -/
def all : List DatapointType :=
  states ++ controlledStates ++ steps ++ levels ++ signedOctets ++ unsignedPairs ++ signedPairs
    ++ shortFloats ++ times ++ dates ++ unsignedQuads ++ signedQuads ++ singles ++ shortStrings
    ++ scenes ++ sceneControls ++ longStrings ++ signedOctads ++ colours

/-! ## Looking up -/

/-- The registered type with an identifier. No identifier is registered twice, so that the first
type with it is the only one. -/
def find? (id : TypeId) : Option DatapointType :=
  all.find? fun type => type.id == id

/-- Whether an identifier is registered. -/
def contains (id : TypeId) : Bool :=
  all.any fun type => type.id == id

/-- The identifiers of all registered types. -/
def ids : List TypeId := all.map (·.id)

theorem contains_eq_isSome_find? (id : TypeId) : contains id = (find? id).isSome := by
  simp only [contains, find?, List.isSome_find?]

theorem mem_ids_iff (id : TypeId) : id ∈ ids ↔ contains id = true := by
  simp [ids, contains, List.any_eq_true]

theorem id_of_find? {id : TypeId} {type : DatapointType} (h : find? id = some type) :
    type.id = id := by
  simpa using List.find?_some h

end Registry

end BuildingBus.Datapoint
