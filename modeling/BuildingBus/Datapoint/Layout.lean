import BuildingBus.Datapoint.Calendar
import BuildingBus.Datapoint.Colours
import BuildingBus.Datapoint.Scalar
import BuildingBus.Datapoint.Scenes
import BuildingBus.Datapoint.ShortFloat
import BuildingBus.Datapoint.Strings
import BuildingBus.Datapoint.Switching
import BuildingBus.Datapoint.Words

/-!
# Layouts

The layout of a datapoint type says what values it has, how they stand in a payload, how they are
shown, and which literals they are read from. Each of these is one function by cases on the layout;
the values of a layout are a type of their own, so a value of one layout is never taken for one of
another.
-/

namespace BuildingBus.Datapoint

open BuildingBus.Number

/-- How the payload of a datapoint type is read and shown. Types with one layout, like all measured
values, differ in their parameters alone, and each statement about them is made once. -/
inductive Layout where
  /-- a state, with the words for off and on -/
  | state (off on : String)
  /-- a state under priority control -/
  | controlled
  /-- a step command, with the words for its two directions -/
  | step (off on : String)
  /-- a level spread over one octet -/
  | scaled (greatest : Nat) (unit : String)
  /-- a level in one octet as it is -/
  | level (greatest : Nat) (unit : String)
  /-- an integer -/
  | signed (octets : Nat) (unit : String)
  /-- an integer that counts hundredths -/
  | hundredths (octets : Nat) (unit : String)
  /-- an integer without sign -/
  | unsigned (octets : Nat) (unit : String)
  /-- a measured value in two octets -/
  | shortFloat (unit : String)
  /-- a number of 32 bits -/
  | single (unit : String)
  /-- a time of day -/
  | time
  /-- a date -/
  | date
  /-- at most fourteen characters with code points up to `greatest` -/
  | characters (greatest : Nat)
  /-- a string in UTF-8 -/
  | utf8
  /-- a scene number -/
  | scene
  /-- a scene command -/
  | sceneControl
  /-- a colour of three channels -/
  | rgb
  /-- a colour by coordinates -/
  | xyY
  /-- a colour of four channels -/
  | rgbw
  deriving DecidableEq, Repr

namespace Layout

/-! ## Values -/

/-- The values of a layout. A level has two octets although its payload has one, since a value that
the layout cannot write may still be assigned. -/
abbrev Value : Layout → Type
  | state _ _ => Bool
  | controlled => ControlledState
  | step _ _ => StepCommand
  | scaled _ _ | level _ _ => Word 2
  | signed octets _ | hundredths octets _ | unsigned octets _ => Word octets
  | shortFloat _ | single _ => Single
  | time => TimeOfDay
  | date => Date
  | characters _ | utf8 => String
  | scene => Word 1
  | sceneControl => SceneControl
  | rgb => Rgb
  | xyY => XyY
  | rgbw => Rgbw

/-- The value that a new datapoint has. It can be packed, whatever the layout. -/
def initial : (l : Layout) → l.Value
  | state _ _ => false
  | controlled => ⟨false, false⟩
  | step _ _ => ⟨false, ⟨0, by decide⟩⟩
  | scaled _ _ | level _ _ => 0
  | signed _ _ | hundredths _ _ | unsigned _ _ => 0
  | shortFloat _ | single _ => Binary.zero _
  | time => .start
  | date => .first
  | characters _ | utf8 => ""
  | scene => ⟨0, by decide⟩
  | sceneControl => ⟨false, ⟨0, by decide⟩⟩
  | rgb => ⟨0, 0, 0⟩
  | xyY => ⟨0, 0, 0, false, false⟩
  | rgbw => ⟨0, 0, 0, 0, false, false, false, false⟩

/-- Whether two values are equal; numbers are compared as numbers, not by their bits: the two zeros
are equal, and what is no number is not even equal to itself. -/
def same : (l : Layout) → l.Value → l.Value → Bool
  | state _ _, a, b => a == b
  | controlled, a, b => decide (a = b)
  | step _ _, a, b => decide (a = b)
  | scaled _ _, a, b | level _ _, a, b => a == b
  | signed _ _, a, b | hundredths _ _, a, b | unsigned _ _, a, b => a == b
  | shortFloat _, a, b | single _, a, b => a.sameNumber b
  | time, a, b => decide (a = b)
  | date, a, b => decide (a = b)
  | characters _, a, b | utf8, a, b => a == b
  | scene, a, b => a == b
  | sceneControl, a, b => decide (a = b)
  | rgb, a, b => decide (a = b)
  | xyY, a, b => decide (a = b)
  | rgbw, a, b => decide (a = b)

/-! ## Payloads -/

/-- How the values of a layout stand in a payload. -/
def codec : (l : Layout) → Codec l.Value
  | state _ _ => stateCodec
  | controlled => ControlledState.codec
  | step _ _ => StepCommand.codec
  | scaled greatest _ => scaledCodec greatest
  | level greatest _ => levelCodec greatest
  | signed octets _ | hundredths octets _ | unsigned octets _ => wordCodec octets
  | shortFloat _ => ShortFloat.codec
  | single _ => singleCodec
  | time => TimeOfDay.codec
  | date => Date.codec
  | characters greatest => characterCodec greatest
  | utf8 => utf8Codec
  | scene => sceneCodec
  | sceneControl => SceneControl.codec
  | rgb => Rgb.codec
  | xyY => XyY.codec
  | rgbw => Rgbw.codec

/-! ## Texts -/

/-- A shown number with its unit, if it has one. -/
def withUnit (unit : String) (number : List Char) : String :=
  String.ofList number ++ if unit = "" then "" else " " ++ unit

/-- A value as it is shown. -/
def text : (l : Layout) → l.Value → String
  | state off on, v => if v then on else off
  | controlled, v => v.text
  | step off on, v => v.text off on
  | scaled _ unit, v | level _ unit, v => withUnit unit (decimal v.toNat)
  | signed _ unit, v => withUnit unit (decimal v.toInt)
  | hundredths _ unit, v => withUnit unit (Datapoint.hundredths v.toInt)
  | unsigned _ unit, v => withUnit unit (decimal v.toNat)
  | shortFloat unit, v => withUnit unit (v.fixedText 2)
  | single unit, v => withUnit unit v.shortestText
  | time, v => v.text
  | date, v => v.text
  | characters _, v | utf8, v => v
  | scene, v => String.ofList (decimal v.toNat)
  | sceneControl, v => v.text
  | rgb, v => v.text
  | xyY, v => v.text
  | rgbw, v => v.text

/-! ## Literals -/

/-- How literals are read. A scaled level takes numbers in its unit, which may be beyond an
octet. -/
def kind : Layout → Kind
  | state _ _ => .bool
  | scaled _ _ => .unsigned 16
  | level _ _ | scene => .unsigned 8
  | signed octets _ | hundredths octets _ => .signed (8 * octets)
  | unsigned octets _ => .unsigned (8 * octets)
  | shortFloat _ => .float 16
  | single _ => .float 32
  | characters _ | utf8 => .text
  | controlled | step _ _ | time | date | sceneControl | rgb | xyY | rgbw => .composite

/-- An integer without sign that fits a count of octets. Literals are held to their width when they
are read; a scalar that was made otherwise is held to it here. -/
def narrowUnsigned (octets : Nat) (id : TypeId) : Scalar → Except DatapointError (Word octets)
  | .unsigned n =>
    if n < 2 ^ (8 * octets) then .ok (.ofNat _ n) else .error (.literalOverflow id.text)
  | _ => .error (.malformedLiteral id.text)

/-- An integer that fits two's complement of a count of octets. -/
def narrowSigned (octets : Nat) (id : TypeId) : Scalar → Except DatapointError (Word octets)
  | .signed n =>
    if -(2 ^ (8 * octets - 1) : Nat) ≤ n ∧ n < (2 ^ (8 * octets - 1) : Nat) then .ok (.ofInt _ n)
    else .error (.literalOverflow id.text)
  | _ => .error (.malformedLiteral id.text)

/-- A number between the limits of a measured value, rounded to 32 bits. The limits are asked of the
number of 64 bits, before it is rounded. -/
def measured (id : TypeId) : Scalar → Except DatapointError Single
  | .float v =>
    if v.isFinite ∧ ShortFloat.leastLiteral.toRat ≤ v.toRat
        ∧ v.toRat ≤ ShortFloat.greatestLiteral.toRat then .ok (v.convert _)
    else .error (.payload .outOfRange id)
  | _ => .error (.malformedLiteral id.text)

/-- A number that is finite with 32 bits. The literal was rounded to 64 bits already, so that two
roundings stand between it and the value. -/
def finiteSingle (id : TypeId) : Scalar → Except DatapointError Single
  | .float v =>
    if v.isFinite ∧ (v.convert .single).isFinite then .ok (v.convert _)
    else .error (.payload .outOfRange id)
  | _ => .error (.malformedLiteral id.text)

/-- The value that a scalar stands for in a layout. `id` names the type in an error. A scalar of
another kind than that of the layout is refused, and a structured layout refuses all of them. -/
def ofScalar (id : TypeId) : (l : Layout) → Scalar → Except DatapointError l.Value
  | state _ _, p =>
    match p with
    | .bool b => .ok b
    | _ => .error (.malformedLiteral id.text)
  | scaled _ _, p | level _ _, p => narrowUnsigned 2 id p
  | scene, p => narrowUnsigned 1 id p
  | unsigned octets _, p => narrowUnsigned octets id p
  | signed octets _, p | hundredths octets _, p => narrowSigned octets id p
  | shortFloat _, p => measured id p
  | single _, p => finiteSingle id p
  | characters _, p | utf8, p =>
    match p with
    | .text s => .ok s
    | _ => .error (.malformedLiteral id.text)
  | controlled, _ | step _ _, _ | time, _ | date, _ | sceneControl, _ | rgb, _ | xyY, _
  | rgbw, _ => .error (.unsupportedKind id.text)

end Layout

end BuildingBus.Datapoint
