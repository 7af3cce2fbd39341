import BuildingBus.Datapoint.Error
import BuildingBus.Number.Shortest
import BuildingBus.Text.Fields

/-!
# Colours

Three ways to tell a colour: by three channels; by the coordinates x and y and a brightness; and by
four channels. The last two have flags in their last octet that say which parts carry a value; the
bits above the flags are reserved, and so is the octet before them in the last one.
-/

namespace BuildingBus.Datapoint

open BuildingBus.Number BuildingBus.Text

/-! ## Three channels -/

/-- A colour by its red, green and blue part. -/
structure Rgb where
  /-- red -/
  red : UInt8
  /-- green -/
  green : UInt8
  /-- blue -/
  blue : UInt8
  deriving DecidableEq, Repr

namespace Rgb

/-- One octet for each channel. -/
def codec : Codec Rgb where
  encode v := .ok [v.red, v.green, v.blue]
  decode
    | [red, green, blue] => .ok ⟨red, green, blue⟩
    | _ => .error .wrongLength
  size _ := 3

/-- The channels in hexadecimal digits. -/
def text (v : Rgb) : String :=
  String.ofList (['#'] ++ hexOctet v.red ++ hexOctet v.green ++ hexOctet v.blue)

end Rgb

/-! ## Coordinates and brightness -/

/-- A colour by its coordinates in the plane of colours, and its brightness. Either part may be left
out, as a flag says; its octets are kept all the same. -/
structure XyY where
  /-- first coordinate, in steps of one 65535th -/
  x : UInt16
  /-- second coordinate, in steps of one 65535th -/
  y : UInt16
  /-- brightness, in steps of one 255th -/
  brightness : UInt8
  /-- whether the coordinates carry a value -/
  colorValid : Bool
  /-- whether the brightness carries a value -/
  brightnessValid : Bool
  deriving DecidableEq, Repr

namespace XyY

/-- Two octets for each coordinate, one for the brightness, and one for the flags. -/
def codec : Codec XyY where
  encode v := .ok (bigEndian 2 v.x.toNat ++ bigEndian 2 v.y.toNat
    ++ [v.brightness, .ofNat (v.colorValid.toNat * 2 + v.brightnessValid.toNat)])
  decode
    | [xHigh, xLow, yHigh, yLow, brightness, flags] =>
      if flags.toNat < 4 then
        .ok
          { x := .ofNat (ofBigEndian [xHigh, xLow])
            y := .ofNat (ofBigEndian [yHigh, yLow])
            brightness
            colorValid := flags.toNat / 2 == 1
            brightnessValid := flags.toNat % 2 == 1 }
      else .error .reservedBits
    | _ => .error .wrongLength
  size _ := 6

/-- A coordinate as a part of one. -/
def coordinate (steps : UInt16) : Single := .ofRat _ (steps.toNat / 65535)

/-- The brightness in percent. -/
def percent (v : XyY) : Single := .ofRat _ (v.brightness.toNat * 100 / 255)

/-- The parts that carry a value, or a word if none does. -/
def text (v : XyY) : String :=
  let colour := String.ofList ("x: ".toList ++ (coordinate v.x).fixedText 4 ++ " y: ".toList
    ++ (coordinate v.y).fixedText 4)
  let brightness := String.ofList ("Y: ".toList ++ v.percent.fixedText 1 ++ " %".toList)
  match v.colorValid, v.brightnessValid with
  | true, true => colour ++ " " ++ brightness
  | true, false => colour
  | false, true => brightness
  | false, false => "invalid"

end XyY

/-! ## Four channels -/

/-- A colour by its red, green, blue and white part. A flag for each channel says whether its octet
counts. -/
structure Rgbw where
  /-- red -/
  red : UInt8
  /-- green -/
  green : UInt8
  /-- blue -/
  blue : UInt8
  /-- white -/
  white : UInt8
  /-- whether red carries a value -/
  redValid : Bool
  /-- whether green carries a value -/
  greenValid : Bool
  /-- whether blue carries a value -/
  blueValid : Bool
  /-- whether white carries a value -/
  whiteValid : Bool
  deriving DecidableEq, Repr

namespace Rgbw

/-- The four flags as a number. -/
def flags (v : Rgbw) : Nat :=
  v.redValid.toNat * 8 + v.greenValid.toNat * 4 + v.blueValid.toNat * 2 + v.whiteValid.toNat

/-- One octet for each channel, a reserved one, and one for the flags. -/
def codec : Codec Rgbw where
  encode v := .ok [v.red, v.green, v.blue, v.white, 0, .ofNat v.flags]
  decode
    | [red, green, blue, white, spare, flags] =>
      if spare = 0 ∧ flags.toNat < 16 then
        .ok
          { red, green, blue, white
            redValid := flags.toNat / 8 == 1
            greenValid := flags.toNat / 4 % 2 == 1
            blueValid := flags.toNat / 2 % 2 == 1
            whiteValid := flags.toNat % 2 == 1 }
      else .error .reservedBits
    | _ => .error .wrongLength
  size _ := 6

/-- The channels that carry a value, or a word if none does. -/
def text (v : Rgbw) : String :=
  let channels := [("R", v.red, v.redValid), ("G", v.green, v.greenValid),
    ("B", v.blue, v.blueValid), ("W", v.white, v.whiteValid)]
  let shown := channels.filterMap fun (name, level, valid) =>
    if valid then some (name ++ ": " ++ toString level.toNat) else none
  if shown = [] then "invalid" else joined " " shown

end Rgbw

end BuildingBus.Datapoint
