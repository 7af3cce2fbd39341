import BuildingBus.Datapoint.Error

/-!
# Switching and stepping

Payloads of one octet whose low bits are flags: a state, a state under priority control, and a
command to dim or to move in steps. All higher bits are reserved and zero.
-/

namespace BuildingBus.Datapoint

/-! ## States -/

/-- A state in the lowest bit. -/
def stateCodec : Codec Bool where
  encode on := .ok [.ofNat on.toNat]
  decode
    | [b] => if b.toNat < 2 then .ok (b.toNat == 1) else .error .reservedBits
    | _ => .error .wrongLength
  size _ := 1

/-! ## States under control -/

/-- A state, and whether it is imposed with priority. Without control the state means nothing, but
is kept. -/
structure ControlledState where
  /-- whether priority control is asked for -/
  control : Bool
  /-- the state -/
  value : Bool
  deriving DecidableEq, Repr

namespace ControlledState

/-- The state in the lowest bit, the control flag above it. -/
def codec : Codec ControlledState where
  encode v := .ok [.ofNat (v.control.toNat * 2 + v.value.toNat)]
  decode
    | [b] =>
      if b.toNat < 4 then .ok ⟨b.toNat / 2 == 1, b.toNat % 2 == 1⟩ else .error .reservedBits
    | _ => .error .wrongLength
  size _ := 1

/-- The state as a digit, with the control flag in words. -/
def text (v : ControlledState) : String :=
  (if v.value then "1" else "0") ++ if v.control then " (control)" else " (no control)"

end ControlledState

/-! ## Steps -/

/-- A command to step: zero stops, and each further code halves the step width. -/
structure StepCommand where
  /-- the direction: set for brighter or down -/
  control : Bool
  /-- the step code -/
  stepcode : Fin 8
  deriving DecidableEq, Repr

namespace StepCommand

/-- How many intervals a step code divides the whole range into; none for a stop. -/
def intervals (stepcode : Fin 8) : Nat :=
  if stepcode.val = 0 then 0 else 2 ^ (stepcode.val - 1)

/-- The step code in the low three bits of an octet. -/
def stepcodeOf (b : UInt8) : Fin 8 :=
  ⟨b.toNat % 8, Nat.mod_lt _ (by decide)⟩

/-- The step code in the three lowest bits, the direction above it. -/
def codec : Codec StepCommand where
  encode v := .ok [.ofNat (v.control.toNat * 8 + v.stepcode.val)]
  decode
    | [b] =>
      if b.toNat < 16 then .ok ⟨b.toNat / 8 == 1, stepcodeOf b⟩ else .error .reservedBits
    | _ => .error .wrongLength
  size _ := 1

/-- The command in words, with the two names of its direction. -/
def text (off on : String) (v : StepCommand) : String :=
  if v.stepcode.val = 0 then "break"
  else
    (if v.control then on else off) ++ " " ++ toString (intervals v.stepcode) ++ " intervals"

end StepCommand

end BuildingBus.Datapoint
