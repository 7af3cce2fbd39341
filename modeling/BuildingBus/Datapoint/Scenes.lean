import BuildingBus.Datapoint.Words

/-!
# Scenes

A scene number from 0 to 63 in the low six bits of an octet. On its own the bits above it are
reserved; in a control command the highest bit tells to store the scene and the one below it is
reserved.
-/

namespace BuildingBus.Datapoint

/-- The highest scene number. -/
def lastScene : Nat := 63

/-- A scene number on its own. -/
def sceneCodec : Codec (Word 1) where
  encode v := if v.toNat ≤ lastScene then .ok [.ofNat v.toNat] else .error .outOfRange
  decode
    | [b] => if b.toNat ≤ lastScene then .ok (.ofNat _ b.toNat) else .error .reservedBits
    | _ => .error .wrongLength
  size _ := 1

/-- A command to recall or to store a scene. One octet holds both the scene and which of the two is
meant. -/
structure SceneControl where
  /-- whether the scene is stored, not recalled -/
  learn : Bool
  /-- scene number -/
  scene : UInt8
  deriving DecidableEq, Repr

namespace SceneControl

/-- The scene number with the flag for storing in the highest bit. -/
def codec : Codec SceneControl where
  encode v :=
    if v.scene.toNat ≤ lastScene then .ok [.ofNat (v.learn.toNat * 128 + v.scene.toNat)]
    else .error .outOfRange
  decode
    | [b] =>
      if b.toNat / 64 % 2 = 1 then .error .reservedBits
      else .ok ⟨b.toNat / 128 == 1, .ofNat (b.toNat % 64)⟩
    | _ => .error .wrongLength
  size _ := 1

/-- The command in words. -/
def text (v : SceneControl) : String :=
  (if v.learn then "learn" else "activate") ++ " scene " ++ toString v.scene.toNat

end SceneControl

end BuildingBus.Datapoint
