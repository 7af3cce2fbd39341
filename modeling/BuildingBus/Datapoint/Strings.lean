import BuildingBus.Datapoint.Error
import BuildingBus.Text.Utf8

/-!
# Strings

A string of at most fourteen characters with one octet for each, filled up with zeros, and a string
of any length in UTF-8 that ends in a zero. Neither can hold the character with code point zero.
-/

namespace BuildingBus.Datapoint

open BuildingBus.Text

/-! ## Fourteen characters -/

/-- Octets of a short string. -/
def shortLength : Nat := 14

/-- The octets of a text whose characters have code points from 1 to `greatest`. -/
def characterOctets (greatest : Nat) : List Char → Except PayloadFault Octets
  | [] => .ok []
  | c :: s =>
    if 0 < c.toNat ∧ c.toNat ≤ greatest then
      (characterOctets greatest s).map (UInt8.ofNat c.toNat :: ·)
    else .error .outOfRange

/-- The text before the first zero, if no octet of it is beyond `greatest`. What stands after the
zero is not looked at. -/
def characterText (greatest : Nat) : Octets → Except PayloadFault (List Char)
  | [] => .ok []
  | b :: bs =>
    if b = 0 then .ok []
    else if b.toNat ≤ greatest then
      (characterText greatest bs).map (Char.ofNat b.toNat :: ·)
    else .error .invalidData

/-- At most fourteen characters with code points up to `greatest`, one octet for each, and zeros up
to the fixed length. -/
def characterCodec (greatest : Nat) : Codec String where
  encode s :=
    if s.toList.length ≤ shortLength then
      (characterOctets greatest s.toList).map fun bs =>
        bs ++ List.replicate (shortLength - bs.length) 0
    else .error .outOfRange
  decode bs :=
    if bs.length = shortLength then (characterText greatest bs).map String.ofList
    else .error .wrongLength
  size _ := shortLength

/-! ## Any length -/

/-- A text in UTF-8 and a zero after it. The zero ends the text, so that a zero inside is no text in
either direction. -/
def utf8Codec : Codec String where
  encode s :=
    if Char.ofNat 0 ∈ s.toList then .error .invalidData else .ok (Utf8.encode s.toList ++ [0])
  decode bs :=
    match bs.getLast? with
    | some 0 =>
      if 0 ∈ bs.dropLast then .error .invalidData
      else match Utf8.decode bs.dropLast with
        | some s => .ok (String.ofList s)
        | none => .error .invalidData
    | _ => .error .wrongLength
  size s := (Utf8.encode s.toList).length + 1

end BuildingBus.Datapoint
