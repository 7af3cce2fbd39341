import BuildingBus.Number.Decimal
import BuildingBus.Text.Blank
import BuildingBus.Text.Case
import BuildingBus.Text.Fields

/-!
# Datapoint type identifiers

A datapoint type is identified by a main number, which fixes the layout of its payload, and a
subtype number, which fixes unit and range. It is written `9.001`, with the subtype in at least
three digits, or `DPST-9-1`. Reading accepts both forms, also `DPT-9-1`, in any letter case and with
underscores for hyphens.
-/

namespace BuildingBus.Datapoint

open BuildingBus.Text BuildingBus.Number

/-- The identifier of a datapoint type. That a pair of numbers is an identifier does not mean that
such a type is registered. -/
structure TypeId where
  /-- the main number -/
  main : UInt16
  /-- the subtype number -/
  sub : UInt16
  deriving DecidableEq, Repr, Inhabited

namespace TypeId

/-! ## Writing -/

/-- The identifier as `main.sub`, the subtype number in at least three digits. -/
def text (id : TypeId) : String :=
  String.ofList (Nat.toDigits 10 id.main.toNat ++ ['.'] ++ paddedDecimal 3 id.sub.toNat)

/-- The identifier in the form of the exchange document. -/
def exchangeText (id : TypeId) : String :=
  String.ofList ("DPST-".toList ++ Nat.toDigits 10 id.main.toNat ++ ['-']
    ++ Nat.toDigits 10 id.sub.toNat)

/-- The two numbers without padding, as `main.sub`. -/
def numbers (id : TypeId) : String :=
  String.ofList (Nat.toDigits 10 id.main.toNat ++ ['.'] ++ Nat.toDigits 10 id.sub.toNat)

/-! ## Reading -/

/-- A number of sixteen bits in digits alone. A sign is refused here, though the number of a level
may have one; leading zeros are fine. -/
def readNumber (s : List Char) : Option UInt16 :=
  (readDigits 65535 s).toOption.map .ofNat

/-- An identifier from the texts of its two numbers. -/
def ofNumbers? : List (List Char) → Option TypeId
  | [main, sub] => do
    let main ← readNumber main
    let sub ← readNumber sub
    return ⟨main, sub⟩
  | _ => none

/-- A text less the keyword it starts with. -/
def dropKeyword? (keyword s : List Char) : Option (List Char) :=
  if keyword.isPrefixOf s then some (s.drop keyword.length) else none

/-- The form in which keywords are compared: no blank ends, capitals, hyphens for underscores. Only
ASCII letters have capitals here, and no other character becomes one of a keyword. -/
def keyForm (s : List Char) : List Char :=
  (asciiUpper (trim s)).map fun c => if c = '_' then '-' else c

/-- The identifier that a text writes, if it writes one. A point decides for the form with a point;
without it there has to be a keyword. -/
def read (s : List Char) : Option TypeId :=
  let s := keyForm s
  if '.' ∈ s then ofNumbers? (fields '.' s)
  else
    match dropKeyword? "DPST-".toList s <|> dropKeyword? "DPT-".toList s with
    | some numbers => ofNumbers? (fields '-' numbers)
    | none => none

/-! ## Order -/

/-- Identifiers are ordered by main number, then by subtype number. -/
def compare (a b : TypeId) : Ordering :=
  (Ord.compare a.main.toNat b.main.toNat).then (Ord.compare a.sub.toNat b.sub.toNat)

end TypeId

end BuildingBus.Datapoint
