import BuildingBus.Datapoint.Error
import BuildingBus.Number.Decimal

/-!
# Times and dates

A time of day, with or without the day of the week, and a date, each in three octets with reserved
bits above the numbers. The year of a date is written in two digits: those from 90 on belong to the
twentieth century, the others to the one after it.
-/

namespace BuildingBus.Datapoint

open BuildingBus.Number

/-! ## Times -/

/-- A time of day, possibly on a day of the week. The fields may hold more than clocks show;
`isValid` is asked when the time is written or read. -/
structure TimeOfDay where
  /-- the day of the week from 1, Monday, to 7, Sunday; 0 for none -/
  weekday : Fin 8
  /-- hour -/
  hour : UInt8
  /-- minute -/
  minute : UInt8
  /-- second -/
  second : UInt8
  deriving DecidableEq, Repr

namespace TimeOfDay

/-- The short name of a day of the week; no day has an empty one. -/
def dayName : Fin 8 → String
  | 0 => ""
  | 1 => "Mon"
  | 2 => "Tue"
  | 3 => "Wed"
  | 4 => "Thu"
  | 5 => "Fri"
  | 6 => "Sat"
  | 7 => "Sun"

/-- Whether hour, minute and second exist. -/
def isValid (t : TimeOfDay) : Bool :=
  t.hour.toNat ≤ 23 && t.minute.toNat ≤ 59 && t.second.toNat ≤ 59

/-- Day and hour share the first octet; minute and second have one each, with two reserved bits. -/
def codec : Codec TimeOfDay where
  encode t :=
    if t.isValid then .ok [.ofNat (t.weekday.val * 32 + t.hour.toNat), t.minute, t.second]
    else .error .outOfRange
  decode
    | [dayHour, minute, second] =>
      if 64 ≤ minute.toNat ∨ 64 ≤ second.toNat then .error .reservedBits
      else
        let t : TimeOfDay :=
          { weekday := ⟨dayHour.toNat / 32, Nat.div_lt_of_lt_mul dayHour.toNat_lt⟩
            hour := .ofNat (dayHour.toNat % 32)
            minute, second }
        if t.isValid then .ok t else .error .outOfRange
    | _ => .error .wrongLength
  size _ := 3

/-- Midnight of no day. -/
def start : TimeOfDay := ⟨0, 0, 0, 0⟩

/-- The day, if there is one, and the time in two digits each. -/
def text (t : TimeOfDay) : String :=
  (if t.weekday = 0 then "" else dayName t.weekday ++ " ") ++ String.ofList
    (paddedDecimal 2 t.hour.toNat ++ [':'] ++ paddedDecimal 2 t.minute.toNat ++ [':']
      ++ paddedDecimal 2 t.second.toNat)

end TimeOfDay

/-! ## Dates -/

/-- A calendar date with its full year, of which a payload holds two digits. -/
structure Date where
  /-- the full year -/
  year : UInt16
  /-- month -/
  month : UInt8
  /-- day of the month -/
  day : UInt8
  deriving DecidableEq, Repr

namespace Date

/-- Whether the date is one that two digits of the year can write. Every month has 31 days here. -/
def isValid (d : Date) : Bool :=
  1990 ≤ d.year.toNat && d.year.toNat ≤ 2089 && 1 ≤ d.month.toNat && d.month.toNat ≤ 12
    && 1 ≤ d.day.toNat && d.day.toNat ≤ 31

/-- The full year that two digits write. -/
def fullYear (digits : Nat) : Nat := if 90 ≤ digits then 1900 + digits else 2000 + digits

/-- Day, month and two digits of the year, with reserved bits above each. -/
def codec : Codec Date where
  encode d :=
    if d.isValid then .ok [d.day, d.month, .ofNat (d.year.toNat % 100)] else .error .outOfRange
  decode
    | [day, month, year] =>
      if 32 ≤ day.toNat ∨ 16 ≤ month.toNat ∨ 128 ≤ year.toNat then .error .reservedBits
      else if 99 < year.toNat then .error .outOfRange
      else
        let d : Date := ⟨.ofNat (fullYear year.toNat), month, day⟩
        if d.isValid then .ok d else .error .outOfRange
    | _ => .error .wrongLength
  size _ := 3

/-- The first date that can be written. -/
def first : Date := ⟨1990, 1, 1⟩

/-- Year, month and day with hyphens. -/
def text (d : Date) : String := String.ofList
  (paddedDecimal 4 d.year.toNat ++ ['-'] ++ paddedDecimal 2 d.month.toNat ++ ['-']
    ++ paddedDecimal 2 d.day.toNat)

/-- Dates are ordered by year, then month, then day. -/
def compare (a b : Date) : Ordering :=
  ((Ord.compare a.year.toNat b.year.toNat).then (Ord.compare a.month.toNat b.month.toNat)).then
    (Ord.compare a.day.toNat b.day.toNat)

end Date

end BuildingBus.Datapoint
