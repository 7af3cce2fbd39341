import BuildingBus.Number.Decimal
import BuildingBus.Text.Fields

/-!
# Levels

A bus address is a number of sixteen bits that is written in one, two or three levels. The fields
of a written address are the digits of that number in mixed radix: each level has a greatest value,
its *limit*, and counts `limit + 1` values.

Main statements: `compose` and `decompose` are inverse to each other between the fields within
their limits and the numbers below `capacity` (`compose_decompose`, `decompose_compose`).
-/

namespace BuildingBus.Address

open BuildingBus.Text BuildingBus.Number

/-! ## Fields and numbers -/

/-- How many numbers fields with these limits can write. For the limits of a style it is 65536, so
that each of its written forms reaches every address. -/
def capacity : List Nat → Nat
  | [] => 1
  | limit :: limits => (limit + 1) * capacity limits

/-- The number that fields with these limits write, the first field counting most. Fields beyond
their limits are no matter of it: whoever composes checks them with `within` before. -/
def compose : List Nat → List Nat → Nat
  | _ :: limits, field :: fields => field * capacity limits + compose limits fields
  | _, _ => 0

/-- The fields that write a number within these limits. -/
def decompose : List Nat → Nat → List Nat
  | [], _ => []
  | _ :: limits, n => n / capacity limits :: decompose limits (n % capacity limits)

/-- Whether each field is at most its limit, and there are as many fields as limits. -/
def within : List Nat → List Nat → Bool
  | [], [] => true
  | limit :: limits, field :: fields => field ≤ limit && within limits fields
  | _, _ => false

theorem capacity_pos (limits : List Nat) : 0 < capacity limits := by
  induction limits with
  | nil => decide
  | cons limit limits ih => exact Nat.mul_pos (Nat.succ_pos _) ih

theorem compose_lt {limits fields : List Nat} (h : within limits fields = true) :
    compose limits fields < capacity limits := by
  induction limits generalizing fields with
  | nil => cases fields <;> simp [within, compose, capacity] at *
  | cons limit limits ih =>
    cases fields with
    | nil => simp [within] at h
    | cons field fields =>
      simp only [within, Bool.and_eq_true, decide_eq_true_eq] at h
      have hc := ih h.2
      have hm := Nat.mul_le_mul_right (capacity limits) h.1
      simp only [compose, capacity, Nat.succ_mul]
      omega

/-- The fields of a number write that number: what is written in any style can be read. -/
theorem compose_decompose {limits : List Nat} {n : Nat} (h : n < capacity limits) :
    compose limits (decompose limits n) = n := by
  induction limits generalizing n with
  | nil => simp [capacity] at h; simp [compose, h]
  | cons limit limits ih =>
    simp only [decompose, compose, ih (Nat.mod_lt n (capacity_pos limits))]
    rw [Nat.mul_comm]
    exact Nat.div_add_mod n (capacity limits)

/-- A number writes the fields it was written with: the fields of a text within its limits are not
lost when it is read. -/
theorem decompose_compose {limits fields : List Nat} (h : within limits fields = true) :
    decompose limits (compose limits fields) = fields := by
  induction limits generalizing fields with
  | nil => cases fields <;> simp [within, decompose] at *
  | cons limit limits ih =>
    cases fields with
    | nil => simp [within] at h
    | cons field fields =>
      simp only [within, Bool.and_eq_true, decide_eq_true_eq] at h
      have hc := compose_lt h.2
      simp only [compose, decompose, List.cons.injEq]
      constructor
      · rw [Nat.mul_comm, Nat.mul_add_div (capacity_pos limits), Nat.div_eq_of_lt hc,
          Nat.add_zero]
      · rw [Nat.mul_comm, Nat.mul_add_mod, Nat.mod_eq_of_lt hc, ih h.2]

theorem within_decompose {limits : List Nat} {n : Nat} (h : n < capacity limits) :
    within limits (decompose limits n) = true := by
  induction limits generalizing n with
  | nil => rfl
  | cons limit limits ih =>
    simp only [decompose, within, Bool.and_eq_true, decide_eq_true_eq]
    refine ⟨?_, ih (Nat.mod_lt n (capacity_pos limits))⟩
    exact Nat.le_of_lt_succ (Nat.div_lt_of_lt_mul (by rwa [Nat.mul_comm]))

/-! ## Styles -/

/-- How many levels an address is written in. A style is for writing only: a text is read by the
number of its fields, whatever the style of the catalog is. -/
inductive Style where
  /-- no choice made; written in three levels -/
  | unspecified
  /-- one number -/
  | free
  /-- two levels -/
  | twoLevel
  /-- three levels -/
  | threeLevel
  deriving DecidableEq, Repr, Inhabited

/-- The name of a style in settings. -/
def Style.name : Style → String
  | .unspecified => ""
  | .free => "Free"
  | .twoLevel => "TwoLevel"
  | .threeLevel => "ThreeLevel"

/-- The style with exactly this name. -/
def Style.ofName? (name : String) : Option Style :=
  [.unspecified, .free, .twoLevel, .threeLevel].find? fun style => style.name == name

@[simp] theorem Style.ofName?_name (style : Style) : Style.ofName? style.name = some style := by
  cases style <;> rfl

/-! ## Schemes -/

/-- How a kind of address is written: what stands between two fields, and the limits of the fields
in two and in three levels. -/
structure Scheme where
  /-- the character between two fields -/
  separator : Char
  /-- limits of the two fields -/
  two : List Nat
  /-- limits of the three fields -/
  three : List Nat

/-- Why a text is no address. The faults stand in the order in which they are looked for, so that a
text with several of them has the first. -/
inductive ReadFault where
  /-- more than three fields, or a field that is no number -/
  | malformed
  /-- a field beyond its limit -/
  | outOfRange
  /-- every field is zero -/
  | zero
  deriving DecidableEq, Repr

namespace Scheme

variable (S : Scheme)

/-- The limits that hold for a count of fields; one field is the plain number, and no address has
more than three. -/
def limitsFor : Nat → Option (List Nat)
  | 1 => some [65535]
  | 2 => some S.two
  | 3 => some S.three
  | _ => none

/-- The limits that a style writes with. Where no choice was made, it is the three levels that
installers are used to. -/
def limitsOf : Style → List Nat
  | .free => [65535]
  | .twoLevel => S.two
  | .threeLevel | .unspecified => S.three

/-- A field: a number of at most 32 bits. More than that is no number here, so that `4294967296` is
malformed while `65536` is beyond a limit. -/
def readField (s : List Char) : Option Nat :=
  (readUnsigned 0xFFFFFFFF s).toOption

/-- The address that a text writes. First all fields have to be numbers and not too many, then
within their limits, and last not all of them zero. -/
def read (s : List Char) : Except ReadFault UInt16 :=
  match (fields S.separator s).mapM readField with
  | none => .error .malformed
  | some values =>
    match S.limitsFor values.length with
    | none => .error .malformed
    | some limits =>
      if within limits values = false then .error .outOfRange
      else if compose limits values = 0 then .error .zero
      else .ok (.ofNat (compose limits values))

/-- Fields with the separator between them. -/
def writeFields (values : List Nat) : List Char :=
  join [S.separator] (values.map (Nat.toDigits 10))

/-- The text of an address in a style. -/
def write (style : Style) (raw : UInt16) : List Char :=
  S.writeFields (decompose (S.limitsOf style) raw.toNat)

end Scheme

end BuildingBus.Address
