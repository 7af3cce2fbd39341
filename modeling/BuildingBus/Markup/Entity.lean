/-!
# Entities

In an attribute value five characters are written as entities, and any character can be written by
its code point. `escape` writes a text as a value, `unescape` reads one and refuses a value with an
entity that it does not know.

The main statement: a text is read back from the value it is written as (`unescape_escape`).
-/

namespace BuildingBus.Markup

/-! ## Writing -/

/-- A character as it stands in a value. -/
def escapeChar (c : Char) : List Char :=
  if c = '<' then "&lt;".toList
  else if c = '>' then "&gt;".toList
  else if c = '&' then "&amp;".toList
  else if c = '\x27' then "&apos;".toList
  else if c = '"' then "&quot;".toList
  else [c]

/-- A text as a value. -/
def escape (s : List Char) : List Char := s.flatMap escapeChar

/-! ## Reading -/

/-- The value of a digit in hexadecimal. -/
def hexDigit? (c : Char) : Option Nat :=
  if '0' ≤ c ∧ c ≤ '9' then some (c.toNat - '0'.toNat)
  else if 'a' ≤ c ∧ c ≤ 'f' then some (c.toNat - 'a'.toNat + 10)
  else if 'A' ≤ c ∧ c ≤ 'F' then some (c.toNat - 'A'.toNat + 10)
  else none

/-- The value of a digit to a base of at most sixteen. -/
def digitOf? (base : Nat) (c : Char) : Option Nat :=
  (hexDigit? c).filter (· < base)

/-- The number that digits spell after `acc`. -/
def numberFrom (base acc : Nat) : List Char → Option Nat
  | [] => some acc
  | c :: s => (digitOf? base c).bind fun d => numberFrom base (base * acc + d) s

/-- The character with the code point that digits spell. Code point zero has none, and nor have
surrogates and numbers beyond the last code point. -/
def codedChar? (base : Nat) (digits : List Char) : Option Char :=
  if digits = [] then none
  else (numberFrom base 0 digits).bind fun n =>
    if 0 < n ∧ n.isValidChar then some (Char.ofNat n) else none

/-- The character that an entity stands for, from what is between `&` and `;`. -/
def entity? : List Char → Option Char
  | '#' :: 'x' :: digits => codedChar? 16 digits
  | '#' :: digits => codedChar? 10 digits
  | name =>
    if name = "amp".toList then some '&'
    else if name = "lt".toList then some '<'
    else if name = "gt".toList then some '>'
    else if name = "quot".toList then some '"'
    else if name = "apos".toList then some '\x27'
    else none

/-- The text that a value stands for, read after the given part of an entity, whose last character
stands first. An entity that is unknown or does not end makes the value unreadable. -/
def unescapeFrom : Option (List Char) → List Char → Option (List Char)
  | none, [] => some []
  | some _, [] => none
  | none, c :: s =>
    if c = '&' then unescapeFrom (some []) s else (unescapeFrom none s).map (c :: ·)
  | some name, c :: s =>
    if c = ';' then (entity? name.reverse).bind fun e => (unescapeFrom none s).map (e :: ·)
    else if c = '&' then none
    else unescapeFrom (some (c :: name)) s

/-- The text that a value stands for. -/
def unescape (s : List Char) : Option (List Char) := unescapeFrom none s

/-- A character is read from its written form, whatever follows it. -/
theorem unescapeFrom_escapeChar (c : Char) (s : List Char) :
    unescapeFrom none (escapeChar c ++ s) = (unescapeFrom none s).map (c :: ·) := by
  unfold escapeChar
  split
  case isTrue h => subst h; rfl
  split
  case isTrue h => subst h; rfl
  split
  case isTrue h => subst h; rfl
  split
  case isTrue h => subst h; rfl
  split
  case isTrue h => subst h; rfl
  case isFalse hamp _ _ => simp [unescapeFrom, hamp]

/-- A text is read back from the value it is written as, whatever characters it has. So names
survive an export with quotes, brackets and line ends in them. -/
@[simp] theorem unescape_escape (s : List Char) : unescape (escape s) = some s := by
  rw [unescape, escape]
  induction s with
  | nil => rfl
  | cons c s ih => rw [List.flatMap_cons, unescapeFrom_escapeChar, ih]; rfl

end BuildingBus.Markup
