import BuildingBus.Text.CaseTable

/-!
# Letter case

Names are compared without regard to case, by their lower case: each character is replaced by its
lower case mapping, and a capital sigma becomes the final form `ς` at the end of a word and `σ`
elsewhere. It ends a word when the nearest character before it that is not case-ignorable is cased
and the nearest one after it is not.

Keywords are compared by the ASCII rule, which changes the letters `A` to `Z` alone.
-/

namespace BuildingBus.Text

/-! ## The ASCII rule -/

/-- The lower case of the letters `A` to `Z`; every other character is kept. -/
def asciiLowerChar (c : Char) : Char :=
  if 'A' ≤ c ∧ c ≤ 'Z' then Char.ofNat (c.toNat + 32) else c

/-- The upper case of the letters `a` to `z`; every other character is kept. -/
def asciiUpperChar (c : Char) : Char :=
  if 'a' ≤ c ∧ c ≤ 'z' then Char.ofNat (c.toNat - 32) else c

/-- A text with its ASCII letters in lower case. -/
def asciiLower (s : List Char) : List Char :=
  s.map asciiLowerChar

/-- A text with its ASCII letters in upper case. -/
def asciiUpper (s : List Char) : List Char :=
  s.map asciiUpperChar

/-! ## Properties of characters -/

/-- Whether a code point lies in one of the ranges. -/
def inRanges (ranges : List (Nat × Nat)) (n : Nat) : Bool :=
  ranges.any fun (first, last) => first ≤ n && n ≤ last

/-- Whether a character is cased: the letters `A` to `Z` and `a` to `z`, and the table. -/
def isCased (c : Char) : Bool :=
  if c.toNat < 0x80 then ('A' ≤ c && c ≤ 'Z') || ('a' ≤ c && c ≤ 'z')
  else inRanges casedRanges c.toNat

/-- Whether a character is passed over when the neighbours of a capital sigma are sought. -/
def isCaseIgnorable (c : Char) : Bool :=
  if c.toNat < 0x80 then c == '\x27' || c == '.' || c == ':' || c == '^' || c == '\x60'
  else inRanges caseIgnorableRanges c.toNat

/-- Whether the first character that is not case-ignorable is cased. -/
def meetsCased (s : List Char) : Bool :=
  match s.dropWhile isCaseIgnorable with
  | [] => false
  | c :: _ => isCased c

/-! ## Lower case -/

/-- The lower case of a code point after the runs of the table. -/
def lowerCode (runs : List (Nat × Nat × Nat × Int)) (n : Nat) : Nat :=
  match runs.find? fun (first, last, step, _) =>
      first ≤ n && n ≤ last && (n - first) % step == 0 with
  | some (_, _, _, offset) => (n + offset).toNat
  | none => n

/-- The lower case of a character on its own. -/
def lowerChar (c : Char) : List Char :=
  if c.toNat < 0x80 then [asciiLowerChar c]
  else if c.toNat = 0x130 then ['i', Char.ofNat 0x307]
  else [Char.ofNat (lowerCode lowerRuns c.toNat)]

/-- The lower case of a character between the text before it, nearest first, and the text after.
Only a capital sigma looks at its neighbours: at the end of a word it becomes the final small one.
-/
def lowerBetween (before : List Char) (c : Char) (after : List Char) : List Char :=
  if c = 'Σ' then
    if meetsCased before && !meetsCased after then ['ς'] else ['σ']
  else lowerChar c

/-- The lower case of a text that follows `before`, whose characters stand nearest first. -/
def lowerAfter (before : List Char) : List Char → List Char
  | [] => []
  | c :: after => lowerBetween before c after ++ lowerAfter (c :: before) after

/-- The lower case of a text. It is not taken character by character, because of the sigma, and one
character may become two. -/
def lower (s : List Char) : List Char :=
  lowerAfter [] s

end BuildingBus.Text
