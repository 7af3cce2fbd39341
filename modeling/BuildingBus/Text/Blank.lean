/-!
# Blank characters and trimming

A character is *blank* when it has the property White_Space. Names, literals, addresses and
configuration lines are all read after blank characters are cut off at both ends; `trim` is that
cut. Zero-width characters (U+200B, U+FEFF) are not blank and stay.

The main statements: a trimmed text neither starts nor ends with a blank character
(`head_trim`, `getLast_trim`), trimming twice is trimming once (`trim_trim`), and blank characters
that stand before or after a text are all cut off (`trim_append_blanks`).
-/

namespace BuildingBus.Text

/-! ## The property -/

/-- Whether a character has the property White_Space. These are more characters than those that
separate attributes in a tag. -/
def isBlank (c : Char) : Bool :=
  let n := c.toNat
  (0x09 ≤ n && n ≤ 0x0D) || n == 0x20 || n == 0x85 || n == 0xA0 || n == 0x1680
    || (0x2000 ≤ n && n ≤ 0x200A) || n == 0x2028 || n == 0x2029 || n == 0x202F
    || n == 0x205F || n == 0x3000

/-! ## Trimming -/

/-- The text without blank characters at its start. -/
def trimStart (s : List Char) : List Char :=
  s.dropWhile isBlank

/-- The text without blank characters at its end. -/
def trimEnd (s : List Char) : List Char :=
  (s.reverse.dropWhile isBlank).reverse

/-- The text without blank characters at either end. -/
def trim (s : List Char) : List Char :=
  trimEnd (trimStart s)

/-- A string without blank characters at either end. -/
def trimmed (s : String) : String :=
  String.ofList (trim s.toList)

@[simp] theorem toList_trimmed (s : String) : (trimmed s).toList = trim s.toList := by
  simp [trimmed]

@[simp] theorem trim_nil : trim [] = [] := rfl

/-- What trimming at the start leaves is empty or starts with a character that is not blank. -/
theorem head_trimStart {s : List Char} {c : Char} (h : (trimStart s).head? = some c) :
    isBlank c = false := by
  have := List.head?_dropWhile_not isBlank s
  rw [show s.dropWhile isBlank = trimStart s from rfl, h] at this
  simpa using this

/-- What trimming at the end leaves is empty or ends in a character that is not blank. -/
theorem getLast_trimEnd {s : List Char} {c : Char} (h : (trimEnd s).getLast? = some c) :
    isBlank c = false := by
  rw [trimEnd, List.getLast?_reverse] at h
  exact head_trimStart (s := s.reverse) h

/-- Trimming at the end cuts off nothing but blank characters. -/
theorem trimEnd_append_blanks (s : List Char) :
    ∃ t, s = trimEnd s ++ t ∧ ∀ c ∈ t, isBlank c = true := by
  refine ⟨(s.reverse.takeWhile isBlank).reverse, ?_, ?_⟩
  · rw [trimEnd, ← List.reverse_append, List.takeWhile_append_dropWhile, List.reverse_reverse]
  · intro c hc
    exact List.all_eq_true.mp List.all_takeWhile c (List.mem_reverse.mp hc)

/-- A trimmed text starts with a character that is not blank, if with any. -/
theorem head_trim {s : List Char} {c : Char} (h : (trim s).head? = some c) :
    isBlank c = false := by
  obtain ⟨t, ht, -⟩ := trimEnd_append_blanks (trimStart s)
  apply head_trimStart (s := s)
  rw [ht, List.head?_append, show trimEnd (trimStart s) = trim s from rfl, h]
  rfl

/-- A trimmed text ends in a character that is not blank, if in any. -/
theorem getLast_trim {s : List Char} {c : Char} (h : (trim s).getLast? = some c) :
    isBlank c = false :=
  getLast_trimEnd h

theorem trimStart_eq_self {s : List Char} (h : ∀ c, s.head? = some c → isBlank c = false) :
    trimStart s = s := by
  cases s with
  | nil => rfl
  | cons c s => simp [trimStart, h c rfl]

theorem trimEnd_eq_self {s : List Char} (h : ∀ c, s.getLast? = some c → isBlank c = false) :
    trimEnd s = s := by
  have := trimStart_eq_self (s := s.reverse) (fun c hc => h c (by simpa using hc))
  rw [trimEnd, show s.reverse.dropWhile isBlank = trimStart s.reverse from rfl, this,
    List.reverse_reverse]

/-- A text without blank characters is trimmed. -/
theorem trim_eq_self {s : List Char} (h : ∀ c ∈ s, isBlank c = false) : trim s = s := by
  rw [trim, trimStart_eq_self fun c hc => h c (List.mem_of_head? hc)]
  exact trimEnd_eq_self fun c hc => h c (List.mem_of_getLast? hc)

/-- Nothing is left to trim from a trimmed text. -/
@[simp] theorem trim_trim (s : List Char) : trim (trim s) = trim s := by
  rw [trim, trimStart_eq_self fun _ => head_trim]
  exact trimEnd_eq_self fun _ => getLast_trim

/-! ## Blank characters at the ends -/

section

variable {s before after : List Char}

theorem trimStart_append_blanks (hb : ∀ c ∈ before, isBlank c = true) (s : List Char) :
    trimStart (before ++ s) = trimStart s :=
  List.dropWhile_append_of_pos hb

theorem trimEnd_append_of_blanks (ha : ∀ c ∈ after, isBlank c = true) (s : List Char) :
    trimEnd (s ++ after) = trimEnd s := by
  have hr : ∀ c ∈ after.reverse, isBlank c = true := fun c hc => ha c (List.mem_reverse.mp hc)
  rw [trimEnd, List.reverse_append, List.dropWhile_append_of_pos hr, trimEnd]

/-- Cutting at the start first or at the end first comes to the same. -/
theorem trim_append_of_blanks (ha : ∀ c ∈ after, isBlank c = true) (s : List Char) :
    trim (s ++ after) = trim s := by
  have hd : trimStart (s ++ after) = if (trimStart s).isEmpty then trimStart after
      else trimStart s ++ after := List.dropWhile_append
  rw [trim, hd, trim]
  split
  case isTrue he =>
    have hs : trimStart after = [] := by
      have := trimStart_append_blanks ha []
      rwa [List.append_nil] at this
    rw [hs, List.isEmpty_iff.mp he]
  case isFalse => exact trimEnd_append_of_blanks ha (trimStart s)

/-- Blank characters around a text make no difference to what trimming leaves. -/
theorem trim_append_blanks (hb : ∀ c ∈ before, isBlank c = true)
    (ha : ∀ c ∈ after, isBlank c = true) (s : List Char) :
    trim (before ++ s ++ after) = trim s := by
  rw [trim_append_of_blanks ha, trim, trimStart_append_blanks hb, trim]

end

end BuildingBus.Text
