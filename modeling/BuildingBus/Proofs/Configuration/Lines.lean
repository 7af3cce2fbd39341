import BuildingBus.Configuration
import BuildingBus.Proofs.Text.Lines

/-!
# Lines of a configuration

What a line of a configuration says, apart from how it is read. A line that is neither blank nor a
comment is *relevant*; it assigns a value to a key, or is at fault, and a value that it assigns to
the key of a style is the name of one, or the line is at fault as well.

The main statements: which lines are refused, and for what (`readLine_eq_error_iff`), which lines
set a style (`setsStyle_iff`), and which lines say nothing (`isIdle_iff`).
-/

namespace BuildingBus.Configuration

open Address Text

variable {raw line value bare before after : List Char} {key : String} {style : Style}

/-! ## Values -/

/-- A value and what is left of it without one pair of equal quotes around it, if it has one. -/
inductive Bares : List Char → List Char → Prop where
  /-- a value in quotes -/
  | quoted {quote : Char} {inner : List Char} (h : quote = '"' ∨ quote = '\x27') :
      Bares (quote :: (inner ++ [quote])) inner
  /-- a value that is not in quotes -/
  | plain {value : List Char}
      (h : ∀ quote inner, quote = '"' ∨ quote = '\x27' → value ≠ quote :: (inner ++ [quote])) :
      Bares value value

theorem stripQuote?_eq_some_iff {quote : Char} {inner : List Char} :
    stripQuote? quote value = some inner ↔ value = quote :: (inner ++ [quote]) := by
  cases value with
  | nil => simp [stripQuote?]
  | cons c rest =>
    simp only [stripQuote?, List.cons.injEq]
    constructor
    · intro h
      split at h
      case isTrue hc =>
        obtain ⟨rfl, hl⟩ := hc
        obtain ⟨ys, rfl⟩ := List.getLast?_eq_some_iff.mp hl
        rw [List.dropLast_concat] at h
        exact ⟨rfl, by rw [Option.some.inj h]⟩
      case isFalse => cases h
    · rintro ⟨rfl, rfl⟩
      rw [if_pos ⟨rfl, List.getLast?_concat⟩, List.dropLast_concat]

/-- No pair of quotes is taken off a value that is not in quotes. -/
theorem stripQuote?_eq_none_iff {quote : Char} :
    stripQuote? quote value = none ↔ ∀ inner, value ≠ quote :: (inner ++ [quote]) := by
  simp only [Option.eq_none_iff_forall_ne_some, ne_eq, stripQuote?_eq_some_iff]

theorem bares_iff : Bares value bare ↔ bare = unquote value := by
  constructor
  · rintro (⟨rfl | rfl⟩ | h)
    · rw [unquote, stripQuote?_eq_some_iff.mpr rfl]
      rfl
    · -- a value in single quotes does not begin with a double one
      rw [unquote, stripQuote?_eq_none_iff.mpr (by simp), stripQuote?_eq_some_iff.mpr rfl]
      rfl
    · rw [unquote, stripQuote?_eq_none_iff.mpr fun inner => h _ inner (.inl rfl),
        stripQuote?_eq_none_iff.mpr fun inner => h _ inner (.inr rfl)]
      rfl
  · rintro rfl
    rw [unquote]
    cases hd : stripQuote? '"' value with
    | some inner =>
      obtain rfl := stripQuote?_eq_some_iff.mp hd
      exact .quoted (.inl rfl)
    | none =>
      cases hs : stripQuote? '\x27' value with
      | some inner =>
        obtain rfl := stripQuote?_eq_some_iff.mp hs
        exact .quoted (.inr rfl)
      | none =>
        refine .plain fun quote inner hq => ?_
        rcases hq with rfl | rfl
        · exact stripQuote?_eq_none_iff.mp hd inner
        · exact stripQuote?_eq_none_iff.mp hs inner

/-- A value names a style if it is the name of the style, apart from blank ends. These are blanks
inside of quotes, as those outside are gone before. -/
def Names (value : List Char) (style : Style) : Prop := trim value = style.name.toList

theorem ofName?_eq_some_iff {name : String} : Style.ofName? name = some style ↔ name = style.name := by
  constructor
  · intro h
    have hb := List.find?_some h
    exact (eq_of_beq hb).symm
  · rintro rfl
    exact Style.ofName?_name style

theorem parse_ofList_eq_ok_iff :
    Style.parse (String.ofList value) = .ok style ↔ Names value style := by
  have ht : trimmed (String.ofList value) = style.name ↔ Names value style := by
    rw [Names, String.ext_iff, toList_trimmed, String.toList_ofList]
  rw [← ht, ← ofName?_eq_some_iff, Style.parse]
  cases Style.ofName? (trimmed (String.ofList value)) <;> simp

theorem styleOf_eq_ok_iff : styleOf key value = .ok style ↔ Names value style := by
  rw [← parse_ofList_eq_ok_iff, styleOf]
  cases Style.parse (String.ofList value) <;> simp

theorem styleOf_eq_error (h : ∀ style, ¬Names value style) :
    styleOf key value = .error (.invalidValue key) := by
  rw [styleOf]
  cases hp : Style.parse (String.ofList value) with
  | error why => rfl
  | ok style => exact absurd (parse_ofList_eq_ok_iff.mp hp) (h style)

/-! ## Keys and values -/

/-- A line that is neither blank nor a comment. -/
def IsRelevant (raw : List Char) : Prop := trim raw ≠ [] ∧ (trim raw).head? ≠ some '#'

/-- A relevant line has this before its first equals sign and that after it. What is before may be
blank, and then the line is no setting. -/
structure Splits (raw before after : List Char) : Prop where
  /-- the line says something -/
  relevant : IsRelevant raw
  /-- the two parts make up the line -/
  eq : trim raw = before ++ '=' :: after
  /-- the equals sign is the first one -/
  first : '=' ∉ before

/-- A line assigns a value to a key: what is before the first equals sign and what is after it, each
without blank ends, and the value without its quotes. -/
structure Assigns (raw : List Char) (key : String) (value : List Char) : Prop where
  /-- the line has the two parts -/
  splits : ∃ before after, Splits raw before after ∧ key.toList = trim before ∧
    Bares (trim after) value
  /-- the key is not blank -/
  named : key ≠ ""

/-- A relevant line that assigns nothing: it has no equals sign, or a blank key. -/
inductive IsMalformed (raw : List Char) : Prop where
  /-- a line without equals sign -/
  | noEquals (h : IsRelevant raw) (hn : '=' ∉ trim raw)
  /-- a line without key -/
  | noKey {before after : List Char} (h : Splits raw before after) (hb : trim before = [])

theorem isRelevant_trim_iff : isRelevant (trim raw) = true ↔ IsRelevant raw := by
  rw [IsRelevant]
  cases trim raw with
  | nil => simp [isRelevant]
  | cons c s => simp [isRelevant]

theorem readLine_of_not_isRelevant (h : ¬IsRelevant raw) : readLine raw = .ok none :=
  if_neg (mt isRelevant_trim_iff.mp h)

theorem readLine_of_isMalformed (h : IsMalformed raw) : readLine raw = .error .invalidLine := by
  cases h with
  | noEquals h hn =>
    simp only [readLine, isRelevant_trim_iff.mpr h, if_true, keyAndValue?,
      cutFirst_eq_none_iff.mpr hn]
  | noKey h hb =>
    simp only [readLine, isRelevant_trim_iff.mpr h.relevant, if_true, keyAndValue?,
      cutFirst_eq_some_iff.mpr ⟨h.eq, h.first⟩, if_pos hb]

/-- A line that assigns something sets what its key and value set. -/
theorem readLine_of_assigns (h : Assigns raw key value) :
    readLine raw = (settingOf key value).map some := by
  obtain ⟨⟨before, after, hs, hk, hv⟩, hne⟩ := h
  have hkey : String.ofList (trim before) = key := by rw [← hk, String.ofList_toList]
  have hn : trim before ≠ [] := hk ▸ mt String.toList_eq_nil_iff.mp hne
  simp only [readLine, isRelevant_trim_iff.mpr hs.relevant, if_true, keyAndValue?,
    cutFirst_eq_some_iff.mpr ⟨hs.eq, hs.first⟩, if_neg hn, hkey, bares_iff.mp hv]

/-- A relevant line assigns nothing or assigns something; all that it may do wrong besides is a
matter of key and value. -/
theorem isMalformed_or_assigns (h : IsRelevant raw) :
    IsMalformed raw ∨ ∃ key value, Assigns raw key value := by
  cases hc : cutFirst '=' (trim raw) with
  | none => exact .inl (.noEquals h (cutFirst_eq_none_iff.mp hc))
  | some parts =>
    obtain ⟨before, after⟩ := parts
    obtain ⟨he, hf⟩ := cutFirst_eq_some_iff.mp hc
    by_cases hb : trim before = []
    · exact .inl (.noKey ⟨h, he, hf⟩ hb)
    · refine .inr ⟨.ofList (trim before), unquote (trim after), ⟨before, after, ⟨h, he, hf⟩, ?_,
        bares_iff.mpr rfl⟩, ?_⟩
      · exact String.toList_ofList
      · exact fun h => hb (String.ofList_eq_empty_iff.mp h)

/-! ## Styles -/

/-- A style that a configuration holds. What is said of one of them holds of the other in the same
words, so that it is said of a slot. -/
inductive Slot where
  /-- that of group addresses -/
  | group
  /-- that of individual addresses -/
  | individual
  deriving DecidableEq

namespace Slot

/-- The keys that set the style. -/
def keys : Slot → List String
  | group => ["GROUP_ADDRESS_STYLE", "ADDRESS_STYLE"]
  | individual => ["INDIVIDUAL_ADDRESS_STYLE"]

/-- The style in a configuration. -/
def get : Slot → Configuration → Style
  | group, c => c.groupStyle
  | individual, c => c.individualStyle

/-- The setting of the style. -/
def setting : Slot → Style → Setting
  | group => .groupStyle
  | individual => .individualStyle

theorem settingOf_of_mem {slot : Slot} (h : key ∈ slot.keys) (value : List Char) :
    settingOf key value = (styleOf key value).map slot.setting := by
  cases slot with
  | group =>
    simp only [keys, List.mem_cons, List.not_mem_nil, or_false] at h
    exact if_pos h
  | individual =>
    simp only [keys, List.mem_singleton] at h
    subst h
    exact (if_neg (by decide)).trans (if_pos rfl)

/-- A key that sets no style means nothing. -/
theorem settingOf_of_not_mem (h : ∀ slot : Slot, key ∉ slot.keys) (value : List Char) :
    settingOf key value = .ok (.ignored key) := by
  have hg := h group
  have hi := h individual
  simp only [keys, List.mem_cons, List.not_mem_nil, or_false] at hg hi
  exact (if_neg hg).trans (if_neg hi)

end Slot

/-! ## What a line says -/

/-- A line at fault: it assigns nothing, or assigns to the key of a style what names no style. -/
inductive IsFaulty (raw : List Char) : LineFault → Prop where
  /-- a line that assigns nothing -/
  | malformed (h : IsMalformed raw) : IsFaulty raw .invalidLine
  /-- a line whose value names no style -/
  | noStyle {key : String} {value : List Char} {slot : Slot} (h : Assigns raw key value)
      (hk : key ∈ slot.keys) (hn : ∀ style, ¬Names value style) :
      IsFaulty raw (.invalidValue key)

/-- A line sets a style: it assigns the name of the style to a key. -/
def SetsStyle (slot : Slot) (raw : List Char) (style : Style) : Prop :=
  ∃ key ∈ slot.keys, ∃ value, Assigns raw key value ∧ Names value style

/-- A line that sets nothing here: a blank line, a comment, or a key that means nothing. -/
inductive IsIdle (raw : List Char) : Prop where
  /-- a blank line or a comment -/
  | irrelevant (h : ¬IsRelevant raw)
  /-- a key that means nothing -/
  | unknown {key : String} {value : List Char} (h : Assigns raw key value)
      (hk : ∀ slot : Slot, key ∉ slot.keys)

theorem readLine_of_isFaulty {fault : LineFault} (h : IsFaulty raw fault) :
    readLine raw = .error fault := by
  cases h with
  | malformed h => exact readLine_of_isMalformed h
  | noStyle h hk hn =>
    rw [readLine_of_assigns h, Slot.settingOf_of_mem hk, styleOf_eq_error hn]
    rfl

theorem readLine_of_setsStyle {slot : Slot} (h : SetsStyle slot raw style) :
    readLine raw = .ok (some (slot.setting style)) := by
  obtain ⟨key, hk, value, ha, hn⟩ := h
  rw [readLine_of_assigns ha, Slot.settingOf_of_mem hk, styleOf_eq_ok_iff.mpr hn]
  rfl

theorem readLine_of_isIdle (h : IsIdle raw) :
    readLine raw = .ok none ∨ ∃ key, readLine raw = .ok (some (.ignored key)) := by
  cases h with
  | irrelevant h => exact .inl (readLine_of_not_isRelevant h)
  | @unknown key value h hk =>
    refine .inr ⟨key, ?_⟩
    rw [readLine_of_assigns h, Slot.settingOf_of_not_mem hk]
    rfl

/-- Every line is at fault, sets a style, or is idle. -/
theorem line_cases (raw : List Char) :
    (∃ fault, IsFaulty raw fault) ∨ (∃ slot style, SetsStyle slot raw style) ∨ IsIdle raw := by
  by_cases hr : IsRelevant raw
  · rcases isMalformed_or_assigns hr with hm | ⟨key, value, ha⟩
    · exact .inl ⟨_, .malformed hm⟩
    · by_cases hk : ∃ slot : Slot, key ∈ slot.keys
      · obtain ⟨slot, hk⟩ := hk
        by_cases hn : ∃ style, Names value style
        · obtain ⟨style, hn⟩ := hn
          exact .inr (.inl ⟨slot, style, key, hk, value, ha, hn⟩)
        · exact .inl ⟨_, .noStyle ha hk (not_exists.mp hn)⟩
      · exact .inr (.inr (.unknown ha (not_exists.mp hk)))
  · exact .inr (.inr (.irrelevant hr))

/-- **Which lines are refused**, and for what. A line has one fault at most, and no other line plays
a part. -/
theorem readLine_eq_error_iff {fault : LineFault} :
    readLine raw = .error fault ↔ IsFaulty raw fault := by
  refine ⟨fun h => ?_, readLine_of_isFaulty⟩
  rcases line_cases raw with ⟨fault', hf⟩ | ⟨slot, style, hs⟩ | hi
  · obtain rfl := Except.error.inj (h.symm.trans (readLine_of_isFaulty hf))
    exact hf
  · cases h.symm.trans (readLine_of_setsStyle hs)
  · rcases readLine_of_isIdle hi with h' | ⟨key, h'⟩ <;> cases h.symm.trans h'

/-- **Which lines set a style**: those that the reader takes as the setting of it, in whatever way
they are written. -/
theorem setsStyle_iff {slot : Slot} :
    SetsStyle slot raw style ↔ readLine raw = .ok (some (slot.setting style)) := by
  refine ⟨readLine_of_setsStyle, fun h => ?_⟩
  rcases line_cases raw with ⟨fault, hf⟩ | ⟨slot', style', hs⟩ | hi
  · cases h.symm.trans (readLine_of_isFaulty hf)
  · have he := Option.some.inj (Except.ok.inj (h.symm.trans (readLine_of_setsStyle hs)))
    cases slot <;> cases slot' <;> cases he <;> exact hs
  · rcases readLine_of_isIdle hi with h' | ⟨key, h'⟩
    · cases h.symm.trans h'
    · have he := Option.some.inj (Except.ok.inj (h.symm.trans h'))
      cases slot <;> cases he

/-- **Which lines say nothing**: those with no setting, or with one that means nothing. -/
theorem isIdle_iff :
    IsIdle raw ↔ readLine raw = .ok none ∨ ∃ key, readLine raw = .ok (some (.ignored key)) := by
  refine ⟨readLine_of_isIdle, fun h => ?_⟩
  rcases line_cases raw with ⟨fault, hf⟩ | ⟨slot, style, hs⟩ | hi
  · rw [readLine_of_isFaulty hf] at h
    rcases h with h | ⟨key, h⟩ <;> cases h
  · rw [readLine_of_setsStyle hs] at h
    rcases h with h | ⟨key, h⟩
    · cases h
    · cases slot <;> cases h
  · exact hi

end BuildingBus.Configuration
