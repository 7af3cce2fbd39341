import BuildingBus.Datapoint.Error
import BuildingBus.Proofs.Number.Numerals
import BuildingBus.Proofs.Steps
import BuildingBus.Proofs.Text.Utf8

/-!
# Texts of identifiers

An identifier is written in two forms: its numbers with a point between them, or a keyword and its
numbers with hyphens between them. In the second form a text may be written in any letter case and
with underscores for hyphens, so that what counts is what each of its characters *stands for*. The
numbers are written in digits alone, with any number of leading zeros.

Reading takes exactly the texts of the two forms (`TypeId.read_eq_some_iff`), and every identifier
is read from the texts that it is written as. `TypeId.parse_laws` puts this together.
-/

namespace BuildingBus.Datapoint

open Number Text

/-! ## Characters -/

/-- A character of a text stands for one of a form: it is the same up to ASCII case, or an
underscore for a hyphen. -/
def StandsFor (c d : Char) : Prop :=
  asciiUpperChar c = asciiUpperChar d ∨ (c = '_' ∧ d = '-')

/-- The characters of identifiers in exchange documents. -/
def IsCodeChar (c : Char) : Prop := c.isDigit = true ∨ c ∈ "DPST-".toList

instance : DecidablePred IsCodeChar :=
  fun c => inferInstanceAs (Decidable (c.isDigit = true ∨ c ∈ "DPST-".toList))

/-- A character in capitals, with a hyphen for an underscore. -/
def keyChar (c : Char) : Char :=
  if asciiUpperChar c = '_' then '-' else asciiUpperChar c

section

variable {c d : Char}

/-- Only a capital is the upper case of another character. -/
theorem eq_of_asciiUpperChar_eq (h : asciiUpperChar c = d) (hd : ¬('A' ≤ d ∧ d ≤ 'Z')) :
    c = d := by
  rw [asciiUpperChar] at h
  split at h
  case isFalse => exact h
  case isTrue hc =>
    have hl : 97 ≤ c.toNat := hc.1
    have hu : c.toNat ≤ 122 := hc.2
    have hn : d.toNat = c.toNat - 32 := by
      rw [← h]
      exact Utf8.toNat_charOfNat (by omega)
    have hA : 'A' ≤ d := show 65 ≤ d.toNat by omega
    have hZ : d ≤ 'Z' := show d.toNat ≤ 90 by omega
    exact absurd ⟨hA, hZ⟩ hd

/-- The digits stand before the letters. -/
theorem not_letter_le_of_isDigit (h : c.isDigit = true) : ¬ 'A' ≤ c ∧ ¬ 'a' ≤ c := by
  have hu : c.toNat ≤ 57 := (toNat_of_isDigit h).2
  constructor
  · intro hA
    have hl : 65 ≤ c.toNat := hA
    omega
  · intro ha
    have hl : 97 ≤ c.toNat := ha
    omega

theorem asciiUpperChar_of_isDigit (h : c.isDigit = true) : asciiUpperChar c = c :=
  if_neg fun hc => (not_letter_le_of_isDigit h).2 hc.1

theorem asciiUpperChar_of_isBlank (h : isBlank c = true) : asciiUpperChar c = c := by
  refine if_neg fun hc => ?_
  have hl : 97 ≤ c.toNat := hc.1
  have hu : c.toNat ≤ 122 := hc.2
  simp only [isBlank, Bool.or_eq_true, Bool.and_eq_true, decide_eq_true_eq, beq_iff_eq] at h
  omega

/-- Digits and points are compared as they are. -/
theorem keyChar_eq_iff_eq (hd : d.isDigit = true ∨ d = '.') : keyChar c = d ↔ c = d := by
  have hne : d ≠ '-' ∧ d ≠ '_' ∧ asciiUpperChar d = d ∧ ¬ 'A' ≤ d := by
    rcases hd with hd | rfl
    · exact ⟨ne_of_isDigit hd (by decide), ne_of_isDigit hd (by decide),
        asciiUpperChar_of_isDigit hd, (not_letter_le_of_isDigit hd).1⟩
    · decide
  obtain ⟨hh, hu, hs, hA⟩ := hne
  constructor
  · intro h
    rw [keyChar] at h
    split at h
    case isTrue => exact absurd h.symm hh
    case isFalse => exact eq_of_asciiUpperChar_eq h fun hd => hA hd.1
  · rintro rfl
    rw [keyChar, hs, if_neg hu]

namespace IsCodeChar

/-- The characters one by one, but for the digits. -/
theorem isDigit_or (h : IsCodeChar c) :
    c.isDigit = true ∨ c = 'D' ∨ c = 'P' ∨ c = 'S' ∨ c = 'T' ∨ c = '-' := by
  have hk : "DPST-".toList = ['D', 'P', 'S', 'T', '-'] := by decide
  refine h.imp_right fun h => ?_
  rw [hk] at h
  simpa only [List.mem_cons, List.not_mem_nil, or_false] using h

theorem isBlank_eq_false (h : IsCodeChar c) : isBlank c = false := by
  rcases h.isDigit_or with h | rfl | rfl | rfl | rfl | rfl
  · exact isBlank_of_isDigit h
  all_goals decide

theorem asciiUpperChar_eq (h : IsCodeChar c) : asciiUpperChar c = c := by
  rcases h.isDigit_or with h | rfl | rfl | rfl | rfl | rfl
  · exact asciiUpperChar_of_isDigit h
  all_goals decide

/-- A character is compared as the one that it stands for. -/
theorem keyChar_eq_iff (h : IsCodeChar d) : keyChar c = d ↔ StandsFor c d := by
  rw [StandsFor, h.asciiUpperChar_eq, keyChar]
  split
  case isTrue hc =>
    obtain rfl := eq_of_asciiUpperChar_eq hc (by decide)
    have hne : '_' ≠ d := fun hd => absurd (hd ▸ h) (by decide)
    rw [hc, or_iff_right hne]
    exact ⟨fun hd => ⟨rfl, hd.symm⟩, fun hd => hd.2.symm⟩
  case isFalse hc =>
    refine (or_iff_left fun hd => hc ?_).symm
    rw [hd.1]
    rfl

end IsCodeChar

/-- No blank character stands for a character of an identifier. -/
theorem StandsFor.isBlank_eq_false (h : StandsFor c d) (hd : IsCodeChar d) :
    isBlank c = false := by
  rcases h with h | ⟨rfl, -⟩
  · by_contra hc
    have hb : isBlank c = true := Bool.not_eq_false _ ▸ hc
    rw [asciiUpperChar_of_isBlank hb, hd.asciiUpperChar_eq] at h
    rw [h, hd.isBlank_eq_false] at hb
    cases hb
  · decide

end

namespace TypeId

/-! ## The two forms -/

/-- A text spells both numbers of an identifier, with a separator between them. Leading zeros are
part of a spelling. -/
def SpelledWith (sep : Char) (s : List Char) (id : TypeId) : Prop :=
  ∃ main sub, s = main ++ sep :: sub ∧ Spells main id.main.toNat ∧ Spells sub id.sub.toNat

/-- A text writes an identifier: its numbers with a point between them, or a text whose characters
stand for a keyword and its numbers with a hyphen between them. -/
def WrittenAs (id : TypeId) (s : List Char) : Prop :=
  SpelledWith '.' s id ∨ ∃ keyword numbers,
    (keyword = "DPST-".toList ∨ keyword = "DPT-".toList) ∧ SpelledWith '-' numbers id ∧
      List.Forall₂ StandsFor s (keyword ++ numbers)

variable {s t numbers : List Char} {id : TypeId}

theorem SpelledWith.isDigit_or {sep c : Char} (h : SpelledWith sep s id) (hc : c ∈ s) :
    c.isDigit = true ∨ c = sep := by
  obtain ⟨main, sub, rfl, hm, hs⟩ := h
  rw [List.mem_append, List.mem_cons] at hc
  rcases hc with hc | hc | hc
  · exact .inl (hm.isDigit c hc)
  · exact .inr hc
  · exact .inl (hs.isDigit c hc)

theorem SpelledWith.isCodeChar {c : Char} (h : SpelledWith '-' s id) (hc : c ∈ s) :
    IsCodeChar c := by
  rcases h.isDigit_or hc with hc | rfl
  · exact .inl hc
  · exact .inr (by decide)

theorem isCodeChar_of_keyword {keyword : List Char} {c : Char}
    (hk : keyword = "DPST-".toList ∨ keyword = "DPT-".toList) (h : SpelledWith '-' numbers id)
    (hc : c ∈ keyword ++ numbers) : IsCodeChar c := by
  rcases List.mem_append.mp hc with hc | hc
  · refine .inr ?_
    rcases hk with rfl | rfl
    · exact hc
    · have hall : "DPT-".toList.all (· ∈ "DPST-".toList) = true := by decide
      exact of_decide_eq_true (List.all_eq_true.mp hall c hc)
  · exact h.isCodeChar hc

/-! ## Numbers -/

theorem readNumber_eq_some_iff {n : UInt16} : readNumber s = some n ↔ Spells s n.toNat := by
  constructor
  · intro h
    rw [readNumber] at h
    cases hr : readDigits 65535 s with
    | error fault =>
      rw [hr] at h
      cases h
    | ok m =>
      rw [hr] at h
      obtain rfl : UInt16.ofNat m = n := Option.some.inj h
      obtain ⟨hs, hm⟩ := readDigits_eq_ok_iff.mp hr
      rwa [UInt16.toNat_ofNat_of_lt' (Nat.lt_succ_of_le hm)]
  · intro h
    rw [readNumber, readDigits_eq_ok_iff.mpr ⟨h, Nat.le_of_lt_succ n.toNat_lt⟩]
    exact congrArg some UInt16.ofNat_toNat

theorem ofNumbers?_eq_some_iff {fs : List (List Char)} : ofNumbers? fs = some id ↔
    ∃ main sub, fs = [main, sub] ∧ Spells main id.main.toNat ∧ Spells sub id.sub.toNat := by
  constructor
  · intro h
    match fs, h with
    | [main, sub], h =>
      obtain ⟨m, hm, h⟩ := Option.bind_eq_some_iff.mp h
      obtain ⟨n, hn, h⟩ := Option.bind_eq_some_iff.mp h
      obtain rfl := Option.some.inj h
      exact ⟨main, sub, rfl, readNumber_eq_some_iff.mp hm, readNumber_eq_some_iff.mp hn⟩
  · rintro ⟨main, sub, rfl, hm, hs⟩
    simp [ofNumbers?, readNumber_eq_some_iff.mpr hm, readNumber_eq_some_iff.mpr hs]

/-- An identifier is read from the fields of a text exactly if the text spells its numbers. -/
theorem ofNumbers?_fields_eq_some_iff {sep : Char} (hsep : sep.isDigit = false) :
    ofNumbers? (fields sep s) = some id ↔ SpelledWith sep s id := by
  rw [ofNumbers?_eq_some_iff]
  constructor
  · rintro ⟨main, sub, hf, hm, hs⟩
    refine ⟨main, sub, ?_, hm, hs⟩
    rw [← join_fields sep s, hf]
    simp [join]
  · rintro ⟨main, sub, rfl, hm, hs⟩
    refine ⟨main, sub, ?_, hm, hs⟩
    have hn {digits : List Char} {n : Nat} (h : Spells digits n) : sep ∉ digits :=
      fun hc => ne_of_isDigit (h.isDigit sep hc) hsep rfl
    rw [fields_append_cons (hn hm), fields_of_not_mem (hn hs)]

/-! ## Reading -/

/-- The characters of a text are compared one by one: the form in which keywords are compared
changes each on its own. -/
theorem keyForm_eq (s : List Char) : keyForm s = (trim s).map keyChar :=
  List.map_map

/-- A text is changed into another exactly if each of its characters is. -/
theorem map_eq_iff_forall₂ {f : Char → Char} {R : Char → Char → Prop}
    (h : ∀ c, ∀ d ∈ t, f c = d ↔ R c d) : s.map f = t ↔ List.Forall₂ R s t := by
  induction s generalizing t with
  | nil => rw [List.map_nil, List.forall₂_nil_left_iff, eq_comm]
  | cons c s ih =>
    cases t with
    | nil => exact ⟨nofun, nofun⟩
    | cons d t =>
      rw [List.map_cons, List.cons_eq_cons, List.forall₂_cons, h c d (.head t),
        ih fun c e he => h c e (.tail d he)]

theorem dropKeyword?_eq_some_iff {keyword rest : List Char} :
    dropKeyword? keyword s = some rest ↔ s = keyword ++ rest := by
  rw [dropKeyword?]
  split
  case isTrue h =>
    obtain ⟨t, rfl⟩ := List.isPrefixOf_iff_prefix.mp h
    rw [List.drop_left, Option.some_inj, List.append_cancel_left_eq]
  case isFalse h =>
    refine ⟨nofun, fun hs => absurd (List.isPrefixOf_iff_prefix.mpr ?_) h⟩
    exact hs ▸ List.prefix_append keyword rest

/-- What follows either keyword is what is left when it is dropped. -/
theorem dropKeywords_eq_some_iff {rest : List Char} :
    (dropKeyword? "DPST-".toList s <|> dropKeyword? "DPT-".toList s) = some rest ↔
      ∃ keyword, (keyword = "DPST-".toList ∨ keyword = "DPT-".toList) ∧ s = keyword ++ rest := by
  rw [Option.orElse_eq_orElse]
  constructor
  · intro h
    cases hd : dropKeyword? "DPST-".toList s with
    | some numbers =>
      rw [hd] at h
      exact ⟨_, .inl rfl, dropKeyword?_eq_some_iff.mp (hd.trans h)⟩
    | none =>
      rw [hd] at h
      exact ⟨_, .inr rfl, dropKeyword?_eq_some_iff.mp h⟩
  · rintro ⟨keyword, rfl | rfl, rfl⟩
    · rw [dropKeyword?_eq_some_iff.mpr rfl]
      rfl
    · -- the keywords differ in their third letters
      have hd : dropKeyword? "DPST-".toList ("DPT-".toList ++ rest) = none := rfl
      rw [hd]
      exact dropKeyword?_eq_some_iff.mpr rfl

/-- A text of digits and points is compared as it is. -/
theorem keyForm_eq_iff_trim_eq (h : SpelledWith '.' t id) : keyForm s = t ↔ trim s = t := by
  rw [keyForm_eq, map_eq_iff_forall₂ fun c d hd => keyChar_eq_iff_eq (h.isDigit_or hd),
    List.forall₂_eq_eq_eq]

/-- A text is compared as the one that its characters stand for. -/
theorem keyForm_eq_iff_standsFor (h : ∀ d ∈ t, IsCodeChar d) :
    keyForm s = t ↔ List.Forall₂ StandsFor (trim s) t := by
  rw [keyForm_eq, map_eq_iff_forall₂ fun c d hd => (h d hd).keyChar_eq_iff]

/-- **The texts of identifiers.** A text is read as an identifier exactly if, without the blank
characters at its ends, it is written as that identifier. -/
theorem read_eq_some_iff : read s = some id ↔ id.WrittenAs (trim s) := by
  have hkeyed {keyword numbers : List Char}
      (hk : keyword = "DPST-".toList ∨ keyword = "DPT-".toList)
      (hn : SpelledWith '-' numbers id) :
      keyForm s = keyword ++ numbers ↔ List.Forall₂ StandsFor (trim s) (keyword ++ numbers) :=
    keyForm_eq_iff_standsFor fun _ hd => isCodeChar_of_keyword hk hn hd
  rw [read]
  split
  case isTrue hp =>
    rw [ofNumbers?_fields_eq_some_iff (by decide)]
    constructor
    · intro h
      have ht : trim s = keyForm s := (keyForm_eq_iff_trim_eq h).mp rfl
      exact .inl (ht ▸ h)
    · rintro (h | ⟨keyword, numbers, hk, hn, hs⟩)
      · rwa [(keyForm_eq_iff_trim_eq h).mpr rfl]
      · -- no keyword and no number has a point
        rw [(hkeyed hk hn).mpr hs] at hp
        exact absurd (isCodeChar_of_keyword hk hn hp) (by decide)
  case isFalse hp =>
    constructor
    · intro h
      split at h
      case h_2 => cases h
      case h_1 numbers hd =>
        obtain ⟨keyword, hk, hs⟩ := dropKeywords_eq_some_iff.mp hd
        have hn := (ofNumbers?_fields_eq_some_iff (by decide)).mp h
        exact .inr ⟨keyword, numbers, hk, hn, (hkeyed hk hn).mp hs⟩
    · rintro (h | ⟨keyword, numbers, hk, hn, hs⟩)
      · rw [(keyForm_eq_iff_trim_eq h).mpr rfl] at hp
        obtain ⟨main, sub, ht, -, -⟩ := h
        exact absurd (ht ▸ List.mem_append_right main (.head sub)) hp
      · have hd := dropKeywords_eq_some_iff.mpr ⟨keyword, hk, (hkeyed hk hn).mpr hs⟩
        rw [hd]
        exact (ofNumbers?_fields_eq_some_iff (by decide)).mpr hn

/-! ## Written identifiers -/

theorem toList_text (id : TypeId) : id.text.toList =
    Nat.toDigits 10 id.main.toNat ++ '.' :: paddedDecimal 3 id.sub.toNat := by
  have h : id.text.toList = Nat.toDigits 10 id.main.toNat ++ ['.'] ++
      paddedDecimal 3 id.sub.toNat := String.toList_ofList
  rw [h, List.append_assoc]
  rfl

theorem toList_exchangeText (id : TypeId) : id.exchangeText.toList =
    "DPST-".toList ++ (Nat.toDigits 10 id.main.toNat ++ '-' :: Nat.toDigits 10 id.sub.toNat) := by
  have h : id.exchangeText.toList = "DPST-".toList ++ Nat.toDigits 10 id.main.toNat ++ ['-'] ++
      Nat.toDigits 10 id.sub.toNat := String.toList_ofList
  rw [h, List.append_assoc, List.append_assoc]
  exact rfl

theorem spelledWith_text (id : TypeId) : SpelledWith '.' id.text.toList id :=
  ⟨_, _, id.toList_text, spells_toDigits _, spells_paddedDecimal 3 _⟩

/-- The numbers in the form of the exchange document. -/
theorem spelledWith_toDigits (id : TypeId) :
    SpelledWith '-' (Nat.toDigits 10 id.main.toNat ++ '-' :: Nat.toDigits 10 id.sub.toNat) id :=
  ⟨_, _, rfl, spells_toDigits _, spells_toDigits _⟩

theorem isCodeChar_of_mem {c : Char} (h : c ∈ id.exchangeText.toList) : IsCodeChar c := by
  rw [toList_exchangeText] at h
  exact isCodeChar_of_keyword (.inl rfl) id.spelledWith_toDigits h

/-- An identifier is read from its text, whatever its numbers; that it is registered is not asked.
-/
theorem read_text (id : TypeId) : read id.text.toList = some id := by
  have ht : trim id.text.toList = id.text.toList := by
    refine trim_eq_self fun c hc => ?_
    rcases id.spelledWith_text.isDigit_or hc with hc | rfl
    · exact isBlank_of_isDigit hc
    · decide
  exact read_eq_some_iff.mpr (.inl (ht.symm ▸ id.spelledWith_text))

/-- An identifier is read from every text whose characters stand for those of its form in exchange
documents. -/
theorem read_of_standsFor (h : List.Forall₂ StandsFor s id.exchangeText.toList) :
    read s = some id := by
  have ht : trim s = s := by
    refine trim_eq_self fun c hc => ?_
    obtain ⟨d, hd, hcd⟩ := exists_of_mem_left h hc
    exact hcd.isBlank_eq_false (isCodeChar_of_mem hd)
  rw [toList_exchangeText] at h
  exact read_eq_some_iff.mpr (.inr ⟨_, _, .inl rfl, id.spelledWith_toDigits, ht.symm ▸ h⟩)

/-- An identifier is read from its form in exchange documents. -/
theorem read_exchangeText (id : TypeId) : read id.exchangeText.toList = some id :=
  read_of_standsFor (List.forall₂_same.mpr fun _ _ => .inl rfl)

/-! ## The laws -/

theorem parse_eq_ok_iff {text : String} : parse text = .ok id ↔ read text.toList = some id := by
  rw [parse]
  cases read text.toList <;> simp

/-- **The laws of the texts of identifiers.** A text is read as an identifier exactly if it is
written as it, and refused as it is if it is not written as any. Every identifier is read from its
text, which no other identifier shares, from its form in exchange documents, and from this form in
any letter case and with underscores for any of its hyphens. -/
theorem parse_laws :
    (∀ text id, parse text = .ok id ↔ id.WrittenAs (trim text.toList)) ∧
    (∀ text, (¬∃ id : TypeId, id.WrittenAs (trim text.toList)) →
      parse text = .error (.malformedIdentifier text)) ∧
    (∀ id, parse id.text = .ok id) ∧
    (∀ id, parse id.exchangeText = .ok id) ∧
    (∀ id s, List.Forall₂ StandsFor s id.exchangeText.toList →
      parse (String.ofList s) = .ok id) ∧
    Function.Injective text := by
  refine ⟨fun text id => ?_, fun text h => ?_, fun id => ?_, fun id => ?_, fun id s h => ?_,
    fun id other h => ?_⟩
  · rw [parse_eq_ok_iff, read_eq_some_iff]
  · have hr : read text.toList = none :=
      Option.eq_none_iff_forall_ne_some.mpr fun id hr => h ⟨id, read_eq_some_iff.mp hr⟩
    rw [parse, hr]
  · exact parse_eq_ok_iff.mpr id.read_text
  · exact parse_eq_ok_iff.mpr id.read_exchangeText
  · exact parse_eq_ok_iff.mpr (by rw [String.toList_ofList, read_of_standsFor h])
  · exact Option.some.inj (id.read_text.symm.trans (h ▸ other.read_text))

/-- A text with a small keyword, an underscore and leading zeros, and one with a sign. -/
example : parse " dpt_9-0001 " = .ok ⟨9, 1⟩ ∧
    parse "+9.001" = .error (.malformedIdentifier "+9.001") := by decide

end TypeId

end BuildingBus.Datapoint
