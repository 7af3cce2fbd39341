import BuildingBus.Address.Basic
import BuildingBus.Proofs.Number.Numerals
import BuildingBus.Proofs.Steps

/-!
# Texts of addresses

A text is cut at the separator of its scheme, and what it is read as depends on its fields alone. It
is *well-formed* if it has at most three fields and each writes a number of 32 bits; it *exceeds* the
limits for its count of fields if some field writes more than its limit; it *writes zero* if every
field does. Reading asks for these one after the other and refuses a text for the first thing that
is wrong with it. Any other text is read as an address, and that address is written as the same
fields without plus signs and leading zeros.

`TextLaws` states this for one kind of address, together with the way back: every address other than
zero is read from each of its texts. The main statement is that the laws hold of both kinds
(`textLaws_of_addresses`).
-/

namespace BuildingBus.Address

open Number Text

/-! ## Limits -/

/-- Fields write zero only if each of them is zero. -/
theorem compose_eq_zero_iff {limits values : List Nat} (h : within limits values = true) :
    compose limits values = 0 ↔ ∀ n ∈ values, n = 0 := by
  induction limits generalizing values with
  | nil => cases values <;> simp [within, compose] at *
  | cons limit limits ih =>
    cases values with
    | nil => simp [within] at h
    | cons n values =>
      simp only [within, Bool.and_eq_true] at h
      have hc : capacity limits ≠ 0 := Nat.ne_of_gt (capacity_pos limits)
      rw [compose, Nat.add_eq_zero_iff, Nat.mul_eq_zero, or_iff_left hc, ih h.2,
        List.forall_mem_cons]

/-- No field is greater than the number that it is a part of. -/
theorem le_of_mem_decompose {limits : List Nat} {n d : Nat} (h : d ∈ decompose limits n) :
    d ≤ n := by
  induction limits generalizing n with
  | nil => exact absurd h List.not_mem_nil
  | cons limit limits ih =>
    rcases List.mem_cons.mp h with rfl | h
    · exact Nat.div_le_self n (capacity limits)
    · exact Nat.le_trans (ih h) (Nat.mod_le n (capacity limits))

theorem length_decompose (limits : List Nat) (n : Nat) :
    (decompose limits n).length = limits.length := by
  induction limits generalizing n with
  | nil => rfl
  | cons limit limits ih => simp [decompose, ih]

/-! ## Styles -/

namespace Style

/-- How many fields a style writes. -/
def count : Style → Nat
  | free => 1
  | twoLevel => 2
  | threeLevel | unspecified => 3

/-- The style that writes so many fields. -/
def ofCount : Nat → Style
  | 1 => free
  | 2 => twoLevel
  | _ => threeLevel

theorem count_ofCount {k : Nat} (hpos : 0 < k) (h : k ≤ 3) : (ofCount k).count = k := by
  match k, hpos, h with
  | 1, _, _ | 2, _, _ | 3, _, _ => rfl

theorem limitsOf_ofCount_count (S : Scheme) (style : Style) :
    S.limitsOf (ofCount style.count) = S.limitsOf style := by
  cases style <;> rfl

theorem limitsFor_of_le (S : Scheme) {k : Nat} (hpos : 0 < k) (h : k ≤ 3) :
    S.limitsFor k = some (S.limitsOf (ofCount k)) := by
  match k, hpos, h with
  | 1, _, _ | 2, _, _ | 3, _, _ => rfl

end Style

namespace Scheme

/-! ## What a text writes -/

section

variable (S : Scheme) (s : List Char)

/-- The style that writes as many fields as a text has. A text does not name its style, and this is
what is kept of it when it is read and written again. -/
def styleOf : Style := .ofCount (fields S.separator s).length

/-- There are at most three fields, and each writes a number of 32 bits. Nothing is asked of the
size of the fields yet. -/
def WellFormed : Prop :=
  (fields S.separator s).length ≤ 3 ∧ ∀ f ∈ fields S.separator s, ∃ n < UInt32.size, Writes f n

/-- Some field writes more than its limit. -/
def Exceeds : Prop :=
  ∃ p ∈ (fields S.separator s).zip (S.limitsOf (S.styleOf s)), ∃ n, Writes p.1 n ∧ p.2 < n

/-- Every field writes zero. -/
def WritesZero : Prop := ∀ f ∈ fields S.separator s, Writes f 0

/-- The text with its fields less their plus signs and leading zeros, which is what is written for
the address that the text writes. -/
def plainText : List Char := join [S.separator] ((fields S.separator s).map plain)

end

/-! ## Schemes for sixteen bits -/

/-- All styles write sixteen bits, each in its count of fields, and no separator is a digit. Both
kinds of addresses are so, and this is all that their laws need. -/
structure Balanced (S : Scheme) : Prop where
  /-- there is a limit for each field -/
  length_limitsOf : ∀ style, (S.limitsOf style).length = style.count
  /-- the fields write the numbers of sixteen bits -/
  capacity_limitsOf : ∀ style, capacity (S.limitsOf style) = 65536
  /-- a field ends where the separator begins -/
  isDigit_separator : S.separator.isDigit = false

variable {S : Scheme} {s : List Char} {values : List Nat}

theorem length_fields_pos (S : Scheme) (s : List Char) : 0 < (fields S.separator s).length :=
  List.length_pos_of_ne_nil (fields_ne_nil S.separator s)

/-- Each field of a text with at most three fields has a limit. -/
theorem Balanced.length_limitsOf_styleOf (hS : S.Balanced)
    (h : (fields S.separator s).length ≤ 3) :
    (S.limitsOf (S.styleOf s)).length = (fields S.separator s).length := by
  rw [hS.length_limitsOf, styleOf, Style.count_ofCount (length_fields_pos S s) h]

/-! ## Reading -/

theorem readField_eq_some_iff {f : List Char} {n : Nat} :
    readField f = some n ↔ Writes f n ∧ n < UInt32.size := by
  have hn : n < UInt32.size ↔ n ≤ 0xFFFFFFFF := Nat.lt_succ_iff
  rw [hn, ← readUnsigned_eq_ok_iff, readField]
  cases readUnsigned 0xFFFFFFFF f <;> simp [Except.toOption]

/-- A text is well-formed if it has at most three fields and each of them can be read. -/
theorem wellFormed_iff :
    S.WellFormed s ↔ (fields S.separator s).length ≤ 3 ∧
      ∃ values, (fields S.separator s).mapM readField = some values := by
  rw [WellFormed, exists_mapM_eq_some_iff]
  simp only [readField_eq_some_iff, and_comm]

/-- A text that is not well-formed is refused as such. -/
theorem read_of_not_wellFormed (h : ¬S.WellFormed s) : S.read s = .error .malformed := by
  unfold read
  cases hm : (fields S.separator s).mapM readField with
  | none => rfl
  | some values =>
    have hlen : 3 < values.length := by
      rw [← (mapM_eq_some_iff.mp hm).length_eq]
      exact Nat.lt_of_not_le fun hle => h (wellFormed_iff.mpr ⟨hle, values, hm⟩)
    match values, hlen with
    | _ :: _ :: _ :: _ :: _, _ => rfl

/-- A text with at most three fields that can be read is read by the limits of its style. -/
theorem read_of_values (h : (fields S.separator s).length ≤ 3)
    (hm : (fields S.separator s).mapM readField = some values) :
    S.read s =
      if within (S.limitsOf (S.styleOf s)) values = false then .error .outOfRange
      else if compose (S.limitsOf (S.styleOf s)) values = 0 then .error .zero
      else .ok (.ofNat (compose (S.limitsOf (S.styleOf s)) values)) := by
  have hl := Style.limitsFor_of_le S (length_fields_pos S s) h
  rw [(mapM_eq_some_iff.mp hm).length_eq] at hl
  rw [read, hm, styleOf, (mapM_eq_some_iff.mp hm).length_eq]
  simp only [hl]

/-- The numbers that are read are those that the fields write. -/
theorem writes_of_mapM {fs : List (List Char)} (hm : fs.mapM readField = some values) :
    List.Forall₂ Writes fs values :=
  (mapM_eq_some_iff.mp hm).imp fun _ _ hf => (readField_eq_some_iff.mp hf).1

/-- Numbers are not within limits exactly if a field that writes one exceeds its limit. -/
theorem within_eq_false_iff {fs : List (List Char)} {limits : List Nat}
    (hw : List.Forall₂ Writes fs values) (hl : limits.length = fs.length) :
    within limits values = false ↔ ∃ p ∈ fs.zip limits, ∃ n, Writes p.1 n ∧ p.2 < n := by
  induction hw generalizing limits with
  | nil =>
    obtain rfl := List.length_eq_zero_iff.mp hl
    simp [within]
  | @cons f n fs values hf _ ih =>
    obtain ⟨limit, limits, rfl⟩ := List.exists_cons_of_length_eq_add_one hl
    have hn : (∃ m, Writes f m ∧ limit < m) ↔ limit < n := by
      constructor
      · rintro ⟨m, hm, hlt⟩
        exact hm.unique hf ▸ hlt
      · exact fun hlt => ⟨n, hf, hlt⟩
    rw [within, Bool.and_eq_false_iff, decide_eq_false_iff_not, Nat.not_le, ih (Nat.succ.inj hl),
      List.zip_cons_cons, List.exists_mem_cons_iff, hn]

/-- Numbers are zero exactly if the fields write zero. -/
theorem forall_eq_zero_iff {fs : List (List Char)} (hw : List.Forall₂ Writes fs values) :
    (∀ n ∈ values, n = 0) ↔ ∀ f ∈ fs, Writes f 0 := by
  induction hw with
  | nil => simp
  | @cons f n fs values hf _ ih =>
    have hn : n = 0 ↔ Writes f 0 := ⟨fun h => h ▸ hf, fun h => hf.unique h⟩
    rw [List.forall_mem_cons, List.forall_mem_cons, hn, ih]

/-- No text is read as the zero address. -/
theorem Balanced.raw_ne_zero_of_read (hS : S.Balanced) {raw : UInt16} (h : S.read s = .ok raw) :
    raw ≠ 0 := by
  by_cases hw : S.WellFormed s
  case neg =>
    rw [read_of_not_wellFormed hw] at h
    cases h
  case pos =>
    obtain ⟨hle, values, hm⟩ := wellFormed_iff.mp hw
    rw [read_of_values hle hm] at h
    split at h
    case isTrue => cases h
    case isFalse hin =>
      split at h
      case isTrue => cases h
      case isFalse hn =>
        obtain rfl := Except.ok.inj h
        -- the number fits into sixteen bits, so that it is not zero because it was cut
        have hlt := compose_lt (Bool.not_eq_false _ ▸ hin)
        rw [hS.capacity_limitsOf] at hlt
        intro hz
        have hz' := congrArg UInt16.toNat hz
        rw [UInt16.toNat_ofNat_of_lt' hlt] at hz'
        exact hn hz'

/-! ## Writing -/

/-- Numbers are written as the fields that write them, less plus signs and leading zeros. -/
theorem map_toDigits_of_writes {fs : List (List Char)} (hw : List.Forall₂ Writes fs values) :
    values.map (Nat.toDigits 10) = fs.map plain := by
  induction hw with
  | nil => rfl
  | cons hf _ ih => rw [List.map_cons, List.map_cons, hf.plain_eq, ih]

/-- A number that is composed of fields is written as those fields. -/
theorem Balanced.write_compose (hS : S.Balanced) {style : Style}
    (h : within (S.limitsOf style) values = true) :
    S.write style (.ofNat (compose (S.limitsOf style) values)) = S.writeFields values := by
  have hlt := compose_lt h
  rw [hS.capacity_limitsOf] at hlt
  rw [write, UInt16.toNat_ofNat_of_lt' hlt, decompose_compose h]

/-- Written fields are cut at their separators. -/
theorem Balanced.fields_writeFields (hS : S.Balanced) (h : values ≠ []) :
    fields S.separator (S.writeFields values) = values.map (Nat.toDigits 10) := by
  refine fields_join (fun hn => h (List.map_eq_nil_iff.mp hn)) fun f hf => ?_
  obtain ⟨n, -, rfl⟩ := List.mem_map.mp hf
  exact not_mem_toDigits hS.isDigit_separator

theorem mapM_readField_toDigits (h : ∀ n ∈ values, n < UInt32.size) :
    (values.map (Nat.toDigits 10)).mapM readField = some values := by
  rw [mapM_eq_some_iff, List.forall₂_map_left_iff, List.forall₂_same]
  exact fun n hn => readField_eq_some_iff.mpr ⟨(spells_toDigits n).writes, h n hn⟩

/-- An address other than zero is read from its text in any style. -/
theorem Balanced.read_write (hS : S.Balanced) (style : Style) {raw : UInt16} (h : raw ≠ 0) :
    S.read (S.write style raw) = .ok raw := by
  have hlt : raw.toNat < capacity (S.limitsOf style) := by
    rw [hS.capacity_limitsOf]
    exact raw.toNat_lt
  have hlen : (decompose (S.limitsOf style) raw.toNat).length = style.count := by
    rw [length_decompose, hS.length_limitsOf]
  have hne : decompose (S.limitsOf style) raw.toNat ≠ [] := by
    intro hn
    rw [hn] at hlen
    cases style <;> cases hlen
  have hf : fields S.separator (S.write style raw) =
      (decompose (S.limitsOf style) raw.toNat).map (Nat.toDigits 10) := hS.fields_writeFields hne
  have hcount : (fields S.separator (S.write style raw)).length = style.count := by
    rw [hf, List.length_map, hlen]
  have hm : (fields S.separator (S.write style raw)).mapM readField =
      some (decompose (S.limitsOf style) raw.toNat) := by
    rw [hf]
    refine mapM_readField_toDigits fun n hn => ?_
    have hle : n ≤ raw.toNat := le_of_mem_decompose hn
    exact Nat.lt_of_le_of_lt hle (Nat.lt_trans raw.toNat_lt (by decide))
  have hle : (fields S.separator (S.write style raw)).length ≤ 3 := by
    rw [hcount]
    cases style <;> decide
  have hz : raw.toNat ≠ 0 := fun hz => h (UInt16.toNat_inj.mp hz)
  rw [read_of_values hle hm, styleOf, hcount, Style.limitsOf_ofCount_count, within_decompose hlt,
    compose_decompose hlt, if_neg (by decide), if_neg hz, UInt16.ofNat_toNat]

end Scheme

/-! ## The laws -/

/-- **The laws of texts** for a kind of address that is written by a scheme. They say of every text
what it is read as, and of every address other than zero that it is read from its texts. -/
structure TextLaws {A : Type} (S : Scheme) (malformed : String → AddressError)
    (parse : String → Except AddressError A) (format : A → Style → String) (raw : A → UInt16) :
    Prop where
  /-- more than three fields, or a field that writes no number of 32 bits -/
  parse_malformed : ∀ text, ¬S.WellFormed text.toList → parse text = .error (malformed text)
  /-- a field beyond its limit -/
  parse_outOfRange : ∀ text, S.WellFormed text.toList → S.Exceeds text.toList →
    parse text = .error (.outOfRange text)
  /-- every field zero -/
  parse_zero : ∀ text, S.WellFormed text.toList → ¬S.Exceeds text.toList →
    S.WritesZero text.toList → parse text = .error (.zero text)
  /-- any other text, and the address that it writes -/
  format_parse : ∀ text, S.WellFormed text.toList → ¬S.Exceeds text.toList →
    ¬S.WritesZero text.toList → ∃ a, parse text = .ok a ∧
      format a (S.styleOf text.toList) = String.ofList (S.plainText text.toList)
  /-- an address from its text in any of the four styles -/
  parse_format : ∀ a style, raw a ≠ 0 → parse (format a style) = .ok a

/-- A kind of address obeys the laws if it is read and written by a scheme for sixteen bits. -/
theorem Scheme.Balanced.textLaws {A : Type} {S : Scheme} (hS : S.Balanced)
    {malformed : String → AddressError} {parse : String → Except AddressError A}
    {format : A → Style → String} {raw : A → UInt16} (ofRaw : UInt16 → A)
    (hparse : ∀ text, parse text = match S.read text.toList with
      | .ok raw => .ok (ofRaw raw)
      | .error fault => .error (fault.toError malformed text))
    (hformat : ∀ a style, format a style = String.ofList (S.write style (raw a)))
    (hraw : ∀ r, raw (ofRaw r) = r) (hofRaw : ∀ a, ofRaw (raw a) = a) :
    TextLaws S malformed parse format raw where
  parse_malformed text h := by
    rw [hparse, read_of_not_wellFormed h]
    rfl
  parse_outOfRange text h he := by
    obtain ⟨hle, values, hm⟩ := wellFormed_iff.mp h
    have hw := (within_eq_false_iff (writes_of_mapM hm) (hS.length_limitsOf_styleOf hle)).mpr he
    rw [hparse, read_of_values hle hm, if_pos hw]
    rfl
  parse_zero text h he hz := by
    obtain ⟨hle, values, hm⟩ := wellFormed_iff.mp h
    have hw := mt (within_eq_false_iff (writes_of_mapM hm) (hS.length_limitsOf_styleOf hle)).mp he
    have hc := (compose_eq_zero_iff (Bool.not_eq_false _ ▸ hw)).mpr
      ((forall_eq_zero_iff (writes_of_mapM hm)).mpr hz)
    rw [hparse, read_of_values hle hm, if_neg hw, if_pos hc]
    rfl
  format_parse text h he hz := by
    obtain ⟨hle, values, hm⟩ := wellFormed_iff.mp h
    have hw := mt (within_eq_false_iff (writes_of_mapM hm) (hS.length_limitsOf_styleOf hle)).mp he
    have hw' : within (S.limitsOf (S.styleOf text.toList)) values = true :=
      Bool.not_eq_false _ ▸ hw
    have hc := fun hc => hz ((forall_eq_zero_iff (writes_of_mapM hm)).mp
      ((compose_eq_zero_iff hw').mp hc))
    refine ⟨ofRaw (.ofNat (compose (S.limitsOf (S.styleOf text.toList)) values)), ?_, ?_⟩
    · rw [hparse, read_of_values hle hm, if_neg hw, if_neg hc]
    · rw [hformat, hraw, hS.write_compose hw', writeFields, plainText,
        map_toDigits_of_writes (writes_of_mapM hm)]
  parse_format a style h := by
    rw [hparse, hformat, String.toList_ofList, hS.read_write style h]
    exact congrArg Except.ok (hofRaw a)

theorem GroupAddress.scheme_balanced : GroupAddress.scheme.Balanced where
  length_limitsOf style := by cases style <;> rfl
  capacity_limitsOf style := by cases style <;> rfl
  isDigit_separator := by decide

theorem IndividualAddress.scheme_balanced : IndividualAddress.scheme.Balanced where
  length_limitsOf style := by cases style <;> rfl
  capacity_limitsOf style := by cases style <;> rfl
  isDigit_separator := by decide

namespace GroupAddress

variable {a : GroupAddress} {text : String}

/-- A group address other than zero is read from its text in any style. -/
theorem parse_format (h : a.isZero = false) (style : Style) : parse (a.format style) = .ok a := by
  have hraw : a.raw ≠ 0 := beq_eq_false_iff_ne.mp h
  rw [parse, format, String.toList_ofList, scheme_balanced.read_write style hraw]

/-- No text is read as the zero address. -/
theorem isZero_of_parse (h : parse text = .ok a) : a.isZero = false := by
  unfold parse at h
  split at h
  case h_1 raw hr =>
    obtain rfl := Except.ok.inj h
    exact beq_eq_false_iff_ne.mpr (scheme_balanced.raw_ne_zero_of_read hr)
  case h_2 => cases h

end GroupAddress

/-- **Both kinds of addresses obey the laws of texts**: every text is an address or refused for the
first of the three faults that it has, and every address but zero is read from what it is written as
in each style. -/
theorem textLaws_of_addresses :
    TextLaws { separator := '/', two := [31, 2047], three := [31, 7, 255] }
      .malformedGroup GroupAddress.parse GroupAddress.format GroupAddress.raw ∧
    TextLaws { separator := '.', two := [255, 255], three := [15, 15, 255] }
      .malformedIndividual IndividualAddress.parse IndividualAddress.format
      IndividualAddress.raw :=
  ⟨GroupAddress.scheme_balanced.textLaws GroupAddress.mk (fun _ => rfl) (fun _ _ => rfl)
      (fun _ => rfl) (fun _ => rfl),
    IndividualAddress.scheme_balanced.textLaws IndividualAddress.mk (fun _ => rfl)
      (fun _ _ => rfl) (fun _ => rfl) (fun _ => rfl)⟩

/-- A text with a plus sign and leading zeros, and the same address without them. -/
example : GroupAddress.parse "+01/0007" = .ok ⟨2055⟩ ∧
    (⟨2055⟩ : GroupAddress).format .twoLevel = "1/7" := by decide

end BuildingBus.Address
