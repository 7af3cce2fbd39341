import BuildingBus.Number.Decimal
import BuildingBus.Text.Blank

/-!
# Numerals

The texts that write whole numbers: digits, at least one, that *spell* a number, and before them at
most a plus sign. Reading with a limit takes exactly the texts that write a number within it
(`readDigits_eq_ok_iff`, `readUnsigned_eq_ok_iff`).

Many texts write one number. Without the plus sign and the leading zeros, all of them are the
decimal digits of the number (`Writes.plain_eq`).
-/

namespace BuildingBus.Number

open Text

/-! ## Digits -/

theorem isDigit_of_mem_toDigits {n : Nat} {c : Char} (h : c ∈ Nat.toDigits 10 n) :
    c.isDigit = true :=
  Nat.isDigit_of_mem_toDigits (by decide) (by decide) h

theorem toNat_of_isDigit {c : Char} (h : c.isDigit = true) : 48 ≤ c.toNat ∧ c.toNat ≤ 57 := by
  simp only [Char.isDigit, Bool.and_eq_true, decide_eq_true_eq] at h
  exact h

theorem isBlank_of_isDigit {c : Char} (h : c.isDigit = true) : isBlank c = false := by
  obtain ⟨hl, hu⟩ := toNat_of_isDigit h
  simp only [isBlank, Bool.or_eq_false_iff, Bool.and_eq_false_iff, decide_eq_false_iff_not,
    beq_eq_false_iff_ne]
  omega

/-- A digit is not another character. -/
theorem ne_of_isDigit {c d : Char} (h : c.isDigit = true) (hd : d.isDigit = false) : c ≠ d := by
  rintro rfl
  rw [h] at hd
  cases hd

/-- A character that is no digit is not in a decimal number. -/
theorem not_mem_toDigits {n : Nat} {d : Char} (hd : d.isDigit = false) : d ∉ Nat.toDigits 10 n :=
  fun h => ne_of_isDigit (isDigit_of_mem_toDigits h) hd rfl

theorem trim_toDigits (n : Nat) : trim (Nat.toDigits 10 n) = Nat.toDigits 10 n :=
  trim_eq_self fun _ hc => isBlank_of_isDigit (isDigit_of_mem_toDigits hc)

/-- The value of a digit is a number of one digit, which is the digit. -/
theorem toDigits_digitValue {c : Char} (h : c.isDigit = true) :
    digitValue c < 10 ∧ Nat.toDigits 10 (digitValue c) = [c] := by
  obtain ⟨hl, hu⟩ := toNat_of_isDigit h
  have hv : digitValue c = c.toNat - 48 := rfl
  have hlt : digitValue c < 10 := by omega
  refine ⟨hlt, ?_⟩
  rw [Nat.toDigits_of_lt_base hlt, List.singleton_inj, ← Char.toNat_inj,
    Nat.toNat_digitChar_of_lt_ten hlt]
  omega

/-! ## Texts that write a number -/

/-- Digits that spell a number. There is at least one, and leading zeros are among them as they
stand. -/
structure Spells (digits : List Char) (n : Nat) : Prop where
  /-- there is a digit -/
  ne_nil : digits ≠ []
  /-- there are digits alone -/
  isDigit : ∀ c ∈ digits, c.isDigit = true
  /-- the number -/
  value_eq : digitsValue digits = n

/-- A text that writes a number: digits that spell it, after at most one plus sign. -/
def Writes (s : List Char) (n : Nat) : Prop :=
  ∃ digits, (s = digits ∨ s = '+' :: digits) ∧ Spells digits n

/-- Whether digits spell a number can be computed. -/
theorem Spells.of_all {digits : List Char} {n : Nat} (h : digits ≠ [] ∧ digits.all Char.isDigit = true)
    (hn : digitsValue digits = n) : Spells digits n :=
  ⟨h.1, List.all_eq_true.mp h.2, hn⟩

theorem spells_toDigits (n : Nat) : Spells (Nat.toDigits 10 n) n where
  ne_nil := Nat.toDigits_ne_nil
  isDigit _ hc := isDigit_of_mem_toDigits hc
  value_eq := Nat.ofDigitChars_ten_toDigits

section

variable {s : List Char} {limit acc n m : Nat}

theorem Spells.cons_zero (h : Spells s n) : Spells ('0' :: s) n where
  ne_nil := List.cons_ne_nil '0' s
  isDigit := List.forall_mem_cons.mpr ⟨rfl, h.isDigit⟩
  value_eq := h.value_eq

/-- Padding does not change the number. -/
theorem spells_paddedDecimal (width n : Nat) : Spells (paddedDecimal width n) n := by
  rw [paddedDecimal, padZeros]
  induction width - (Nat.toDigits 10 n).length with
  | zero => exact spells_toDigits n
  | succ k ih => exact ih.cons_zero

theorem Spells.writes (h : Spells s n) : Writes s n := ⟨s, .inl rfl, h⟩

/-- No digit is a plus sign. -/
theorem not_spells_plus : ¬Spells ('+' :: s) n :=
  fun h => ne_of_isDigit (h.isDigit '+' List.mem_cons_self) (by decide) rfl

theorem writes_plus_iff : Writes ('+' :: s) n ↔ Spells s n := by
  constructor
  · rintro ⟨digits, rfl | hs, h⟩
    · exact absurd h not_spells_plus
    · exact (List.cons.inj hs).2 ▸ h
  · exact fun h => ⟨s, .inr rfl, h⟩

theorem writes_iff_of_ne_plus (hs : ∀ t, s ≠ '+' :: t) : Writes s n ↔ Spells s n := by
  constructor
  · rintro ⟨digits, rfl | h, hd⟩
    · exact hd
    · exact absurd h (hs digits)
  · exact Spells.writes

/-! ## Reading -/

theorem le_ofDigitChars (acc : Nat) (s : List Char) : acc ≤ Nat.ofDigitChars 10 s acc := by
  induction s generalizing acc with
  | nil => simp
  | cons c s ih =>
    rw [Nat.ofDigitChars_cons]
    exact Nat.le_trans (by omega) (ih _)

/-- Digits are read as the number that they make of `acc`, if it is within the limit. -/
theorem readDigitsFrom_of_le (hs : ∀ c ∈ s, c.isDigit = true)
    (h : Nat.ofDigitChars 10 s acc ≤ limit) :
    readDigitsFrom limit acc s = .ok (Nat.ofDigitChars 10 s acc) := by
  induction s generalizing acc with
  | nil => simp [readDigitsFrom]
  | cons c s ih =>
    rw [Nat.ofDigitChars_cons] at h ⊢
    have hc : 10 * acc + digitValue c ≤ limit := Nat.le_trans (le_ofDigitChars _ s) h
    rw [readDigitsFrom, if_pos (hs c List.mem_cons_self), if_pos hc]
    exact ih (fun d hd => hs d (List.mem_cons_of_mem c hd)) h

/-- What is read after `acc` are digits, and the number that they make of it is within the limit. -/
theorem readDigitsFrom_eq_ok (ha : acc ≤ limit) (h : readDigitsFrom limit acc s = .ok n) :
    (∀ c ∈ s, c.isDigit = true) ∧ Nat.ofDigitChars 10 s acc = n ∧ n ≤ limit := by
  induction s generalizing acc with
  | nil =>
    obtain rfl := Except.ok.inj h
    exact ⟨fun _ hc => absurd hc List.not_mem_nil, Nat.ofDigitChars_nil, ha⟩
  | cons c s ih =>
    rw [readDigitsFrom] at h
    split at h
    case isFalse => cases h
    case isTrue hc =>
      dsimp only at h
      split at h
      case isFalse => cases h
      case isTrue hn =>
        obtain ⟨hs, hv, hle⟩ := ih hn h
        exact ⟨List.forall_mem_cons.mpr ⟨hc, hs⟩, hv, hle⟩

/-- Digits alone are read exactly if they spell a number within the limit. That the limit is asked
at each digit makes no difference, as numbers grow with their digits. -/
theorem readDigits_eq_ok_iff : readDigits limit s = .ok n ↔ Spells s n ∧ n ≤ limit := by
  cases s with
  | nil => exact ⟨nofun, fun h => absurd rfl h.1.ne_nil⟩
  | cons c s =>
    change readDigitsFrom limit 0 (c :: s) = .ok n ↔ _
    constructor
    · intro h
      obtain ⟨hd, hv, hle⟩ := readDigitsFrom_eq_ok (Nat.zero_le limit) h
      exact ⟨⟨List.cons_ne_nil c s, hd, hv⟩, hle⟩
    · rintro ⟨h, hle⟩
      have hv : Nat.ofDigitChars 10 (c :: s) 0 = n := h.value_eq
      rw [readDigitsFrom_of_le h.isDigit (hv.symm ▸ hle), hv]

/-- A text is read exactly if it writes a number within the limit. -/
theorem readUnsigned_eq_ok_iff : readUnsigned limit s = .ok n ↔ Writes s n ∧ n ≤ limit := by
  unfold readUnsigned
  split
  case h_1 digits => rw [readDigits_eq_ok_iff, writes_plus_iff]
  case h_2 hs => rw [readDigits_eq_ok_iff, writes_iff_of_ne_plus fun t ht => hs t ht]

/-- A text writes one number at most. -/
theorem Writes.unique (h : Writes s n) (ho : Writes s m) : n = m := by
  have hn : readUnsigned (n + m) s = .ok n := readUnsigned_eq_ok_iff.mpr ⟨h, Nat.le_add_right n m⟩
  have hm : readUnsigned (n + m) s = .ok m := readUnsigned_eq_ok_iff.mpr ⟨ho, Nat.le_add_left m n⟩
  exact Except.ok.inj (hn.symm.trans hm)

/-- A decimal number has no sign that reading would take off. -/
theorem readUnsigned_toDigits (h : n ≤ limit) : readUnsigned limit (Nat.toDigits 10 n) = .ok n :=
  readUnsigned_eq_ok_iff.mpr ⟨(spells_toDigits n).writes, h⟩

/-! ## Leading zeros -/

/-- Digits without leading zeros. The last zero stays if there is nothing else. -/
def withoutZeros (digits : List Char) : List Char :=
  match digits.dropWhile (· == '0') with
  | [] => ['0']
  | rest => rest

/-- A text without its plus sign and the leading zeros after it. -/
def plain : List Char → List Char
  | '+' :: digits => withoutZeros digits
  | digits => withoutZeros digits

/-- Digits that follow those of a number other than zero are the last digits of a number. -/
theorem toDigits_append (ha : 0 < acc) (hs : ∀ c ∈ s, c.isDigit = true) :
    Nat.toDigits 10 acc ++ s = Nat.toDigits 10 (Nat.ofDigitChars 10 s acc) := by
  induction s generalizing acc with
  | nil => rw [List.append_nil, Nat.ofDigitChars_nil]
  | cons c s ih =>
    obtain ⟨hlt, hc⟩ := toDigits_digitValue (hs c List.mem_cons_self)
    have hrest : ∀ d ∈ s, d.isDigit = true := fun d hd => hs d (List.mem_cons_of_mem c hd)
    calc Nat.toDigits 10 acc ++ c :: s
        = (Nat.toDigits 10 acc ++ [c]) ++ s := by rw [List.append_assoc, List.singleton_append]
      _ = Nat.toDigits 10 (10 * acc + digitValue c) ++ s := by
        rw [← hc, Nat.toDigits_append_toDigits (by decide) ha hlt]
      _ = Nat.toDigits 10 (Nat.ofDigitChars 10 s (10 * acc + digitValue c)) :=
        ih (by omega) hrest
      _ = Nat.toDigits 10 (Nat.ofDigitChars 10 (c :: s) acc) := by
        rw [Nat.ofDigitChars_cons]
        rfl

/-- Digits without leading zeros are the decimal digits of the number that they spell. -/
theorem Spells.withoutZeros_eq (h : Spells s n) : withoutZeros s = Nat.toDigits 10 n := by
  obtain ⟨-, hd, rfl⟩ := h
  induction s with
  | nil => exact (Nat.toDigits_zero 10).symm
  | cons c s ih =>
    have hrest : ∀ d ∈ s, d.isDigit = true := fun d hd' => hd d (List.mem_cons_of_mem c hd')
    by_cases hc : c = '0'
    · subst hc
      exact ih hrest
    · -- the first digit is not zero, so that all others follow a number
      have hw : withoutZeros (c :: s) = c :: s := by
        simp [withoutZeros, hc]
      obtain ⟨-, hv⟩ := toDigits_digitValue (hd c List.mem_cons_self)
      have hpos : 0 < digitValue c := by
        refine Nat.pos_of_ne_zero fun hz => hc ?_
        rw [hz, Nat.toDigits_zero] at hv
        exact (List.singleton_inj.mp hv).symm
      have ht := toDigits_append hpos hrest
      rw [hv] at ht
      rw [hw]
      simpa [digitsValue, Nat.ofDigitChars_cons, digitValue] using ht

/-- Without the plus sign and the leading zeros, a text is the decimal digits of the number that it
writes. -/
theorem Writes.plain_eq (h : Writes s n) : plain s = Nat.toDigits 10 n := by
  unfold plain
  split
  case h_1 digits => exact (writes_plus_iff.mp h).withoutZeros_eq
  case h_2 hs => exact ((writes_iff_of_ne_plus fun t ht => hs t ht).mp h).withoutZeros_eq

end

end BuildingBus.Number
