import BuildingBus.Proofs.Number.Numerals
import BuildingBus.Proofs.Steps

/-!
# Integers

The texts that write integers: those that write a number, and, where a sign is allowed, digits after
a minus sign. An integer fits a width if two's complement of that width, or the plain number, holds
it.

Reading takes exactly the texts that write an integer of 64 bits (`readInt_eq_ok_iff`). It goes from
the left and does not look back, so a number that is too great is reported before what follows its
digits is looked at: the texts that overflow are those that begin with an integer that 64 bits do not
hold (`readInt_eq_overflow_iff`).
-/

namespace BuildingBus.Number

/-! ## Digits -/

section

variable {s : List Char} {limit acc : Nat}

/-- Digits overflow where some first digits make a number beyond the limit of `acc`. -/
theorem readDigitsFrom_eq_overflow_iff (ha : acc ≤ limit) :
    readDigitsFrom limit acc s = .error .overflow ↔ ∃ digits rest, s = digits ++ rest ∧
      (∀ c ∈ digits, c.isDigit = true) ∧ limit < Nat.ofDigitChars 10 digits acc := by
  induction s generalizing acc with
  | nil =>
    refine ⟨nofun, ?_⟩
    rintro ⟨digits, rest, hs, -, hlt⟩
    obtain ⟨rfl, -⟩ := List.append_eq_nil_iff.mp hs.symm
    rw [Nat.ofDigitChars_nil] at hlt
    exact absurd ha (Nat.not_le_of_lt hlt)
  | cons c s ih =>
    rw [readDigitsFrom]
    constructor
    · intro h
      split at h
      case isFalse => cases h
      case isTrue hc =>
        dsimp only at h
        split at h
        case isTrue hn =>
          obtain ⟨digits, rest, rfl, hd, hlt⟩ := (ih hn).mp h
          exact ⟨c :: digits, rest, rfl, List.forall_mem_cons.mpr ⟨hc, hd⟩, hlt⟩
        case isFalse hn =>
          -- the digit that leads beyond the limit is the last one that is looked at
          exact ⟨[c], s, rfl, List.forall_mem_singleton.mpr hc, Nat.lt_of_not_le hn⟩
    · rintro ⟨digits, rest, hs, hd, hlt⟩
      cases digits with
      | nil => exact absurd ha (Nat.not_le_of_lt hlt)
      | cons d digits =>
        obtain ⟨rfl, rfl⟩ := List.cons.inj hs
        obtain ⟨hc, hd⟩ := List.forall_mem_cons.mp hd
        rw [if_pos hc]
        dsimp only
        split
        case isTrue hn => exact (ih hn).mpr ⟨digits, rest, rfl, hd, hlt⟩
        case isFalse => rfl

/-- Digits overflow exactly if the text begins with digits that spell a number beyond the limit. -/
theorem readDigits_eq_overflow_iff :
    readDigits limit s = .error .overflow ↔
      ∃ digits rest n, s = digits ++ rest ∧ Spells digits n ∧ limit < n := by
  cases s with
  | nil =>
    refine ⟨nofun, ?_⟩
    rintro ⟨digits, rest, n, hs, hd, -⟩
    exact absurd (List.append_eq_nil_iff.mp hs.symm).1 hd.ne_nil
  | cons c s =>
    change readDigitsFrom limit 0 (c :: s) = _ ↔ _
    rw [readDigitsFrom_eq_overflow_iff (Nat.zero_le limit)]
    constructor
    · rintro ⟨digits, rest, hs, hd, hlt⟩
      have hne : digits ≠ [] := by
        rintro rfl
        exact absurd hlt (Nat.not_lt_zero limit)
      exact ⟨digits, rest, digitsValue digits, hs, ⟨hne, hd, rfl⟩, hlt⟩
    · rintro ⟨digits, rest, n, hs, ⟨-, hd, rfl⟩, hlt⟩
      exact ⟨digits, rest, hs, hd, hlt⟩

end

/-! ## Texts that write an integer -/

/-- A text that writes an integer: one that writes a number, or, if a sign is allowed, digits after a
minus sign. -/
def WritesInt (signed : Bool) (s : List Char) (n : Int) : Prop :=
  (∃ m : Nat, n = m ∧ Writes s m) ∨
    signed = true ∧ ∃ (digits : List Char) (m : Nat), s = '-' :: digits ∧ n = -m ∧ Spells digits m

/-- An integer that a width holds, in two's complement if it may have a sign. One bit less is left
for its number then. -/
def FitsBits (signed : Bool) (bits : Nat) (n : Int) : Prop :=
  if signed then -(2 ^ (bits - 1) : Nat) ≤ n ∧ n < (2 ^ (bits - 1) : Nat)
  else 0 ≤ n ∧ n < (2 ^ bits : Nat)

instance (signed : Bool) (bits : Nat) (n : Int) : Decidable (FitsBits signed bits n) :=
  inferInstanceAs (Decidable (if signed then _ else _))

/-- A text that begins with an integer beyond a width. What follows that beginning does not matter,
and it need not be a digit. -/
def Overflows (signed : Bool) (bits : Nat) (s : List Char) : Prop :=
  ∃ front rest n, s = front ++ rest ∧ WritesInt signed front n ∧ ¬FitsBits signed bits n

section

variable {s digits : List Char} {n : Int} {m limit bits : Nat}

theorem Writes.ne_nil (h : Writes s m) : s ≠ [] := by
  obtain ⟨digits, rfl | rfl, hd⟩ := h
  · exact hd.ne_nil
  · exact List.cons_ne_nil _ _

/-- A number is not written with a minus sign. -/
theorem not_writes_minus : ¬Writes ('-' :: digits) m := by
  rintro ⟨_, rfl | hs, hd⟩
  · exact ne_of_isDigit (hd.isDigit '-' List.mem_cons_self) (by decide) rfl
  · exact absurd (List.cons.inj hs).1 (by decide)

theorem writesInt_minus_iff :
    WritesInt true ('-' :: digits) n ↔ ∃ m : Nat, n = -m ∧ Spells digits m := by
  constructor
  · rintro (⟨m, -, h⟩ | ⟨-, ds, m, hs, hn, hd⟩)
    · exact absurd h not_writes_minus
    · exact ⟨m, hn, (List.cons.inj hs).2 ▸ hd⟩
  · rintro ⟨m, hn, hd⟩
    exact .inr ⟨rfl, digits, m, rfl, hn, hd⟩

theorem writesInt_iff_of_not_minus {signed : Bool} (h : signed = true → ∀ t, s ≠ '-' :: t) :
    WritesInt signed s n ↔ ∃ m : Nat, n = m ∧ Writes s m :=
  or_iff_left fun ⟨hs, digits, _, ht, _⟩ => h hs digits ht

/-- No integer is written without a character. -/
theorem WritesInt.ne_nil {signed : Bool} (h : WritesInt signed s n) : s ≠ [] := by
  rcases h with ⟨m, -, hm⟩ | ⟨-, digits, m, rfl, -⟩
  · exact hm.ne_nil
  · exact List.cons_ne_nil '-' digits

/-! ## Reading -/

/-- A number overflows exactly if the text begins with a number beyond the limit. -/
theorem readUnsigned_eq_overflow_iff :
    readUnsigned limit s = .error .overflow ↔
      ∃ front rest m, s = front ++ rest ∧ Writes front m ∧ limit < m := by
  unfold readUnsigned
  split
  case h_1 digits =>
    rw [readDigits_eq_overflow_iff]
    constructor
    · rintro ⟨front, rest, m, rfl, hd, hlt⟩
      exact ⟨'+' :: front, rest, m, rfl, writes_plus_iff.mpr hd, hlt⟩
    · rintro ⟨front, rest, m, hs, hw, hlt⟩
      cases front with
      | nil => exact absurd rfl hw.ne_nil
      | cons c front =>
        obtain ⟨rfl, rfl⟩ := List.cons.inj hs
        exact ⟨front, rest, m, rfl, writes_plus_iff.mp hw, hlt⟩
  case h_2 hs =>
    rw [readDigits_eq_overflow_iff]
    refine exists_congr fun front => exists_congr fun rest => exists_congr fun m => ?_
    refine and_congr_right ?_
    rintro rfl
    have hfront : ∀ t, front ≠ '+' :: t := by
      rintro t rfl
      exact hs (t ++ rest) rfl
    rw [writes_iff_of_ne_plus hfront]

/-- Without a minus sign an integer is read as a number. -/
theorem readSigned_of_ne_minus (hs : ∀ t, s ≠ '-' :: t) :
    readSigned bits s = (readUnsigned (2 ^ (bits - 1) - 1) s).map Int.ofNat := by
  unfold readSigned
  split
  case h_1 t => exact absurd rfl (hs t)
  case h_2 => rfl
  case h_3 hp => rw [readUnsigned.eq_2 _ _ hp]

/-- An integer of 64 bits. -/
def readInt (signed : Bool) (s : List Char) : Except WholeFault Int :=
  if signed then readSigned 64 s else (readUnsigned 0xFFFFFFFFFFFFFFFF s).map Int.ofNat

theorem fitsBits_natCast {m : Nat} : FitsBits false bits m ↔ m < 2 ^ bits := by
  simp only [FitsBits, Bool.false_eq_true, if_false]
  omega

/-- Without a sign, what fits is a number. -/
theorem FitsBits.exists_natCast (h : FitsBits false bits n) : ∃ m : Nat, n = m ∧ m < 2 ^ bits := by
  simp only [FitsBits, Bool.false_eq_true, if_false] at h
  exact ⟨n.toNat, by omega, by omega⟩

theorem fitsBits_signed_natCast {m : Nat} : FitsBits true bits m ↔ m < 2 ^ (bits - 1) := by
  simp only [FitsBits, if_true]
  omega

theorem fitsBits_neg_natCast {m : Nat} : FitsBits true bits (-m) ↔ m ≤ 2 ^ (bits - 1) := by
  have hpos := Nat.two_pow_pos (bits - 1)
  simp only [FitsBits, if_true]
  omega

/-- What a width holds, each greater one holds. -/
theorem FitsBits.mono {signed : Bool} {n : Int} {k : Nat} (h : FitsBits signed bits n)
    (hk : bits ≤ k) : FitsBits signed k n := by
  have hu : 2 ^ bits ≤ 2 ^ k := Nat.pow_le_pow_right (by decide) hk
  have hs : 2 ^ (bits - 1) ≤ 2 ^ (k - 1) := Nat.pow_le_pow_right (by decide) (by omega)
  unfold FitsBits at h ⊢
  split at h <;> split <;> first | omega | contradiction

theorem map_readUnsigned_eq_ok_iff :
    (readUnsigned (2 ^ bits - 1) s).map Int.ofNat = .ok n ↔
      ∃ m : Nat, n = m ∧ Writes s m ∧ m < 2 ^ bits := by
  have hpos := Nat.two_pow_pos bits
  rw [map_eq_ok_iff]
  refine exists_congr fun m => ?_
  rw [readUnsigned_eq_ok_iff, Nat.le_sub_one_iff_lt hpos]
  constructor
  · rintro ⟨h, rfl⟩
    exact ⟨rfl, h⟩
  · rintro ⟨rfl, h⟩
    exact ⟨h, rfl⟩

theorem map_readUnsigned_eq_overflow_iff :
    (readUnsigned (2 ^ bits - 1) s).map Int.ofNat = .error .overflow ↔
      ∃ front rest m, s = front ++ rest ∧ Writes front m ∧ 2 ^ bits ≤ m := by
  have hpos := Nat.two_pow_pos bits
  rw [map_eq_error_iff, readUnsigned_eq_overflow_iff]
  refine exists_congr fun front => exists_congr fun rest => exists_congr fun m => ?_
  rw [Nat.sub_lt_iff_lt_add' hpos, Nat.lt_one_add_iff]

/-- The bits for the number in an integer of 64 bits. -/
def magnitudeBits (signed : Bool) : Nat := if signed then 63 else 64

theorem fitsBits_natCast_iff {signed : Bool} {m : Nat} :
    FitsBits signed 64 m ↔ m < 2 ^ magnitudeBits signed := by
  cases signed with
  | false => exact fitsBits_natCast
  | true => exact fitsBits_signed_natCast

/-- Without a sign that is allowed, an integer is read as a number. -/
theorem readInt_of_not_minus {signed : Bool} (h : signed = true → ∀ t, s ≠ '-' :: t) :
    readInt signed s = (readUnsigned (2 ^ magnitudeBits signed - 1) s).map Int.ofNat := by
  cases signed with
  | false => rfl
  | true => exact readSigned_of_ne_minus (h rfl)

/-- After a sign, digits are read up to the magnitude of the least integer. -/
theorem readInt_minus : readInt true ('-' :: digits) =
    (readDigits (2 ^ magnitudeBits true) digits).map fun m : Nat => -(m : Int) := by
  rw [readInt, if_pos rfl, readSigned]
  change Except.map _ (readDigits (2 ^ magnitudeBits true) digits >>= fun m => pure (m : Int)) = _
  cases readDigits (2 ^ magnitudeBits true) digits <;> rfl

/-- An integer is read exactly if the text writes it and 64 bits hold it. No text writes two
integers. -/
theorem readInt_eq_ok_iff {signed : Bool} :
    readInt signed s = .ok n ↔ WritesInt signed s n ∧ FitsBits signed 64 n := by
  by_cases hs : signed = true ∧ ∃ digits, s = '-' :: digits
  case pos =>
    obtain ⟨rfl, digits, rfl⟩ := hs
    rw [readInt_minus, map_eq_ok_iff, writesInt_minus_iff]
    constructor
    · rintro ⟨m, hm, rfl⟩
      obtain ⟨hd, hle⟩ := readDigits_eq_ok_iff.mp hm
      exact ⟨⟨m, rfl, hd⟩, fitsBits_neg_natCast.mpr hle⟩
    · rintro ⟨⟨m, rfl, hd⟩, hle⟩
      exact ⟨m, readDigits_eq_ok_iff.mpr ⟨hd, fitsBits_neg_natCast.mp hle⟩, rfl⟩
  case neg =>
    have hm : signed = true → ∀ t, s ≠ '-' :: t := fun h t ht => hs ⟨h, t, ht⟩
    rw [readInt_of_not_minus hm, map_readUnsigned_eq_ok_iff, writesInt_iff_of_not_minus hm]
    constructor
    · rintro ⟨m, rfl, hw, hlt⟩
      exact ⟨⟨m, rfl, hw⟩, fitsBits_natCast_iff.mpr hlt⟩
    · rintro ⟨⟨m, rfl, hw⟩, hlt⟩
      exact ⟨m, rfl, hw, fitsBits_natCast_iff.mp hlt⟩

/-- The texts that overflow are those that begin with an integer that 64 bits do not hold, even if
they go on with what is no digit. -/
theorem readInt_eq_overflow_iff {signed : Bool} :
    readInt signed s = .error .overflow ↔ Overflows signed 64 s := by
  by_cases hs : signed = true ∧ ∃ digits, s = '-' :: digits
  case pos =>
    obtain ⟨rfl, digits, rfl⟩ := hs
    rw [readInt_minus, map_eq_error_iff, readDigits_eq_overflow_iff]
    constructor
    · rintro ⟨front, rest, m, rfl, hd, hlt⟩
      refine ⟨'-' :: front, rest, -m, rfl, writesInt_minus_iff.mpr ⟨m, rfl, hd⟩, ?_⟩
      rw [fitsBits_neg_natCast]
      exact Nat.not_le_of_lt hlt
    · rintro ⟨front, rest, k, hf, hw, hk⟩
      obtain ⟨c, front, rfl⟩ := List.exists_cons_of_ne_nil hw.ne_nil
      obtain ⟨rfl, rfl⟩ := List.cons.inj hf
      obtain ⟨m, rfl, hd⟩ := writesInt_minus_iff.mp hw
      rw [fitsBits_neg_natCast] at hk
      exact ⟨front, rest, m, rfl, hd, Nat.lt_of_not_le hk⟩
  case neg =>
    have hm : signed = true → ∀ t, s ≠ '-' :: t := fun h t ht => hs ⟨h, t, ht⟩
    rw [readInt_of_not_minus hm, map_readUnsigned_eq_overflow_iff]
    constructor
    · rintro ⟨front, rest, m, rfl, hw, hle⟩
      refine ⟨front, rest, m, rfl, .inl ⟨m, rfl, hw⟩, ?_⟩
      rw [fitsBits_natCast_iff]
      exact Nat.not_lt_of_le hle
    · rintro ⟨front, rest, k, rfl, hw, hk⟩
      have hf : signed = true → ∀ t, front ≠ '-' :: t := by
        rintro h t rfl
        exact hm h (t ++ rest) rfl
      obtain ⟨m, rfl, hm⟩ := (writesInt_iff_of_not_minus hf).mp hw
      rw [fitsBits_natCast_iff] at hk
      exact ⟨front, rest, m, rfl, hm, Nat.le_of_not_lt hk⟩

end

end BuildingBus.Number
