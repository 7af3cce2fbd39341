import BuildingBus.Proofs.Number.Nearest
import BuildingBus.Proofs.Number.Numerals

/-!
# Decimal fractions

The texts that write decimal fractions: a sign or none, digits with at most one point among or beside
them, and an exponent or none. Each of them is read as a coefficient with a power of ten that has the
exact value of the text (`readDecimal_of_writes`), and what is read is rounded to the number of 64
bits that is nearest to it (`Decimal.toDouble_eq`): fractions with a great power of ten are decided by
their count of digits alone, and rightly so.
-/

namespace BuildingBus.Number

variable {s digits rest : List Char} {negative : Bool} {r : Rat}

/-! ## Texts -/

/-- A sign or nothing, and whether it is a minus sign. -/
inductive IsSign : List Char → Bool → Prop
  /-- no sign -/
  | none : IsSign [] false
  /-- a plus sign -/
  | plus : IsSign ['+'] false
  /-- a minus sign -/
  | minus : IsSign ['-'] true

/-- Digits with at most one point before, among or after them: the number that they spell without it,
and how many of them stand after it. -/
inductive SpellsFraction : List Char → Nat → Nat → Prop
  /-- digits alone -/
  | whole {digits : List Char} {n : Nat} (h : Spells digits n) : SpellsFraction digits n 0
  /-- digits and a point -/
  | point {whole fraction : List Char} {n : Nat} (h : Spells (whole ++ fraction) n) :
    SpellsFraction (whole ++ '.' :: fraction) n fraction.length

/-- An exponent or nothing, and the power of ten that it stands for. -/
inductive IsExponent : List Char → Int → Prop
  /-- no exponent -/
  | none : IsExponent [] 0
  /-- an exponent mark and a whole number -/
  | mark {c : Char} {sign digits : List Char} {negative : Bool} {n : Nat} (hc : c = 'e' ∨ c = 'E')
    (hs : IsSign sign negative) (hd : Spells digits n) :
    IsExponent (c :: (sign ++ digits)) (if negative then -(n : Int) else n)

/-- A text that writes a decimal fraction: its sign and its exact absolute value. The sign stands
apart, since a zero may have one. -/
inductive WritesDecimal : List Char → Bool → Rat → Prop
  /-- a sign, digits and an exponent -/
  | mk {sign digits exponent : List Char} {negative : Bool} {n k : Nat} {e : Int}
    (hs : IsSign sign negative) (hd : SpellsFraction digits n k) (he : IsExponent exponent e) :
    WritesDecimal (sign ++ (digits ++ exponent)) negative (n / 10 ^ k * 10 ^ e)

theorem WritesDecimal.nonneg (h : WritesDecimal s negative r) : 0 ≤ r := by
  obtain ⟨-, -, -⟩ := h
  exact mul_nonneg (div_nonneg (Nat.cast_nonneg _) (by positivity)) (zpow_nonneg (by norm_num) _)

/-! ## Reading -/

/-- A sign is taken from a text that goes on with something else. -/
theorem takeSign_append {sign : List Char} (hs : IsSign sign negative)
    (hrest : ∀ c, rest.head? = some c → c ≠ '-' ∧ c ≠ '+') :
    takeSign (sign ++ rest) = (negative, rest) := by
  cases hs with
  | none =>
    rw [List.nil_append]
    unfold takeSign
    split
    case h_1 s => exact absurd rfl (hrest '-' rfl).1
    case h_2 s => exact absurd rfl (hrest '+' rfl).2
    case h_3 => rfl
  | plus => rfl
  | minus => rfl

/-- Digits are taken from a text that goes on with something else. -/
theorem takeWhile_digits (hd : ∀ c ∈ digits, c.isDigit = true) (rest : List Char)
    (hrest : ∀ c, rest.head? = some c → c.isDigit = false) :
    (digits ++ rest).takeWhile Char.isDigit = digits ∧
      (digits ++ rest).dropWhile Char.isDigit = rest := by
  rw [List.takeWhile_append_of_pos hd, List.dropWhile_append_of_pos hd]
  cases rest with
  | nil => exact ⟨List.append_nil digits, rfl⟩
  | cons c rest =>
    have hc := Bool.eq_false_iff.mp (hrest c rfl)
    rw [List.takeWhile_cons_of_neg hc, List.dropWhile_cons_of_neg hc, List.append_nil]
    exact ⟨rfl, rfl⟩

/-- A digit is no sign. -/
theorem ne_sign_of_isDigit {c : Char} (h : c.isDigit = true) : c ≠ '-' ∧ c ≠ '+' :=
  ⟨ne_of_isDigit h rfl, ne_of_isDigit h rfl⟩

/-- Digits start with a digit. -/
theorem Spells.isDigit_of_head {n : Nat} (h : Spells digits n) (rest : List Char) {c : Char}
    (hc : (digits ++ rest).head? = some c) : c.isDigit = true := by
  obtain ⟨d, t, rfl⟩ := List.exists_cons_of_ne_nil h.ne_nil
  exact Option.some.inj hc ▸ h.isDigit d (.head _)

theorem readExponent_of_isExponent {e : Int} (h : IsExponent s e) : readExponent s = some e := by
  cases h with
  | none => rfl
  | @mark c sign digits negative n hc hs hd =>
    have hsign : takeSign (sign ++ digits) = (negative, digits) :=
      takeSign_append hs fun d hh =>
        ne_sign_of_isDigit (hd.isDigit_of_head [] (by rwa [List.append_nil]))
    have hdigits : digits ≠ [] ∧ digits.all Char.isDigit = true :=
      ⟨hd.ne_nil, List.all_eq_true.mpr hd.isDigit⟩
    simp only [readExponent, if_pos hc, hsign, if_pos hdigits, hd.value_eq]

/-- An exponent starts with its mark. -/
theorem IsExponent.head {e : Int} (h : IsExponent s e) {c : Char} (hc : s.head? = some c) :
    c = 'e' ∨ c = 'E' := by
  cases h with
  | none => cases hc
  | mark hm => exact Option.some.inj hc ▸ hm

/-- Digits behind a point and an exponent, or an exponent alone, go on with no digit. -/
theorem IsExponent.isDigit_of_head {e : Int} (h : IsExponent s e) {c : Char}
    (hc : s.head? = some c) : c.isDigit = false := by
  rcases h.head hc with rfl | rfl <;> rfl

/-- The exact value of the digits that are read. -/
theorem absRat_mk (negative : Bool) (n k : Nat) (e : Int) :
    (⟨negative, n, e - k⟩ : Decimal).absRat = n / 10 ^ k * 10 ^ e := by
  rw [Decimal.absRat, zpow_sub₀ (by norm_num), zpow_natCast]
  ring

/-- **A text that writes a decimal fraction is read**, with its sign and its exact value. Nothing is
rounded until the value becomes a number. -/
theorem readDecimal_of_writes (h : WritesDecimal s negative r) :
    ∃ d, readDecimal s = some d ∧ d.negative = negative ∧ d.absRat = r := by
  obtain @⟨sign, digits, exponent, _, n, k, e, hs, hd, he⟩ := h
  refine ⟨⟨negative, n, e - k⟩, ?_, rfl, absRat_mk negative n k e⟩
  have hexp := readExponent_of_isExponent he
  cases hd with
  | whole hd =>
    have hsign : takeSign (sign ++ (digits ++ exponent)) = (negative, digits ++ exponent) :=
      takeSign_append hs fun c hc => ne_sign_of_isDigit (hd.isDigit_of_head exponent hc)
    obtain ⟨htake, hdrop⟩ := takeWhile_digits hd.isDigit exponent fun c hc =>
      he.isDigit_of_head hc
    simp only [readDecimal, hsign, htake, hdrop]
    split
    case h_1 r => rcases he.head rfl with hc | hc <;> cases hc
    case h_2 =>
      rw [if_neg fun h => hd.ne_nil h.1, hexp, List.append_nil, hd.value_eq]
      rfl
  | @point whole fraction _ hd =>
    have hsign : takeSign (sign ++ ((whole ++ '.' :: fraction) ++ exponent)) =
        (negative, whole ++ '.' :: (fraction ++ exponent)) := by
      rw [List.append_assoc, List.cons_append]
      refine takeSign_append hs fun c hc => ?_
      cases whole with
      | nil => exact Option.some.inj hc ▸ (by decide)
      | cons d whole => exact Option.some.inj hc ▸ ne_sign_of_isDigit (hd.isDigit d (.head _))
    have hw : (∀ c ∈ whole, c.isDigit = true) ∧ ∀ c ∈ fraction, c.isDigit = true :=
      List.forall_mem_append.mp hd.isDigit
    have hwhole := takeWhile_digits hw.1 ('.' :: (fraction ++ exponent)) fun c hc => by
      exact Option.some.inj hc ▸ rfl
    have hfraction := takeWhile_digits hw.2 exponent fun c hc => he.isDigit_of_head hc
    simp only [readDecimal, hsign, hwhole, hfraction]
    rw [if_neg fun h => hd.ne_nil (List.append_eq_nil_iff.mpr h), hexp, hd.value_eq]
    rfl

/-! ## Rounding -/

namespace Decimal

/-- The order of a coefficient that is not zero is the power of ten above it. -/
theorem absRat_bounds (d : Decimal) (h : d.coefficient ≠ 0) :
    10 ^ (d.order - 1) ≤ d.absRat ∧ d.absRat < 10 ^ d.order := by
  have hten : (0 : Rat) < 10 ^ d.exponent := zpow_pos (by norm_num) _
  have hpos : 0 < (Nat.toDigits 10 d.coefficient).length :=
    List.length_pos_of_ne_nil Nat.toDigits_ne_nil
  obtain ⟨k, hk⟩ := Nat.exists_eq_add_of_lt hpos
  rw [Nat.zero_add] at hk
  have hlt : d.coefficient < 10 ^ (k + 1) :=
    (Nat.length_toDigits_le_iff (by decide) k.succ_pos).mp hk.le
  have hle : 10 ^ k ≤ d.coefficient := by
    rcases Nat.eq_zero_or_pos k with rfl | hk0
    · exact Nat.one_le_iff_ne_zero.mpr h
    · by_contra hn
      have := (Nat.length_toDigits_le_iff (by decide) hk0).mpr (not_le.mp hn)
      omega
  have hpow (j : Nat) : (10 : Rat) ^ (j + d.exponent) = 10 ^ j * 10 ^ d.exponent := by
    rw [zpow_add₀ (by norm_num), zpow_natCast]
  rw [order, hk, absRat, show ((k + 1 : Nat) : Int) + d.exponent - 1 = k + d.exponent by omega, hpow,
    hpow]
  constructor
  · exact mul_le_mul_of_nonneg_right (by exact_mod_cast hle) hten.le
  · exact mul_lt_mul_of_pos_right (by exact_mod_cast hlt) hten

theorem absRat_nonneg (d : Decimal) : 0 ≤ d.absRat :=
  mul_nonneg (Nat.cast_nonneg _) (zpow_nonneg (by norm_num) _)

/-- The powers of ten up to which everything is zero, and from which on everything is infinite. -/
theorem nearest_powers : BinaryFormat.double.nearest (10 ^ (-331 : Int)) = 0 ∧
    BinaryFormat.double.nearest (10 ^ (310 : Int)) = BinaryFormat.double.infinity := by
  decide +kernel

/-- **A decimal fraction is rounded to the nearest number of 64 bits**, also where its order alone
decides. The two cuts that spare a great power of ten change no result. -/
theorem toDouble_eq (d : Decimal) :
    d.toDouble = .ofMagnitude _ d.negative (BinaryFormat.double.nearest d.absRat) := by
  have hten : (1 : Rat) ≤ 10 := by norm_num
  have hpos := d.absRat_nonneg
  refine congrArg (Binary.ofMagnitude _ d.negative) ?_
  by_cases hzero : d.coefficient = 0
  · have habs : d.absRat = 0 := by simp [absRat, hzero]
    rw [if_pos (.inl hzero), habs]
    rfl
  · obtain ⟨hlow, hhigh⟩ := d.absRat_bounds hzero
    split_ifs with hsmall hgreat
    · have horder : d.order ≤ -331 := Int.le_sub_one_of_lt (hsmall.resolve_left hzero)
      have hle : d.absRat ≤ 10 ^ (-331 : Int) :=
        hhigh.le.trans (zpow_le_zpow_right₀ hten horder)
      have hn := BinaryFormat.double.nearest_mono hpos hle
      rw [nearest_powers.1] at hn
      exact (Nat.le_zero.mp hn).symm
    · have hge : 10 ^ (310 : Int) ≤ d.absRat :=
        (zpow_le_zpow_right₀ hten (by omega)).trans hlow
      have hn := BinaryFormat.double.nearest_mono (zpow_nonneg (by norm_num) _) hge
      rw [nearest_powers.2] at hn
      exact le_antisymm hn (BinaryFormat.double.nearest_le_infinity _)
    · rfl

/-- A decimal fraction that is finite with 64 bits becomes the nearest number of that width. -/
theorem isNearest_toDouble (d : Decimal) (hf : d.toDouble.isFinite = true) :
    d.toDouble.IsNearest (signed d.negative d.absRat) := by
  rw [toDouble_eq] at hf ⊢
  exact Binary.isNearest_ofMagnitude (by decide) d.absRat_nonneg d.negative hf

end Decimal

end BuildingBus.Number
