import BuildingBus.Text.Utf8
import Mathlib.Data.List.Basic
import Mathlib.Tactic.Common

/-!
# UTF-8 is canonical

Every text is read from the bytes it is written as (`decode_encode`), and bytes that are read as a
text are the ones that the text is written as (`decode_eq_some_iff`): no text has two forms.

Both directions go through the digits to base 64 of a code point. The first byte of a longer
character holds the highest digit and fixes how many follow; each *continuation* holds one more.
The limits that the first byte sets for the second are those that keep the code point in the range
for its count of bytes, and out of the surrogates.
-/

namespace BuildingBus.Text.Utf8

/-! ## Bytes and digits -/

theorem admits_iff (p : Pending) (b : UInt8) :
    p.admits b = true ↔ p.least.toNat ≤ b.toNat ∧ b.toNat ≤ p.greatest.toNat := by
  simp [Pending.admits, UInt8.le_iff_toNat_le]

/-- A digit to base 64 of a code point as a byte that continues a character. -/
def continuation (d : Nat) : UInt8 := .ofNat (0x80 + d)

@[simp] theorem toNat_continuation {d : Nat} (h : d < 0x40) :
    (continuation d).toNat = 0x80 + d :=
  toNat_octet (by omega)

theorem extend_continuation (p : Pending) {d : Nat} (h : d < 0x40) :
    p.extend (continuation d) = p.code * 0x40 + d := by
  have hs : (continuation d).toNat - 0x80 = d := by rw [toNat_continuation h]; omega
  exact congrArg (p.code * 0x40 + ·) hs

/-- A pending character admits the digits within its limits. -/
theorem admits_continuation {p : Pending} {d : Nat} (h : d < 0x40)
    (hl : p.least.toNat ≤ 0x80 + d) (hg : 0x80 + d ≤ p.greatest.toNat) :
    p.admits (continuation d) = true := by
  rw [admits_iff, toNat_continuation h]
  exact ⟨hl, hg⟩

/-! ## Reading what was written -/

theorem decodeFrom_several {b : UInt8} {p : Pending} (h : lead b = .several p) (bs : Octets) :
    decodeFrom none (b :: bs) = decodeFrom (some p) bs := by
  simp [decodeFrom, h]

/-- The last byte of a character completes it. -/
theorem decodeFrom_last {p : Pending} {b : UInt8} (hm : p.missing = 1) (hb : p.admits b = true)
    (bs : Octets) :
    decodeFrom (some p) (b :: bs) = (decodeFrom none bs).map (Char.ofNat (p.extend b) :: ·) := by
  simp [decodeFrom, hb, Pending.next, hm]

/-- A byte before the last one is taken up into what is pending. -/
theorem decodeFrom_more {p : Pending} {b : UInt8} (hm : p.missing ≠ 1) (hb : p.admits b = true)
    (bs : Octets) :
    decodeFrom (some p) (b :: bs) =
      decodeFrom (some ⟨p.missing - 1, 0x80, 0xBF, p.extend b⟩) bs := by
  simp [decodeFrom, hb, Pending.next, hm]

/-- The code point that digits to base 64 complete. -/
def complete (code : Nat) (digits : List Nat) : Nat := digits.foldl (fun n d => n * 0x40 + d) code

/-- A pending character is completed by its digits, if the first one is within its limits. -/
theorem decodeFrom_digits {p : Pending} {d : Nat} {ds : List Nat} (hm : p.missing = ds.length + 1)
    (hl : p.least.toNat ≤ 0x80 + d) (hg : 0x80 + d ≤ p.greatest.toNat)
    (hd : ∀ e ∈ d :: ds, e < 0x40) (bs : Octets) :
    decodeFrom (some p) ((d :: ds).map continuation ++ bs) =
      (decodeFrom none bs).map (Char.ofNat (complete p.code (d :: ds)) :: ·) := by
  -- after its first digit the character is pending again, with the widest limits
  induction ds generalizing p d with
  | nil =>
    have hlt : d < 0x40 := hd d List.mem_cons_self
    have ha := admits_continuation hlt hl hg
    rw [List.map_singleton, List.singleton_append, decodeFrom_last hm ha,
      extend_continuation p hlt]
    rfl
  | cons e ds ih =>
    have hlt : d < 0x40 := hd d List.mem_cons_self
    have hlt' : e < 0x40 := hd e (by simp)
    have ha := admits_continuation hlt hl hg
    have hm1 : p.missing ≠ 1 := by rw [hm]; simp
    let q : Pending := ⟨p.missing - 1, 0x80, 0xBF, p.code * 0x40 + d⟩
    have hq : q.missing = ds.length + 1 := by simp [q, hm]
    have hl' : q.least.toNat ≤ 0x80 + e := Nat.le_add_right _ _
    have hg' : 0x80 + e ≤ q.greatest.toNat := by
      show 0x80 + e ≤ 0xBF
      omega
    rw [List.map_cons, List.cons_append, decodeFrom_more hm1 ha, extend_continuation p hlt]
    exact ih hq hl' hg' fun x hx => hd x (List.mem_cons_of_mem d hx)

/-- A first byte with the digits that follow it is read as the character they complete. -/
theorem decodeFrom_lead {b : UInt8} {p : Pending} (d : Nat) (ds : List Nat)
    (hp : lead b = .several p) (hm : p.missing = ds.length + 1)
    (hl : p.least.toNat ≤ 0x80 + d) (hg : 0x80 + d ≤ p.greatest.toNat)
    (hd : ∀ e ∈ d :: ds, e < 0x40) (bs : Octets) :
    decodeFrom none (b :: (d :: ds).map continuation ++ bs) =
      (decodeFrom none bs).map (Char.ofNat (complete p.code (d :: ds)) :: ·) := by
  rw [List.cons_append, decodeFrom_several hp]
  exact decodeFrom_digits hm hl hg hd bs

/-- The first byte of a character of two bytes. -/
theorem lead_two {a : Nat} (h : 2 ≤ a ∧ a < 0x20) :
    lead (.ofNat (0xC0 + a)) = .several ⟨1, 0x80, 0xBF, a⟩ := by
  have hb : (UInt8.ofNat (0xC0 + a)).toNat = 0xC0 + a := toNat_octet (by omega)
  simp only [lead, hb]
  rw [if_neg (by omega), if_neg (by omega), if_pos (by omega)]
  simp

/-- The first byte of a character of three bytes, whose next digit is `d`. -/
theorem exists_lead_three {a d : Nat} (ha : a < 0x10) (hd : d < 0x40) (h0 : a = 0 → 0x20 ≤ d)
    (hD : a = 0xD → d < 0x20) :
    ∃ p, lead (.ofNat (0xE0 + a)) = .several p ∧ p.missing = 2 ∧ p.code = a ∧
      p.least.toNat ≤ 0x80 + d ∧ 0x80 + d ≤ p.greatest.toNat := by
  have hb : (UInt8.ofNat (0xE0 + a)).toNat = 0xE0 + a := toNat_octet (by omega)
  simp only [lead, hb]
  rw [if_neg (by omega), if_neg (by omega), if_neg (by omega)]
  split_ifs with hE0 hED
  · exact ⟨_, rfl, rfl, by simp; omega, by simp; omega, by simp; omega⟩
  · exact ⟨_, rfl, rfl, by simp; omega, by simp, by simp; omega⟩
  · exact ⟨_, rfl, rfl, by simp, by simp, by simp; omega⟩
  all_goals omega

/-- The first byte of a character of four bytes, whose next digit is `d`. -/
theorem exists_lead_four {a d : Nat} (ha : a < 5) (hd : d < 0x40) (h0 : a = 0 → 0x10 ≤ d)
    (h4 : a = 4 → d < 0x10) :
    ∃ p, lead (.ofNat (0xF0 + a)) = .several p ∧ p.missing = 3 ∧ p.code = a ∧
      p.least.toNat ≤ 0x80 + d ∧ 0x80 + d ≤ p.greatest.toNat := by
  have hb : (UInt8.ofNat (0xF0 + a)).toNat = 0xF0 + a := toNat_octet (by omega)
  simp only [lead, hb]
  rw [if_neg (by omega), if_neg (by omega), if_neg (by omega), if_neg (by omega),
    if_neg (by omega), if_neg (by omega)]
  split_ifs with hF0 hF1 hF4
  · exact ⟨_, rfl, rfl, by simp; omega, by simp; omega, by simp; omega⟩
  · exact ⟨_, rfl, rfl, by simp, by simp, by simp; omega⟩
  · exact ⟨_, rfl, rfl, by simp; omega, by simp, by simp; omega⟩
  all_goals omega

/-- A character is read from its bytes, whatever follows them. The cases are its four lengths. -/
theorem decodeFrom_encodeChar (c : Char) (bs : Octets) :
    decodeFrom none (encodeChar c ++ bs) = (decodeFrom none bs).map (c :: ·) := by
  have hv : c.toNat < 0xD800 ∨ 0xDFFF < c.toNat ∧ c.toNat < 0x110000 := c.valid
  have hc : Char.ofNat c.toNat = c := Char.ofNat_toNat c
  unfold encodeChar
  generalize c.toNat = n at hv hc ⊢
  dsimp only
  -- one case for each count of bytes: the digits of `n` complete `n`, and the first one fits
  split_ifs with h1 h2 h3
  · have hb : (UInt8.ofNat n).toNat = n := toNat_octet (by omega)
    simp only [List.singleton_append, decodeFrom, lead, hb, h1, if_true, hc]
  · have hn : complete (n / 0x40) [n % 0x40] = n := by simp [complete]; omega
    have h := decodeFrom_lead (n % 0x40) [] (lead_two (a := n / 0x40) (by omega)) rfl (by simp)
      (by simp; omega) (by simp; omega) bs
    rwa [hn, hc] at h
  · have hn : complete (n / 0x1000) [n / 0x40 % 0x40, n % 0x40] = n := by
      simp [complete]; omega
    obtain ⟨p, hp, hm, hcode, hl, hg⟩ := exists_lead_three (a := n / 0x1000)
      (d := n / 0x40 % 0x40) (by omega) (by omega) (by omega) (by omega)
    have h := decodeFrom_lead _ [n % 0x40] hp hm hl hg (by simp; omega) bs
    rwa [hcode, hn, hc] at h
  · have hn : complete (n / 0x40000) [n / 0x1000 % 0x40, n / 0x40 % 0x40, n % 0x40] = n := by
      simp [complete]; omega
    obtain ⟨p, hp, hm, hcode, hl, hg⟩ := exists_lead_four (a := n / 0x40000)
      (d := n / 0x1000 % 0x40) (by omega) (by omega) (by omega) (by omega)
    have h := decodeFrom_lead _ [n / 0x40 % 0x40, n % 0x40] hp hm hl hg
      (by simp; omega) bs
    rwa [hcode, hn, hc] at h

/-! ## Writing what was read -/

/-- A byte that a pending character admits continues it with a digit within its limits. -/
theorem exists_digit {p : Pending} {b : UInt8} (hl : 0x80 ≤ p.least.toNat)
    (hg : p.greatest.toNat ≤ 0xBF) (ha : p.admits b = true) :
    ∃ d < 0x40, b = continuation d ∧ p.least.toNat ≤ 0x80 + d ∧ 0x80 + d ≤ p.greatest.toNat := by
  obtain ⟨hlb, hgb⟩ := (admits_iff p b).mp ha
  have hd : b.toNat - 0x80 < 0x40 := by omega
  refine ⟨b.toNat - 0x80, hd, UInt8.toNat_inj.mp ?_, by omega, by omega⟩
  rw [toNat_continuation hd]
  omega

/-- What completes a pending character is digits, the first one within its limits. -/
theorem digits_of_decodeFrom {k : Nat} {p : Pending} {bs : Octets} {s : List Char}
    (hm : p.missing = k + 1) (hl : 0x80 ≤ p.least.toNat) (hg : p.greatest.toNat ≤ 0xBF)
    (h : decodeFrom (some p) bs = some s) :
    ∃ d ds rest t, ds.length = k ∧ bs = (d :: ds).map continuation ++ rest ∧
      p.least.toNat ≤ 0x80 + d ∧ 0x80 + d ≤ p.greatest.toNat ∧ (∀ e ∈ d :: ds, e < 0x40) ∧
      decodeFrom none rest = some t ∧ s = Char.ofNat (complete p.code (d :: ds)) :: t := by
  induction k generalizing p bs with
  | zero =>
    cases bs with
    | nil => simp [decodeFrom] at h
    | cons b bs =>
      have ha : p.admits b = true := by
        by_contra hn
        simp [decodeFrom, hn] at h
      obtain ⟨d, hd, rfl, hlb, hgb⟩ := exists_digit hl hg ha
      rw [decodeFrom_last hm ha, extend_continuation p hd, Option.map_eq_some_iff] at h
      obtain ⟨t, ht, hs⟩ := h
      exact ⟨d, [], bs, t, rfl, rfl, hlb, hgb, by simpa using hd, ht, hs.symm⟩
  | succ k ih =>
    cases bs with
    | nil => simp [decodeFrom] at h
    | cons b bs =>
      have ha : p.admits b = true := by
        by_contra hn
        simp [decodeFrom, hn] at h
      obtain ⟨d, hd, rfl, hlb, hgb⟩ := exists_digit hl hg ha
      rw [decodeFrom_more (by omega) ha, extend_continuation p hd] at h
      obtain ⟨e, ds, rest, t, hk, hbs, -, -, hds, ht, hs⟩ :=
        ih (by simp [hm]) (Nat.le_refl _) (Nat.le_refl _) h
      refine ⟨d, e :: ds, rest, t, by simp [hk], by rw [hbs]; rfl, hlb, hgb, ?_, ht, hs⟩
      intro x hx
      rcases List.mem_cons.mp hx with rfl | hx
      · exact hd
      · exact hds x hx

theorem toNat_charOfNat {n : Nat} (h : n < 0xD800 ∨ 0xDFFF < n ∧ n < 0x110000) :
    (Char.ofNat n).toNat = n := by
  have hv : n.isValidChar := h
  rw [Char.ofNat, dif_pos hv]
  rfl

/-- What a first byte says of the bytes after it, with the limits that keep out every second form of
a character. -/
theorem lead_eq_several {b : UInt8} {p : Pending} (h : lead b = .several p) :
    0x80 ≤ p.least.toNat ∧ p.greatest.toNat ≤ 0xBF ∧
      ((p.missing = 1 ∧ 0xC2 ≤ b.toNat ∧ b.toNat < 0xE0 ∧ p.code = b.toNat - 0xC0) ∨
      (p.missing = 2 ∧ 0xE0 ≤ b.toNat ∧ b.toNat < 0xF0 ∧ p.code = b.toNat - 0xE0 ∧
        (b.toNat = 0xE0 → 0xA0 ≤ p.least.toNat) ∧ (b.toNat = 0xED → p.greatest.toNat ≤ 0x9F)) ∨
      (p.missing = 3 ∧ 0xF0 ≤ b.toNat ∧ b.toNat < 0xF5 ∧ p.code = b.toNat - 0xF0 ∧
        (b.toNat = 0xF0 → 0x90 ≤ p.least.toNat) ∧ (b.toNat = 0xF4 → p.greatest.toNat ≤ 0x8F))) := by
  unfold lead at h
  dsimp only at h
  split_ifs at h <;> simp only [Lead.several.injEq] at h <;> subst h <;> simp [*] <;> omega

/-- A character of two bytes, from its digits. -/
theorem encodeChar_two {a d : Nat} (h : 2 ≤ a ∧ a < 0x20) (hd : d < 0x40) :
    encodeChar (Char.ofNat (a * 0x40 + d)) = [.ofNat (0xC0 + a), continuation d] := by
  have hn := toNat_charOfNat (n := a * 0x40 + d) (by omega)
  have h1 : (a * 0x40 + d) / 0x40 = a := by omega
  have h0 : (a * 0x40 + d) % 0x40 = d := by omega
  simp only [encodeChar, hn, h1, h0]
  rw [if_neg (by omega), if_pos (by omega)]
  rfl

/-- A character of three bytes, from its digits. -/
theorem encodeChar_three {a d e : Nat} (ha : a < 0x10) (h0 : a = 0 → 0x20 ≤ d)
    (hD : a = 0xD → d < 0x20) (hd : d < 0x40) (he : e < 0x40) :
    encodeChar (Char.ofNat ((a * 0x40 + d) * 0x40 + e)) =
      [.ofNat (0xE0 + a), continuation d, continuation e] := by
  have hn := toNat_charOfNat (n := (a * 0x40 + d) * 0x40 + e) (by omega)
  have h2 : ((a * 0x40 + d) * 0x40 + e) / 0x1000 = a := by omega
  have h1 : ((a * 0x40 + d) * 0x40 + e) / 0x40 % 0x40 = d := by omega
  have h0 : ((a * 0x40 + d) * 0x40 + e) % 0x40 = e := by omega
  simp only [encodeChar, hn, h2, h1, h0]
  rw [if_neg (by omega), if_neg (by omega), if_pos (by omega)]
  rfl

/-- A character of four bytes, from its digits. -/
theorem encodeChar_four {a d e f : Nat} (ha : a < 5) (h0 : a = 0 → 0x10 ≤ d)
    (h4 : a = 4 → d < 0x10) (hd : d < 0x40) (he : e < 0x40) (hf : f < 0x40) :
    encodeChar (Char.ofNat (((a * 0x40 + d) * 0x40 + e) * 0x40 + f)) =
      [.ofNat (0xF0 + a), continuation d, continuation e, continuation f] := by
  have hn := toNat_charOfNat (n := ((a * 0x40 + d) * 0x40 + e) * 0x40 + f) (by omega)
  have h3 : (((a * 0x40 + d) * 0x40 + e) * 0x40 + f) / 0x40000 = a := by omega
  have h2 : (((a * 0x40 + d) * 0x40 + e) * 0x40 + f) / 0x1000 % 0x40 = d := by omega
  have h1 : (((a * 0x40 + d) * 0x40 + e) * 0x40 + f) / 0x40 % 0x40 = e := by omega
  have h0 : (((a * 0x40 + d) * 0x40 + e) * 0x40 + f) % 0x40 = f := by omega
  simp only [encodeChar, hn, h3, h2, h1, h0]
  rw [if_neg (by omega), if_neg (by omega), if_neg (by omega)]
  rfl

/-- The character that a first byte and its digits complete is written as them. -/
theorem encodeChar_complete {b : UInt8} {p : Pending} {d : Nat} {ds : List Nat}
    (hp : lead b = .several p) (hm : p.missing = ds.length + 1)
    (hl : p.least.toNat ≤ 0x80 + d) (hg : 0x80 + d ≤ p.greatest.toNat)
    (hd : ∀ e ∈ d :: ds, e < 0x40) :
    encodeChar (Char.ofNat (complete p.code (d :: ds))) = b :: (d :: ds).map continuation := by
  have h0 : d < 0x40 := hd d List.mem_cons_self
  obtain ⟨-, -, ⟨h1, hb, hb', hc⟩ | ⟨h2, hb, hb', hc, hl', hg'⟩ | ⟨h3, hb, hb', hc, hl', hg'⟩⟩ :=
    lead_eq_several hp
  · obtain rfl : ds = [] := List.eq_nil_of_length_eq_zero (by omega)
    have hb0 : UInt8.ofNat (0xC0 + (b.toNat - 0xC0)) = b := octet_eq (by omega)
    have he := encodeChar_two (a := b.toNat - 0xC0) (by omega) h0
    rw [hb0] at he
    rw [hc]
    exact he
  · obtain ⟨e, rfl⟩ : ∃ e, ds = [e] := List.length_eq_one_iff.mp (by omega)
    have hb0 : UInt8.ofNat (0xE0 + (b.toNat - 0xE0)) = b := octet_eq (by omega)
    have he := encodeChar_three (a := b.toNat - 0xE0) (by omega) (by omega) (by omega) h0
      (hd e (by simp))
    rw [hb0] at he
    rw [hc]
    exact he
  · obtain ⟨e, f, rfl⟩ : ∃ e f, ds = [e, f] := List.length_eq_two.mp (by omega)
    have hb0 : UInt8.ofNat (0xF0 + (b.toNat - 0xF0)) = b := octet_eq (by omega)
    have he := encodeChar_four (a := b.toNat - 0xF0) (by omega) (by omega) (by omega) h0
      (hd e (by simp)) (hd f (by simp))
    rw [hb0] at he
    rw [hc]
    exact he

theorem lead_eq_single {b : UInt8} {c : Char} (h : lead b = .single c) : encodeChar c = [b] := by
  unfold lead at h
  dsimp only at h
  split_ifs at h with hb
  obtain rfl : Char.ofNat b.toNat = c := by simpa using h
  have hn := toNat_charOfNat (n := b.toNat) (by omega)
  simp only [encodeChar, hn, if_pos hb, UInt8.ofNat_toNat]

/-- Reading gives nothing but texts that are written as what was read. -/
theorem encode_of_decodeFrom {bs : Octets} {s : List Char} (h : decodeFrom none bs = some s) :
    encode s = bs := by
  -- a character may take several bytes, so the induction is on their count and not on the bytes
  induction hn : bs.length using Nat.strongRecOn generalizing bs s with
  | ind n ih =>
    cases bs with
    | nil =>
      obtain rfl : [] = s := by simpa [decodeFrom] using h
      rfl
    | cons b bs =>
      cases hl : lead b with
      | single c =>
        rw [decodeFrom, hl, Option.map_eq_some_iff] at h
        obtain ⟨t, ht, rfl⟩ := h
        have hr := ih bs.length (by simp [← hn]) ht rfl
        rw [encode, List.flatMap_cons, lead_eq_single hl, ← encode, hr]
        rfl
      | several p =>
        rw [decodeFrom_several hl] at h
        obtain ⟨h80, hBF, hm⟩ := lead_eq_several hl
        obtain ⟨k, hk⟩ : ∃ k, p.missing = k + 1 := ⟨p.missing - 1, by omega⟩
        obtain ⟨d, ds, rest, t, hds, rfl, hld, hgd, hd, ht, rfl⟩ :=
          digits_of_decodeFrom hk h80 hBF h
        have hr := ih rest.length (by simp [← hn]; omega) ht rfl
        have hc := encodeChar_complete hl (hds ▸ hk) hld hgd hd
        rw [encode, List.flatMap_cons, hc, ← encode, hr]
        rfl
      | invalid => simp [decodeFrom, hl] at h

/-- A text is read from the bytes it is written as, whatever characters are in it. It makes writing
injective. -/
@[simp] theorem decode_encode (s : List Char) : decode (encode s) = some s := by
  rw [decode, encode]
  induction s with
  | nil => rfl
  | cons c s ih => rw [List.flatMap_cons, decodeFrom_encodeChar, ih]; rfl

/-- **UTF-8 is canonical**: bytes are read as a text exactly if the text is written as them. No
other bytes are read as that text. -/
theorem decode_eq_some_iff {bs : Octets} {s : List Char} : decode bs = some s ↔ encode s = bs :=
  ⟨encode_of_decodeFrom, fun h => h ▸ decode_encode s⟩

/-! ## ASCII -/

theorem encodeChar_of_lt {c : Char} (h : c.toNat < 0x80) : encodeChar c = [.ofNat c.toNat] :=
  if_pos h

/-- A character beyond ASCII is written with bytes beyond ASCII alone. -/
theorem le_of_mem_encodeChar {c : Char} (h : 0x80 ≤ c.toNat) {b : UInt8}
    (hb : b ∈ encodeChar c) : 0x80 ≤ b.toNat := by
  have hv : c.toNat < 0xD800 ∨ 0xDFFF < c.toNat ∧ c.toNat < 0x110000 := c.valid
  unfold encodeChar at hb
  dsimp only at hb
  split_ifs at hb with h1 h2 h3
  · omega
  all_goals
    simp only [List.mem_cons, List.not_mem_nil, or_false] at hb
    rcases hb with rfl | rfl | rfl | rfl <;> rw [toNat_octet (by omega)] <;> omega

/-- A byte of ASCII is written for the character with that code point alone. -/
theorem mem_encodeChar_iff {b : UInt8} (hb : b.toNat < 0x80) (c : Char) :
    b ∈ encodeChar c ↔ c = Char.ofNat b.toNat := by
  constructor
  · intro h
    have hc : c.toNat < 0x80 := by
      by_contra hn
      have := le_of_mem_encodeChar (by omega) h
      omega
    rw [encodeChar_of_lt hc, List.mem_singleton] at h
    rw [h, toNat_octet (by omega), Char.ofNat_toNat]
  · rintro rfl
    have hn := toNat_charOfNat (n := b.toNat) (by omega)
    rw [encodeChar_of_lt (by omega), hn, UInt8.ofNat_toNat]
    exact List.mem_singleton_self b

/-- The bytes of ASCII in a written text are its characters of ASCII. -/
theorem mem_encode_iff {b : UInt8} (hb : b.toNat < 0x80) (s : List Char) :
    b ∈ encode s ↔ Char.ofNat b.toNat ∈ s := by
  simp only [encode, List.mem_flatMap, mem_encodeChar_iff hb, exists_eq_right]

end BuildingBus.Text.Utf8
