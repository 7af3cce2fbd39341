import BuildingBus.Proofs.Failures
import BuildingBus.Proofs.Number.Integers

/-!
# Integers, from literals to payloads

Three limits meet in a type whose literals are integers: that of the integers of 64 bits that are
read at all, that of its kind, and that of its values. None of the types has a kind beyond 64 bits or
beyond its values, so the kind alone decides: a literal is taken exactly if it writes an integer that
the width of the kind holds, and what else writes an integer overflows, however long it is
(`Scalar.parse_whole_eq_ok_iff`, `Scalar.parse_whole_of_not_fits`).

Unless a level is scaled, the payload is that integer in two's complement. Two types end before their
octet does: levels at 254 and scenes at 63 (`literalPayload_integer`).
-/

namespace BuildingBus.Datapoint

open Number Text

/-! ## Two's complement -/

/-- An integer in two's complement in a count of octets, most significant first. For an integer that
is not negative these are its octets as they are. -/
def twosComplement (octets : Nat) (n : Int) : Octets :=
  bigEndian octets (n % (256 ^ octets : Nat)).toNat

/-- A number without sign that fits stands there as it is. -/
theorem twosComplement_natCast {octets m : Nat} (h : m < 256 ^ octets) :
    twosComplement octets m = bigEndian octets m := by
  rw [twosComplement, ← Int.natCast_emod, Int.toNat_natCast, Nat.mod_eq_of_lt h]

/-- An integer of a count of octets has its two's complement as payload. -/
theorem wordCodec_encode_ofInt (octets : Nat) (n : Int) :
    (wordCodec octets).encode (.ofInt _ n) = .ok (twosComplement octets n) := by
  simp only [wordCodec, twosComplement, BitVec.toNat_ofInt, two_pow_eight_mul]

theorem wordCodec_encode_ofNat {octets m : Nat} (h : m < 2 ^ (8 * octets)) :
    (wordCodec octets).encode (.ofNat _ m) = .ok (twosComplement octets m) := by
  rw [twosComplement_natCast (two_pow_eight_mul octets ▸ h)]
  simp only [wordCodec, BitVec.toNat_ofNat, Nat.mod_eq_of_lt h]

/-! ## Kinds -/

/-- The kind whose literals are integers of a width. With or without a sign, what follows is said
once. -/
def Kind.whole (signed : Bool) (bits : Nat) : Kind :=
  if signed then .signed bits else .unsigned bits

/-- An integer as what a literal of such a kind reads as. -/
def Scalar.whole (signed : Bool) (n : Int) : Scalar :=
  if signed then .signed n else .unsigned n.toNat

namespace Scalar

variable {signed : Bool} {bits : Nat} {n : Int} {literal subject : String} {p : Scalar}

/-- A literal of an integer is read as one of 64 bits, which then has to fit the width. -/
theorem parse_whole : parse (.whole signed bits) literal subject =
    match readInt signed (trim literal.toList) with
    | .error fault => .error (wholeError literal fault)
    | .ok n =>
      if FitsBits signed bits n then .ok (.whole signed n)
      else .error (.literalOverflow literal) := by
  by_cases hblank : trim literal.toList = []
  case pos =>
    simp only [parse, hblank, if_true]
    cases signed <;> rfl
  case neg =>
    simp only [parse, hblank, if_false]
    cases signed with
    | true =>
      change parseSigned bits literal _ = _
      simp only [parseSigned, readInt, if_true]
      cases readSigned 64 (trim literal.toList) <;> rfl
    | false =>
      change parseUnsigned bits literal _ = _
      simp only [parseUnsigned, readInt, Bool.false_eq_true, if_false, whole]
      cases readUnsigned 0xFFFFFFFFFFFFFFFF (trim literal.toList) with
      | error fault => rfl
      | ok m => simp only [Except.map, fitsBits_natCast, Int.ofNat_eq_natCast, Int.toNat_natCast]

/-- What is read as an integer writes it, and the width holds it. -/
theorem writes_of_parse_whole (h : parse (.whole signed bits) literal subject = .ok p) :
    ∃ n, WritesInt signed (trim literal.toList) n ∧ FitsBits signed bits n ∧
      p = .whole signed n := by
  rw [parse_whole] at h
  split at h
  case h_1 => cases h
  case h_2 n hn =>
    split at h
    case isTrue hf => exact ⟨n, (readInt_eq_ok_iff.mp hn).1, hf, (Except.ok.inj h).symm⟩
    case isFalse => cases h

/-- **A literal is taken exactly if it writes an integer that the width holds.** That it is first
read with 64 bits makes no difference to this. -/
theorem parse_whole_eq_ok_iff (hb : bits ≤ 64) :
    parse (.whole signed bits) literal subject = .ok p ↔
      ∃ n, WritesInt signed (trim literal.toList) n ∧ FitsBits signed bits n ∧
        p = .whole signed n := by
  refine ⟨writes_of_parse_whole, ?_⟩
  rintro ⟨n, hw, hf, rfl⟩
  rw [parse_whole, readInt_eq_ok_iff.mpr ⟨hw, hf.mono hb⟩]
  exact if_pos hf

/-- An integer that the width does not hold overflows, beyond 64 bits or within them. -/
theorem parse_whole_of_not_fits (hw : WritesInt signed (trim literal.toList) n)
    (hf : ¬FitsBits signed bits n) :
    parse (.whole signed bits) literal subject = .error (.literalOverflow literal) := by
  rw [parse_whole]
  by_cases h64 : FitsBits signed 64 n
  case pos =>
    rw [readInt_eq_ok_iff.mpr ⟨hw, h64⟩]
    exact if_neg hf
  case neg =>
    have ho : Overflows signed 64 (trim literal.toList) :=
      ⟨_, [], n, (List.append_nil _).symm, hw, h64⟩
    rw [readInt_eq_overflow_iff.mpr ho]
    rfl

/-- A literal that writes no integer is refused as a text. It overflows if it begins with an integer
that 64 bits do not hold, as what follows is not looked at. -/
theorem parse_whole_of_not_writes (h : ∀ n, ¬WritesInt signed (trim literal.toList) n) :
    parse (.whole signed bits) literal subject = .error (.malformedLiteral literal) ∨
      Overflows signed 64 (trim literal.toList) ∧
        parse (.whole signed bits) literal subject = .error (.literalOverflow literal) := by
  rw [parse_whole]
  cases hr : readInt signed (trim literal.toList) with
  | ok n => exact absurd (readInt_eq_ok_iff.mp hr).1 (h n)
  | error fault =>
    cases fault with
    | malformed => exact .inl rfl
    | overflow => exact .inr ⟨readInt_eq_overflow_iff.mp hr, rfl⟩

end Scalar

/-! ## Layouts -/

theorem Kind.unsigned_eq_whole_iff {signed : Bool} {bits k : Nat} :
    Kind.unsigned k = .whole signed bits ↔ signed = false ∧ bits = k := by
  cases signed <;> simp [Kind.whole, eq_comm]

theorem Kind.signed_eq_whole_iff {signed : Bool} {bits k : Nat} :
    Kind.signed k = .whole signed bits ↔ signed = true ∧ bits = k := by
  cases signed <;> simp [Kind.whole, eq_comm]

namespace Layout

/-- Whether the payload is an integer as it is. -/
def isUnscaled : Layout → Bool
  | level _ _ | signed _ _ | hundredths _ _ | unsigned _ _ | scene => true
  | _ => false

/-- The greatest integer with a payload, where it is not the width that ends the range. Levels and
scenes have one. -/
def ceiling : Layout → Option Nat
  | level greatest _ => some greatest
  | scene => some lastScene
  | _ => none

/-- What has a payload according to the ceiling of a layout. -/
def wholePayload (l : Layout) (octets : Nat) (n : Int) : Except PayloadFault Octets :=
  if l.ceiling.any (fun greatest => greatest < n) then .error .outOfRange
  else .ok (twosComplement octets n)

variable {l : Layout} {s : Bool} {bits octets : Nat} {n : Int} {id : TypeId}

/-- A number that fits is taken over as it is. -/
theorem narrowUnsigned_whole {m : Nat} (h : m < 2 ^ (8 * octets)) :
    narrowUnsigned octets id (.whole false m) = .ok (.ofNat _ m) :=
  if_pos h

/-- An integer that fits is taken over as it is. -/
theorem narrowSigned_whole (h : FitsBits true (8 * octets) n) :
    narrowSigned octets id (.whole true n) = .ok (.ofInt _ n) :=
  if_pos h

/-- A level or a scene stands in its octet up to the greatest one. -/
theorem check_level {greatest m : Nat} (h : m < 256) :
    (if m ≤ greatest then .ok [UInt8.ofNat m] else .error .outOfRange : Except PayloadFault Octets) =
      if (some greatest).any fun greatest => greatest < (m : Int) then .error .outOfRange
      else .ok (twosComplement 1 m) := by
  rw [twosComplement_natCast h]
  by_cases hm : m ≤ greatest
  case pos => rw [if_pos hm, if_neg (by simpa using hm), bigEndian, bigEndian, pow_zero, Nat.div_one]
  case neg => rw [if_neg hm, if_pos (by simpa using hm)]

/-- The octets of a kind are those of the values. -/
theorem size_of_isUnscaled (hl : l.isUnscaled = true) (hk : l.kind = .whole s bits) (v : l.Value) :
    l.codec.size v = bits / 8 := by
  cases l with
  | level | scene =>
    obtain ⟨-, rfl⟩ := Kind.unsigned_eq_whole_iff.mp hk
    rfl
  | unsigned octets unit =>
    obtain ⟨-, rfl⟩ := Kind.unsigned_eq_whole_iff.mp hk
    exact (Nat.mul_div_cancel_left octets (by decide)).symm
  | signed octets unit | hundredths octets unit =>
    obtain ⟨-, rfl⟩ := Kind.signed_eq_whole_iff.mp hk
    exact (Nat.mul_div_cancel_left octets (by decide)).symm
  | _ => cases hl

/-- **The payload of an integer that fits** is its two's complement in the octets of its kind, up to
the ceiling of the layout. -/
theorem exists_encode_whole (hl : l.isUnscaled = true) (hk : l.kind = .whole s bits)
    (hn : FitsBits s bits n) (id : TypeId) : ∃ v, l.ofScalar id (.whole s n) = .ok v ∧
      l.codec.encode v = l.wholePayload (bits / 8) n := by
  cases l with
  | level greatest unit =>
    obtain ⟨rfl, rfl⟩ := Kind.unsigned_eq_whole_iff.mp hk
    obtain ⟨m, rfl, hm⟩ := hn.exists_natCast
    have hw : (BitVec.ofNat (8 * 2) m).toNat = m := by
      rw [BitVec.toNat_ofNat, Nat.mod_eq_of_lt (by omega)]
    refine ⟨.ofNat _ m, narrowUnsigned_whole (by omega), ?_⟩
    simp only [codec, levelCodec, hw]
    exact check_level hm
  | scene =>
    obtain ⟨rfl, rfl⟩ := Kind.unsigned_eq_whole_iff.mp hk
    obtain ⟨m, rfl, hm⟩ := hn.exists_natCast
    have hw : (BitVec.ofNat (8 * 1) m).toNat = m := by
      rw [BitVec.toNat_ofNat, Nat.mod_eq_of_lt (by omega)]
    refine ⟨.ofNat _ m, narrowUnsigned_whole hm, ?_⟩
    simp only [codec, sceneCodec, hw]
    exact check_level hm
  | unsigned octets unit =>
    obtain ⟨rfl, rfl⟩ := Kind.unsigned_eq_whole_iff.mp hk
    obtain ⟨m, rfl, hm⟩ := hn.exists_natCast
    rw [Nat.mul_div_cancel_left octets (by decide)]
    exact ⟨.ofNat _ m, narrowUnsigned_whole hm, wordCodec_encode_ofNat hm⟩
  | signed octets unit | hundredths octets unit =>
    obtain ⟨rfl, rfl⟩ := Kind.signed_eq_whole_iff.mp hk
    rw [Nat.mul_div_cancel_left octets (by decide)]
    exact ⟨.ofInt _ n, narrowSigned_whole hn, wordCodec_encode_ofInt octets n⟩
  | _ => cases hl

end Layout

/-! ## Types -/

/-- The width of a number. -/
def Kind.bits : Kind → Nat
  | signed bits | unsigned bits | float bits => bits
  | bool | text | composite => 0

theorem Kind.bits_whole (signed : Bool) (bits : Nat) : (Kind.whole signed bits).bits = bits := by
  cases signed <;> rfl

/-- Whether the payloads of a type are the integers that its literals write: all integers but levels
that are spread over their octet. -/
def TypeId.isUnscaled (id : TypeId) : Bool :=
  id.main ∈ [6, 7, 8, 12, 13, 17, 29] || id.main = 5 && id.sub ∉ [1, 3]

/-- Whether a type ends before an integer that its kind holds: levels without 255, and scenes. For
such an integer the literal is taken, and the value has no payload. -/
def TypeId.EndsBefore (id : TypeId) (n : Int) : Prop :=
  id = ⟨5, 6⟩ ∧ n = 255 ∨ id = ⟨17, 1⟩ ∧ 63 < n

instance (id : TypeId) (n : Int) : Decidable (id.EndsBefore n) :=
  inferInstanceAs (Decidable (_ ∨ _))

namespace Registry

variable {t : DatapointType} {signed : Bool} {bits : Nat} {n : Int}

/-- No kind is beyond 64 bits. -/
theorem bits_le (ht : t ∈ Registry.all) (hk : t.kind = .whole signed bits) : bits ≤ 64 := by
  have h : ∀ t ∈ Registry.all, t.kind.bits ≤ 64 := by decide
  rw [← Kind.bits_whole signed bits, ← hk]
  exact h t ht

/-- The ceilings of the unscaled types: only two of them, a level and the scenes, end before what
their kind holds. -/
theorem ceiling_of_isUnscaled : ∀ t ∈ Registry.all, t.id.isUnscaled = true →
    t.layout.isUnscaled = true ∧
    (t.id = ⟨5, 6⟩ ∧ t.layout.ceiling = some 254 ∧ t.kind = .unsigned 8 ∨
      t.id = ⟨17, 1⟩ ∧ t.layout.ceiling = some 63 ∨
      (t.id ≠ ⟨5, 6⟩ ∧ t.id ≠ ⟨17, 1⟩) ∧
        (t.layout.ceiling = none ∨ t.layout.ceiling = some 255 ∧ t.kind = .unsigned 8)) := by
  decide

/-- Of the integers that fit its kind, an unscaled type refuses those it ends before. -/
theorem wholePayload_eq (ht : t ∈ Registry.all) (hu : t.id.isUnscaled = true)
    (hk : t.kind = .whole signed bits) (hn : FitsBits signed bits n) :
    t.layout.wholePayload (bits / 8) n =
      if t.id.EndsBefore n then .error .outOfRange else .ok (twosComplement (bits / 8) n) := by
  refine if_congr ?_ rfl rfl
  -- an octet holds no integer beyond 255
  have hoctet : t.kind = .unsigned 8 → n ≤ 255 := by
    intro h
    obtain ⟨rfl, rfl⟩ := Kind.unsigned_eq_whole_iff.mp (h.symm.trans hk)
    obtain ⟨m, rfl, hm⟩ := hn.exists_natCast
    omega
  rcases (ceiling_of_isUnscaled t ht hu).2 with ⟨hid, hc, h8⟩ | ⟨hid, hc⟩ | ⟨⟨h5, h17⟩, hc | ⟨hc, h8⟩⟩
  · have := hoctet h8
    simp [TypeId.EndsBefore, hid, hc]
    omega
  · simp [TypeId.EndsBefore, hid, hc]
  · simp [TypeId.EndsBefore, h5, h17, hc]
  · simp [TypeId.EndsBefore, h5, h17, hc, hoctet h8]

end Registry

/-! ## Datapoints -/

section

variable {t : DatapointType} {identifier literal : String} {p : Scalar}

/-- What is read and taken over is packed. -/
theorem packLiteral_of_parse {d : Datapoint} {v : d.type.Value}
    (hp : Scalar.parse d.type.kind literal d.id.text = .ok p)
    (hv : d.type.layout.ofScalar d.id p = .ok v) :
    d.packLiteral literal = ({ d with value := v }, d.type.encode v) := by
  rw [packLiteral, read_eq_ok_iff.mpr ⟨p, v, hp, hv, rfl⟩]
  exact congrArg _ (pack_eq_encode _)

/-- A literal for the identifier of a registered type is one for a new datapoint of it. -/
theorem answer_literalPayload (ht : t ∈ Registry.all) (hi : TypeId.parse identifier = .ok t.id) :
    (literalPayload identifier literal).answer =
      ((Datapoint.new t).packLiteral literal).2.map fun bs => (t.id, bs) := by
  simp only [literalPayload, hi, Logged.answer_bind, answer_create, Registry.find?_id ht,
    Option.map_some, Logged.answer_pure]

/-- **Integers, from literals to payloads.** Let the literals of a registered type be integers of a
width. A literal, less its blank ends, is read exactly if it writes an integer that the width holds,
and as that integer. One that writes another integer overflows, and one that writes none is refused
as a text. For an identifier of the type, unless it has scaled levels, the payload of an integer that
the width holds is its two's complement in as many octets, which is the size of every value of the
type. Only 255 for the levels 5.006 and scenes beyond 63 are out of range. -/
theorem literalPayload_integer (ht : t ∈ Registry.all) {signed : Bool} {bits : Nat}
    (hk : t.kind = .whole signed bits) (literal : String) :
    (∀ subject p, Scalar.parse t.kind literal subject = .ok p ↔
      ∃ n, WritesInt signed (trim literal.toList) n ∧ FitsBits signed bits n ∧
        p = .whole signed n) ∧
    (∀ subject n, WritesInt signed (trim literal.toList) n → ¬FitsBits signed bits n →
      Scalar.parse t.kind literal subject = .error (.literalOverflow literal)) ∧
    (∀ subject, (∀ n, ¬WritesInt signed (trim literal.toList) n) →
      ∃ e, Scalar.parse t.kind literal subject = .error e ∧
        (Failure.datapoint e).isTextError = true) ∧
    (t.id.isUnscaled = true → (∀ v, t.size v = bits / 8) ∧
      ∀ identifier n, TypeId.parse identifier = .ok t.id →
        WritesInt signed (trim literal.toList) n → FitsBits signed bits n →
        (literalPayload identifier literal).answer =
          if t.id.EndsBefore n then .error (.payload .outOfRange t.id)
          else .ok (t.id, twosComplement (bits / 8) n)) := by
  have hb := Registry.bits_le ht hk
  refine ⟨?_, ?_, ?_, fun hu => ?_⟩
  · intro subject p
    rw [hk, Scalar.parse_whole_eq_ok_iff hb]
  · intro subject n hw hf
    rw [hk, Scalar.parse_whole_of_not_fits hw hf]
  · intro subject h
    rw [hk]
    rcases Scalar.parse_whole_of_not_writes h with he | ⟨-, he⟩
    · exact ⟨_, he, rfl⟩
    · exact ⟨_, he, rfl⟩
  · have hl := (Registry.ceiling_of_isUnscaled t ht hu).1
    refine ⟨Layout.size_of_isUnscaled hl hk, ?_⟩
    intro identifier n hi hw hf
    have hp : Scalar.parse t.kind literal t.id.text = .ok (.whole signed n) := by
      rw [hk, Scalar.parse_whole_eq_ok_iff hb]
      exact ⟨n, hw, hf, rfl⟩
    obtain ⟨v, hv, he⟩ := Layout.exists_encode_whole hl hk hf t.id
    rw [answer_literalPayload ht hi, packLiteral_of_parse (d := .new t) hp hv]
    change (t.encode v).map _ = _
    rw [DatapointType.encode, he, Registry.wholePayload_eq ht hu hk hf]
    split <;> rfl

/-- A count of pulses in two octets: zeros in front do not matter, the least and the greatest count
are read, what is beyond them overflows. -/
theorem literalPayload_pulses :
    (⟨⟨8, 1⟩, .signed 2 "pulses"⟩ : DatapointType) ∈ Registry.all ∧
    (literalPayload "DPST-8-1" " -00012").answer = .ok (⟨8, 1⟩, [0xFF, 0xF4]) ∧
    Scalar.parse (.signed 16) "-32768" "8.001" = .ok (.signed (-32768)) ∧
    Scalar.parse (.signed 16) "32768" "8.001" = .error (.literalOverflow "32768") ∧
    ∃ e, Scalar.parse (.signed 16) "-" "8.001" = .error e ∧
      (Failure.datapoint e).isTextError = true := by
  have ht : (⟨⟨8, 1⟩, .signed 2 "pulses"⟩ : DatapointType) ∈ Registry.all := by decide
  have hk : (⟨⟨8, 1⟩, .signed 2 "pulses"⟩ : DatapointType).kind = .whole true 16 := rfl
  have hs (digits : List Char) (h : digits ≠ [] ∧ digits.all Char.isDigit = true) :
      Spells digits (digitsValue digits) := .of_all h rfl
  refine ⟨ht, ?_, ?_, ?_, ?_⟩
  · obtain ⟨-, -, -, h⟩ := literalPayload_integer ht hk " -00012"
    obtain ⟨-, h⟩ := h (by decide)
    exact h "DPST-8-1" (-12) (by decide +kernel)
      (writesInt_minus_iff.mpr ⟨12, rfl, hs "00012".toList (by decide)⟩) (by decide)
  · obtain ⟨h, -⟩ := literalPayload_integer ht hk "-32768"
    exact (h "8.001" _).mpr ⟨-32768,
      writesInt_minus_iff.mpr ⟨32768, rfl, hs "32768".toList (by decide)⟩, by decide, rfl⟩
  · obtain ⟨-, h, -⟩ := literalPayload_integer ht hk "32768"
    exact h "8.001" 32768
      (.inl ⟨32768, rfl, "32768".toList, .inl rfl, hs "32768".toList (by decide)⟩) (by decide)
  · obtain ⟨-, -, h, -⟩ := literalPayload_integer ht hk "-"
    refine h "8.001" fun n hn => ?_
    obtain ⟨m, -, hd⟩ := writesInt_minus_iff.mp hn
    exact hd.ne_nil rfl

end

end BuildingBus.Datapoint
