import BuildingBus.Proofs.Catalog.Soundness
import BuildingBus.Proofs.Datapoint.Literals
import BuildingBus.Proofs.Datapoint.Registry
import BuildingBus.Telegram

/-!
# What is sent is understood

A literal for a group is encoded with the primary type of the group. A telegram with that payload,
sent to the group as a write or a response, is decoded by the same catalog as a value of the primary
type, never of a later one: the decoder tries the types in their order, and the primary one accepts
each payload that it has produced (`DatapointType.exists_decode`).

With a type that is asked for by its identifier, what is encoded for a target does not depend on the
target (`decode_payloadFor`, second part).
-/

namespace BuildingBus

open Address Catalog Datapoint

/-! ## Datapoints -/

namespace Datapoint

/-- A literal that is packed is read and taken over, and the payload is that of the value. -/
theorem exists_of_packLiteral {d : Datapoint} {literal : String} {bs : Octets}
    (h : (d.packLiteral literal).2 = .ok bs) :
    ∃ p v, Scalar.parse d.type.kind literal d.id.text = .ok p ∧
      d.type.layout.ofScalar d.id p = .ok v ∧ d.type.encode v = .ok bs := by
  unfold packLiteral at h
  split at h
  case h_1 => cases h
  case h_2 d' hd =>
    obtain ⟨p, v, hp, hv, rfl⟩ := read_eq_ok_iff.mp hd
    exact ⟨p, v, hp, hv, pack_eq_encode ⟨d.type, v⟩ ▸ h⟩

/-- The payload that a new datapoint makes of a literal is read by its type, and outside of the
family 9 as a value with that payload. -/
theorem exists_decode_of_literal {id : TypeId} {literal : String} {bs : Octets} {t : DatapointType}
    (h : Registry.find? id = some t) (hp : ((Datapoint.new t).packLiteral literal).2 = .ok bs) :
    ∃ w, t.decode bs = .ok w ∧ t.id = id ∧ (id.main ≠ 9 → t.encode w = .ok bs) := by
  have hid := Registry.id_of_find? h
  have ht : t ∈ Registry.all := List.mem_of_find?_eq_some h
  obtain ⟨-, v, -, -, hv⟩ := exists_of_packLiteral hp
  obtain ⟨w, hd, he⟩ := DatapointType.exists_decode ht hv
  exact ⟨w, hd, hid, hid ▸ he⟩

end Datapoint

namespace Catalog

variable {c : Catalog} {target literal : String} {a b : GroupAddress} {g : Group} {data : Octets}

/-! ## Targets -/

/-- A target that belongs to a group has the address of the group. -/
theorem Sound.of_resolve (h : c.Sound) (hr : c.resolve target = .ok (a, some g)) :
    g ∈ c.groups ∧ g.address = a := by
  unfold resolve at hr
  split at hr
  case h_1 g' hl =>
    obtain ⟨rfl, hg⟩ := Prod.mk.inj (Except.ok.inj hr)
    obtain rfl := Option.some.inj hg
    exact ⟨(h.lookup_eq_some_iff.mp hl).1, rfl⟩
  case h_2 =>
    split at hr
    case h_1 address _ =>
      obtain ⟨rfl, hg⟩ := Prod.mk.inj (Except.ok.inj hr)
      exact h.lookupAddress_eq_some_iff.mp hg
    case h_2 => cases hr

/-! ## Decoding -/

/-- A telegram to a listed group is decoded with the types of the group. -/
theorem answer_decode {t : Telegram} (ht : t.command ≠ .read)
    (hg : c.lookupAddress t.destination = some g) :
    (c.decode t).answer = (firstAccepted t.data g.types).answer.map fun d => (g, d) := by
  rw [decode, if_neg ht, hg]
  simp only [Logged.answer_bind]
  cases (firstAccepted t.data g.types).answer <;> rfl

/-- The first type that accepts a payload decodes it. -/
theorem answer_firstAccepted_cons {id : TypeId} {ids : List TypeId} {t : DatapointType}
    (h : Registry.find? id = some t) {v : t.Value} (hv : t.decode data = .ok v) :
    (firstAccepted data (id :: ids)).answer = some ⟨t, v⟩ := by
  have hu : (Datapoint.new t).unpack data = .ok ⟨t, v⟩ := by
    simp only [Datapoint.unpack, Datapoint.new, hv]
    rfl
  rw [firstAccepted, Logged.answer_bind, answer_create, h, Option.map_some]
  simp only [hu, Logged.answer_pure]

/-! ## Encoding -/

/-- The type for a literal is asked for with an identifier, or it is the primary one of the
group. -/
theorem answer_payloadFor {group : Option Group} (hr : c.resolve target = .ok (b, group))
    {type : Option String} {id : TypeId} (ht : literalType target group type = .ok id) :
    (c.payloadFor target literal type).answer =
      match Registry.find? id with
      | none => .error (.datapoint (.unknownType id))
      | some t => (((Datapoint.new t).packLiteral literal).2.map fun bs => (b, bs)).mapError
          .datapoint := by
  unfold payloadFor
  simp only [hr, ht, Logged.answer_bind, answer_create]
  cases Registry.find? id with
  | none => rfl
  | some t =>
    simp only [Option.map_some]
    cases ((Datapoint.new t).packLiteral literal).2 <;> rfl

theorem literalType_primary {id : TypeId} (h : g.primary = some id) :
    literalType target (some g) none = .ok id := by
  simp only [literalType, h]

/-- What is encoded for a target is a literal of a registered type. -/
theorem exists_find?_of_payloadFor {group : Option Group} (hr : c.resolve target = .ok (b, group))
    {type : Option String} {id : TypeId} (ht : literalType target group type = .ok id)
    (h : (c.payloadFor target literal type).answer = .ok (a, data)) :
    a = b ∧ ∃ t, Registry.find? id = some t ∧
      ((Datapoint.new t).packLiteral literal).2 = .ok data := by
  rw [answer_payloadFor hr ht] at h
  cases hf : Registry.find? id with
  | none =>
    rw [hf] at h
    cases h
  | some t =>
    rw [hf] at h
    cases hp : ((Datapoint.new t).packLiteral literal).2 with
    | error e => simp [hp, Except.map, Except.mapError] at h
    | ok bs =>
      simp only [hp, Except.map, Except.mapError, Except.ok.injEq, Prod.mk.injEq] at h
      exact ⟨h.1.symm, t, rfl, h.2 ▸ hp⟩

/-- **What is encoded for a group is decoded as a value of its primary type**, by every catalog that
can be obtained: a literal for a target that belongs to a group is encoded for the address of the
group, and a write or a response to it with that payload, from any device, gives the group and a
value of the primary type. Outside of the family 9 that value is packed as the same payload. With a
type that is asked for by its identifier, the payload for a target, or the error, is that of the
literal for the identifier alone. -/
theorem decode_payloadFor (hc : Obtained c) :
    (∀ target literal b g id a data, c.resolve target = .ok (b, some g) → g.primary = some id →
      (c.payloadFor target literal none).answer = .ok (a, data) →
      a = g.address ∧
      ∀ t : Telegram, t.command ≠ .read → t.destination = a → t.data = data →
        ∃ d, (c.decode t).answer = some (g, d) ∧ d.id = id ∧
          (id.main ≠ 9 → d.pack = .ok data)) ∧
    ∀ target literal b group identifier, c.resolve target = .ok (b, group) →
      (c.payloadFor target literal (some identifier)).answer =
        ((literalPayload identifier literal).answer.map fun p => (b, p.2)).mapError .datapoint := by
  constructor
  · intro target literal b g id a data hr hp hd
    obtain ⟨hg, rfl⟩ := hc.sound.of_resolve hr
    obtain ⟨rfl, t, hf, hl⟩ := exists_find?_of_payloadFor hr (literalType_primary hp) hd
    obtain ⟨w, hw, hid, hpack⟩ := exists_decode_of_literal hf hl
    refine ⟨rfl, ?_⟩
    rintro telegram hread hto rfl
    have hlist : c.lookupAddress telegram.destination = some g :=
      hc.sound.lookupAddress_eq_some_iff.mpr ⟨hg, hto.symm⟩
    obtain ⟨ids, htypes⟩ : ∃ ids, g.types = id :: ids := List.head?_eq_some_iff.mp hp
    refine ⟨⟨t, w⟩, ?_, hid, fun hm => (pack_eq_encode ⟨t, w⟩).trans (hpack hm)⟩
    rw [answer_decode hread hlist, htypes, answer_firstAccepted_cons hf hw, Option.map_some]
  · intro target literal b group identifier hr
    unfold literalPayload
    cases hi : TypeId.parse identifier with
    | error e => simp [payloadFor, hr, literalType, hi, Except.map, Except.mapError]
    | ok id =>
      have ht : literalType target group (some identifier) = .ok id := by
        simp only [literalType, hi]
      rw [answer_payloadFor hr ht, Logged.answer_bind, answer_create]
      cases Registry.find? id with
      | none => rfl
      | some t =>
        simp only [Option.map_some, Logged.answer_pure]
        cases ((Datapoint.new t).packLiteral literal).2 <;> rfl

/-- A group with two types that both take one octet: an angle that shares its octet with another one
is sent to an address, and what comes back has the type of the angle and its octet. -/
theorem decode_payloadFor_angle :
    let g : Group := ⟨"Blind", ⟨2306⟩, [⟨5, 3⟩, ⟨5, 4⟩], ["House"], .free⟩
    let p : Plan := ⟨[.mk "House" [⟨"Blind", "1/1/2", "5.3, 5.4"⟩] []], .free, .unspecified⟩
    let c : Catalog := p.start.push g
    p.build.answer = .ok c ∧ c.resolve " 1/258" = .ok (⟨2306⟩, some g) ∧
      (c.payloadFor " 1/258" "180" none).answer = .ok (⟨2306⟩, [128]) ∧
      ∃ d, (c.decode ⟨.response, ⟨4357⟩, ⟨2306⟩, [128]⟩).answer = some (g, d) ∧ d.id = ⟨5, 3⟩ ∧
        d.pack = .ok [128] := by
  intro g p c
  have hb : p.build.answer = .ok c := by decide +kernel
  have hr : c.resolve " 1/258" = .ok (⟨2306⟩, some g) := by decide +kernel
  have hp : (c.payloadFor " 1/258" "180" none).answer = .ok (⟨2306⟩, [128]) := by decide +kernel
  obtain ⟨hd, -⟩ := decode_payloadFor (.built hb)
  obtain ⟨-, hd⟩ := hd _ _ _ _ ⟨5, 3⟩ _ _ hr rfl hp
  obtain ⟨d, hd, hid, hpack⟩ := hd ⟨.response, ⟨4357⟩, ⟨2306⟩, [128]⟩ (by decide) rfl rfl
  exact ⟨hb, hr, hp, d, hd, hid, hpack (by decide)⟩

end Catalog

end BuildingBus
