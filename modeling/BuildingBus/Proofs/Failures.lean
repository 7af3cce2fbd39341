import BuildingBus.Proofs.Catalog.Building
import BuildingBus.Proofs.Datapoint.Faults
import BuildingBus.Proofs.Exchange.Interruption
import BuildingBus.Proofs.Telegrams

/-!
# What operations fail for

A caller asks of a failure what class it is of, and does not look further. Each operation has its
classes, and fails for nothing else (`failures_of_operations`): what reads a text refuses the text,
what packs or unpacks refuses the value or the payload, a catalog is refused by a rejection, and a
document by a rejection or for what it is. An error on which a rejection rests stays inside of it.

Two classes are told exactly. A literal is refused for its kind if its type is registered and has no
literals, and the literal is not blank. A type that is not registered is told of only where a caller
gives its identifier: the groups of a catalog have registered types.
-/

namespace BuildingBus

open Address Catalog Datapoint Exchange Text

/-! ## Classes -/

namespace Failure

/-- Whether a payload or value is refused for this fault. -/
def isFault (fault : PayloadFault) : Failure → Bool
  | datapoint e => e.isFault fault
  | _ => false

/-- Whether a document is refused. -/
def isExchange : Failure → Bool
  | exchange _ => true
  | _ => false

/-- Whether a configuration text is refused. -/
def isConfig : Failure → Bool
  | config _ => true
  | _ => false

/-- Whether a failure that this one rests on, if there is one, is about a text or a type. Callers
look at the class of the failure itself, so that no other error may hide inside. -/
def restsOnText (f : Failure) : Bool :=
  f.source?.all fun s => s.isTextError || s.isUnregistered

/-- A type that is not registered is no matter of a text or of a rejection. -/
theorem isUnregistered_eq_false {f : Failure} (h : f.isTextError = true ∨ f.isRejection = true) :
    f.isUnregistered = false := by
  cases f with
  | datapoint e =>
    cases e with
    | unknownType id => rcases h with h | h <;> cases h
    | _ => rfl
  | _ => rfl

end Failure

open Failure

/-- All failures of an operation are of a class. `wrap` makes the error of the operation a failure,
as a caller gets it; an operation that never fails has every class. -/
def FailsAs {ε α : Type} (wrap : ε → Failure) (x : Except ε α) (p : Failure → Bool) : Prop :=
  ∀ e, x = .error e → p (wrap e) = true

/-! ## Datapoints -/

theorem TypeId.parse_error {text : String} {e : DatapointError} (h : TypeId.parse text = .error e) :
    e = .malformedIdentifier text := by
  unfold TypeId.parse at h
  split at h
  case h_1 => cases h
  case h_2 => exact (Except.error.inj h).symm

namespace Datapoint

variable {e : DatapointError} {id : TypeId} {identifier literal : String}

theorem isTextError_of_isLiteralError (h : e.isLiteralError = true) :
    (Failure.datapoint e).isTextError = true := by
  cases e with
  | malformedLiteral | literalOverflow => rfl
  | _ => cases h

/-- A literal for an identifier is refused with the identifier, with its type, or by the type. -/
theorem literalPayload_eq_error_iff :
    (literalPayload identifier literal).answer = .error e ↔
      TypeId.parse identifier = .error e ∨
      ∃ id, TypeId.parse identifier = .ok id ∧
        ((Registry.find? id = none ∧ e = .unknownType id) ∨
          ∃ t, Registry.find? id = some t ∧
            ((Datapoint.new t).packLiteral literal).2 = .error e) := by
  unfold literalPayload
  cases TypeId.parse identifier with
  | error e' => simp
  | ok id =>
    simp only [Logged.answer_bind, answer_create]
    cases hf : Registry.find? id with
    | none => simp [hf, eq_comm]
    | some t => simp [hf, map_eq_error_iff]

/-- A literal has a payload if its identifier is that of a registered type that packs it. -/
theorem literalPayload_eq_ok_iff {bs : Octets} :
    (literalPayload identifier literal).answer = .ok (id, bs) ↔
      TypeId.parse identifier = .ok id ∧ ∃ t, Registry.find? id = some t ∧
        ((Datapoint.new t).packLiteral literal).2 = .ok bs := by
  unfold literalPayload
  cases TypeId.parse identifier with
  | error e => simp
  | ok id' =>
    simp only [Logged.answer_bind, answer_create]
    cases hf : Registry.find? id' with
    | none =>
      simp only [Logged.answer_bind, Logged.answer_pure, Option.map_none, reduceCtorEq, false_iff,
        not_and, not_exists, Except.ok.injEq]
      rintro rfl t ht
      rw [hf] at ht
      cases ht
    | some t =>
      simp only [Option.map_some, Logged.answer_pure, map_eq_ok_iff, Prod.mk.injEq, Except.ok.injEq]
      constructor
      · rintro ⟨bs', hp, rfl, rfl⟩
        exact ⟨rfl, t, hf, hp⟩
      · rintro ⟨rfl, t', ht, hp⟩
        obtain rfl := Option.some.inj (hf.symm.trans ht)
        exact ⟨bs, hp, rfl, rfl⟩

/-- A new datapoint is refused with the text of its type, or for the type. -/
theorem createText_eq_error_iff :
    (createText identifier).answer = .error e ↔
      TypeId.parse identifier = .error e ∨
      ∃ id, TypeId.parse identifier = .ok id ∧ Registry.find? id = none ∧ e = .unknownType id := by
  unfold createText
  cases TypeId.parse identifier with
  | error e' => simp
  | ok id =>
    simp only [Logged.answer_bind, answer_create]
    cases hf : Registry.find? id with
    | none => simp [hf, eq_comm]
    | some t => simp [hf]

theorem failsAs_parse (text : String) : FailsAs .datapoint (TypeId.parse text) isTextError := by
  intro e h
  rw [TypeId.parse_error h]
  rfl

theorem failsAs_createText (text : String) :
    FailsAs .datapoint (createText text).answer fun f => f.isTextError || f.isUnregistered := by
  intro e h
  rcases createText_eq_error_iff.mp h with hp | ⟨id, -, -, rfl⟩
  · exact Bool.or_eq_true_iff.mpr (.inl (failsAs_parse text e hp))
  · rfl

theorem failsAs_unpack (d : Datapoint) (bs : Octets) :
    FailsAs .datapoint (d.unpack bs) fun f =>
      f.isWrongLength || f.hasReservedBits || f.isFault .outOfRange || f.isFault .invalidData := by
  intro e h
  obtain ⟨fault, -, rfl⟩ := unpack_error h
  cases fault <;> rfl

theorem failsAs_pack (d : Datapoint) :
    FailsAs .datapoint d.pack fun f => f.isFault .outOfRange || f.isFault .invalidData := by
  intro e h
  obtain ⟨fault, hf, rfl⟩ := pack_error h
  rcases Layout.eq_or_eq_of_mem_encodeFaults hf with rfl | rfl <;> rfl

theorem failsAs_literalPayload (identifier literal : String) :
    FailsAs .datapoint (literalPayload identifier literal).answer fun f =>
      f.isTextError || f.isUnregistered || f.isUnsupportedKind || f.isFault .outOfRange ||
        f.isFault .invalidData := by
  intro e h
  rcases literalPayload_eq_error_iff.mp h with hp | ⟨id, -, ⟨-, rfl⟩ | ⟨t, -, hl⟩⟩
  · rw [TypeId.parse_error hp]
    rfl
  · rfl
  · rcases packLiteral_error hl with ht | rfl | rfl | ⟨-, -, rfl⟩
    · simp only [isTextError_of_isLiteralError ht, Bool.true_or]
    · rfl
    · rfl
    · rfl

/-- **Which literals are refused for their kind**: those that are not blank, for the identifier of a
registered type that has no literals. -/
theorem literalPayload_isUnsupportedKind_iff :
    (∃ e, (literalPayload identifier literal).answer = .error e ∧
      (Failure.datapoint e).isUnsupportedKind = true) ↔
      ∃ t ∈ Registry.all, TypeId.parse identifier = .ok t.id ∧ t.kind = .composite ∧
        trim literal.toList ≠ [] := by
  constructor
  · rintro ⟨e, h, hk⟩
    rcases literalPayload_eq_error_iff.mp h with hp | ⟨id, hp, ⟨-, rfl⟩ | ⟨t, hf, hl⟩⟩
    · rw [TypeId.parse_error hp] at hk
      cases hk
    · cases hk
    · obtain ⟨subject, rfl⟩ : ∃ subject, e = .unsupportedKind subject := by
        cases e with
        | unsupportedKind subject => exact ⟨subject, rfl⟩
        | _ => cases hk
      obtain ⟨hkind, hblank⟩ := packLiteral_eq_unsupportedKind_iff.mp ⟨subject, hl⟩
      exact ⟨t, List.mem_of_find?_eq_some hf, Registry.id_of_find? hf ▸ hp, hkind, hblank⟩
  · rintro ⟨t, ht, hp, hkind, hblank⟩
    obtain ⟨subject, hl⟩ :=
      packLiteral_eq_unsupportedKind_iff (d := Datapoint.new t).mpr ⟨hkind, hblank⟩
    exact ⟨_, literalPayload_eq_error_iff.mpr
      (.inr ⟨t.id, hp, .inr ⟨t, Registry.find?_id ht, hl⟩⟩), rfl⟩

/-- A time of day has no literals, and a blank one is refused as a text all the same. -/
example : (literalPayload "10.1" "12:00").answer = .error (.unsupportedKind "10.001") ∧
    (literalPayload "10.1" " ").answer = .error (.malformedLiteral " ") := by
  decide +kernel

end Datapoint

/-! ## Catalogs -/

namespace Catalog

variable {c : Catalog} {target literal : String} {type : Option String} {f : Failure}

/-- A forest is refused by a rejection that rests on the error of a text, or of a type that is not
registered. -/
theorem failsAs_build (p : Plan) :
    FailsAs .catalog p.build.answer fun f => f.isRejection && f.restsOnText := by
  intro r h
  rw [answer_build] at h
  obtain ⟨before, e, hr⟩ := exists_blames_of_assemble h
  change (Failure.catalog r).restsOnText = true
  unfold restsOnText
  cases hs : (Failure.catalog r).source? with
  | none => rfl
  | some s =>
    rcases (hr.source?_eq_some_iff s).mp hs with ⟨why, -, rfl⟩ | ⟨why, hc, rfl⟩ | ⟨id, -, rfl⟩
    · rfl
    · -- the error is that of the field which writes no type
      have hb := hr.breaks
      rw [hc] at hb
      obtain ⟨field, -, hp⟩ := hb
      rw [TypeId.parse_error hp]
      rfl
    · rfl

/-- A target is refused by a rejection that rests on the error of an address. -/
theorem failsAs_resolve (c : Catalog) (target : String) :
    FailsAs .catalog (c.resolve target) fun f => f.isRejection && f.restsOnText := by
  intro r h
  unfold resolve at h
  split at h
  case h_1 => cases h
  case h_2 =>
    split at h
    case h_1 => cases h
    case h_2 why _ =>
      obtain rfl := Except.error.inj h
      rfl

/-- A literal for a target is refused with the target, with the type for it, or by the type. -/
theorem payloadFor_eq_error_iff :
    (c.payloadFor target literal type).answer = .error f ↔
      (∃ r, c.resolve target = .error r ∧ f = .catalog r) ∨
      ∃ a group, c.resolve target = .ok (a, group) ∧
        (literalType target group type = .error f ∨
          ∃ id, literalType target group type = .ok id ∧
            ((Registry.find? id = none ∧ f = .datapoint (.unknownType id)) ∨
              ∃ t e, Registry.find? id = some t ∧
                ((Datapoint.new t).packLiteral literal).2 = .error e ∧ f = .datapoint e)) := by
  cases hr : c.resolve target with
  | error r => simp [payloadFor, hr, eq_comm]
  | ok resolved =>
    obtain ⟨a, group⟩ := resolved
    cases ht : literalType target group type with
    | error f' =>
      simp [payloadFor, hr, ht]
    | ok id =>
      rw [answer_payloadFor hr ht]
      cases hf : Registry.find? id with
      | none => simp [ht, hf, eq_comm]
      | some t => simp [ht, hf, mapError_eq_error_iff, map_eq_error_iff, eq_comm (a := f)]

/-- The type for a literal is the one that was asked for, or the primary one of the group. -/
theorem literalType_eq_ok_iff {group : Option Group} {id : TypeId} :
    literalType target group type = .ok id ↔
      (∃ identifier, type = some identifier ∧ TypeId.parse identifier = .ok id) ∨
      (type = none ∧ ∃ g, group = some g ∧ g.primary = some id) := by
  unfold literalType
  cases type with
  | some identifier => cases hi : TypeId.parse identifier <;> simp [hi]
  | none =>
    cases group with
    | none => simp
    | some g => cases hp : g.primary <;> simp [hp]

/-- There is no type for a literal if the identifier is refused, or none was asked for and the target
has none. -/
theorem isTextError_or_isRejection_of_literalType {group : Option Group}
    (h : literalType target group type = .error f) :
    f.isTextError = true ∨ f.isRejection = true := by
  unfold literalType at h
  split at h
  case h_1 identifier =>
    split at h
    case h_1 => cases h
    case h_2 e hi =>
      obtain rfl := Except.error.inj h
      exact .inl (failsAs_parse identifier e hi)
  case h_2 =>
    split at h
    case h_1 => exact .inr (Except.error.inj h ▸ rfl)
    case h_2 =>
      split at h
      case h_1 => cases h
      case h_2 => exact .inr (Except.error.inj h ▸ rfl)

/-- The primary type of a group in a catalog that can be obtained is registered. -/
theorem find?_primary_ne (hc : Obtained c) {a : GroupAddress} {g : Group} {id : TypeId}
    (hr : c.resolve target = .ok (a, some g)) (hp : g.primary = some id) :
    Registry.find? id ≠ none := by
  have hg := (hc.sound.of_resolve hr).1
  have hid : id ∈ g.types := List.mem_of_mem_head? hp
  rw [Ne, Registry.find?_eq_none_iff, (hc.sound.groups g hg).registered id hid]
  exact nofun

/-- **A type that is not registered is told of only if it was asked for**, by a catalog that can be
obtained. -/
theorem exists_identifier_of_isUnregistered (hc : Obtained c)
    (h : (c.payloadFor target literal type).answer = .error f) (hf : f.isUnregistered = true) :
    ∃ identifier id, type = some identifier ∧ TypeId.parse identifier = .ok id ∧
      Registry.contains id = false := by
  rcases payloadFor_eq_error_iff.mp h with ⟨r, -, rfl⟩ | ⟨a, group, hr, ht | ⟨id, ht, hcase⟩⟩
  · cases hf
  · rw [isUnregistered_eq_false (isTextError_or_isRejection_of_literalType ht)] at hf
    cases hf
  · rcases hcase with ⟨hn, rfl⟩ | ⟨t, e, -, he, rfl⟩
    · rcases literalType_eq_ok_iff.mp ht with ⟨identifier, rfl, hp⟩ | ⟨rfl, g, rfl, hp⟩
      · exact ⟨identifier, id, rfl, hp, Registry.find?_eq_none_iff.mp hn⟩
      · exact absurd hn (find?_primary_ne hc hr hp)
    · rcases packLiteral_error he with ht | rfl | rfl | ⟨-, -, rfl⟩
      · rw [isUnregistered_eq_false (.inl (isTextError_of_isLiteralError ht))] at hf
        cases hf
      · cases hf
      · cases hf
      · cases hf

end Catalog

/-! ## Documents -/

namespace Exchange

variable {d : Delivery} {config : Configuration} {f : Failure}

/-- An import fails for the document, or for the forest that it declares. -/
theorem importWith_eq_error_iff :
    (importWith d config).answer = .error f ↔
      (∃ fault, d.ranges = .error fault ∧ f = fault.failure) ∨
      ∃ ranges r, d.ranges = .ok ranges ∧
        (Plan.build ⟨ranges, config.groupStyle, config.individualStyle⟩).answer = .error r ∧
        f = .catalog r := by
  cases hd : d.ranges with
  | error fault => simp [answer_importWith_of_error hd, eq_comm]
  | ok ranges =>
    unfold importWith
    simp only [hd, Logged.answer_bind]
    cases hb : (Plan.build ⟨ranges, config.groupStyle, config.individualStyle⟩).answer with
    | error r => simp [hb, eq_comm]
    | ok c => simp [hb]

/-- A document is refused for what it is, or by a rejection that rests on the error of a text or of
a type that is not registered. -/
theorem failsAs_importWith (d : Delivery) (config : Configuration) :
    FailsAs id (importWith d config).answer fun f =>
      f.isExchange || (f.isRejection && f.restsOnText) := by
  intro f h
  rcases importWith_eq_error_iff.mp h with ⟨fault, -, rfl⟩ | ⟨ranges, r, -, hb, rfl⟩
  · cases fault <;> rfl
  · exact failsAs_build _ r hb

end Exchange

/-! ## All operations -/

/-- The failures of each operation, over all its inputs. A failure is stated as the caller gets it:
`FailsAs` puts the error of the operation into `Failure` and asks for the classes there. -/
structure FailureLaws : Prop where
  /-- a group address is refused for its text -/
  groupAddress : ∀ text, FailsAs .addressing (GroupAddress.parse text) isTextError
  /-- an individual address is refused for its text -/
  individualAddress : ∀ text, FailsAs .addressing (IndividualAddress.parse text) isTextError
  /-- an identifier of a type is refused for its text -/
  identifier : ∀ text, FailsAs .datapoint (TypeId.parse text) isTextError
  /-- a datapoint is not created for the text of its identifier, or because no such type is
  registered -/
  created : ∀ text, FailsAs .datapoint (createText text).answer fun f =>
    f.isTextError || f.isUnregistered
  /-- a payload is refused for its length, its reserved bits, its range or its data -/
  unpacked : ∀ (d : Datapoint) bs, FailsAs .datapoint (d.unpack bs) fun f =>
    f.isWrongLength || f.hasReservedBits || f.isFault .outOfRange || f.isFault .invalidData
  /-- a value is refused for its range or its data -/
  packed : ∀ d : Datapoint, FailsAs .datapoint d.pack fun f =>
    f.isFault .outOfRange || f.isFault .invalidData
  /-- a literal is refused as a text, for a type that is not registered or has no literals, or
  because its value has no payload -/
  literal : ∀ identifier literal, FailsAs .datapoint (literalPayload identifier literal).answer
    fun f => f.isTextError || f.isUnregistered || f.isUnsupportedKind || f.isFault .outOfRange ||
      f.isFault .invalidData
  /-- exactly the structured types have no literals; a blank literal is refused as a text before its
  type is looked at -/
  literal_unsupportedKind_iff : ∀ identifier literal,
    (∃ e, (literalPayload identifier literal).answer = .error e ∧
      (Failure.datapoint e).isUnsupportedKind = true) ↔
    ∃ t ∈ Registry.all, TypeId.parse identifier = .ok t.id ∧ t.kind = .composite ∧
      trim literal.toList ≠ []
  /-- a forest is rejected; what is wrong with a text or a type stays inside of the rejection -/
  built : ∀ p : Plan, FailsAs .catalog p.build.answer fun f => f.isRejection && f.restsOnText
  /-- a target that is found nowhere is rejected; the error of its text stays inside -/
  resolved : ∀ (c : Catalog) target, FailsAs .catalog (c.resolve target) fun f =>
    f.isRejection && f.restsOnText
  /-- an import with a configuration fails for the document, or as building does -/
  imported : ∀ d config, FailsAs id (importWith d config).answer fun f =>
    f.isExchange || (f.isRejection && f.restsOnText)
  /-- an import without a configuration fails for the document, or as building does -/
  importedPlain : ∀ d, FailsAs id (importDocument d).answer fun f =>
    f.isExchange || (f.isRejection && f.restsOnText)
  /-- a configuration has errors of its own -/
  configured : ∀ text, FailsAs .config (Configuration.parse text).answer isConfig
  /-- a catalog that can be obtained tells of a type that is not registered only if an identifier was
  given: the types of its own groups all are -/
  overridden_of_unregistered : ∀ c, Obtained c → ∀ target literal type f,
    (c.payloadFor target literal type).answer = .error f → f.isUnregistered = true →
      type.isSome = true

/-- **What each operation fails for.** The texts of addresses and identifiers are refused as texts. A
new datapoint is refused with the text of its type, or because the type is not registered. A payload
is refused for its length, its reserved bits, its range or its data, and a value for its range or its
data. A literal for an identifier is refused as a text, for a type that is not registered, for a
value without payload, or because its type has no literals; the last happens exactly if the type is
registered as a structured one and the literal is not blank. Building a catalog and finding a target
fail by rejections, and importing by rejections or for the document; a rejection rests, if on
anything, on the error of a text or of a type that is not registered. Configurations have errors of
their own. A catalog that can be obtained tells of a type that is not registered only if an
identifier was given. -/
theorem failures_of_operations : FailureLaws where
  groupAddress _ _ _ := rfl
  individualAddress _ _ _ := rfl
  identifier := failsAs_parse
  created := failsAs_createText
  unpacked := failsAs_unpack
  packed := failsAs_pack
  literal := failsAs_literalPayload
  literal_unsupportedKind_iff _ _ := literalPayload_isUnsupportedKind_iff
  built := failsAs_build
  resolved := failsAs_resolve
  imported := failsAs_importWith
  importedPlain d := failsAs_importWith d {}
  configured _ _ _ := rfl
  overridden_of_unregistered c hc target literal type f h hf := by
    obtain ⟨identifier, -, rfl, -⟩ := exists_identifier_of_isUnregistered hc h hf
    rfl

/-- A catalog with a dimmer of the type 5.001: a literal for it is written without an identifier,
and the type 5.999, which is not registered, is told of where its identifier is given. -/
theorem failures_of_operations_unregistered :
    let p : Plan := ⟨[.mk "House" [⟨"Dimmer", "1/1/1", "5.1"⟩] []], .free, .free⟩
    let f : Failure := .datapoint (.unknownType ⟨5, 999⟩)
    ∃ c, p.build.answer = .ok c ∧ Obtained c ∧
      (c.payloadFor "dimmer" "100" none).answer = .ok (⟨2305⟩, [255]) ∧
      (c.payloadFor "dimmer" "5" (some "5.999")).answer = .error f ∧
      f.isUnregistered = true ∧ (some "5.999").isSome = true := by
  intro p f
  obtain ⟨c, hc, hp⟩ : ∃ c, p.build.answer = .ok c ∧
      ((c.payloadFor "dimmer" "100" none).answer,
        (c.payloadFor "dimmer" "5" (some "5.999")).answer) = (.ok (⟨2305⟩, [255]), .error f) :=
    exists_build (by decide +kernel)
  obtain ⟨hd, hu⟩ := Prod.mk.inj hp
  have ho : Obtained c := .built hc
  exact ⟨c, hc, ho, hd, hu, rfl, failures_of_operations.overridden_of_unregistered c ho _ _ _ f hu rfl⟩

end BuildingBus
