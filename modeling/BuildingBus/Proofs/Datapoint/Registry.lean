import Mathlib.Data.List.Find
import Mathlib.Data.List.Nodup
import BuildingBus.Proofs.Datapoint.Buffers
import BuildingBus.Proofs.Datapoint.Repacking

/-!
# The registry by families

The registered types are one list, and every question about an identifier searches all of it. Here
the same types stand in a table of families (`Registry.Table`), each with its main number, and the
questions are put to a family: a new value comes from the first family with the main number, whether
an identifier is registered is asked of that family, and the list of all identifiers is collected
from all families and sorted. A family that repeats a main number would be listed and never asked.

Both main numbers and the subtype numbers of a family ascend, and a table holds the proof of it. That
is why the table answers like the list (`Table.find?_eq`, `Table.contains_eq`, `Table.ids_eq`).

The main statement is `registry_laws`: what is created, what is registered and what is listed are the
same, and every value that is created has a payload that is read as that value.
-/

namespace BuildingBus.Datapoint

/-! ## The order of identifiers -/

namespace TypeId

variable {a b : TypeId}

/-- An identifier comes before another one: it has a smaller main number, or the same main number
and a smaller subtype number. -/
def Before (a b : TypeId) : Prop := a.main < b.main ∨ a.main = b.main ∧ a.sub < b.sub

theorem compare_eq_lt_iff : a.compare b = .lt ↔ a.Before b := by
  rw [compare, Ordering.then_eq_lt, Nat.compare_eq_lt, Nat.compare_eq_eq, Nat.compare_eq_lt,
    UInt16.toNat_inj, ← UInt16.lt_iff_toNat_lt, ← UInt16.lt_iff_toNat_lt, Before]

theorem Before.ne (h : a.Before b) : a ≠ b := by
  rintro rfl
  rcases h with h | ⟨-, h⟩
  · exact UInt16.lt_irrefl _ h
  · exact UInt16.lt_irrefl _ h

end TypeId

namespace Registry

/-! ## Families -/

/-- The registered types with one main number, by ascending subtype number. That they ascend is part
of the family, so that no subtype number is in it twice. -/
structure Family where
  /-- the main number -/
  main : UInt16
  /-- the types -/
  types : List DatapointType
  /-- the main number is that of every type -/
  owned : ∀ t ∈ types, t.id.main = main
  /-- each subtype number is greater than those before it -/
  ascending : types.Pairwise fun t u => t.id.sub < u.id.sub

namespace Family

variable {f : Family} {id : TypeId}

/-- The type with a subtype number. -/
def find? (f : Family) (sub : UInt16) : Option DatapointType := f.types.find? (·.id.sub == sub)

/-- Whether a family has a subtype number. -/
def contains (f : Family) (sub : UInt16) : Bool := f.types.any (·.id.sub == sub)

/-- The identifiers of the types. -/
def ids (f : Family) : List TypeId := f.types.map (·.id)

/-- In its own family a type is found by the subtype number alone. -/
theorem find?_types (h : f.main = id.main) : f.types.find? (·.id == id) = f.find? id.sub := by
  refine List.find?_congr fun t ht => ?_
  have hm : t.id.main = id.main := (f.owned t ht).trans h
  rw [Bool.eq_iff_iff, beq_iff_eq, beq_iff_eq, TypeId.mk.injEq]
  exact and_iff_right hm

/-- A type is not found in a family with another main number. -/
theorem find?_types_eq_none (h : f.main ≠ id.main) : f.types.find? (·.id == id) = none := by
  refine List.find?_eq_none.mpr fun t ht he => h ?_
  rw [← f.owned t ht, beq_iff_eq.mp he]

theorem before (f : Family) : f.types.Pairwise fun t u => t.id.Before u.id :=
  f.ascending.imp_of_mem fun ht hu h =>
    .inr ⟨(f.owned _ ht).trans (f.owned _ hu).symm, h⟩

end Family

/-! ## Tables -/

/-- Families by ascending main number, so that no main number is repeated, and no family hides
another one. -/
structure Table where
  /-- the families -/
  families : List Family
  /-- each main number is greater than those before it -/
  ascending : families.Pairwise fun f g => f.main < g.main

namespace Table

variable (table : Table) (id : TypeId)

/-- The types of all families. -/
def types : List DatapointType := table.families.flatMap Family.types

/-- The family that answers for a main number. It is the first one with that number, and all else is
asked of this one. -/
def family? (main : UInt16) : Option Family := table.families.find? (·.main == main)

/-- The type with an identifier. -/
def find? : Option DatapointType := (table.family? id.main).bind (·.find? id.sub)

/-- Whether an identifier is registered. -/
def contains : Bool := (table.family? id.main).any (·.contains id.sub)

/-- The identifiers of all types, sorted. The table has them in that order already, but that is not
taken for granted here. -/
def ids : List TypeId :=
  (table.families.flatMap Family.ids).mergeSort fun a b => (a.compare b).isLE

/-- If main numbers ascend, the first family with a main number has all types with it. -/
theorem find?_flatMap {fs : List Family} (h : fs.Pairwise fun f g => f.main < g.main) :
    (fs.flatMap Family.types).find? (·.id == id) =
      (fs.find? (·.main == id.main)).bind (·.find? id.sub) := by
  induction fs with
  | nil => rfl
  | cons f fs ih =>
    obtain ⟨hf, hfs⟩ := List.pairwise_cons.mp h
    rw [List.flatMap_cons, List.find?_append, ih hfs]
    by_cases hm : f.main = id.main
    case pos =>
      -- the other families have greater main numbers
      have hn : fs.find? (·.main == id.main) = none := by
        refine List.find?_eq_none.mpr fun g hg he => ?_
        rw [← beq_iff_eq.mp he] at hm
        exact UInt16.ne_of_lt (hf g hg) hm
      have hc : (f :: fs).find? (·.main == id.main) = some f :=
        List.find?_cons_of_pos (beq_iff_eq.mpr hm)
      rw [hn, hc, f.find?_types hm]
      exact Option.or_none
    case neg =>
      have hc : (f :: fs).find? (·.main == id.main) = fs.find? (·.main == id.main) :=
        List.find?_cons_of_neg (mt beq_iff_eq.mp hm)
      rw [hc, f.find?_types_eq_none hm]
      exact Option.none_or

/-- A table is searched like the list of its types. A search by main number and then by subtype
number misses nothing, since the types of one main number are all in one family. -/
theorem find?_eq : table.find? id = table.types.find? (·.id == id) :=
  (find?_flatMap id table.ascending).symm

theorem contains_eq : table.contains id = (table.find? id).isSome := by
  rw [contains, find?]
  cases table.family? id.main with
  | none => rfl
  | some f => exact List.isSome_find?.symm

/-- The types of a table ascend from family to family and in each of them. -/
theorem pairwise_types : table.types.Pairwise fun t u => t.id.Before u.id := by
  refine List.pairwise_flatMap.mpr ⟨fun f _ => f.before, table.ascending.imp ?_⟩
  intro f g h t ht u hu
  left
  rwa [f.owned t ht, g.owned u hu]

theorem pairwise_ids : (table.types.map (·.id)).Pairwise TypeId.Before :=
  List.pairwise_map.mpr table.pairwise_types

/-- Sorting a table changes nothing, as families and types ascend already. So the list of
identifiers is that of the search. -/
theorem ids_eq : table.ids = table.types.map (·.id) := by
  have hm : table.families.flatMap Family.ids = table.types.map (·.id) :=
    List.map_flatMap.symm
  rw [ids, hm]
  refine List.mergeSort_of_pairwise (table.pairwise_ids.imp fun h => ?_)
  exact Ordering.isLE_of_eq_lt (TypeId.compare_eq_lt_iff.mpr h)

/-- No two types of a table share an identifier. -/
theorem find?_id {t : DatapointType} (ht : t ∈ table.types) : table.find? t.id = some t := by
  have hnd : (table.types.map (·.id)).Nodup := table.pairwise_ids.imp TypeId.Before.ne
  rw [find?_eq]
  cases hf : table.types.find? (·.id == t.id) with
  | none => exact absurd BEq.rfl (List.find?_eq_none.mp hf t ht)
  | some u =>
    have hid : u.id = t.id := by simpa using List.find?_some hf
    rw [List.inj_on_of_nodup_map hnd (List.mem_of_find?_eq_some hf) ht hid]

end Table

/-! ## The registered types -/

/-- The registered families, which make up the list of all registered types. -/
def table : Table where
  families :=
    [⟨1, states, by decide, by decide⟩, ⟨2, controlledStates, by decide, by decide⟩,
      ⟨3, steps, by decide, by decide⟩, ⟨5, levels, by decide, by decide⟩,
      ⟨6, signedOctets, by decide, by decide⟩, ⟨7, unsignedPairs, by decide, by decide⟩,
      ⟨8, signedPairs, by decide, by decide⟩, ⟨9, shortFloats, by decide, by decide⟩,
      ⟨10, times, by decide, by decide⟩, ⟨11, dates, by decide, by decide⟩,
      ⟨12, unsignedQuads, by decide, by decide⟩, ⟨13, signedQuads, by decide, by decide⟩,
      ⟨14, singles, by decide, by decide⟩, ⟨16, shortStrings, by decide, by decide⟩,
      ⟨17, scenes, by decide, by decide⟩, ⟨18, sceneControls, by decide, by decide⟩,
      ⟨28, longStrings, by decide, by decide⟩, ⟨29, signedOctads, by decide, by decide⟩,
      ⟨232, family 232 [(600, .rgb)], by decide, by decide⟩,
      ⟨242, family 242 [(600, .xyY)], by decide, by decide⟩,
      ⟨251, family 251 [(600, .rgbw)], by decide, by decide⟩]
  ascending := by decide

/-- Every registered type stands in the table, in the order of the list. -/
theorem types_table : table.types = all := by
  decide +kernel

theorem table_find? (id : TypeId) : table.find? id = find? id := by
  rw [Table.find?_eq, types_table, find?]

theorem table_contains (id : TypeId) : table.contains id = contains id := by
  rw [Table.contains_eq, table_find?, contains_eq_isSome_find?]

theorem table_ids : table.ids = ids := by
  rw [Table.ids_eq, types_table, ids]

/-- A registered type is found by its identifier. -/
theorem find?_id {t : DatapointType} (ht : t ∈ all) : find? t.id = some t := by
  rw [← types_table] at ht
  rw [← table_find?, table.find?_id ht]

theorem find?_eq_none_iff {id : TypeId} : find? id = none ↔ contains id = false := by
  rw [contains_eq_isSome_find?, Option.isSome_eq_false_iff, Option.isNone_iff_eq_none]

end Registry

/-! ## New values -/

theorem ShortFloat.encode_zero : codec.encode (Number.Binary.zero _) = .ok [0, 0] := by
  decide +kernel

theorem ShortFloat.decode_zero : codec.decode [0, 0] = .ok (Number.Binary.zero _) := by
  decide +kernel

/-- The level zero is the octet zero, whatever the range. -/
theorem scaledCodec_encode_zero (greatest : Nat) : (scaledCodec greatest).encode 0 = .ok [0] := by
  have hs : scaleDown greatest 0 = 0 := by
    rw [scaleDown, Nat.zero_mul, Nat.zero_add, Nat.div_div_eq_div_mul, Nat.div_eq_zero_iff]
    omega
  exact congrArg (fun n => Except.ok [UInt8.ofNat n]) hs

theorem scaledCodec_decode_zero (greatest : Nat) : (scaledCodec greatest).decode [0] = .ok 0 := by
  have hs : scaleUp greatest 0 = 0 := by rw [scaleUp, Nat.zero_mul]
  exact congrArg (fun n => Except.ok (BitVec.ofNat _ n)) hs

namespace Layout

variable {l : Layout}

/-- A new value has a payload, whatever its layout: no layout begins with a value beyond its limits.
-/
theorem exists_encode_initial (l : Layout) : ∃ bs, l.codec.encode l.initial = .ok bs := by
  cases l with
  | scaled greatest => exact ⟨_, scaledCodec_encode_zero greatest⟩
  | level => exact ⟨[0], rfl⟩
  | shortFloat => exact ⟨_, ShortFloat.encode_zero⟩
  | time => exact ⟨[0, 0, 0], by decide⟩
  | _ => exact ⟨_, rfl⟩

/-- The payload of a new value is read as that value. -/
theorem decode_initial (hf : l.fitsOctets = true) {bs : Octets}
    (h : l.codec.encode l.initial = .ok bs) : l.codec.decode bs = .ok l.initial := by
  by_cases he : l.isExact = true
  case pos => exact (codec_exact he).readsBack _ _ h
  case neg =>
    cases l with
    | scaled greatest =>
      obtain rfl := Except.ok.inj ((scaledCodec_encode_zero greatest).symm.trans h)
      exact scaledCodec_decode_zero greatest
    | level => exact absurd hf he
    | shortFloat =>
      obtain rfl := Except.ok.inj (ShortFloat.encode_zero.symm.trans h)
      exact ShortFloat.decode_zero
    | characters => exact characterCodec_readsBack (of_decide_eq_true hf) _ _ h
    | utf8 => exact utf8Codec_readsBack _ _ h
    | _ => exact absurd rfl he

end Layout

/-- A new datapoint of a registered type is packed, and is read from its payload as it was. -/
theorem exists_pack_new {t : DatapointType} (ht : t ∈ Registry.all) :
    ∃ bs, (Datapoint.new t).pack = .ok bs ∧ (Datapoint.new t).unpack bs = .ok (.new t) := by
  obtain ⟨bs, he⟩ := t.layout.exists_encode_initial
  have hd : t.decode bs = .ok t.layout.initial :=
    DatapointType.decode_eq_ok_iff.mpr
      (Layout.decode_initial (Registry.fitsOctets_of_mem ht) he)
  refine ⟨bs, ?_, ?_⟩
  · rw [pack_eq_encode]
    exact DatapointType.encode_eq_ok_iff.mpr he
  · exact congrArg (Except.map _) hd

/-! ## Creating -/

theorem answer_create (id : TypeId) : (create id).answer = (Registry.find? id).map .new := by
  unfold create
  cases Registry.find? id <;> rfl

/-- **The views of the registry agree**, for every identifier. A new datapoint is created exactly if
the identifier is registered, and exactly if it is listed. What is created has that identifier and a
payload, and is read from its payload as it was. The list ascends strictly, by main number, then by
subtype number, so that no identifier is registered twice, and every registered type is created for
its identifier. All this is as it is family by family: the first family with a main number answers
for it, and the sorted identifiers of all families are the list. -/
theorem registry_laws :
    (∀ id, ((create id).answer.isSome = true ↔ Registry.contains id = true) ∧
      (Registry.contains id = true ↔ id ∈ Registry.ids)) ∧
    (∀ id d, (create id).answer = some d →
      d.id = id ∧ ∃ bs, d.pack = .ok bs ∧ d.unpack bs = .ok d) ∧
    Registry.ids.Pairwise TypeId.Before ∧
    (∀ t ∈ Registry.all, (create t.id).answer = some (.new t)) ∧
    Registry.table.types = Registry.all ∧
    (∀ id, (create id).answer = (Registry.table.find? id).map .new) ∧
    (∀ id, Registry.contains id = Registry.table.contains id) ∧
    Registry.ids = Registry.table.ids := by
  refine ⟨fun id => ⟨?_, (Registry.mem_ids_iff id).symm⟩, fun id d h => ?_, ?_, fun t ht => ?_,
    Registry.types_table, fun id => ?_, fun id => (Registry.table_contains id).symm,
    Registry.table_ids.symm⟩
  · rw [answer_create, Option.isSome_map, Registry.contains_eq_isSome_find?]
  · rw [answer_create] at h
    obtain ⟨t, ht, rfl⟩ := Option.map_eq_some_iff.mp h
    exact ⟨Registry.id_of_find? ht, exists_pack_new (List.mem_of_find?_eq_some ht)⟩
  · rw [Registry.ids, ← Registry.types_table]
    exact Registry.table.pairwise_ids
  · rw [answer_create, Registry.find?_id ht, Option.map_some]
  · rw [answer_create, Registry.table_find?]

/-- Levels of the angle 5.003 share octets, but a new angle is read back. -/
theorem registry_laws_angle :
    (create ⟨5, 3⟩).answer = some (.new angle) ∧
    ∃ bs, (Datapoint.new angle).pack = .ok bs ∧ (Datapoint.new angle).unpack bs = .ok (.new angle) := by
  obtain ⟨-, hd, -, ha, -⟩ := registry_laws
  have hm : angle ∈ Registry.all := by decide
  exact ⟨ha angle hm, (hd _ _ (ha angle hm)).2⟩

/-- A registered main number with another subtype number, and a main number that no family has. -/
example : Registry.contains ⟨5, 2⟩ = false ∧ Registry.contains ⟨4, 1⟩ = false := by decide

end BuildingBus.Datapoint
