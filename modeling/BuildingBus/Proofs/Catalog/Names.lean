import BuildingBus.Proofs.Catalog.Building
import BuildingBus.Proofs.Text.Case

/-!
# Spellings of a name

A name can be spelled with its ASCII letters in either case and with blank characters around it
(`Respelled`). All spellings have one key (`Respelled.nameKey_eq`), so that a catalog finds the same
group under each of them, and no two groups can be declared with spellings of one name
(`respelled_laws`).
-/

namespace BuildingBus.Catalog

open Text

/-- The second text is another spelling of the first: the case of ASCII letters is changed, and blank
characters are added or removed at the ends. -/
inductive Respelled : List Char → List Char → Prop
  /-- some ASCII letters have their case changed -/
  | recased {s t : List Char} (h : List.Forall₂ Recased s t) : Respelled s t
  /-- blank characters are added at the ends -/
  | blanks {before after : List Char} (hb : ∀ c ∈ before, isBlank c = true)
      (ha : ∀ c ∈ after, isBlank c = true) (s : List Char) : Respelled s (before ++ s ++ after)
  /-- a change is taken back -/
  | symm {s t : List Char} (h : Respelled s t) : Respelled t s
  /-- one change is made after another -/
  | trans {s t u : List Char} (h : Respelled s t) (h' : Respelled t u) : Respelled s u

/-- Spellings of a name have one key. -/
theorem Respelled.lower_trim_eq {s t : List Char} (h : Respelled s t) :
    lower (trim s) = lower (trim t) := by
  induction h with
  | recased h => exact lower_congr (trim_congr (h.imp fun _ _ => Recased.alike))
  | blanks hb ha s => rw [trim_append_blanks hb ha]
  | symm h ih => exact ih.symm
  | trans h h' ih ih' => exact ih.trans ih'

theorem Respelled.nameKey_eq {s t : String} (h : Respelled s.toList t.toList) :
    nameKey s = nameKey t :=
  congrArg String.ofList h.lower_trim_eq

/-- A forest with two entries whose names have one key is rejected. -/
theorem exists_rejection_of_nameKey_eq {p : Plan} {i j : Nat} {e f : LocatedEntry} (hij : i ≠ j)
    (he : (locatedAll [] p.ranges)[i]? = some e) (hf : (locatedAll [] p.ranges)[j]? = some f)
    (h : nameKey e.entry.name = nameKey f.entry.name) : ∃ r, p.build.answer = .error r := by
  cases hb : p.build.answer with
  | error r => exact ⟨r, rfl⟩
  | ok c =>
    have hn := ((exists_build_iff p).mp ⟨c, hb⟩).names
    have hc := List.pairwise_iff_getElem.mp hn
    obtain ⟨hi, rfl⟩ := List.getElem?_eq_some_iff.mp he
    obtain ⟨hj, rfl⟩ := List.getElem?_eq_some_iff.mp hf
    rcases Nat.lt_or_gt_of_ne hij with hlt | hlt
    · exact absurd h (hc i j hi hj hlt)
    · exact absurd h.symm (hc j i hj hi hlt)

/-- **Spellings of a name are one name**: every catalog finds the same under both, and a forest with
two entries that are named by them is rejected, wherever they stand in it. -/
theorem respelled_laws {s t : String} (h : Respelled s.toList t.toList) :
    (∀ c : Catalog, c.lookup s = c.lookup t) ∧
    ∀ (p : Plan) (i j : Nat) (e f : LocatedEntry), i ≠ j →
      (locatedAll [] p.ranges)[i]? = some e → (locatedAll [] p.ranges)[j]? = some f →
      e.entry.name = s → f.entry.name = t → ∃ r, p.build.answer = .error r := by
  constructor
  · intro c
    rw [Catalog.lookup, h.nameKey_eq, Catalog.lookup]
  · rintro p i j e f hij he hf rfl rfl
    exact exists_rejection_of_nameKey_eq hij he hf h.nameKey_eq

/-- A sigma that is no final one because of a letter behind a full stop, in either case of the letter:
a range and a range in it hold entries with the two spellings. -/
theorem respelled_laws_sigma :
    let p : Plan := ⟨[.mk "House" [⟨"ΟΣ.a", "1/1/1", ""⟩] [.mk "Attic" [⟨"ΟΣ.A ", "1/1/2", ""⟩] []]],
      .unspecified, .unspecified⟩
    Respelled "ΟΣ.a".toList "ΟΣ.A ".toList ∧ (∀ c : Catalog, c.lookup "ΟΣ.a" = c.lookup "ΟΣ.A ") ∧
      (locatedAll [] p.ranges)[0]? = some ⟨["House"], ⟨"ΟΣ.a", "1/1/1", ""⟩⟩ ∧
      (locatedAll [] p.ranges)[1]? = some ⟨["House", "Attic"], ⟨"ΟΣ.A ", "1/1/2", ""⟩⟩ ∧
      ∃ r, p.build.answer = .error r := by
  intro p
  have hcase : Respelled "ΟΣ.a".toList "ΟΣ.A".toList :=
    .recased (.cons (.inl rfl) (.cons (.inl rfl) (.cons (.inl rfl) (.cons (.inr (.inr rfl)) .nil))))
  have hblank : Respelled "ΟΣ.A".toList "ΟΣ.A ".toList :=
    .blanks (List.forall_mem_nil _) (List.forall_mem_singleton.mpr rfl) "ΟΣ.A".toList
  have h := hcase.trans hblank
  have he : (locatedAll [] p.ranges)[0]? = some ⟨["House"], ⟨"ΟΣ.a", "1/1/1", ""⟩⟩ := by decide
  have hf : (locatedAll [] p.ranges)[1]? =
      some ⟨["House", "Attic"], ⟨"ΟΣ.A ", "1/1/2", ""⟩⟩ := by decide
  obtain ⟨hl, hb⟩ := respelled_laws h
  exact ⟨h, hl, he, hf, hb p 0 1 _ _ (by decide) he hf rfl rfl⟩

end BuildingBus.Catalog
