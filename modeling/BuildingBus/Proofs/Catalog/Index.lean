import BuildingBus.Catalog.Index

/-!
# Indexes of lists

An index *tracks* a list under a key when it has the positions of the members of the list, and no
others. It leaves no room for two members with one key (`Index.Tracks.pairwise`), so that what it
finds under a key is the one member with that key, if there is one
(`Index.Tracks.find_eq_some_iff`).

Putting a member at the end of the list and its position into the index keeps this as long as the
key of the member is new (`Index.Tracks.push`). A key that is taken would lose its first position.
-/

namespace BuildingBus.Catalog

/-- The index has the positions of a list under a key, and no others. It is the invariant that makes
finding by the index the same as searching the list. -/
def Index.Tracks {κ α : Type} [DecidableEq κ] (i : Index κ) (key : α → κ) (l : List α) : Prop :=
  ∀ k n, i.get? k = some n ↔ ∃ a, l[n]? = some a ∧ key a = k

namespace Index

variable {κ α : Type} [DecidableEq κ] {i : Index κ} {key : α → κ} {l : List α}

theorem tracks_nil : ({} : Index κ).Tracks key [] := by
  intro k n
  simp

/-- An index that is tracked finds a member under each key, and under no other: it is found exactly
if it is in the list and has the key. -/
theorem Tracks.find_eq_some_iff (h : i.Tracks key l) {k : κ} {a : α} :
    ((i.get? k).bind fun n => l[n]?) = some a ↔ a ∈ l ∧ key a = k := by
  rw [Option.bind_eq_some_iff]
  constructor
  · rintro ⟨n, hn, ha⟩
    obtain ⟨b, hb, hk⟩ := (h k n).mp hn
    rw [ha] at hb
    obtain rfl := Option.some.inj hb
    exact ⟨List.mem_of_getElem? ha, hk⟩
  · rintro ⟨ha, hk⟩
    obtain ⟨n, hn⟩ := List.mem_iff_getElem?.mp ha
    exact ⟨n, (h k n).mpr ⟨a, hn, hk⟩, hn⟩

theorem Tracks.find_eq_none_iff (h : i.Tracks key l) {k : κ} :
    ((i.get? k).bind fun n => l[n]?) = none ↔ ∀ a ∈ l, key a ≠ k := by
  rw [Option.eq_none_iff_forall_ne_some]
  constructor
  · intro hn a ha hk
    exact hn a (h.find_eq_some_iff.mpr ⟨ha, hk⟩)
  · intro hn a ha
    obtain ⟨hm, hk⟩ := h.find_eq_some_iff.mp ha
    exact hn a hm hk

/-- No two members of a list that an index tracks have one key. -/
theorem Tracks.pairwise (h : i.Tracks key l) : l.Pairwise fun a b => key a ≠ key b := by
  rw [List.pairwise_iff_getElem]
  intro m n hm hn hlt hk
  have h1 := (h (key l[m]) m).mpr ⟨l[m], List.getElem?_eq_getElem hm, rfl⟩
  have h2 := (h (key l[m]) n).mpr ⟨l[n], List.getElem?_eq_getElem hn, hk.symm⟩
  rw [h1] at h2
  exact absurd (Option.some.inj h2) (Nat.ne_of_lt hlt)

theorem getElem?_concat_eq_some_iff {a b : α} {n : Nat} :
    (l ++ [a])[n]? = some b ↔ l[n]? = some b ∨ n = l.length ∧ a = b := by
  rcases Nat.lt_trichotomy n l.length with hlt | rfl | hgt
  · rw [List.getElem?_append_left hlt]
    exact ⟨.inl, fun h => h.resolve_right fun h => absurd h.1 (Nat.ne_of_lt hlt)⟩
  · simp
  · have h1 : (l ++ [a])[n]? = none := List.getElem?_eq_none (by rw [List.length_append]; exact hgt)
    have h2 : l[n]? = none := List.getElem?_eq_none (Nat.le_of_lt hgt)
    simp [h1, h2, Nat.ne_of_gt hgt]

/-- A member with a new key is tracked at the end of the list. With a key that is taken, the index
would lose the member that had it. -/
theorem Tracks.push (h : i.Tracks key l) {a : α} (hnew : ∀ b ∈ l, key b ≠ key a) :
    (i.insert (key a) l.length).Tracks key (l ++ [a]) := by
  intro k n
  simp only [getElem?_concat_eq_some_iff]
  -- under the new key stands the new position alone, under the other keys nothing changes
  by_cases hk : k = key a
  · subst hk
    rw [get?_insert_self]
    constructor
    · intro hn
      obtain rfl := Option.some.inj hn
      exact ⟨a, .inr ⟨rfl, rfl⟩, rfl⟩
    · rintro ⟨b, hb | ⟨hn, -⟩, hbk⟩
      · exact absurd hbk (hnew b (List.mem_of_getElem? hb))
      · rw [hn]
  · rw [get?_insert_of_ne i l.length hk, h k n]
    constructor
    · rintro ⟨b, hb, hbk⟩
      exact ⟨b, .inl hb, hbk⟩
    · rintro ⟨b, hb | ⟨-, rfl⟩, hbk⟩
      · exact ⟨b, hb, hbk⟩
      · exact absurd hbk.symm hk

end Index

end BuildingBus.Catalog
