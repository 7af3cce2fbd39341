import Mathlib.Data.List.Forall2
import Mathlib.Tactic.Common

/-!
# Steps that may fail

Reading, checking and building are steps that succeed with an answer or fail with an error. Here is
what a chain of such steps comes to: two steps (`bind_eq_ok_iff`, `bind_eq_error_iff`), a check in
front of others (`check_eq_ok_iff`, `check_eq_error_iff`), one step for each member of a list
(`mapM_eq_ok_iff`, `mapM_eq_some_iff`), and a run along a list (`foldlM_eq_error_iff`).
-/

namespace BuildingBus

variable {α β ε : Type}

/-- Two steps succeed exactly if the first one does and the second one does with its answer. -/
theorem bind_eq_ok_iff {x : Except ε α} {f : α → Except ε β} {b : β} :
    (x >>= f) = .ok b ↔ ∃ a, x = .ok a ∧ f a = .ok b := by
  cases x with
  | error e => exact ⟨nofun, nofun⟩
  | ok a => exact ⟨fun h => ⟨a, rfl, h⟩, fun ⟨_, ha, h⟩ => Except.ok.inj ha ▸ h⟩

/-- A check that is put in front passes exactly if what it forbids is not the case. -/
theorem check_eq_ok_iff {p : Prop} [Decidable p] {e : ε} {x y : Except ε α} {a : α} :
    (if p then (do throw e; y) else x) = .ok a ↔ ¬p ∧ x = .ok a := by
  by_cases hp : p
  · rw [if_pos hp]
    exact ⟨nofun, fun h => absurd hp h.1⟩
  · rw [if_neg hp]
    exact ⟨fun h => ⟨hp, h⟩, fun h => h.2⟩

/-- A check that fails gives its own error. -/
theorem eq_of_check {p : Prop} [Decidable p] {a : α} {e e' : ε}
    (h : (if p then .ok a else .error e : Except ε α) = .error e') : e' = e := by
  split at h
  case isTrue => cases h
  case isFalse => exact (Except.error.inj h).symm

/-- A check fails exactly if what it asks for is not the case. -/
theorem guard_eq_error_iff {p : Prop} [Decidable p] {a : α} {e e' : ε} :
    (if p then .ok a else .error e : Except ε α) = .error e' ↔ e' = e ∧ ¬p := by
  by_cases hp : p
  · rw [if_pos hp]
    exact ⟨nofun, fun h => absurd hp h.2⟩
  · rw [if_neg hp]
    exact ⟨fun h => ⟨(Except.error.inj h).symm, hp⟩, fun h => h.1 ▸ rfl⟩

/-- Two steps fail exactly if the first one does, or the second one does with its answer. -/
theorem bind_eq_error_iff {x : Except ε α} {f : α → Except ε β} {e : ε} :
    (x >>= f) = .error e ↔ x = .error e ∨ ∃ a, x = .ok a ∧ f a = .error e := by
  cases x with
  | error e' =>
    refine ⟨fun h => .inl (congrArg _ (Except.error.inj h)), ?_⟩
    rintro (h | ⟨_, ha, _⟩)
    · exact congrArg _ (Except.error.inj h)
    · cases ha
  | ok a =>
    refine ⟨fun h => .inr ⟨a, rfl, h⟩, ?_⟩
    rintro (h | ⟨_, ha, h⟩)
    · cases h
    · exact Except.ok.inj ha ▸ h

/-- A check that is put in front fails exactly if what it forbids is the case. -/
theorem check_eq_error_iff {p : Prop} [Decidable p] {e e' : ε} {x y : Except ε α} :
    (if p then (do throw e; y) else x) = .error e' ↔ (p ∧ e' = e) ∨ (¬p ∧ x = .error e') := by
  by_cases hp : p
  · rw [if_pos hp]
    exact ⟨fun h => .inl ⟨hp, (Except.error.inj h).symm⟩,
      fun h => (h.resolve_right fun h => h.1 hp).2 ▸ rfl⟩
  · rw [if_neg hp]
    exact ⟨fun h => .inr ⟨hp, h⟩, fun h => (h.resolve_left fun h => hp h.1).2⟩

/-- What is made of an answer stems from an answer. -/
theorem map_eq_ok_iff {x : Except ε α} {f : α → β} {b : β} :
    x.map f = .ok b ↔ ∃ a, x = .ok a ∧ f a = b := by
  cases x with
  | error e =>
    refine ⟨nofun, ?_⟩
    rintro ⟨_, h, -⟩
    cases h
  | ok a =>
    refine ⟨fun h => ⟨a, rfl, Except.ok.inj h⟩, ?_⟩
    rintro ⟨_, h, rfl⟩
    exact Except.ok.inj h ▸ rfl

/-- What is made of an answer does not change whether there is one. -/
theorem map_eq_error_iff {x : Except ε α} {f : α → β} {e : ε} :
    x.map f = .error e ↔ x = .error e := by
  cases x with
  | error e' =>
    exact ⟨fun h => congrArg _ (Except.error.inj h), fun h => congrArg _ (Except.error.inj h)⟩
  | ok a => exact ⟨nofun, nofun⟩

/-- An error that is translated stems from an error. -/
theorem mapError_eq_error_iff {ε' : Type} {x : Except ε α} {f : ε → ε'} {e : ε'} :
    x.mapError f = .error e ↔ ∃ e', x = .error e' ∧ f e' = e := by
  cases x with
  | error e' =>
    refine ⟨fun h => ⟨e', rfl, Except.error.inj h⟩, ?_⟩
    rintro ⟨_, h, rfl⟩
    exact Except.error.inj h ▸ rfl
  | ok a =>
    refine ⟨nofun, ?_⟩
    rintro ⟨_, h, -⟩
    cases h

/-- A list is read exactly if each of its members is. -/
theorem mapM_eq_ok_iff {f : α → Except ε β} {xs : List α} {ys : List β} :
    xs.mapM f = .ok ys ↔ List.Forall₂ (fun x y => f x = .ok y) xs ys := by
  induction xs generalizing ys with
  | nil =>
    rw [List.mapM_nil, List.forall₂_nil_left_iff]
    exact ⟨fun h => (Except.ok.inj h).symm, fun h => h ▸ rfl⟩
  | cons x xs ih =>
    rw [List.mapM_cons]
    constructor
    · intro h
      obtain ⟨y, hy, h⟩ := bind_eq_ok_iff.mp h
      obtain ⟨zs, hzs, h⟩ := bind_eq_ok_iff.mp h
      obtain rfl := Except.ok.inj h
      exact .cons hy (ih.mp hzs)
    · intro h
      cases h with
      | cons hy hys => exact bind_eq_ok_iff.mpr ⟨_, hy, bind_eq_ok_iff.mpr ⟨_, ih.mpr hys, rfl⟩⟩

/-- A list is read, as far as each of its members may have an answer, exactly if each has one. -/
theorem mapM_eq_some_iff {f : α → Option β} {xs : List α} {ys : List β} :
    xs.mapM f = some ys ↔ List.Forall₂ (fun x y => f x = some y) xs ys := by
  induction xs generalizing ys with
  | nil =>
    rw [List.mapM_nil, List.forall₂_nil_left_iff]
    exact ⟨fun h => (Option.some.inj h).symm, fun h => h ▸ rfl⟩
  | cons x xs ih =>
    rw [List.mapM_cons]
    constructor
    · intro h
      obtain ⟨y, hy, h⟩ := Option.bind_eq_some_iff.mp h
      obtain ⟨zs, hzs, h⟩ := Option.bind_eq_some_iff.mp h
      obtain rfl := Option.some.inj h
      exact .cons hy (ih.mp hzs)
    · intro h
      cases h with
      | cons hy hys =>
        exact Option.bind_eq_some_iff.mpr ⟨_, hy, Option.bind_eq_some_iff.mpr ⟨_, ih.mpr hys, rfl⟩⟩

/-- Reading a list fails at the first member that cannot be read. -/
theorem find?_of_mapM_eq_error {f : α → Except ε β} {p : α → Bool}
    (hp : ∀ x, p x = true ↔ ∃ y, f x = .ok y) {xs : List α} {e : ε} (h : xs.mapM f = .error e) :
    ∃ x, xs.find? (fun x => !p x) = some x ∧ f x = .error e := by
  induction xs with
  | nil => cases h
  | cons x xs ih =>
    rw [List.mapM_cons, bind_eq_error_iff] at h
    rcases h with hx | ⟨y, hy, h⟩
    · have hn : p x = false := by
        rw [← Bool.not_eq_true, hp]
        rintro ⟨y, hy⟩
        rw [hx] at hy
        cases hy
      exact ⟨x, List.find?_cons_of_pos (by rw [hn]; rfl), hx⟩
    · have hxs : xs.mapM f = .error e := by
        rcases bind_eq_error_iff.mp h with h | ⟨_, _, h⟩
        · exact h
        · cases h
      obtain ⟨z, hz, he⟩ := ih hxs
      have hx : p x = true := (hp x).mpr ⟨y, hy⟩
      exact ⟨z, by rw [List.find?_cons_of_neg (by simp [hx]), hz], he⟩

/-- A run fails exactly if it gets to some member of the list and fails there. The members before it
are those that the run went through. -/
theorem foldlM_eq_error_iff {f : β → α → Except ε β} {xs : List α} {b : β} {e : ε} :
    xs.foldlM f b = .error e ↔ ∃ before x after b', xs = before ++ x :: after ∧
      before.foldlM f b = .ok b' ∧ f b' x = .error e := by
  induction xs generalizing b with
  | nil =>
    refine ⟨nofun, ?_⟩
    rintro ⟨before, x, after, b', h, -⟩
    exact absurd h (by simp)
  | cons y ys ih =>
    rw [List.foldlM_cons, bind_eq_error_iff]
    constructor
    · rintro (hy | ⟨c, hc, h⟩)
      · exact ⟨[], y, ys, b, rfl, rfl, hy⟩
      · obtain ⟨before, x, after, b', rfl, hb, hx⟩ := ih.mp h
        exact ⟨y :: before, x, after, b', rfl, bind_eq_ok_iff.mpr ⟨c, hc, hb⟩, hx⟩
    · rintro ⟨before, x, after, b', hs, hb, hx⟩
      cases before with
      | nil =>
        obtain ⟨rfl, rfl⟩ := List.cons.inj hs
        exact .inl (Except.ok.inj hb ▸ hx)
      | cons z before =>
        obtain ⟨rfl, rfl⟩ := List.cons.inj hs
        obtain ⟨c, hc, hb⟩ := bind_eq_ok_iff.mp hb
        exact .inr ⟨c, hc, ih.mpr ⟨before, x, after, b', rfl, hb, hx⟩⟩

/-- Each member on the left of two lists that are related member by member has one on the right. -/
theorem exists_of_mem_left {R : α → β → Prop} {xs : List α} {ys : List β}
    (h : List.Forall₂ R xs ys) {x : α} (hx : x ∈ xs) : ∃ y ∈ ys, R x y := by
  induction h with
  | nil => exact absurd hx List.not_mem_nil
  | cons hr _ ih =>
    rcases List.mem_cons.mp hx with rfl | hx
    · exact ⟨_, .head _, hr⟩
    · obtain ⟨y, hy, hr⟩ := ih hx
      exact ⟨y, .tail _ hy, hr⟩

/-- A list can be read exactly if each of its members can. -/
theorem exists_mapM_eq_some_iff {f : α → Option β} {xs : List α} :
    (∃ ys, xs.mapM f = some ys) ↔ ∀ x ∈ xs, ∃ y, f x = some y := by
  simp only [mapM_eq_some_iff]
  constructor
  · rintro ⟨ys, h⟩ x hx
    obtain ⟨y, -, hy⟩ := exists_of_mem_left h hx
    exact ⟨y, hy⟩
  · intro h
    induction xs with
    | nil => exact ⟨[], .nil⟩
    | cons x xs ih =>
      obtain ⟨y, hy⟩ := h x List.mem_cons_self
      obtain ⟨ys, hys⟩ := ih fun z hz => h z (List.mem_cons_of_mem x hz)
      exact ⟨y :: ys, .cons hy hys⟩

end BuildingBus
