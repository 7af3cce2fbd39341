/-!
# Fields and lines

A separator cuts a text into fields: `fields` always gives at least one, and joining them again
with the separator gives the text back (`join_fields`), and texts without the separator are the
fields of what they are joined to (`fields_join`). Lines are the fields of the line feed,
less one carriage return before it and less the empty field after a final one.
-/

namespace BuildingBus.Text

/-! ## Fields -/

/-- The fields of a text between the occurrences of `sep`. There is always at least one, if only an
empty one. -/
def fields (sep : Char) : List Char → List (List Char)
  | [] => [[]]
  | c :: s =>
    if c = sep then [] :: fields sep s
    else match fields sep s with
      | [] => [[c]]
      | f :: fs => (c :: f) :: fs

/-- Texts written one after the other with `sep` in between. -/
def join (sep : List Char) : List (List Char) → List Char
  | [] => []
  | [f] => f
  | f :: fs => f ++ sep ++ join sep fs

@[simp] theorem fields_ne_nil (sep : Char) (s : List Char) : fields sep s ≠ [] := by
  cases s with
  | nil => simp [fields]
  | cons c s =>
    simp only [fields]
    split
    · simp
    · split <;> simp

theorem join_cons_cons (sep : List Char) (f : List Char) {fs : List (List Char)} (h : fs ≠ []) :
    join sep (f :: fs) = f ++ sep ++ join sep fs := by
  cases fs with
  | nil => exact absurd rfl h
  | cons g gs => rfl

/-- Cutting at a separator loses nothing. -/
theorem join_fields (sep : Char) (s : List Char) : join [sep] (fields sep s) = s := by
  induction s with
  | nil => rfl
  | cons c s ih =>
    simp only [fields]
    split
    case isTrue h => rw [join_cons_cons _ _ (fields_ne_nil sep s), ih, h]; rfl
    case isFalse h =>
      split
      case h_1 hs => exact absurd hs (fields_ne_nil sep s)
      case h_2 f fs hs =>
        rw [hs] at ih
        cases fs with
        | nil => simpa [join] using ih
        | cons g gs => simpa [join] using ih

/-- A text without the separator is its own only field. -/
theorem fields_of_not_mem {sep : Char} {s : List Char} (h : sep ∉ s) : fields sep s = [s] := by
  induction s with
  | nil => rfl
  | cons c s ih =>
    simp only [List.mem_cons, not_or] at h
    simp [fields, ih h.2, Ne.symm h.1]

/-- A text before the first separator is the first field. -/
theorem fields_append_cons {sep : Char} {f : List Char} (h : sep ∉ f) (rest : List Char) :
    fields sep (f ++ sep :: rest) = f :: fields sep rest := by
  induction f with
  | nil => exact if_pos rfl
  | cons c f ih =>
    rw [List.mem_cons, not_or] at h
    rw [List.cons_append, fields, if_neg (Ne.symm h.1), ih h.2]

/-- Texts without the separator are the fields of what they are joined to. -/
theorem fields_join {sep : Char} {fs : List (List Char)} (hne : fs ≠ []) (h : ∀ f ∈ fs, sep ∉ f) :
    fields sep (join [sep] fs) = fs := by
  induction fs with
  | nil => exact absurd rfl hne
  | cons f fs ih =>
    have hf : sep ∉ f := h f List.mem_cons_self
    cases fs with
    | nil => exact fields_of_not_mem hf
    | cons g gs =>
      have hr := ih (List.cons_ne_nil g gs) fun t ht => h t (List.mem_cons_of_mem f ht)
      rw [join_cons_cons _ _ (List.cons_ne_nil g gs), List.append_assoc, List.singleton_append,
        fields_append_cons hf, hr]

/-- A character of joined texts stands in one of them or in what is between them. -/
theorem mem_or_exists_of_mem_join {sep : List Char} {fs : List (List Char)} {c : Char}
    (h : c ∈ join sep fs) : c ∈ sep ∨ ∃ f ∈ fs, c ∈ f := by
  induction fs with
  | nil => exact absurd h List.not_mem_nil
  | cons f fs ih =>
    by_cases hfs : fs = []
    · subst hfs
      exact .inr ⟨f, .head _, h⟩
    · rw [join_cons_cons sep f hfs, List.mem_append, List.mem_append] at h
      rcases h with (h | h) | h
      · exact .inr ⟨f, .head _, h⟩
      · exact .inl h
      · exact (ih h).imp_right fun ⟨g, hg, hc⟩ => ⟨g, .tail _ hg, hc⟩

/-- Strings written one after the other with `sep` in between. -/
def joined (sep : String) (parts : List String) : String :=
  String.ofList (join sep.toList (parts.map String.toList))

/-! ## The first separator -/

/-- What stands before and after the first `sep`, if there is one. Any further one stays in the
second part. -/
def cutFirst (sep : Char) : List Char → Option (List Char × List Char)
  | [] => none
  | c :: s =>
    if c = sep then some ([], s)
    else (cutFirst sep s).map fun (before, after) => (c :: before, after)

/-! ## Lines -/

/-- A line without one carriage return at its end. -/
def dropReturn (line : List Char) : List Char :=
  match line.getLast? with
  | some '\r' => line.dropLast
  | _ => line

/-- The lines of a text. A line feed ends a line; what follows the last line feed is a line only if
it is not empty, and there a carriage return is kept. -/
def lines (s : List Char) : List (List Char) :=
  let fs := fields '\n' s
  let ended := fs.dropLast.map dropReturn
  match fs.getLast? with
  | some [] | none => ended
  | some rest => ended ++ [rest]

end BuildingBus.Text
