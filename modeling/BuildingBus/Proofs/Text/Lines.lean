import BuildingBus.Text.Blank
import BuildingBus.Text.Fields

/-!
# Cutting texts

A text is cut at its first separator exactly if it has one, and then nothing before the cut has one
(`cutFirst_eq_some_iff`, `cutFirst_eq_none_iff`).

A text of whole lines, each ended by a line feed, can be taken off the front of a longer text: the
lines of the two parts are those of the whole (`WholeLines.lines_append`).
-/

namespace BuildingBus.Text

/-! ## The first separator -/

section

variable {sep : Char} {s before after : List Char}

theorem cutFirst_eq_some_iff :
    cutFirst sep s = some (before, after) ↔ s = before ++ sep :: after ∧ sep ∉ before := by
  induction s generalizing before with
  | nil => simp [cutFirst]
  | cons c s ih =>
    rw [cutFirst]
    split
    case isTrue hc =>
      subst hc
      cases before with
      | nil => simp
      | cons b before =>
        -- a separator at the very front is the first one
        simp only [Option.some.injEq, Prod.mk.injEq, List.nil_eq, reduceCtorEq, false_and,
          List.cons_append, List.cons.injEq, List.mem_cons, not_or, false_iff, not_and]
        rintro ⟨rfl, -⟩ hb
        exact absurd rfl hb
    case isFalse hc =>
      cases before with
      | nil => simp [hc]
      | cons b before =>
        simp only [Option.map_eq_some_iff, Prod.exists, Prod.mk.injEq, List.cons.injEq,
          List.cons_append, List.mem_cons, not_or]
        constructor
        · rintro ⟨f, a, hf, ⟨rfl, rfl⟩, rfl⟩
          obtain ⟨rfl, hn⟩ := ih.mp hf
          exact ⟨⟨rfl, rfl⟩, Ne.symm hc, hn⟩
        · rintro ⟨⟨rfl, rfl⟩, -, hn⟩
          exact ⟨before, after, ih.mpr ⟨rfl, hn⟩, ⟨rfl, rfl⟩, rfl⟩

theorem cutFirst_eq_none_iff : cutFirst sep s = none ↔ sep ∉ s := by
  induction s with
  | nil => simp [cutFirst]
  | cons c s ih =>
    rw [cutFirst]
    split
    case isTrue hc => simp [hc]
    case isFalse hc => simp [ih, Ne.symm hc]

end

/-! ## Whole lines -/

/-- A text of so many lines, each ended by a line feed. -/
inductive WholeLines : Nat → List Char → Prop where
  /-- no line -/
  | nil : WholeLines 0 []
  /-- a line before others -/
  | line {n : Nat} {l s : List Char} (hl : '\n' ∉ l) (hs : WholeLines n s) :
      WholeLines (n + 1) (l ++ '\n' :: s)

/-- A text is its only line if it is not ended. -/
theorem lines_of_not_mem {l : List Char} (hl : '\n' ∉ l) (hne : l ≠ []) : lines l = [l] := by
  simp only [lines, fields_of_not_mem hl]
  cases l with
  | nil => exact absurd rfl hne
  | cons c l => rfl

/-- What stands before the first line feed is the first line. -/
theorem lines_line {l : List Char} (hl : '\n' ∉ l) (s : List Char) :
    lines (l ++ '\n' :: s) = dropReturn l :: lines s := by
  have hd : (l :: fields '\n' s).dropLast = l :: (fields '\n' s).dropLast :=
    List.dropLast_cons_of_ne_nil (fields_ne_nil '\n' s)
  have hg : (l :: fields '\n' s).getLast? = (fields '\n' s).getLast? := by
    obtain ⟨f, fs, hf⟩ := List.exists_cons_of_ne_nil (fields_ne_nil '\n' s)
    rw [hf, List.getLast?_cons_cons]
  simp only [lines, fields_append_cons hl, hd, hg, List.map_cons]
  split <;> rfl

/-- Whole lines at the front of a text are its first lines, and what follows them has the lines that
it has on its own. -/
theorem WholeLines.lines_append {n : Nat} {first : List Char} (h : WholeLines n first)
    (rest : List Char) : lines (first ++ rest) = lines first ++ lines rest := by
  induction h with
  | nil => rfl
  | @line n l s hl hs ih =>
    rw [List.append_assoc, List.cons_append, lines_line hl, lines_line hl, ih, List.cons_append]

theorem WholeLines.length_lines {n : Nat} {first : List Char} (h : WholeLines n first) :
    (lines first).length = n := by
  induction h with
  | nil => rfl
  | line hl hs ih => rw [lines_line hl, List.length_cons, ih]

/-- The carriage return at the end of a line is blank. -/
theorem trim_dropReturn (l : List Char) : trim (dropReturn l) = trim l := by
  unfold dropReturn
  split
  case h_1 hr =>
    obtain ⟨s, rfl⟩ := List.getLast?_eq_some_iff.mp hr
    rw [List.dropLast_concat]
    have hb : ∀ c ∈ ['\r'], isBlank c = true := List.forall_mem_singleton.mpr rfl
    exact (trim_append_of_blanks hb s).symm
  case h_2 => rfl

end BuildingBus.Text
