import BuildingBus.Proofs.Configuration.Lines
import Mathlib.Data.List.Induction

/-!
# Texts of configurations

The lines of a configuration are taken one by one, and each changes the configuration or ends the
reading with its number (`settle`). What a whole text comes to follows from what one line does: the
first line at fault is the error, and otherwise each style is that of the last line that sets it.

The main statement is `linewise_laws`. It also says that a line which sets nothing here may be put
between any two lines, and moves nothing but the number in an error.
-/

namespace BuildingBus

/-! ## Numbers of lines -/

/-- The error after a line with this number has been put in. -/
def ConfigError.movedBy (inserted : Nat) : ConfigError → ConfigError
  | invalidLine line => .invalidLine (if line < inserted then line else line + 1)
  | invalidValue line key => .invalidValue (if line < inserted then line else line + 1) key

namespace Configuration

open Address Text

variable {number : Nat} {c : Configuration} {e : ConfigError} {ls : List (List Char)}

theorem LineFault.movedBy_toError_of_lt {inserted : Nat} (h : number < inserted)
    (fault : LineFault) : (fault.toError number).movedBy inserted = fault.toError number := by
  cases fault <;> simp only [LineFault.toError, ConfigError.movedBy, if_pos h]

theorem LineFault.movedBy_toError_of_le {inserted : Nat} (h : inserted ≤ number)
    (fault : LineFault) :
    (fault.toError number).movedBy inserted = fault.toError (number + 1) := by
  cases fault <;> simp only [LineFault.toError, ConfigError.movedBy, if_neg (Nat.not_lt_of_le h)]

/-! ## Taking the lines one by one -/

/-- The configuration after a line that is not at fault. A line that is at fault leaves it as it
was, but that is never asked. -/
def after (c : Configuration) (line : List Char) : Configuration :=
  match readLine line with
  | .ok (some setting) => c.apply setting
  | _ => c

/-- The configuration after lines that are numbered from `number` on, up to the first error. -/
def settle (number : Nat) (c : Configuration) :
    List (List Char) → Except ConfigError Configuration
  | [] => .ok c
  | line :: rest =>
    match readLine line with
    | .error fault => .error (fault.toError number)
    | .ok _ => settle (number + 1) (c.after line) rest

theorem settle_cons_of_isFaulty {line : List Char} {fault : LineFault} (h : IsFaulty line fault) :
    settle number c (line :: ls) = .error (fault.toError number) := by
  rw [settle, readLine_of_isFaulty h]

theorem settle_cons_of_not_isFaulty {line : List Char} (h : ∀ fault, ¬IsFaulty line fault) :
    settle number c (line :: ls) = settle (number + 1) (c.after line) ls := by
  rw [settle]
  cases hr : readLine line with
  | error fault => exact absurd (readLine_eq_error_iff.mp hr) (h fault)
  | ok setting => rfl

/-- First all settings and then the configuration, or both line by line: it comes to the same. -/
theorem settle_eq (number : Nat) (c : Configuration) (ls : List (List Char)) :
    settle number c ls =
      match readLines number ls with
      | (_, some e) => .error e
      | (settings, none) => .ok (settings.foldl apply c) := by
  induction ls generalizing number c with
  | nil => rfl
  | cons line ls ih =>
    rw [settle, readLines]
    cases hr : readLine line with
    | error fault => rfl
    | ok setting =>
      have ha : c.after line = setting.toList.foldl apply c := by
        rw [after, hr]
        cases setting <;> rfl
      simp only [ih, ha]
      cases readLines (number + 1) ls with
      | mk settings error =>
        cases error with
        | some e => rfl
        | none => exact congrArg Except.ok (List.foldl_append).symm

theorem answer_parse (text : String) : (parse text).answer = settle 1 {} (lines text.toList) := by
  rw [settle_eq, parse]
  cases readLines 1 (lines text.toList) with
  | mk settings error => cases error <;> rfl

/-! ## The first error -/

/-- Lines are refused for the first one at fault, with its number. -/
theorem settle_eq_error_iff : settle number c ls = .error e ↔
    ∃ before line after fault, ls = before ++ line :: after ∧ IsFaulty line fault ∧
      (∀ l ∈ before, ∀ f, ¬IsFaulty l f) ∧ e = fault.toError (number + before.length) := by
  induction ls generalizing number c with
  | nil =>
    refine ⟨nofun, ?_⟩
    rintro ⟨before, line, after, fault, h, -⟩
    exact absurd h (by simp)
  | cons l ls ih =>
    by_cases hl : ∃ fault, IsFaulty l fault
    · obtain ⟨fault, hf⟩ := hl
      rw [settle_cons_of_isFaulty hf]
      constructor
      · intro h
        exact ⟨[], l, ls, fault, rfl, hf, nofun, (Except.error.inj h).symm⟩
      · rintro ⟨before, line, after, fault', hs, hf', hb, rfl⟩
        cases before with
        | nil =>
          obtain ⟨rfl, -⟩ := List.cons.inj hs
          have he := (readLine_of_isFaulty hf).symm.trans (readLine_of_isFaulty hf')
          rw [Except.error.inj he]
          rfl
        | cons b before =>
          obtain ⟨rfl, -⟩ := List.cons.inj hs
          exact absurd hf (hb l (.head _) fault)
    · have hl' := not_exists.mp hl
      rw [settle_cons_of_not_isFaulty hl', ih]
      constructor
      · rintro ⟨before, line, after, fault, rfl, hf, hb, rfl⟩
        refine ⟨l :: before, line, after, fault, rfl, hf, ?_, ?_⟩
        · exact List.forall_mem_cons.mpr ⟨hl', hb⟩
        · rw [List.length_cons, Nat.add_right_comm, Nat.add_assoc]
      · rintro ⟨before, line, after, fault, hs, hf, hb, rfl⟩
        cases before with
        | nil =>
          obtain ⟨rfl, -⟩ := List.cons.inj hs
          exact absurd hf (hl' fault)
        | cons b before =>
          obtain ⟨rfl, rfl⟩ := List.cons.inj hs
          refine ⟨before, line, after, fault, rfl, hf, fun x hx => hb x (.tail _ hx), ?_⟩
          rw [List.length_cons, Nat.add_right_comm, Nat.add_assoc]

/-- Lines give a configuration exactly if none of them is at fault. -/
theorem settle_eq_ok_iff {d : Configuration} : settle number c ls = .ok d ↔
    (∀ l ∈ ls, ∀ f, ¬IsFaulty l f) ∧ d = ls.foldl after c := by
  induction ls generalizing number c with
  | nil => simp [settle, eq_comm]
  | cons l ls ih =>
    by_cases hl : ∃ fault, IsFaulty l fault
    · obtain ⟨fault, hf⟩ := hl
      rw [settle_cons_of_isFaulty hf]
      exact ⟨nofun, fun h => absurd hf (h.1 l (.head _) fault)⟩
    · have hl' := not_exists.mp hl
      rw [settle_cons_of_not_isFaulty hl', ih, List.forall_mem_cons, List.foldl_cons]
      exact and_congr_left' ⟨fun h => ⟨hl', h⟩, fun h => h.2⟩

/-! ## The last setting -/

theorem get_apply_setting (slot : Slot) (c : Configuration) (style : Style) :
    slot.get (c.apply (slot.setting style)) = style := by
  cases slot <;> rfl

/-- A line that sets a style changes it to that one. -/
theorem get_after_of_setsStyle {slot : Slot} {line : List Char} {style : Style}
    (h : SetsStyle slot line style) : slot.get (c.after line) = style := by
  rw [after, readLine_of_setsStyle h]
  exact get_apply_setting slot c style

/-- A line that does not set a style leaves it as it is. -/
theorem get_after_of_not_setsStyle {slot : Slot} {line : List Char}
    (h : ∀ style, ¬SetsStyle slot line style) : slot.get (c.after line) = slot.get c := by
  rw [after]
  split
  case h_2 => rfl
  case h_1 setting hr =>
    cases setting with
    | ignored key => rfl
    | groupStyle style =>
      cases slot with
      | individual => rfl
      | group => exact absurd (setsStyle_iff.mpr hr) (h style)
    | individualStyle style =>
      cases slot with
      | group => rfl
      | individual => exact absurd (setsStyle_iff.mpr hr) (h style)

/-- The style that the last of some lines to set it sets, and none if no line sets it. -/
inductive LastStyle (slot : Slot) (ls : List (List Char)) : Style → Prop where
  /-- a line sets the style and none after it does -/
  | set {before : List (List Char)} {line : List Char} {after : List (List Char)} {style : Style}
      (h : ls = before ++ line :: after) (hs : SetsStyle slot line style)
      (ha : ∀ l ∈ after, ∀ s, ¬SetsStyle slot l s) : LastStyle slot ls style
  /-- no line sets the style -/
  | unset (h : ∀ l ∈ ls, ∀ s, ¬SetsStyle slot l s) : LastStyle slot ls .unspecified

namespace LastStyle

variable {slot : Slot} {line : List Char} {style : Style}

/-- After the last line comes one that does not set the style. -/
theorem concat_of_not_setsStyle (h : LastStyle slot ls style)
    (hl : ∀ s, ¬SetsStyle slot line s) : LastStyle slot (ls ++ [line]) style := by
  cases h with
  | @set before other after style h hs ha =>
    have hs' : ls ++ [line] = before ++ other :: (after ++ [line]) := by
      rw [h, List.append_assoc, List.cons_append]
    refine .set hs' hs fun l hm => ?_
    rcases List.mem_append.mp hm with hm | hm
    · exact ha l hm
    · exact List.mem_singleton.mp hm ▸ hl
  | unset h =>
    refine .unset fun l hm => ?_
    rcases List.mem_append.mp hm with hm | hm
    · exact h l hm
    · exact List.mem_singleton.mp hm ▸ hl

end LastStyle

/-- The style after some lines is the last one that was set. By induction on the lines from their
end, where the one that counts is found first. -/
theorem lastStyle_foldl_after (slot : Slot) (ls : List (List Char)) :
    LastStyle slot ls (slot.get (ls.foldl after {})) := by
  induction ls using List.reverseRecOn with
  | nil => cases slot <;> exact .unset nofun
  | append_singleton ls line ih =>
    rw [List.foldl_append, List.foldl_cons, List.foldl_nil]
    by_cases hl : ∃ style, SetsStyle slot line style
    · obtain ⟨style, hs⟩ := hl
      rw [get_after_of_setsStyle hs]
      exact .set rfl hs nofun
    · have hl' := not_exists.mp hl
      rw [get_after_of_not_setsStyle hl']
      exact ih.concat_of_not_setsStyle hl'

/-! ## Lines put in -/

section

variable {line other : List Char} {inserted : Nat}

theorem IsIdle.not_isFaulty (h : IsIdle line) (fault : LineFault) : ¬IsFaulty line fault := by
  intro hf
  rcases readLine_of_isIdle h with h | ⟨key, h⟩ <;> cases h.symm.trans (readLine_of_isFaulty hf)

/-- An idle line leaves the configuration as it is. -/
theorem IsIdle.after_eq (h : IsIdle line) (c : Configuration) : c.after line = c := by
  rcases readLine_of_isIdle h with h | ⟨key, h⟩
  · rw [after, h]
  · rw [after, h]
    rfl

/-- Lines whose numbers all move by one have their errors moved. -/
theorem settle_succ (h : inserted ≤ number) (c : Configuration) (ls : List (List Char)) :
    settle (number + 1) c ls = (settle number c ls).mapError (·.movedBy inserted) := by
  induction ls generalizing number c with
  | nil => rfl
  | cons l ls ih =>
    by_cases hl : ∃ fault, IsFaulty l fault
    · obtain ⟨fault, hf⟩ := hl
      rw [settle_cons_of_isFaulty hf, settle_cons_of_isFaulty hf, Except.mapError,
        LineFault.movedBy_toError_of_le h]
    · have hl' := not_exists.mp hl
      rw [settle_cons_of_not_isFaulty hl', settle_cons_of_not_isFaulty hl',
        ih (Nat.le_succ_of_le h)]

/-- An idle line between others moves the errors after it by one line. Neither the errors before it
nor the configuration is touched. -/
theorem settle_insert (h : IsIdle line) (number : Nat) (c : Configuration)
    (before ls : List (List Char)) :
    settle number c (before ++ line :: ls) =
      (settle number c (before ++ ls)).mapError (·.movedBy (number + before.length)) := by
  induction before generalizing number c with
  | nil =>
    rw [List.nil_append, settle_cons_of_not_isFaulty h.not_isFaulty, h.after_eq]
    exact settle_succ (Nat.le_refl number) c ls
  | cons l before ih =>
    rw [List.cons_append, List.cons_append]
    by_cases hl : ∃ fault, IsFaulty l fault
    · obtain ⟨fault, hf⟩ := hl
      have hn : number < number + (l :: before).length := Nat.lt_add_of_pos_right (Nat.succ_pos _)
      rw [settle_cons_of_isFaulty hf, settle_cons_of_isFaulty hf, Except.mapError,
        LineFault.movedBy_toError_of_lt hn]
    · have hl' := not_exists.mp hl
      rw [settle_cons_of_not_isFaulty hl', settle_cons_of_not_isFaulty hl', ih,
        List.length_cons, Nat.add_right_comm, Nat.add_assoc]

/-- A line may be replaced by one that reads the same. -/
theorem settle_replace (h : readLine line = readLine other) (number : Nat) (c : Configuration)
    (before ls : List (List Char)) :
    settle number c (before ++ line :: ls) = settle number c (before ++ other :: ls) := by
  induction before generalizing number c with
  | nil => simp only [List.nil_append, settle, after, h]
  | cons l before ih => simp only [List.cons_append, settle, ih]

theorem readLine_dropReturn (line : List Char) : readLine (dropReturn line) = readLine line := by
  simp only [readLine, trim_dropReturn]

theorem IsIdle.dropReturn (h : IsIdle line) : IsIdle (dropReturn line) := by
  rw [isIdle_iff, readLine_dropReturn]
  exact isIdle_iff.mp h

end

/-- A line put into a text, which has this number in the new text. The text may be empty, and the
line may become the last one. -/
inductive Inserts (line : List Char) : Nat → List Char → List Char → Prop where
  /-- between whole lines and what follows them -/
  | ended {n : Nat} {first rest : List Char} (h : WholeLines n first) :
      Inserts line (n + 1) (first ++ rest) (first ++ (line ++ '\n' :: rest))
  /-- after whole lines, without a line feed of its own -/
  | unended {n : Nat} {first : List Char} (h : WholeLines n first) (hne : line ≠ []) :
      Inserts line (n + 1) first (first ++ line)
  /-- in a text whose last line has to be ended before -/
  | ending {n m : Nat} {first last text : List Char} (h : WholeLines n first) (hl : '\n' ∉ last)
      (hne : last ≠ []) (hi : Inserts line m (first ++ (last ++ ['\n'])) text) :
      Inserts line m (first ++ last) text

/-- An idle line in a text moves the errors after it. -/
theorem settle_of_inserts {line s t : List Char} {m : Nat} (hi : Inserts line m s t)
    (h : IsIdle line) (hl : '\n' ∉ line) :
    settle 1 {} (lines t) = (settle 1 {} (lines s)).mapError (·.movedBy m) := by
  induction hi with
  | @ended n first rest hw =>
    rw [hw.lines_append, hw.lines_append, lines_line hl, settle_insert h.dropReturn, hw.length_lines,
      Nat.add_comm]
  | @unended n first hw hne =>
    rw [hw.lines_append, lines_of_not_mem hl hne, settle_insert h, hw.length_lines, Nat.add_comm,
      List.append_nil]
  | @ending n m first last text hw hn hne hi ih =>
    -- the carriage return that may stand before the new line feed is blank
    rw [ih, hw.lines_append, hw.lines_append, lines_line hn, lines_of_not_mem hn hne,
      settle_replace (readLine_dropReturn last)]
    rfl

/-! ## The laws -/

/-- **The laws of configurations.** A text is refused exactly if one of its lines is at fault: if a
line that is neither blank nor a comment has no equals sign or a blank key, or has the key of a
style and a value that, without blank ends and one pair of equal quotes, names none. The error is
the fault of the first such line with its number among all lines. Otherwise each style is the one
that the last line for it sets. A line that is blank, a comment or for another key can be put in
anywhere: it changes nothing but the numbers of the lines after it. -/
theorem linewise_laws (text : String) :
    ((∃ e, (parse text).answer = .error e) ↔
      ∃ line ∈ lines text.toList, ∃ fault, IsFaulty line fault) ∧
    (∀ e, (parse text).answer = .error e ↔ ∃ before line after fault,
      lines text.toList = before ++ line :: after ∧ IsFaulty line fault ∧
        (∀ l ∈ before, ∀ f, ¬IsFaulty l f) ∧ e = fault.toError (before.length + 1)) ∧
    (∀ c, (parse text).answer = .ok c →
      ∀ slot, LastStyle slot (lines text.toList) (slot.get c)) ∧
    ∀ line number (other : String), IsIdle line → '\n' ∉ line →
      Inserts line number text.toList other.toList →
        (parse other).answer = (parse text).answer.mapError (·.movedBy number) := by
  simp only [answer_parse]
  refine ⟨⟨?_, ?_⟩, fun e => ?_, fun c h slot => ?_, fun line number other h hl hi => ?_⟩
  · rintro ⟨e, h⟩
    obtain ⟨before, line, after, fault, hs, hf, -⟩ := settle_eq_error_iff.mp h
    exact ⟨line, hs ▸ List.mem_append_right before (.head after), fault, hf⟩
  · rintro ⟨line, hm, fault, hf⟩
    cases hs : settle 1 {} (lines text.toList) with
    | error e => exact ⟨e, rfl⟩
    | ok c => exact absurd hf ((settle_eq_ok_iff.mp hs).1 line hm fault)
  · rw [settle_eq_error_iff]
    simp only [Nat.add_comm 1]
  · obtain ⟨-, rfl⟩ := settle_eq_ok_iff.mp h
    exact lastStyle_foldl_after slot _
  · exact settle_of_inserts hi h hl

/-- A comment put before the second line: it changes neither what is set, nor what is refused, but
for the number of the line. -/
theorem linewise_laws_comment :
    IsIdle " # old\r".toList ∧ '\n' ∉ " # old\r".toList ∧
      Inserts " # old\r".toList 2 "A=1\r\nADDRESS_STYLE='Octal'".toList
        "A=1\r\n # old\r\nADDRESS_STYLE='Octal'".toList ∧
      (parse "A=1\r\nADDRESS_STYLE='Octal'").answer =
        .error (.invalidValue 2 "ADDRESS_STYLE") ∧
      (parse "A=1\r\n # old\r\nADDRESS_STYLE='Octal'").answer =
        .error (.invalidValue 3 "ADDRESS_STYLE") := by
  have hi : IsIdle " # old\r".toList := .irrelevant fun h => h.2 (by decide)
  have hl : '\n' ∉ " # old\r".toList := by decide
  have hw : WholeLines 1 ("A=1\r".toList ++ ['\n']) := .line (by decide) .nil
  have hins : Inserts " # old\r".toList 2 "A=1\r\nADDRESS_STYLE='Octal'".toList
      "A=1\r\n # old\r\nADDRESS_STYLE='Octal'".toList := by
    have ht : "A=1\r\nADDRESS_STYLE='Octal'".toList =
      ("A=1\r".toList ++ ['\n']) ++ "ADDRESS_STYLE='Octal'".toList := by decide
    have ho : "A=1\r\n # old\r\nADDRESS_STYLE='Octal'".toList =
      ("A=1\r".toList ++ ['\n']) ++
        (" # old\r".toList ++ '\n' :: "ADDRESS_STYLE='Octal'".toList) := by decide
    rw [ht, ho]
    exact .ended hw
  have hp : (parse "A=1\r\nADDRESS_STYLE='Octal'").answer =
      .error (.invalidValue 2 "ADDRESS_STYLE") := by decide
  obtain ⟨-, -, -, hput⟩ := linewise_laws "A=1\r\nADDRESS_STYLE='Octal'"
  refine ⟨hi, hl, hins, hp, ?_⟩
  rw [hput _ _ _ hi hl hins, hp]
  rfl

/-- A later line takes a style back, and a single quote is a value as it stands. -/
example :
    (parse "ADDRESS_STYLE=' Free '\nGROUP_ADDRESS_STYLE=").answer = .ok {} ∧
    (parse "ADDRESS_STYLE=\"\nADDRESS_STYLE=Free").answer =
      .error (.invalidValue 1 "ADDRESS_STYLE") := by
  decide

end Configuration

end BuildingBus
