import BuildingBus.Proofs.Catalog.Walk
import BuildingBus.Proofs.Exchange.Faults

/-!
# The journal of an import

An import reports what it is refused for from the fault or rejection with which it ends. The same is
written here with each report in the place where the fault is found (`InPlace`): in the check of the
character set, at a group outside of every range, and at the entry that is rejected. Every other
part of reading is silent, and the two come to the same (`InPlace.importWith_eq`).

The main statement is `importWith_journal`: the journal of an import tells how it ended.
-/

namespace BuildingBus

/-! ## Operations that report and may fail -/

/-- An operation that reports and may fail. What was reported before it failed stays reported. -/
abbrev Reporting (ε α : Type) : Type := ExceptT ε Logged α

namespace Reporting

variable {ε α β : Type}

/-- Reports an event and fails. -/
def refuse (event : Event) (e : ε) : Reporting ε α :=
  ExceptT.mk { answer := .error e, events := [event] }

/-- Reports what an error amounts to, if there is one. It is a report at the end, from the error
alone, and all that follows shows that reports in place come to that. -/
def told (events : ε → List Event) (x : Except ε α) : Reporting ε α :=
  ExceptT.mk
    { answer := x
      events := match x with
        | .error e => events e
        | .ok _ => [] }

/-- Reports nothing. Most parts of reading are of this sort, and their faults have no report. -/
def silent (x : Except ε α) : Reporting ε α := told (fun _ => []) x

variable {events : ε → List Event}

/-- The error of the first step is reported before the second one, which is then not done. -/
theorem told_bind (events : ε → List Event) (x : Except ε α) (f : α → Except ε β) :
    told events (x >>= f) = told events x >>= fun a => told events (f a) := by
  cases x with
  | error e => exact congrArg (Logged.mk (Except.error e)) (List.append_nil (events e)).symm
  | ok a => rfl

/-- A run reports what its error amounts to if each of its steps does. -/
theorem foldlM_told {f : β → α → Except ε β} {g : β → α → Reporting ε β}
    (h : ∀ b a, g b a = told events (f b a)) (xs : List α) (b : β) :
    xs.foldlM g b = told events (xs.foldlM f b) := by
  induction xs generalizing b with
  | nil => rfl
  | cons x xs ih =>
    rw [List.foldlM_cons, List.foldlM_cons, told_bind, h]
    exact congrArg _ (funext ih)

theorem silent_eq_told {x : Except ε α} (h : ∀ e, x = .error e → events e = []) :
    silent x = told events x := by
  cases x with
  | error e => exact congrArg (Logged.mk (Except.error e)) (h e rfl).symm
  | ok a => rfl

end Reporting

namespace Exchange

open Catalog Markup Reporting Text

/-! ## Reports in place -/

namespace InPlace

/-- Checks that a character set is the one that is read, and reports one that is not. -/
def requireCharset (name : List Char) : Reporting ReadFault Unit :=
  let name := String.ofList (asciiLower (trim name))
  if name = "" ∨ name = "utf-8" ∨ name = "utf8" then pure ()
  else refuse (.unsupportedCharset name) (.exchange (.unsupportedCharset name))

/-- Checks the character set that a declaration names, if it names one. -/
def requireDeclaration (attributes : Octets) : Reporting ReadFault Unit := do
  match ← silent (wellFormed (declared "encoding" attributes)) with
  | some value => requireCharset (Utf8.decodeLossy value)
  | none => return ()

/-- An element in the document element, outside of those that say nothing. A group that stands
outside of every range is reported. -/
def startInside (r : Reader) (tag : Tag) (empty : Bool) : Reporting ReadFault Reader := do
  let name := localName tag.name
  if name = octets rangeName then
    let range ← silent (readRange tag)
    return if empty then r.attach range else r.openRange range
  else if name = octets groupName then
    let entry ← silent (readEntry tag)
    match r.opened with
    | [] => refuse (.outsideRanges entry.name) (.outsideRanges entry.name)
    | parent :: rest => return { r with opened := Reader.withEntry entry parent :: rest }.skip empty
  else return r.skip empty

/-- The tag of an element that is empty or has just begun. -/
def start (r : Reader) (tag : Tag) (empty : Bool) : Reporting ReadFault Reader :=
  if 0 < r.skipped then pure (r.skip empty)
  else if !r.rootSeen then silent (r.startRoot tag empty)
  else if r.rootClosed then silent (.error (.exchange .contentAfterRoot))
  else startInside r tag empty

/-- The reader after a mark. -/
def step (r : Reader) : Mark → Reporting ReadFault Reader
  | .declaration attributes => do
    requireDeclaration attributes
    return r
  | .opening tag => start r tag false
  | .empty tag => start r tag true
  | .closing name => pure (r.finish name)

/-- The ranges that a stream of marks declares. -/
def rangesOf (s : Stream) : Reporting ReadFault (List GroupRange) := do
  silent ((← s.marks.foldlM step {}).stopped s.stop)

/-- The catalog with the group that an entry declares. An entry that is rejected is reported. -/
def add (c : Catalog) (e : LocatedEntry) : Reporting Rejection Catalog :=
  match checkEntry c e with
  | .ok g => pure (c.push g)
  | .error cause => refuse (.rejected (trimmed e.entry.name) (pathText e.path)) (e.rejection cause)

/-- The catalog after a walk through all ranges, with reports on the way. It is the walk of building
itself, with another way of adding an entry. -/
def build (p : Plan) : Reporting Rejection Catalog := do
  return (← Walk.through add ⟨[], p.start⟩ p.ranges).catalog

/-- The catalog that a document declares, with the configured styles. -/
def importWith (d : Delivery) (config : Configuration) : Logged (Except Failure Catalog) := do
  .report .importing
  match ← (rangesOf (scan d.ending d.octets).nest).run with
  | .error fault => return .error fault.failure
  | .ok ranges =>
    match ← (build ⟨ranges, config.groupStyle, config.individualStyle⟩).run with
    | .error r => return .error (.catalog r)
    | .ok c =>
      .report (.imported c.groups.length)
      return .ok c

/-! ## Reading -/

theorem events_of_ofTag {fault : ReadFault} (h : OfTag fault) : fault.events = [] := by
  cases h <;> rfl

theorem events_of_ofStop {fault : ReadFault} (h : OfStop fault) : fault.events = [] := by
  cases h <;> rfl

/-- A part that fails for its tag alone is silent. -/
theorem silent_of_faultsIn {α : Type} {x : Except ReadFault α} (h : FaultsIn OfTag x) :
    silent x = told ReadFault.events x :=
  silent_eq_told fun fault he => events_of_ofTag (h fault he)

theorem requireCharset_eq (name : List Char) :
    requireCharset name = told ReadFault.events (Exchange.requireCharset name) := by
  unfold requireCharset Exchange.requireCharset
  dsimp only
  split <;> rfl

theorem requireDeclaration_eq (attributes : Octets) :
    requireDeclaration attributes =
      told ReadFault.events (Exchange.requireDeclaration attributes) := by
  rw [requireDeclaration, Exchange.requireDeclaration, told_bind,
    silent_of_faultsIn (faultsIn_wellFormed _)]
  refine congrArg _ (funext fun value => ?_)
  cases value with
  | none => rfl
  | some value => exact requireCharset_eq _

theorem startInside_eq (r : Reader) (tag : Tag) (empty : Bool) :
    startInside r tag empty = told ReadFault.events (r.startInside tag empty) := by
  unfold startInside Reader.startInside
  dsimp only
  split
  case isTrue =>
    rw [told_bind, silent_of_faultsIn (faultsIn_readRange tag)]
    rfl
  case isFalse =>
    split
    case isTrue =>
      rw [told_bind, silent_of_faultsIn (faultsIn_readEntry tag)]
      refine congrArg _ (funext fun entry => ?_)
      cases r.opened with
      | nil => rfl
      | cons parent rest => rfl
    case isFalse => rfl

theorem start_eq (r : Reader) (tag : Tag) (empty : Bool) :
    start r tag empty = told ReadFault.events (r.start tag empty) := by
  unfold start Reader.start
  split
  case isTrue => rfl
  case isFalse =>
    split
    case isTrue =>
      unfold Reader.startRoot
      dsimp only
      split <;> rfl
    case isFalse =>
      split
      case isTrue => rfl
      case isFalse => exact startInside_eq r tag empty

/-- One mark reports what its fault amounts to. The cases are those of the reader, and in each the
report stands where the fault is found. -/
theorem step_eq (r : Reader) (mark : Mark) :
    step r mark = told ReadFault.events (r.step mark) := by
  cases mark with
  | declaration attributes =>
    rw [step, Reader.step, requireDeclaration_eq]
    cases Exchange.requireDeclaration attributes with
    | error fault => exact congrArg (Logged.mk _) (List.append_nil _)
    | ok u => rfl
  | opening tag => exact start_eq r tag false
  | empty tag => exact start_eq r tag true
  | closing name => rfl

/-- Reading reports what its fault amounts to. -/
theorem rangesOf_eq (s : Stream) :
    rangesOf s = told ReadFault.events (Exchange.rangesOf s) := by
  rw [rangesOf, Exchange.rangesOf, told_bind, foldlM_told step_eq]
  refine congrArg _ (funext fun r => ?_)
  exact silent_eq_told fun fault he => events_of_ofStop (faultsIn_stopped r s.stop fault he)

/-! ## Building -/

/-- What is reported of a rejection. -/
def reject (r : Rejection) : List Event := [.rejected r.group r.path]

theorem add_eq (c : Catalog) (e : LocatedEntry) : add c e = told reject (Catalog.add c e) := by
  rw [add, Catalog.add]
  cases checkEntry c e with
  | error cause => rfl
  | ok g => rfl

/-- Building reports the rejection of an entry, wherever it stands. As the walk is the same for
every way of adding, only the addition of one entry has to be compared. -/
theorem run_build (p : Plan) : (build p).run = p.build := by
  rw [build, Walk.catalog_through, foldlM_told add_eq, Plan.build, Plan.assemble_eq]
  cases (locatedAll [] p.ranges).foldlM Catalog.add p.start with
  | error r => rfl
  | ok c => rfl

/-! ## Importing -/

/-- Reports in place and at the end come to the same. So the journal can be read off the answer,
whichever way it was written. -/
theorem importWith_eq (d : Delivery) (config : Configuration) :
    importWith d config = Exchange.importWith d config := by
  rw [importWith, Exchange.importWith, rangesOf_eq, Delivery.ranges]
  refine congrArg _ (funext fun _ => ?_)
  cases Exchange.rangesOf (scan d.ending d.octets).nest with
  | error fault => rfl
  | ok ranges =>
    dsimp only
    rw [← run_build]
    rfl

end InPlace

/-! ## The journal of an import -/

/-- The warning that a fault of reading amounts to, if it amounts to one. -/
def ReadFault.warning? : ReadFault → Option Event
  | exchange (.unsupportedCharset name) => some (.unsupportedCharset name)
  | exchange _ => none
  | outsideRanges name => some (.outsideRanges name)

/-- The failures that an import warns of: a rejection, or a character set that is not read. Broken
markup is told, but not warned of. -/
def isWarned : Failure → Bool
  | .catalog _ | .exchange (.unsupportedCharset _) => true
  | _ => false

/-- What is reported at the end: how many groups there are, if there is a catalog. -/
def closing : Except Failure Catalog → List Event
  | .ok c => [.imported c.groups.length]
  | .error _ => []

theorem severity_of_mem_closing {e : Event} {answer : Except Failure Catalog}
    (h : e ∈ closing answer) : e.severity = .debug := by
  cases answer with
  | error f => cases h
  | ok c => exact List.mem_singleton.mp h ▸ rfl

namespace ReadFault

theorem events_eq (fault : ReadFault) : fault.events = fault.warning?.toList := by
  cases fault with
  | exchange e => cases e <;> rfl
  | outsideRanges name => rfl

theorem isSome_warning? (fault : ReadFault) : fault.warning?.isSome = isWarned fault.failure := by
  cases fault with
  | exchange e => cases e <;> rfl
  | outsideRanges name => rfl

theorem severity_of_warning? {fault : ReadFault} {e : Event} (h : fault.warning? = some e) :
    e.severity = .warn := by
  cases fault with
  | exchange e =>
    cases e with
    | unsupportedCharset name => exact Option.some.inj h ▸ rfl
    | _ => cases h
  | outsideRanges name => exact Option.some.inj h ▸ rfl

/-- A character set that is not read is reported by its name. -/
theorem warning?_of_failure {fault : ReadFault} {name : String}
    (h : fault.failure = .exchange (.unsupportedCharset name)) :
    fault.warning? = some (.unsupportedCharset name) := by
  cases fault with
  | exchange e =>
    obtain rfl := Failure.exchange.inj h
    rfl
  | outsideRanges name => cases h

end ReadFault

/-- An import fails for a fault of reading, is rejected by the builder, or gives a catalog. -/
theorem importWith_cases (d : Delivery) (config : Configuration) :
    (∃ fault, d.ranges = .error fault ∧
      importWith d config = ⟨.error fault.failure, .importing :: fault.events⟩) ∨
    (∃ ranges r, d.ranges = .ok ranges ∧
      importWith d config = ⟨.error (.catalog r), [.importing, .rejected r.group r.path]⟩) ∨
    ∃ ranges c, d.ranges = .ok ranges ∧
      importWith d config = ⟨.ok c, [.importing, .imported c.groups.length]⟩ := by
  unfold importWith
  cases d.ranges with
  | error fault =>
    refine .inl ⟨fault, rfl, congrArg (Logged.mk _) ?_⟩
    exact congrArg (_ :: ·) (List.append_nil fault.events)
  | ok ranges =>
    cases hp : Plan.assemble ⟨ranges, config.groupStyle, config.individualStyle⟩ with
    | error r =>
      refine .inr (.inl ⟨ranges, r, rfl, ?_⟩)
      simp only [Plan.build, hp]
      rfl
    | ok c =>
      refine .inr (.inr ⟨ranges, c, rfl, ?_⟩)
      simp only [Plan.build, hp]
      rfl

/-- **The journal of an import tells how it ended**, for every document and configuration. What is
reported in the end is what is reported where it is found. The first event says that the import
begins. After it comes a warning exactly if the import is rejected or names a character set that is
not read. The last event says how many groups there are, exactly if there is a catalog. There is no
other event, and those that do not warn are of severity `debug`. The builder warns with the group
and the path of its rejection. -/
theorem importWith_journal (d : Delivery) (config : Configuration) :
    InPlace.importWith d config = importWith d config ∧
    ∃ warning : Option Event,
      (importWith d config).events =
        .importing :: (warning.toList ++ closing (importWith d config).answer) ∧
      (∀ e ∈ Event.importing :: closing (importWith d config).answer, e.severity = .debug) ∧
      (∀ e, warning = some e → e.severity = .warn) ∧
      (warning.isSome = true ↔
        ∃ f, (importWith d config).answer = .error f ∧ isWarned f = true) ∧
      (∀ name, (importWith d config).answer = .error (.exchange (.unsupportedCharset name)) →
        warning = some (.unsupportedCharset name)) ∧
      (∀ name, d.ranges = .error (.outsideRanges name) →
        warning = some (.outsideRanges name)) ∧
      ∀ ranges r, d.ranges = .ok ranges →
        (importWith d config).answer = .error (.catalog r) →
          warning = some (.rejected r.group r.path) := by
  refine ⟨InPlace.importWith_eq d config, ?_⟩
  have hs : ∀ e ∈ Event.importing :: closing (importWith d config).answer,
      e.severity = .debug := by
    intro e he
    rcases List.mem_cons.mp he with rfl | he
    · rfl
    · exact severity_of_mem_closing he
  rcases importWith_cases d config with ⟨fault, hd, hi⟩ | ⟨ranges, r, hd, hi⟩ | ⟨ranges, c, hd, hi⟩
  · rw [hi] at hs
    rw [hi, hd]
    refine ⟨fault.warning?, ?_, hs, fun _ => ReadFault.severity_of_warning?, ?_, fun name h => ?_,
      fun name h => ?_, nofun⟩
    · rw [fault.events_eq]
      exact congrArg (_ :: ·) (List.append_nil _).symm
    · rw [fault.isSome_warning?]
      exact ⟨fun h => ⟨_, rfl, h⟩, fun ⟨_, hf, h⟩ => Except.error.inj hf ▸ h⟩
    · exact ReadFault.warning?_of_failure (Except.error.inj h)
    · exact Except.error.inj h ▸ rfl
  · rw [hi] at hs
    rw [hi, hd]
    refine ⟨some (.rejected r.group r.path), rfl, hs, ?_, ?_, nofun, nofun, ?_⟩
    · rintro e ⟨⟩
      rfl
    · exact ⟨fun _ => ⟨_, rfl, rfl⟩, fun _ => rfl⟩
    · rintro _ r' - h
      obtain rfl := Failure.catalog.inj (Except.error.inj h)
      rfl
  · rw [hi] at hs
    rw [hi, hd]
    exact ⟨none, rfl, hs, nofun, ⟨nofun, fun ⟨_, h, _⟩ => nomatch h⟩, nofun, nofun, nofun⟩

/-- A group with the address zero is warned of once, by its name and path without their blank
ends. -/
theorem importWith_journal_rejected :
    let d := Delivery.whole (octets "<GroupAddress-Export><GroupRange Name=\" Hall \">"
      ++ octets "<GroupAddress Name=\" light\" Address=\"0\"/></GroupRange></GroupAddress-Export>")
    (importWith d {}).answer = .error (.catalog ⟨.zeroAddress, "light", "Hall"⟩) ∧
    (importWith d {}).events = [.importing, .rejected "light" "Hall"] := by
  intro d
  have ha : (importWith d {}).answer = .error (.catalog ⟨.zeroAddress, "light", "Hall"⟩) := by
    decide +kernel
  have hok : d.ranges.isOk = true := by decide +kernel
  refine ⟨ha, ?_⟩
  obtain ⟨-, warning, he, -, -, -, -, -, hw⟩ := importWith_journal d {}
  cases hr : d.ranges with
  | error fault => rw [hr] at hok; cases hok
  | ok ranges => rw [he, hw ranges _ hr ha, ha]; rfl

end Exchange

end BuildingBus
