import BuildingBus.Proofs.Catalog.Building
import BuildingBus.Proofs.Exchange.Faults

/-!
# Interrupted documents

A source may fail before it has delivered a whole document. The marks that the scanner finds in what
was delivered are the first marks of every document that begins with it, so that the stream of the
interrupted document is a *cut* of the stream of the whole one (`Stream.Cut`): it is the same stream
if the markup is broken already, and else it stops at the failure. The checks of end tags and the
reader take the marks one by one and keep to this.

An interrupted import is therefore refused, either for the failure itself or for what any whole
document with that beginning is refused for (`importWith_failing`). No catalog is built, as the
entries are not looked at before the document has come to its end. That the octets were *delivered*
(`Delivered`) is kept by every step of reading, so that no whole document is refused for a failure.
-/

namespace BuildingBus.Markup

/-! ## Cuts -/

/-- The stream of an interrupted document and that of a whole one that begins with the same octets.
The first has no mark that the second has not, and ends early or for the same fault. -/
inductive Stream.Cut : Stream → Stream → Prop
  /-- the markup is broken before the failure -/
  | broken {marks : List Mark} : Cut ⟨marks, .malformed⟩ ⟨marks, .malformed⟩
  /-- more marks may follow after the failure -/
  | failed {marks more : List Mark} {stop : Stop} :
    Cut ⟨marks, .readFailure⟩ ⟨marks ++ more, stop⟩

namespace Stream.Cut

variable {s t : Stream}

theorem cons (mark : Mark) (h : Cut s t) : Cut (s.cons mark) (t.cons mark) := by
  cases h with
  | broken => exact .broken
  | failed => exact .failed

/-- Before the failure the scanner finds what it finds in any whole document. -/
theorem scan_append (bs rest : Octets) :
    Cut (scan .failed bs) (scan .complete (bs ++ rest)) := by
  rw [scan, scan, Scanner.run_append]
  cases Scanner.text.run bs with
  | mk marks last =>
    cases last with
    | none =>
      rw [Option.elim_none, List.append_nil]
      exact .broken
    | some s => exact .failed

/-- Marks that the streams share are checked alike. An end tag that closes nothing ends both of
them; otherwise it matters what comes after the shared marks. -/
theorem nestFrom_append {stop stop' : Stop} {more : List Mark}
    (h : ∀ opened, Cut ⟨[], stop⟩ (nestFrom stop' opened more)) (marks : List Mark)
    (opened : List Octets) :
    Cut (nestFrom stop opened marks) (nestFrom stop' opened (marks ++ more)) := by
  induction marks generalizing opened with
  | nil => exact h opened
  | cons mark marks ih =>
    cases mark with
    | declaration | empty => exact (ih opened).cons _
    | opening tag => exact (ih (tag.name :: opened)).cons _
    | closing name =>
      cases opened with
      | nil => exact .broken
      | cons innermost rest =>
        rw [List.cons_append, nestFrom, nestFrom]
        split
        case isTrue => exact (ih rest).cons _
        case isFalse => exact .broken

theorem nest (h : Cut s t) : Cut s.nest t.nest := by
  cases h with
  | @broken marks =>
    have hn : Cut (nestFrom .malformed [] marks) (nestFrom .malformed [] (marks ++ [])) :=
      nestFrom_append (fun _ => .broken) marks []
    rwa [List.append_nil] at hn
  | @failed marks more stop => exact nestFrom_append (fun _ => .failed) marks []

end Stream.Cut

end BuildingBus.Markup

namespace BuildingBus.Exchange

open Catalog Markup

/-! ## Reading -/

/-- A cut stream gives no ranges. What is wrong with it is the failure, or wrong with the whole
stream as well. -/
theorem rangesOf_of_cut {s t : Stream} (h : s.Cut t) :
    rangesOf s = .error (.exchange .transport) ∨
      ∃ fault, rangesOf s = .error fault ∧ rangesOf t = .error fault := by
  cases h with
  | @broken marks =>
    right
    cases hr : rangesOf ⟨marks, .malformed⟩ with
    | error fault => exact ⟨fault, rfl, rfl⟩
    | ok ranges =>
      obtain ⟨r, -, h⟩ := bind_eq_ok_iff.mp hr
      cases h
  | @failed marks more stop =>
    cases hr : marks.foldlM Reader.step {} with
    | error fault =>
      -- the reader does not get to the marks after the failure
      have hw : (marks ++ more).foldlM Reader.step {} = .error fault := by
        rw [List.foldlM_append, hr]
        rfl
      exact .inr ⟨fault, bind_eq_error_iff.mpr (.inl hr), bind_eq_error_iff.mpr (.inl hw)⟩
    | ok r => exact .inl (bind_eq_error_iff.mpr (.inr ⟨r, hr, rfl⟩))

/-- An interrupted document gives no ranges. What is wrong with it is the failure, or wrong with
every whole document that begins with what was delivered. -/
theorem ranges_failing (octets : Octets) (n : Nat) :
    (Delivery.failing octets n).ranges = .error (.exchange .transport) ∨
      ∃ fault, (Delivery.failing octets n).ranges = .error fault ∧
        ∀ rest, (Delivery.whole (octets.take n ++ rest)).ranges = .error fault := by
  by_cases ht : (Delivery.failing octets n).ranges = .error (.exchange .transport)
  case pos => exact .inl ht
  case neg =>
    have hcut (rest : Octets) : ∃ fault, (Delivery.failing octets n).ranges = .error fault ∧
        (Delivery.whole (octets.take n ++ rest)).ranges = .error fault :=
      (rangesOf_of_cut (Stream.Cut.scan_append (octets.take n) rest).nest).resolve_left ht
    obtain ⟨fault, hf, -⟩ := hcut []
    refine .inr ⟨fault, hf, fun rest => ?_⟩
    obtain ⟨other, ho, hw⟩ := hcut rest
    rw [hw, ← ho, hf]

/-! ## Whole documents -/

/-- The octets were delivered: whatever else is wrong, it is not their transport. A document that is
complete never fails for that. -/
def Delivered {α : Type} (x : Except ReadFault α) : Prop := x ≠ .error (.exchange .transport)

namespace Delivered

variable {α β : Type}

theorem ok (a : α) : Delivered (.ok a : Except ReadFault α) := nofun

theorem bind {x : Except ReadFault α} {f : α → Except ReadFault β} (h : Delivered x)
    (hf : ∀ a, Delivered (f a)) : Delivered (x >>= f) := by
  intro he
  rcases bind_eq_error_iff.mp he with hx | ⟨a, -, ha⟩
  · exact h hx
  · exact hf a ha

end Delivered

/-- Reading a tag fails for the tag alone, and not for anything that was not delivered. -/
theorem delivered_of_faultsIn {α : Type} {x : Except ReadFault α} (h : FaultsIn OfTag x) :
    Delivered x :=
  fun he => nomatch h _ he

theorem delivered_requireCharset (name : List Char) : Delivered (requireCharset name) := by
  unfold requireCharset
  dsimp only
  split
  case isTrue => exact .ok ()
  case isFalse => exact nofun

theorem delivered_requireDeclaration (attributes : Octets) :
    Delivered (requireDeclaration attributes) := by
  refine (delivered_of_faultsIn (faultsIn_wellFormed _)).bind fun value => ?_
  cases value with
  | none => exact .ok ()
  | some value => exact delivered_requireCharset _

theorem delivered_startRoot (r : Reader) (tag : Tag) (empty : Bool) :
    Delivered (r.startRoot tag empty) := by
  unfold Reader.startRoot
  dsimp only
  split
  case isTrue => exact .ok _
  case isFalse => exact nofun

theorem delivered_startInside (r : Reader) (tag : Tag) (empty : Bool) :
    Delivered (r.startInside tag empty) := by
  unfold Reader.startInside
  dsimp only
  split
  case isTrue =>
    exact (delivered_of_faultsIn (faultsIn_readRange tag)).bind fun range => .ok _
  case isFalse =>
    split
    case isTrue =>
      refine (delivered_of_faultsIn (faultsIn_readEntry tag)).bind fun entry => ?_
      cases r.opened with
      | nil => exact nofun
      | cons parent rest => exact .ok _
    case isFalse => exact .ok _

theorem delivered_start (r : Reader) (tag : Tag) (empty : Bool) : Delivered (r.start tag empty) := by
  unfold Reader.start
  split
  case isTrue => exact .ok _
  case isFalse =>
    split
    case isTrue => exact delivered_startRoot r tag empty
    case isFalse =>
      split
      case isTrue => exact nofun
      case isFalse => exact delivered_startInside r tag empty

/-- No mark is refused for its transport: a mark that the reader gets has been delivered. -/
theorem delivered_step (r : Reader) (mark : Mark) : Delivered (r.step mark) := by
  cases mark with
  | declaration attributes => exact (delivered_requireDeclaration attributes).bind fun _ => .ok r
  | opening tag => exact delivered_start r tag false
  | empty tag => exact delivered_start r tag true
  | closing name => exact .ok _

theorem delivered_stopped (r : Reader) {stop : Stop} (h : stop ≠ .readFailure) :
    Delivered (r.stopped stop) := by
  cases stop with
  | readFailure => exact absurd rfl h
  | malformed => exact nofun
  | endOfInput =>
    unfold Reader.stopped Reader.result
    dsimp only
    split
    case isTrue => exact nofun
    case isFalse =>
      split
      case isTrue => exact nofun
      case isFalse => exact .ok _

/-- What a stream is refused for is its transport only if it stops at a failure. -/
theorem delivered_rangesOf {s : Stream} (h : s.stop ≠ .readFailure) : Delivered (rangesOf s) := by
  refine Delivered.bind (fun he => ?_) fun r => delivered_stopped r h
  obtain ⟨-, mark, -, r, -, -, hm⟩ := foldlM_eq_error_iff.mp he
  exact delivered_step r mark hm

/-- End tags that close nothing are no failure of reading: the markup that they end is malformed. -/
theorem nestFrom_stop_ne {stop : Stop} (h : stop ≠ .readFailure) (opened : List Octets)
    (marks : List Mark) : (nestFrom stop opened marks).stop ≠ .readFailure := by
  induction marks generalizing opened with
  | nil => exact h
  | cons mark marks ih =>
    cases mark with
    | declaration | empty => exact ih opened
    | opening tag => exact ih (tag.name :: opened)
    | closing name =>
      cases opened with
      | nil => exact nofun
      | cons innermost rest =>
        rw [nestFrom]
        split
        case isTrue => exact ih rest
        case isFalse => exact nofun

theorem stop_scan_ne (bs : Octets) : (scan .complete bs).stop ≠ .readFailure := by
  rw [scan]
  cases Scanner.text.run bs with
  | mk marks last =>
    cases last with
    | none => exact nofun
    | some s => cases s <;> exact nofun

/-- A whole document is not refused for its transport, so that a failure of transport tells of an
interruption. -/
theorem delivered_ranges_whole (octets : Octets) : Delivered (Delivery.whole octets).ranges :=
  delivered_rangesOf (nestFrom_stop_ne (stop_scan_ne octets) [] _)

/-! ## Importing -/

/-- A document that gives no ranges is refused for what is wrong with it. -/
theorem answer_importWith_of_error {d : Delivery} {config : Configuration} {fault : ReadFault}
    (h : d.ranges = .error fault) : (importWith d config).answer = .error fault.failure := by
  unfold importWith
  simp only [h, Logged.answer_bind, Logged.answer_pure]

/-- The import of a whole document does not fail for its transport. -/
theorem answer_importWith_whole_ne (octets : Octets) (config : Configuration) :
    (importWith (.whole octets) config).answer ≠ .error (.exchange .transport) := by
  have hd := delivered_ranges_whole octets
  cases hr : (Delivery.whole octets).ranges with
  | error fault =>
    rw [answer_importWith_of_error hr]
    intro h
    cases fault with
    | outsideRanges name => cases h
    | exchange e =>
      obtain rfl := Failure.exchange.inj (Except.error.inj h)
      exact hd hr
  | ok ranges =>
    unfold importWith
    rw [Logged.answer_bind, hr, Logged.answer_bind]
    cases (Plan.build ⟨ranges, config.groupStyle, config.individualStyle⟩).answer with
    | error r => exact nofun
    | ok c => exact nofun

/-- Building never complains about a group outside of every range. Every entry of a forest stands in
one, and only reading can find it otherwise. -/
theorem assemble_ne_emptyPath (p : Plan) (group path : String) :
    p.assemble ≠ .error ⟨.emptyPath, group, path⟩ := by
  intro h
  obtain ⟨before, e, hb⟩ := exists_blames_of_assemble h
  exact hb.breaks

/-- **An interrupted import is safe.** A source that fails after the first octets of a document, be
it after the last one, gives neither a catalog nor the rejection of any forest of ranges. The import
is refused for the failure, or for what the import of every whole document that begins with the
delivered octets is refused for. The two are not the same, as no whole document is refused for a
failure. -/
theorem importWith_failing (octets : Octets) (n : Nat) (config : Configuration) :
    (∀ c, (importWith (.failing octets n) config).answer ≠ .ok c) ∧
    (∀ r, (importWith (.failing octets n) config).answer = .error (.catalog r) →
      ∀ p : Plan, p.assemble ≠ .error r) ∧
    ((importWith (.failing octets n) config).answer = .error (.exchange .transport) ∨
      ∃ e, (importWith (.failing octets n) config).answer = .error e ∧
        ∀ rest, (importWith (.whole (octets.take n ++ rest)) config).answer = .error e) ∧
    ∀ whole, (importWith (.whole whole) config).answer ≠ .error (.exchange .transport) := by
  obtain ⟨fault, hf, hw⟩ : ∃ fault, (Delivery.failing octets n).ranges = .error fault ∧
      (fault = .exchange .transport ∨
        ∀ rest, (Delivery.whole (octets.take n ++ rest)).ranges = .error fault) := by
    rcases ranges_failing octets n with ht | ⟨fault, hf, hw⟩
    · exact ⟨_, ht, .inl rfl⟩
    · exact ⟨fault, hf, .inr hw⟩
  rw [answer_importWith_of_error hf]
  refine ⟨nofun, fun r hr p => ?_, ?_, fun whole => answer_importWith_whole_ne whole config⟩
  · cases fault with
    | exchange e => cases hr
    | outsideRanges name =>
      obtain rfl := Failure.catalog.inj (Except.error.inj hr)
      exact assemble_ne_emptyPath p _ _
  · rcases hw with rfl | hw
    · exact .inl rfl
    · exact .inr ⟨_, rfl, fun rest => answer_importWith_of_error (hw rest)⟩

/-- A failure after the document element has been closed, and one after the start of an element that
is no document element. -/
example :
    (importDocument (.failing (octets "<GroupAddress-Export/>") 22)).answer =
      .error (.exchange .transport) ∧
    (importDocument (.failing (octets "<a><b/></a>") 5)).answer =
      .error (.exchange (.unexpectedRoot "a")) := by
  decide +kernel

end BuildingBus.Exchange
