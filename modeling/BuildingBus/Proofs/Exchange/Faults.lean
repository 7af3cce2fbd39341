import BuildingBus.Exchange.Import
import BuildingBus.Proofs.Steps

/-!
# Faults of reading

What the parts of reading a document fail for. Reading a tag fails for broken markup or for the
bound of a range alone (`faultsIn_readRange`, `faultsIn_readEntry`), whatever the tag declares.
-/

namespace BuildingBus.Exchange

open Catalog Markup Number Text

variable {α β : Type} {p : ReadFault → Prop}

/-- A part of reading fails for faults of a class alone. Classes go through steps that are done one
after the other, so that each part has that of its own parts. -/
def FaultsIn (p : ReadFault → Prop) (x : Except ReadFault α) : Prop :=
  ∀ fault, x = .error fault → p fault

namespace FaultsIn

theorem ok (a : α) : FaultsIn p (.ok a : Except ReadFault α) := nofun

theorem error {fault : ReadFault} (h : p fault) :
    FaultsIn p (.error fault : Except ReadFault α) :=
  fun _ he => Except.error.inj he ▸ h

theorem bind {x : Except ReadFault α} {f : α → Except ReadFault β} (h : FaultsIn p x)
    (hf : ∀ a, FaultsIn p (f a)) : FaultsIn p (x >>= f) := by
  intro fault he
  rcases bind_eq_error_iff.mp he with hx | ⟨a, -, ha⟩
  · exact h fault hx
  · exact hf a fault ha

end FaultsIn

/-! ## Tags -/

/-- What a tag may be refused for, without regard to where it stands: its attributes, or a bound in
them. -/
inductive OfTag : ReadFault → Prop where
  /-- its markup is broken -/
  | malformed : OfTag (.exchange .malformed)
  /-- the bound of a range is no number -/
  | invalidBound (key value : String) : OfTag (.exchange (.invalidBound key value))

theorem faultsIn_wellFormed (x : Except Malformed α) : FaultsIn OfTag (wellFormed x) := by
  cases x with
  | ok a => exact .ok a
  | error e => exact .error .malformed

theorem faultsIn_requireBound (tag : Tag) (key : String) :
    FaultsIn OfTag (requireBound tag key) := by
  refine (faultsIn_wellFormed _).bind fun value => ?_
  cases value with
  | none => exact .ok ()
  | some value =>
    dsimp only
    split
    case h_1 => exact .ok ()
    case h_2 => exact .error (.invalidBound key value)

theorem faultsIn_attributeOrEmpty (tag : Tag) (key : String) :
    FaultsIn OfTag (attributeOrEmpty tag key) :=
  (faultsIn_wellFormed _).bind fun _ => .ok _

theorem faultsIn_readRange (tag : Tag) : FaultsIn OfTag (readRange tag) :=
  (faultsIn_requireBound tag _).bind fun _ => (faultsIn_requireBound tag _).bind fun _ =>
    (faultsIn_attributeOrEmpty tag _).bind fun _ => .ok _

theorem faultsIn_readEntry (tag : Tag) : FaultsIn OfTag (readEntry tag) :=
  (faultsIn_attributeOrEmpty tag _).bind fun _ => (faultsIn_attributeOrEmpty tag _).bind fun _ =>
    (faultsIn_attributeOrEmpty tag _).bind fun _ => .ok _

/-! ## The end of a document -/

/-- What a document may be refused for when its marks are all taken. -/
inductive OfStop : ReadFault → Prop where
  /-- there was no document element -/
  | noRoot : OfStop (.exchange (.unexpectedRoot ""))
  /-- the document element is not closed -/
  | unexpectedEnd : OfStop (.exchange .unexpectedEnd)
  /-- the octets could not be delivered -/
  | transport : OfStop (.exchange .transport)
  /-- the markup is broken -/
  | malformed : OfStop (.exchange .malformed)

theorem faultsIn_result (r : Reader) : FaultsIn OfStop r.result := by
  unfold Reader.result
  split
  case isTrue => exact .error .noRoot
  case isFalse =>
    split
    case isTrue => exact .error .unexpectedEnd
    case isFalse => exact .ok _

theorem faultsIn_stopped (r : Reader) (stop : Stop) : FaultsIn OfStop (r.stopped stop) := by
  cases stop with
  | endOfInput => exact faultsIn_result r
  | readFailure => exact .error .transport
  | malformed => exact .error .malformed

end BuildingBus.Exchange
