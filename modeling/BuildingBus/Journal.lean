import BuildingBus.Datapoint.TypeId

/-!
# The journal

Operations report what happens on the way: a type that is not registered, an entry that is
rejected, the start and the end of an import. A report does not change an answer. An operation that
reports gives its answer together with its events, oldest first; `Logged` is that pair, and running
one operation after another appends their events.
-/

namespace BuildingBus

open Datapoint

/-! ## Events -/

/-- How much an event matters. Whoever keeps a journal leaves out what matters too little. -/
inductive Severity where
  /-- a detail -/
  | trace
  /-- a step of an operation -/
  | debug
  /-- something that is refused -/
  | warn
  deriving DecidableEq, Repr

/-- The name of a severity. -/
def Severity.name : Severity → String
  | trace => "trace"
  | debug => "debug"
  | warn => "warn"

/-- Something that is reported, with what the line about it mentions. An event has no time: its
place among the others is where it happened. -/
inductive Event where
  /-- a type that was asked for is not registered -/
  | notRegistered (id : TypeId)
  /-- a literal was given for a type that is not registered -/
  | literalNotRegistered (id : TypeId)
  /-- a setting that means nothing here -/
  | settingIgnored (key : String)
  /-- an entry was rejected -/
  | rejected (group path : String)
  /-- a group stands outside of every range -/
  | outsideRanges (name : String)
  /-- a document names a character set that is not read -/
  | unsupportedCharset (name : String)
  /-- an import begins -/
  | importing
  /-- an import has ended with so many groups -/
  | imported (groups : Nat)
  /-- an export has ended with so many groups -/
  | exported (groups : Nat)
  /-- no type of a group accepts a payload of so many octets -/
  | notDecoded (group : String) (octets : Nat)
  deriving DecidableEq, Repr

namespace Event

/-- How much an event matters. -/
def severity : Event → Severity
  | notRegistered _ | settingIgnored _ => .trace
  | literalNotRegistered _ | importing | imported _ | exported _ | notDecoded _ _ => .debug
  | rejected _ _ | outsideRanges _ | unsupportedCharset _ => .warn

/-- The line that is written for an event. -/
def text : Event → String
  | notRegistered id => "no datapoint registered for " ++ id.numbers
  | literalNotRegistered id => "literal for unregistered datapoint " ++ id.numbers
  | settingIgnored key => "ignoring configuration key " ++ key
  | rejected group path => "rejected group " ++ group ++ " in " ++ path
  | outsideRanges name => "group address " ++ name ++ " outside of any range"
  | unsupportedCharset name => "unsupported charset " ++ name
  | importing => "importing group address catalog"
  | imported groups => "imported " ++ toString groups ++ " group addresses"
  | exported groups => "exported " ++ toString groups ++ " group addresses"
  | notDecoded group octets =>
    "no datapoint of group " ++ group ++ " accepts " ++ toString octets ++ " bytes"

end Event

/-! ## Answers with events -/

/-- An answer together with the events on the way to it, oldest first. The answer never depends on
the events, so that an operation may be read without them. -/
structure Logged (α : Type) where
  /-- the answer -/
  answer : α
  /-- what was reported -/
  events : List Event := []

namespace Logged

variable {α β : Type}

instance : Monad Logged where
  pure a := { answer := a }
  bind x f :=
    let y := f x.answer
    { answer := y.answer, events := x.events ++ y.events }

/-- Events are appended, so it does not matter how the steps of an operation are grouped. -/
instance : LawfulMonad Logged := .mk' Logged
  (fun x => congrArg (Logged.mk x.answer) (List.append_nil x.events))
  (fun _ _ => rfl)
  (fun x _ _ => congrArg (Logged.mk _) (List.append_assoc x.events _ _))

/-- Reports one event. -/
def report (e : Event) : Logged Unit where
  answer := ()
  events := [e]

/-- Reports events, oldest first. -/
def reportAll (es : List Event) : Logged Unit where
  answer := ()
  events := es

@[simp] theorem answer_pure (a : α) : (pure a : Logged α).answer = a := rfl

@[simp] theorem events_pure (a : α) : (pure a : Logged α).events = [] := rfl

@[simp] theorem answer_bind (x : Logged α) (f : α → Logged β) :
    (x >>= f).answer = (f x.answer).answer := rfl

@[simp] theorem events_bind (x : Logged α) (f : α → Logged β) :
    (x >>= f).events = x.events ++ (f x.answer).events := rfl

@[simp] theorem answer_map (f : α → β) (x : Logged α) : (f <$> x).answer = f x.answer := rfl

@[simp] theorem events_map (f : α → β) (x : Logged α) : (f <$> x).events = x.events :=
  List.append_nil x.events

@[simp] theorem answer_report (e : Event) : (report e).answer = () := rfl

@[simp] theorem events_report (e : Event) : (report e).events = [e] := rfl

@[simp] theorem answer_reportAll (es : List Event) : (reportAll es).answer = () := rfl

@[simp] theorem events_reportAll (es : List Event) : (reportAll es).events = es := rfl

end Logged

end BuildingBus
