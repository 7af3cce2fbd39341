import BuildingBus.Address.Basic
import BuildingBus.Journal

/-!
# Configuration

The styles of addresses are set in a text with one setting a line, `KEY=VALUE`. Blank lines and
lines that begin with `#` say nothing, keys that mean nothing here are passed over, and a value may
stand in quotes. The last setting of a style counts; the first line that is no setting, or sets a
style that does not exist, is the error.
-/

namespace BuildingBus

open Address Text

/-- Why a configuration text is refused, with the number of the line from 1. Blank lines and
comments are counted, so that the number is the one an editor shows. -/
inductive ConfigError where
  /-- a line without an equals sign or without a key -/
  | invalidLine (line : Nat)
  /-- a value that is no style -/
  | invalidValue (line : Nat) (key : String)
  deriving DecidableEq, Repr

namespace ConfigError

/-- The number of the line, from 1. -/
def line : ConfigError → Nat
  | invalidLine line | invalidValue line _ => line

/-- The key of the setting; empty for a line that is none. -/
def key : ConfigError → String
  | invalidLine _ => ""
  | invalidValue _ key => key

/-- The name of the cause. -/
def label : ConfigError → String
  | invalidLine _ => "InvalidLine"
  | invalidValue _ _ => "InvalidValue"

/-- The message shown for the error. -/
def message (e : ConfigError) : String :=
  if e.key = "" then "Config error: " ++ e.label ++ " at line " ++ toString e.line
  else "Config error: " ++ e.label ++ " for " ++ e.key ++ " at line " ++ toString e.line

end ConfigError

/-- The styles that a configuration sets. What is not set is left unspecified, which is a style of
its own. -/
structure Configuration where
  /-- the style of group addresses -/
  groupStyle : Style := .unspecified
  /-- the style of individual addresses -/
  individualStyle : Style := .unspecified
  deriving DecidableEq, Repr, Inhabited

namespace Configuration

/-! ## Lines -/

/-- What a line sets. A key that means nothing here is kept as a setting, because passing over it is
reported. -/
inductive Setting where
  /-- the style of group addresses -/
  | groupStyle (style : Style)
  /-- the style of individual addresses -/
  | individualStyle (style : Style)
  /-- something that means nothing here -/
  | ignored (key : String)
  deriving DecidableEq, Repr

/-- Why a line is refused. The number of the line is added by whoever counts the lines. -/
inductive LineFault where
  /-- it is no setting -/
  | invalidLine
  /-- it sets a style that does not exist -/
  | invalidValue (key : String)
  deriving DecidableEq, Repr

/-- Whether a line, without blank ends, says something. -/
def isRelevant (line : List Char) : Bool :=
  match line with
  | [] => false
  | c :: _ => c != '#'

/-- A value without the pair of this quote around it, if there is one. -/
def stripQuote? (quote : Char) (value : List Char) : Option (List Char) :=
  match value with
  | c :: rest =>
    if c = quote ∧ rest.getLast? = some quote then some rest.dropLast else none
  | [] => none

/-- A value without one pair of equal quotes around it. Only one pair goes, and a single quote
character is no pair. -/
def unquote (value : List Char) : List Char :=
  ((stripQuote? '"' value).or (stripQuote? '\x27' value)).getD value

/-- The key and the value of a line, each without blank ends. A second equals sign belongs to the
value; a blank key makes the line no setting. -/
def keyAndValue? (line : List Char) : Option (List Char × List Char) :=
  match cutFirst '=' line with
  | none => none
  | some (key, value) =>
    if trim key = [] then none else some (trim key, unquote (trim value))

/-- The style that a value names. -/
def styleOf (key : String) (value : List Char) : Except LineFault Style :=
  match Style.parse (String.ofList value) with
  | .ok style => .ok style
  | .error _ => .error (.invalidValue key)

/-- What a key and a value set. Keys are told apart by case; the style of group addresses has a
shorter key as well. The value of a key that means nothing here is not looked at. -/
def settingOf (key : String) (value : List Char) : Except LineFault Setting :=
  if key = "GROUP_ADDRESS_STYLE" ∨ key = "ADDRESS_STYLE" then
    (styleOf key value).map .groupStyle
  else if key = "INDIVIDUAL_ADDRESS_STYLE" then (styleOf key value).map .individualStyle
  else .ok (.ignored key)

/-- What a line sets; nothing if it says nothing. -/
def readLine (raw : List Char) : Except LineFault (Option Setting) :=
  let line := trim raw
  if isRelevant line then
    match keyAndValue? line with
    | none => .error .invalidLine
    | some (key, value) => (settingOf (String.ofList key) value).map some
  else .ok none

/-- The error for a fault in a line with a number. -/
def LineFault.toError (line : Nat) : LineFault → ConfigError
  | invalidLine => .invalidLine line
  | invalidValue key => .invalidValue line key

/-! ## Texts -/

/-- The settings in lines that are numbered from `number` on, up to the first error. They are given
along with the error, since what was ignored before it has been reported. -/
def readLines (number : Nat) : List (List Char) → List Setting × Option ConfigError
  | [] => ([], none)
  | line :: rest =>
    match readLine line with
    | .error fault => ([], some (fault.toError number))
    | .ok setting =>
      let (settings, error) := readLines (number + 1) rest
      (setting.toList ++ settings, error)

/-- The configuration after a setting. -/
def apply (c : Configuration) : Setting → Configuration
  | .groupStyle style => { c with groupStyle := style }
  | .individualStyle style => { c with individualStyle := style }
  | .ignored _ => c

/-- What is reported of a setting. -/
def Setting.event? : Setting → Option Event
  | groupStyle _ | individualStyle _ => none
  | ignored key => some (.settingIgnored key)

/-- The configuration that a text sets. Settings are applied in their order, so that the last one of
a style counts. -/
def parse (text : String) : Logged (Except ConfigError Configuration) :=
  let (settings, error) := readLines 1 (lines text.toList)
  { answer := match error with
      | some e => .error e
      | none => .ok (settings.foldl apply {})
    events := settings.filterMap Setting.event? }

end Configuration

end BuildingBus
