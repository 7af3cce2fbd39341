import BuildingBus.Markup.Entity
import BuildingBus.Markup.Mark
import BuildingBus.Text.Utf8

/-!
# Attributes

What follows the name in a tag is a sequence of attributes, each a key, an equals sign and a value
in quotes. They are read from the left, one by one, as long as they are well-formed; an attribute is
found by its local name, which is the part of its key after the first colon. What stands behind the
attribute that is sought is not looked at, so damage there does no harm.
-/

namespace BuildingBus.Markup

/-! ## Reading -/

/-- An attribute as it stands in the tag, its value still with entities. Most attributes are never
looked at, and only those that are have to be readable. -/
structure Attribute where
  /-- the key -/
  key : Octets
  /-- the value between its quotes -/
  value : Octets
  deriving DecidableEq, Repr

/-- The attributes before the first damage, and whether there is any. Damage that comes after what
is looked for does not matter to the search. -/
structure Attributes where
  /-- the well-formed attributes, in order -/
  items : List Attribute
  /-- whether nothing but them was found -/
  sound : Bool
  deriving DecidableEq, Repr

/-- Attributes with one put in front. -/
def Attributes.cons (a : Attribute) (as : Attributes) : Attributes :=
  { as with items := a :: as.items }

/-- Nothing but damage. -/
def Attributes.damaged : Attributes := ⟨[], false⟩

/-- Where the reading of attributes stands. Keys and values are kept with the last octet first while
they are read. -/
inductive AttributeReader where
  /-- between two attributes -/
  | between
  /-- in a key -/
  | key (name : Octets)
  /-- after a key, before the equals sign -/
  | beforeEquals (name : Octets)
  /-- after the equals sign, before the quote -/
  | beforeValue (name : Octets)
  /-- in a value -/
  | value (name : Octets) (quote : UInt8) (content : Octets)
  deriving DecidableEq, Repr

/-- The attributes in octets. A key that is among `taken` is damage; `unique` says whether the keys
that are read become taken. Tags have it so, and declarations do not. -/
def attributesFrom (unique : Bool) : List Octets → AttributeReader → Octets → Attributes
  | _, .between, [] => ⟨[], true⟩
  | _, _, [] => .damaged
  | taken, .between, b :: bs =>
    if isSpace b then attributesFrom unique taken .between bs
    else attributesFrom unique taken (.key [b]) bs
  | taken, .key name, b :: bs =>
    if b = octet '=' then
      if name.reverse ∈ taken then .damaged
      else attributesFrom unique taken (.beforeValue name.reverse) bs
    else if isSpace b then attributesFrom unique taken (.beforeEquals name.reverse) bs
    else attributesFrom unique taken (.key (b :: name)) bs
  | taken, .beforeEquals name, b :: bs =>
    if isSpace b then attributesFrom unique taken (.beforeEquals name) bs
    else if b = octet '=' then
      if name ∈ taken then .damaged else attributesFrom unique taken (.beforeValue name) bs
    else .damaged
  | taken, .beforeValue name, b :: bs =>
    if isSpace b then attributesFrom unique taken (.beforeValue name) bs
    else if b = octet '"' ∨ b = octet '\x27' then
      attributesFrom unique taken (.value name b []) bs
    else .damaged
  | taken, .value name quote content, b :: bs =>
    if b = quote then
      (attributesFrom unique (if unique then name :: taken else taken) .between bs).cons
        ⟨name, content.reverse⟩
    else attributesFrom unique taken (.value name quote (b :: content)) bs

/-- The attributes of a tag, whose keys differ. -/
def Tag.attributeList (tag : Tag) : Attributes := attributesFrom true [] .between tag.attributes

/-! ## Finding -/

/-- The part of a name after its first colon, or the whole name if it has none. What stands before
the colon is never compared with the name of a namespace. -/
def localName (name : Octets) : Octets :=
  match name.dropWhile (· != octet ':') with
  | [] => name
  | _ :: rest => rest

/-- The first attribute with a property: none if there is no such attribute, an error if damage
comes before it. The search ends where it is successful. -/
def Attributes.find (as : Attributes) (p : Attribute → Bool) :
    Except Malformed (Option Attribute) :=
  match as.items.find? p with
  | some a => .ok (some a)
  | none => if as.sound then .ok none else .error {}

/-- The text that the value of an attribute stands for. -/
def Attribute.text? (a : Attribute) : Option String :=
  ((Text.Utf8.decode a.value).bind unescape).map String.ofList

/-- The text of the attribute with a local name, if the tag has one. Of several attributes with that
local name the first counts, whatever their prefixes. -/
def Tag.attribute (tag : Tag) (name : String) : Except Malformed (Option String) :=
  match tag.attributeList.find fun a => localName a.key == octets name with
  | .error fault => .error fault
  | .ok none => .ok none
  | .ok (some a) =>
    match a.text? with
    | some s => .ok (some s)
    | none => .error {}

/-- The raw value of the attribute of a declaration with a name, if it has one. Keys may repeat, and
the first of them counts. -/
def declared (name : String) (attributes : Octets) : Except Malformed (Option Octets) :=
  match (attributesFrom false [] .between attributes).find fun a => a.key == octets name with
  | .error fault => .error fault
  | .ok a => .ok (a.map (·.value))

end BuildingBus.Markup
