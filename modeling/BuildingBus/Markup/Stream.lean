import BuildingBus.Markup.Mark

/-!
# Streams of marks

The octets of a document are read one by one, and the marks come out in order. The *scanner* is
where this reading stands: it takes one octet at a time, so what it has found in the first octets of
a document does not depend on those that follow. Quotes in a tag hide a `>`.

The octets may end because the document does or because reading fails; only the former can leave
markup unfinished. End tags have to close the element that was opened last, and a stream stops at
the first one that does not.

The main statement: what is found in octets is found first, whatever follows them
(`Scanner.run_append`).
-/

namespace BuildingBus.Markup

/-! ## The scanner -/

/-- Where the scanner stands. Contents are kept with the last octet first. The state is all that is
known of the octets before, so that a document may be scanned in parts. -/
inductive Scanner where
  /-- between two marks -/
  | text
  /-- after `<` -/
  | opened
  /-- in a start tag or the tag of an empty element; the quote that is open, if one is -/
  | tag (content : Octets) (quote : Option UInt8)
  /-- in an end tag, after its slash -/
  | endTag (content : Octets) (quote : Option UInt8)
  /-- in an instruction, its first question mark included -/
  | instruction (content : Octets)
  /-- after `<!` -/
  | bang
  /-- in a comment, its first hyphen included -/
  | comment (content : Octets)
  /-- in character data, its first bracket included -/
  | characterData (content : Octets)
  /-- in a document type, its first letter included; how many `<` in it are open -/
  | documentType (content : Octets) (depth : Nat)
  deriving DecidableEq, Repr

/-- What the scanner does with an octet: it goes on, it has found a mark, or the markup is
malformed. -/
inductive Step where
  /-- it goes on -/
  | go (next : Scanner)
  /-- it has found a mark and stands in text again -/
  | found (mark : Mark)
  /-- the markup is malformed -/
  | broken
  deriving DecidableEq, Repr

/-- Whether octets begin with other octets, letters compared in capitals. -/
def startsWithUncased (word content : Octets) : Bool :=
  word.isPrefixOf <| content.map fun b => if 0x61 ≤ b ∧ b ≤ 0x7A then b - 0x20 else b

/-- The quote that is open after an octet of a tag. -/
def quoteAfter (quote : Option UInt8) (b : UInt8) : Option UInt8 :=
  match quote with
  | some q => if b = q then none else some q
  | none => if b = octet '"' ∨ b = octet '\x27' then some b else none

/-- The mark of a tag that is not an end tag. A slash at its end makes the element empty, even where
it could belong to the last value. -/
def tagMark (content : Octets) : Mark :=
  match content with
  | b :: rest => if b = octet '/' then .empty (.ofContent rest.reverse)
    else .opening (.ofContent content.reverse)
  | [] => .opening (.ofContent [])

/-- The end of an instruction, from the octets between its question marks. -/
def endInstruction (body : Octets) : Step :=
  let keyword := octets "xml"
  let rest := body.drop keyword.length
  if keyword.isPrefixOf body ∧ (rest = [] ∨ rest.head?.any isSpace) then
    .found (.declaration rest)
  else .go .text

/-- One octet in text after `<`. -/
def openedStep (b : UInt8) : Step :=
  if b = octet '!' then .go .bang
  else if b = octet '/' then .go (.endTag [] none)
  else if b = octet '?' then .go (.instruction [b])
  else if b = octet '>' then .found (tagMark [])
  else .go (.tag [b] (quoteAfter none b))

/-- One octet after `<!`. -/
def bangStep (b : UInt8) : Step :=
  if b = octet '-' then .go (.comment [b])
  else if b = octet '[' then .go (.characterData [b])
  else if b = octet 'D' ∨ b = octet 'd' then .go (.documentType [b] 0)
  else .broken

/-- The end of a comment, whose content began with one hyphen and must begin with two. -/
def endComment (content : Octets) : Step :=
  if (octets "--").isPrefixOf content.reverse then .go .text else .broken

/-- The end of character data. -/
def endCharacterData (content : Octets) : Step :=
  if (octets "[CDATA[").isPrefixOf content.reverse then .go .text else .broken

/-- The end of a document type, which must have a keyword and a name. -/
def endDocumentType (content : Octets) : Step :=
  let keyword := octets "DOCTYPE"
  let content := content.reverse
  if startsWithUncased keyword content ∧ (content.drop keyword.length).any (!isSpace ·) then
    .go .text
  else .broken

/-- What the scanner does with an octet. The angle brackets in values and comments are told from
those of tags by the state alone. -/
def Scanner.step : Scanner → UInt8 → Step
  | text, b => .go (if b = octet '<' then opened else text)
  | opened, b => openedStep b
  | tag content quote, b =>
    if quote = none ∧ b = octet '>' then .found (tagMark content)
    else .go (tag (b :: content) (quoteAfter quote b))
  | endTag content quote, b =>
    if quote = none ∧ b = octet '>' then .found (.closing (closingName content.reverse))
    else .go (endTag (b :: content) (quoteAfter quote b))
  | instruction content, b =>
    if b = octet '>' ∧ content.head? = some (octet '?') then
      match content.tail with
      | [] => .broken
      | c :: rest => endInstruction (c :: rest).reverse.tail
    else .go (instruction (b :: content))
  | bang, b => bangStep b
  | comment content, b =>
    if b = octet '>' ∧ 4 ≤ content.length ∧ content.take 2 = octets "--" then endComment content
    else .go (comment (b :: content))
  | characterData content, b =>
    if b = octet '>' ∧ content.take 2 = octets "]]" then endCharacterData content
    else .go (characterData (b :: content))
  | documentType content depth, b =>
    if b = octet '<' then .go (documentType (b :: content) (depth + 1))
    else if b = octet '>' then
      match depth with
      | 0 => endDocumentType content
      | depth + 1 => .go (documentType (b :: content) depth)
    else .go (documentType (b :: content) depth)

/-- What the scanner makes of octets: the marks it finds, and where it stands afterwards, unless the
markup is malformed. The marks before the malformed place are found nevertheless. -/
def Scanner.run : Scanner → Octets → List Mark × Option Scanner
  | s, [] => ([], some s)
  | s, b :: bs =>
    match s.step b with
    | .go next => next.run bs
    | .found mark =>
      let (marks, last) := Scanner.text.run bs
      (mark :: marks, last)
    | .broken => ([], none)

@[simp] theorem Scanner.run_nil (s : Scanner) : s.run [] = ([], some s) := rfl

/-- Octets that follow others change nothing of what was found in those. So what an interrupted
source has delivered is scanned as in the whole document. -/
theorem Scanner.run_append (s : Scanner) (first rest : Octets) :
    s.run (first ++ rest) =
      ((s.run first).1 ++ ((s.run first).2.elim [] fun t => (t.run rest).1),
        (s.run first).2.bind fun t => (t.run rest).2) := by
  induction first generalizing s with
  | nil => simp
  | cons b bs ih =>
    simp only [List.cons_append, Scanner.run]
    cases s.step b with
    | go next => exact ih next
    | found mark => simp [ih .text]
    | broken => rfl

/-! ## Streams -/

/-- What comes after the octets that were delivered: nothing more, as the document is complete, or a
failure of the source. -/
inductive Ending where
  /-- the end of the document -/
  | complete
  /-- a failure of reading -/
  | failed
  deriving DecidableEq, Repr

/-- Why there are no more marks. The reader looks at it only when it has taken all marks that there
are. -/
inductive Stop where
  /-- the document ends -/
  | endOfInput
  /-- reading has failed -/
  | readFailure
  /-- the markup is malformed -/
  | malformed
  deriving DecidableEq, Repr

/-- Marks in order, and why there are no more. It is what the reader sees of a document. -/
structure Stream where
  /-- the marks -/
  marks : List Mark
  /-- why they end -/
  stop : Stop
  deriving DecidableEq, Repr

/-- The stream with a mark put in front. -/
def Stream.cons (mark : Mark) (s : Stream) : Stream := { s with marks := mark :: s.marks }

/-- Why the marks end when the octets do. A failing source is told as that, even where the markup is
cut in the middle of a tag. -/
def stopAt : Ending → Scanner → Stop
  | .failed, _ => .readFailure
  | .complete, .text => .endOfInput
  | .complete, _ => .malformed

/-- The marks in a document. -/
def scan (ending : Ending) (bs : Octets) : Stream :=
  let (marks, last) := Scanner.text.run bs
  ⟨marks, last.elim .malformed (stopAt ending)⟩

/-! ## Nesting -/

/-- The marks up to the first end tag that does not close the element opened last. `opened` holds
the names of the open elements, the innermost first. Elements that are open at the end are no matter
of this rule. -/
def nestFrom (stop : Stop) : List Octets → List Mark → Stream
  | _, [] => ⟨[], stop⟩
  | opened, .opening tag :: marks => (nestFrom stop (tag.name :: opened) marks).cons (.opening tag)
  | opened, .closing name :: marks =>
    match opened with
    | innermost :: rest =>
      if name = innermost then (nestFrom stop rest marks).cons (.closing name)
      else ⟨[], .malformed⟩
    | [] => ⟨[], .malformed⟩
  | opened, mark :: marks => (nestFrom stop opened marks).cons mark

/-- The marks of a stream up to the first end tag that closes nothing. -/
def Stream.nest (s : Stream) : Stream := nestFrom s.stop [] s.marks

end BuildingBus.Markup
