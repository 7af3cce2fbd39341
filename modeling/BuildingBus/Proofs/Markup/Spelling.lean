import BuildingBus.Proofs.Markup.Attributes

/-!
# Spelled tags

A document that comes from elsewhere may spell its tags in other ways than the writer here does: with
any blanks before the attributes and around their equals signs, with either of the quotes, and with
any octets in a value but its own quote. A tag that is spelled so is found as its mark
(`TagSpelling.finds`), and its attributes are read in their order, each with its key and value
(`TagSpelling.attributeList_tag`).
-/

namespace BuildingBus.Markup

/-! ## Spellings -/

/-- Whether an octet may stand in a name: it is not blank, no quote, and no bracket that ends the
tag. -/
def isNameOctet (b : UInt8) : Bool :=
  !isSpace b && b != octet '>' && b != octet '"' && b != octet '\x27'

/-- Whether octets are the key of an attribute: a name that ends before the equals sign. -/
def isKey (key : Octets) : Bool := !key.isEmpty && key.all fun b => isNameOctet b && b != octet '='

/-- Whether octets are the name in a tag: a name that neither makes the tag other markup nor makes
its element empty. -/
def isTagName (name : Octets) : Bool :=
  !name.isEmpty && name.all isNameOctet
    && name.head?.all (fun b => b != octet '!' && b != octet '/' && b != octet '?')
    && name.getLast? != some (octet '/')

/-- A well-formed attribute with the blanks before it. Its fields are all that can vary in the
writing of an attribute, and its proofs say that it is well-formed. -/
structure Spelling where
  /-- the blanks before the key -/
  blanks : Octets
  /-- the key -/
  key : Octets
  /-- the blanks between the key and the equals sign -/
  beforeEquals : Octets
  /-- the blanks between the equals sign and the value -/
  afterEquals : Octets
  /-- the quote on both sides of the value -/
  quote : UInt8
  /-- the value -/
  value : Octets
  /-- there are blanks before the key -/
  blanks_ne_nil : blanks ≠ []
  /-- the blanks are blank -/
  all_blanks : (blanks ++ beforeEquals ++ afterEquals).all isSpace = true
  /-- the key is one -/
  isKey_key : isKey key = true
  /-- the quote is one of the two -/
  isQuote : quote = octet '"' ∨ quote = octet '\x27'
  /-- the value ends before the quote -/
  quote_not_mem : quote ∉ value
  deriving DecidableEq

namespace Spelling

/-- What stands before the first quote. -/
def front (a : Spelling) : Octets :=
  a.blanks ++ (a.key ++ (a.beforeEquals ++ octet '=' :: a.afterEquals))

/-- The octets of an attribute. -/
def octets (a : Spelling) : Octets := a.front ++ a.quote :: (a.value ++ [a.quote])

/-- What an attribute is read as. -/
def read (a : Spelling) : Attribute := ⟨a.key, a.value⟩

/-- An attribute after one space, in double quotes. -/
def quoted (key value : Octets) (hk : isKey key = true) (hv : octet '"' ∉ value) : Spelling where
  blanks := [octet ' ']
  key := key
  beforeEquals := []
  afterEquals := []
  quote := octet '"'
  value := value
  blanks_ne_nil := List.cons_ne_nil _ _
  all_blanks := rfl
  isKey_key := hk
  isQuote := .inl rfl
  quote_not_mem := hv

variable (a : Spelling)

theorem isSpace_of_mem {b : UInt8} (h : b ∈ a.blanks ∨ b ∈ a.beforeEquals ∨ b ∈ a.afterEquals) :
    isSpace b = true :=
  List.all_eq_true.mp a.all_blanks b (by simpa only [List.mem_append, or_assoc] using h)

theorem key_ne_nil : a.key ≠ [] := by
  intro h
  have hk := a.isKey_key
  rw [isKey, h] at hk
  cases hk

theorem isNameOctet_of_mem {b : UInt8} (h : b ∈ a.key) :
    isNameOctet b = true ∧ b ≠ octet '=' := by
  have hb := List.all_eq_true.mp (Bool.and_eq_true_iff.mp a.isKey_key).2 b h
  exact (Bool.and_eq_true_iff.mp hb).imp_right bne_iff_ne.mp

end Spelling

/-- A tag of an element, other than an end tag, with well-formed attributes. The keys differ as a
whole; their local names may be the same. -/
structure TagSpelling where
  /-- the name of the element -/
  name : Octets
  /-- the attributes -/
  attributes : List Spelling
  /-- the blanks after the last attribute -/
  blanks : Octets
  /-- whether a slash makes the element empty -/
  empty : Bool
  /-- the name is one -/
  isTagName_name : isTagName name = true
  /-- no two attributes have the same key -/
  nodup : (attributes.map (·.key)).Nodup
  /-- the blanks are blank -/
  all_blanks : blanks.all isSpace = true

namespace TagSpelling

/-- The tag between its brackets, without the slash of an empty element. -/
def tag (t : TagSpelling) : Tag := ⟨t.name, t.attributes.flatMap (·.octets) ++ t.blanks⟩

/-- The octets of a tag. -/
def octets (t : TagSpelling) : Octets :=
  octet '<' :: (t.name ++ t.tag.attributes) ++ (if t.empty then [octet '/'] else []) ++ [octet '>']

/-- The mark of a tag. -/
def mark (t : TagSpelling) : Mark := if t.empty then .empty t.tag else .opening t.tag

/-- A tag with its attributes in another order. -/
def reorder (t : TagSpelling) {attributes : List Spelling} (h : t.attributes.Perm attributes) :
    TagSpelling :=
  { t with attributes, nodup := (h.map (·.key)).nodup_iff.mp t.nodup }

variable (t : TagSpelling)

theorem isSpace_of_mem {b : UInt8} (h : b ∈ t.blanks) : isSpace b = true :=
  List.all_eq_true.mp t.all_blanks b h

theorem name_ne_nil : t.name ≠ [] := by
  intro h
  have hn := t.isTagName_name
  rw [isTagName, h] at hn
  cases hn

theorem isNameOctet_of_mem {b : UInt8} (h : b ∈ t.name) : isNameOctet b = true := by
  have hn := t.isTagName_name
  simp only [isTagName, Bool.and_eq_true] at hn
  exact List.all_eq_true.mp hn.1.1.2 b h

theorem ne_of_head {b : UInt8} (h : t.name.head? = some b) :
    b ≠ octet '!' ∧ b ≠ octet '/' ∧ b ≠ octet '?' := by
  have hn := t.isTagName_name
  simp only [isTagName, Bool.and_eq_true, h, Option.all_some, bne_iff_ne, and_assoc] at hn
  exact ⟨hn.2.2.1, hn.2.2.2.1, hn.2.2.2.2.1⟩

theorem getLast_name : t.name.getLast? ≠ some (octet '/') := by
  have hn := t.isTagName_name
  exact bne_iff_ne.mp (Bool.and_eq_true_iff.mp hn).2

end TagSpelling

/-! ## Scanning -/

namespace Scanner

variable {content : Octets}

/-- Outside of quotes everything is passed over but quotes and the closing bracket. -/
theorem passes_unquoted {bs : Octets}
    (h : ∀ b ∈ bs, b ≠ octet '>' ∧ b ≠ octet '"' ∧ b ≠ octet '\x27') :
    (tag content none).Passes bs (tag (bs.reverse ++ content) none) := by
  refine passes_content tag (fun _ _ _ h => if_neg h) fun b hb => ⟨fun hn => ?_, ?_⟩
  · exact (h b hb).1 hn.2
  · exact if_neg (not_or.mpr (h b hb).2)

end Scanner

theorem ne_of_isNameOctet {b : UInt8} (h : isNameOctet b = true) :
    isSpace b = false ∧ b ≠ octet '>' ∧ b ≠ octet '"' ∧ b ≠ octet '\x27' := by
  simpa [isNameOctet, and_assoc] using h

theorem ne_of_isSpace {b : UInt8} (h : isSpace b = true) :
    b ≠ octet '=' ∧ b ≠ octet '/' ∧ b ≠ octet '>' ∧ b ≠ octet '"' ∧ b ≠ octet '\x27' := by
  have hne {c : UInt8} (hc : isSpace c = false) : b ≠ c := by
    rintro rfl
    rw [h] at hc
    cases hc
  exact ⟨hne (by decide), hne (by decide), hne (by decide), hne (by decide), hne (by decide)⟩

namespace Spelling

/-- Before the first quote there is no octet that the scanner minds. -/
theorem unquoted_front (a : Spelling) {b : UInt8} (hb : b ∈ a.front) :
    b ≠ octet '>' ∧ b ≠ octet '"' ∧ b ≠ octet '\x27' := by
  have hblank (hb : b ∈ a.blanks ∨ b ∈ a.beforeEquals ∨ b ∈ a.afterEquals) :=
    (ne_of_isSpace (a.isSpace_of_mem hb)).2.2
  simp only [front, List.mem_append, List.mem_cons] at hb
  rcases hb with hb | hb | hb | rfl | hb
  · exact hblank (.inl hb)
  · exact (ne_of_isNameOctet (a.isNameOctet_of_mem hb).1).2
  · exact hblank (.inr (.inl hb))
  · decide
  · exact hblank (.inr (.inr hb))

/-- An attribute is passed over in a tag: its quotes hide what is in the value, and after it no
quote is open. -/
theorem passes (a : Spelling) (content : Octets) :
    (Scanner.tag content none).Passes a.octets (.tag (a.octets.reverse ++ content) none) := by
  have hr : a.octets.reverse ++ content =
      a.quote :: (a.value.reverse ++ a.quote :: (a.front.reverse ++ content)) := by
    simp [octets]
  have hopen : ∀ content, (Scanner.tag content none).step a.quote =
      .go (.tag (a.quote :: content) (some a.quote)) := by
    rcases a.isQuote with h | h <;> rw [h] <;> exact fun _ => rfl
  have hclose : ∀ content, (Scanner.tag content (some a.quote)).step a.quote =
      .go (.tag (a.quote :: content) none) := by
    rcases a.isQuote with h | h <;> rw [h] <;> exact fun _ => rfl
  rw [hr, octets]
  refine (Scanner.passes_unquoted fun b hb => a.unquoted_front hb).append ?_
  exact .cons (hopen _) ((Scanner.passes_quoted a.quote_not_mem).append (.cons (hclose _) .nil))

/-- Attributes are passed over in a tag. -/
theorem passes_flatMap (attributes : List Spelling) (content : Octets) :
    (Scanner.tag content none).Passes (attributes.flatMap (·.octets))
      (.tag ((attributes.flatMap (·.octets)).reverse ++ content) none) := by
  induction attributes generalizing content with
  | nil => exact .nil
  | cons a attributes ih =>
    rw [List.flatMap_cons, List.reverse_append, List.append_assoc]
    exact (a.passes content).append (ih _)

end Spelling

namespace TagSpelling

/-- The octets before a closing bracket or a slash are passed over, and are then the content of the
tag. -/
theorem passes (t : TagSpelling) :
    Scanner.text.Passes (octet '<' :: (t.name ++ t.tag.attributes))
      (.tag (t.name ++ t.tag.attributes).reverse none) := by
  obtain ⟨b, bs, hb⟩ := List.exists_cons_of_ne_nil t.name_ne_nil
  have hname (c : UInt8) (hc : c ∈ b :: bs) :=
    (ne_of_isNameOctet (t.isNameOctet_of_mem (hb ▸ hc))).2
  -- the first octet of the name decides what kind of markup it is, the others are content
  have hopen : Scanner.opened.step b = .go (.tag [b] none) := by
    obtain ⟨hbang, hslash, hquestion⟩ := t.ne_of_head (by rw [hb, List.head?_cons])
    obtain ⟨hgt, hquotes⟩ := hname b (.head _)
    change openedStep b = _
    rw [openedStep, if_neg hbang, if_neg hslash, if_neg hquestion, if_neg hgt, quoteAfter,
      if_neg (not_or.mpr hquotes)]
  have hblanks : ∀ content, (Scanner.tag content none).Passes t.blanks
      (.tag (t.blanks.reverse ++ content) none) :=
    fun _ => Scanner.passes_unquoted fun c hc => (ne_of_isSpace (t.isSpace_of_mem hc)).2.2
  have hr : (t.name ++ t.tag.attributes).reverse = t.blanks.reverse ++
      ((t.attributes.flatMap (·.octets)).reverse ++ (bs.reverse ++ [b])) := by
    simp [tag, hb]
  rw [hr, hb, List.cons_append]
  have hrest : (Scanner.tag [b] none).Passes bs (.tag (bs.reverse ++ [b]) none) :=
    Scanner.passes_unquoted fun c hc => hname c (.tail _ hc)
  refine .cons rfl (.cons hopen (hrest.append ?_))
  exact (Spelling.passes_flatMap t.attributes _).append (hblanks _)

/-- What follows the name is empty or begins with a blank. -/
theorem attributes_tag_eq_or (t : TagSpelling) :
    t.tag.attributes = [] ∨ ∃ b bs, t.tag.attributes = b :: bs ∧ isSpace b = true := by
  rw [tag]
  cases t.attributes with
  | nil =>
    cases hb : t.blanks with
    | nil => exact .inl rfl
    | cons b bs => exact .inr ⟨b, bs, rfl, t.isSpace_of_mem (hb ▸ .head _)⟩
  | cons a attributes =>
    obtain ⟨b, bs, hb⟩ := List.exists_cons_of_ne_nil a.blanks_ne_nil
    have hspace : isSpace b = true := a.isSpace_of_mem (.inl (hb ▸ .head _))
    simp only [List.flatMap_cons, Spelling.octets, Spelling.front, hb, List.cons_append]
    exact .inr ⟨b, _, rfl, hspace⟩

/-- The octets of a tag are split after its name, at the first blank octet if there is one. -/
theorem ofContent (t : TagSpelling) : Tag.ofContent (t.name ++ t.tag.attributes) = t.tag := by
  have hn : ∀ b ∈ t.name, (!isSpace b) = true := by
    intro b hb
    rw [(ne_of_isNameOctet (t.isNameOctet_of_mem hb)).1]
    rfl
  rw [Tag.ofContent, List.takeWhile_append_of_pos hn, List.dropWhile_append_of_pos hn]
  rcases t.attributes_tag_eq_or with ha | ⟨b, bs, ha, hb⟩
  · rw [ha, List.takeWhile_nil, List.append_nil, List.dropWhile_nil, ← ha]
    rfl
  · rw [ha, List.takeWhile_cons, List.dropWhile_cons, hb]
    simp only [Bool.not_true, Bool.false_eq_true, if_false, List.append_nil]
    rw [← ha]
    rfl

/-- A start tag does not end in a slash, be it in a value or in its name. -/
theorem getLast_ne (t : TagSpelling) :
    (t.name ++ t.tag.attributes).getLast? ≠ some (octet '/') := by
  have hblanks : t.blanks.getLast? ≠ some (octet '/') := fun h =>
    (ne_of_isSpace (t.isSpace_of_mem (List.mem_of_getLast? h))).2.1 rfl
  have hattributes : (t.attributes.flatMap (·.octets)).getLast? ≠ some (octet '/') := by
    rcases List.eq_nil_or_concat t.attributes with h | ⟨first, a, h⟩
    · rw [h]
      exact nofun
    · have hq : octet '/' ≠ a.quote := by
        rcases a.isQuote with h | h <;> rw [h] <;> decide
      rw [h, List.concat_eq_append, List.flatMap_append, List.flatMap_singleton, Spelling.octets,
        ← List.cons_append, ← List.append_assoc, ← List.append_assoc, List.getLast?_concat]
      exact fun hs => hq (Option.some.inj hs).symm
  rw [tag, List.getLast?_append, List.getLast?_append]
  intro h
  rcases Option.or_eq_some_iff.mp h with h | ⟨-, h⟩
  · rcases Option.or_eq_some_iff.mp h with h | ⟨-, h⟩
    · exact hblanks h
    · exact hattributes h
  · exact t.getLast_name h

/-- **A spelled tag is found**, as one mark, wherever it stands in text: none of its quotes or
brackets ends it too early. -/
theorem finds (t : TagSpelling) : Finds t.octets [t.mark] := by
  rw [octets, mark]
  cases t.empty with
  | true =>
    refine finds_of_passes (t.passes.append (.cons (b := octet '/') rfl .nil)) ?_
    refine (step_tag_close _).trans ?_
    rw [if_pos rfl, tagMark, if_pos rfl, List.reverse_reverse, ofContent]
  | false =>
    rw [if_neg Bool.false_ne_true, if_neg Bool.false_ne_true, List.append_nil]
    refine finds_of_passes t.passes ?_
    rw [step_tag_close, tagMark_reverse, ofContent]
    rintro b hb rfl
    exact t.getLast_ne hb

end TagSpelling

/-! ## Reading -/

section

variable {unique : Bool} {taken : List Octets}

/-- Blanks between attributes are passed over. -/
theorem attributesFrom_blanks {bs : Octets} (h : ∀ b ∈ bs, isSpace b = true) (rest : Octets) :
    attributesFrom unique taken .between (bs ++ rest) =
      attributesFrom unique taken .between rest := by
  induction bs with
  | nil => rfl
  | cons b bs ih =>
    rw [List.cons_append, attributesFrom, if_pos (h b (.head _)), ih fun c hc => h c (.tail _ hc)]

/-- Blanks before an equals sign are passed over. -/
theorem attributesFrom_beforeEquals {bs : Octets} (h : ∀ b ∈ bs, isSpace b = true) {name : Octets}
    (hn : name ∉ taken) (rest : Octets) :
    attributesFrom unique taken (.beforeEquals name) (bs ++ octet '=' :: rest) =
      attributesFrom unique taken (.beforeValue name) rest := by
  induction bs with
  | nil => rw [List.nil_append, attributesFrom, if_neg (by decide), if_pos rfl, if_neg hn]
  | cons b bs ih =>
    rw [List.cons_append, attributesFrom, if_pos (h b (.head _)), ih fun c hc => h c (.tail _ hc)]

/-- A key ends at the equals sign or at the blanks before it. -/
theorem attributesFrom_keyEnd {bs : Octets} (h : ∀ b ∈ bs, isSpace b = true) {name : Octets}
    (hn : name.reverse ∉ taken) (rest : Octets) :
    attributesFrom unique taken (.key name) (bs ++ octet '=' :: rest) =
      attributesFrom unique taken (.beforeValue name.reverse) rest := by
  cases bs with
  | nil => rw [List.nil_append, attributesFrom, if_pos rfl, if_neg hn]
  | cons b bs =>
    have hb : isSpace b = true := h b (.head _)
    rw [List.cons_append, attributesFrom, if_neg (ne_of_isSpace hb).1, if_pos hb,
      attributesFrom_beforeEquals (fun c hc => h c (.tail _ hc)) hn]

/-- Blanks before a value are passed over, and its quote is remembered. -/
theorem attributesFrom_beforeValue {bs : Octets} (h : ∀ b ∈ bs, isSpace b = true) {quote : UInt8}
    (hq : quote = octet '"' ∨ quote = octet '\x27') (name rest : Octets) :
    attributesFrom unique taken (.beforeValue name) (bs ++ quote :: rest) =
      attributesFrom unique taken (.value name quote []) rest := by
  induction bs with
  | nil =>
    have hs : ¬isSpace quote = true := by
      rcases hq with rfl | rfl <;> decide
    rw [List.nil_append, attributesFrom, if_neg hs, if_pos hq]
  | cons b bs ih =>
    rw [List.cons_append, attributesFrom, if_pos (h b (.head _)), ih fun c hc => h c (.tail _ hc)]

/-- A spelled attribute is read first, whatever follows it, and its key is taken from then on. -/
theorem Spelling.attributesFrom_octets (a : Spelling) (ht : a.key ∉ taken) (rest : Octets) :
    attributesFrom true taken .between (a.octets ++ rest) =
      (attributesFrom true (a.key :: taken) .between rest).cons a.read := by
  obtain ⟨k, ks, hk⟩ := List.exists_cons_of_ne_nil a.key_ne_nil
  have hkey (b : UInt8) (hb : b ∈ k :: ks) : isSpace b = false :=
    (ne_of_isNameOctet (a.isNameOctet_of_mem (hk ▸ hb)).1).1
  have heq : octet '=' ∉ ks := fun h =>
    (a.isNameOctet_of_mem (hk ▸ List.mem_cons_of_mem k h)).2 rfl
  have hname : (ks.reverse ++ [k]).reverse = a.key := by simp [hk]
  have hoctets : a.octets ++ rest = a.blanks ++ k :: (ks ++ (a.beforeEquals ++ octet '=' ::
      (a.afterEquals ++ a.quote :: (a.value ++ a.quote :: rest)))) := by
    simp [octets, front, hk]
  -- one step for each piece of the text
  rw [hoctets, attributesFrom_blanks fun b hb => a.isSpace_of_mem (.inl hb)]
  rw [attributesFrom, if_neg (Bool.eq_false_iff.mp (hkey k (.head _)))]
  rw [attributesFrom_key heq fun b hb => hkey b (.tail _ hb)]
  rw [attributesFrom_keyEnd (fun b hb => a.isSpace_of_mem (.inr (.inl hb))) (hname ▸ ht), hname]
  rw [attributesFrom_beforeValue (fun b hb => a.isSpace_of_mem (.inr (.inr hb))) a.isQuote]
  rw [attributesFrom_value a.quote_not_mem, attributesFrom, if_pos rfl, if_pos rfl,
    List.append_nil, List.reverse_reverse]
  rfl

/-- All spelled attributes are read, without damage, as no key among them is repeated. -/
theorem attributesFrom_spellings {attributes : List Spelling} {blanks : Octets}
    (hb : ∀ b ∈ blanks, isSpace b = true) (hd : (attributes.map (·.key)).Nodup)
    (ht : ∀ a ∈ attributes, a.key ∉ taken) :
    attributesFrom true taken .between (attributes.flatMap (·.octets) ++ blanks) =
      ⟨attributes.map (·.read), true⟩ := by
  induction attributes generalizing taken with
  | nil =>
    rw [List.flatMap_nil, List.nil_append, ← List.append_nil blanks, attributesFrom_blanks hb]
    rfl
  | cons a attributes ih =>
    rw [List.map_cons, List.nodup_cons] at hd
    have hrest : ∀ o ∈ attributes, o.key ∉ a.key :: taken := by
      intro o ho hm
      rcases List.mem_cons.mp hm with hm | hm
      · exact hd.1 (hm ▸ List.mem_map.mpr ⟨o, ho, rfl⟩)
      · exact ht o (.tail _ ho) hm
    rw [List.flatMap_cons, List.append_assoc, a.attributesFrom_octets (ht a (.head _)),
      ih hd.2 hrest]
    rfl

end

/-! ## Finding -/

/-- The first attribute with a local name. It is the one that counts where a text is looked up. -/
def firstNamed (name : String) (attributes : List Spelling) : Option Spelling :=
  attributes.find? fun a => localName a.key == octets name

namespace TagSpelling

/-- **The attributes of a spelled tag are read**, in their order and without damage, with whatever
blanks and quotes they are written. -/
theorem attributeList_tag (t : TagSpelling) :
    t.tag.attributeList = ⟨t.attributes.map (·.read), true⟩ :=
  attributesFrom_spellings (fun _ hb => t.isSpace_of_mem hb) t.nodup fun _ _ => List.not_mem_nil

/-- What is found under a local name depends on the first attribute with it alone. -/
theorem attribute_tag (t : TagSpelling) (name : String) :
    t.tag.attribute name = match firstNamed name t.attributes with
      | none => .ok none
      | some a => match a.read.text? with
        | some s => .ok (some s)
        | none => .error {} := by
  have hfind : (t.attributes.map (·.read)).find? (fun a => localName a.key == Markup.octets name) =
      (firstNamed name t.attributes).map (·.read) :=
    List.find?_map
  rw [Tag.attribute, attributeList_tag, Attributes.find, hfind]
  cases firstNamed name t.attributes <;> rfl

end TagSpelling

end BuildingBus.Markup
