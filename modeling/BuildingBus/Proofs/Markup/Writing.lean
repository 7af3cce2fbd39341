import BuildingBus.Markup.Attribute
import BuildingBus.Markup.Element
import BuildingBus.Markup.Stream
import BuildingBus.Proofs.Markup.Tree
import BuildingBus.Proofs.Text.Utf8

/-!
# Written documents are read back

A document is written from a tree of elements and read back as marks. As long as the names and keys
in it are *plain*, the marks are those of that tree (`scan_document`), whatever characters the
values of the attributes have: an escaped value has no quote in it, so that the scanner leaves the
value where the writer did, and no bracket in a value is taken for the end of its tag.

The proof follows the octets: what the scanner passes over (`Scanner.Passes`) and what it finds
(`Finds`) is put together from pieces, as the document is.
-/

namespace BuildingBus.Markup

open Text Text.Utf8

/-! ## Plain names -/

/-- Whether a character may stand in a plain name. -/
def isPlainChar (c : Char) : Bool := c.isAlphanum || c == '-'

/-- Whether a name is not empty and made of letters, digits and hyphens alone. -/
def isPlain (s : String) : Bool := !s.toList.isEmpty && s.toList.all isPlainChar

theorem toNat_lt_of_isPlainChar {c : Char} (h : isPlainChar c = true) : c.toNat < 0x80 := by
  have hc : (((c.isUpper || c.isLower) || c.isDigit) || c == '-') = true := h
  simp only [Bool.or_eq_true, beq_iff_eq] at hc
  rcases hc with ((hc | hc) | hc) | rfl
  · exact Nat.lt_of_le_of_lt (of_decide_eq_true hc).2 (by decide)
  · exact Nat.lt_of_le_of_lt (of_decide_eq_true (Bool.and_eq_true_iff.mp hc).2) (by decide)
  · exact Nat.lt_of_le_of_lt (of_decide_eq_true (Bool.and_eq_true_iff.mp hc).2) (by decide)
  · decide

theorem toNat_octet_of_lt {c : Char} (h : c.toNat < 0x80) : (octet c).toNat = c.toNat :=
  toNat_octet (Nat.lt_trans h (by decide))

/-- An octet of ASCII is in a written text exactly if its character is in the text. -/
theorem octet_mem_encode_iff {c : Char} (h : c.toNat < 0x80) {s : List Char} :
    octet c ∈ encode s ↔ c ∈ s := by
  have ho := toNat_octet_of_lt h
  rw [mem_encode_iff (by rw [ho]; exact h), ho, Char.ofNat_toNat]

theorem encode_append (s t : List Char) : encode (s ++ t) = encode s ++ encode t :=
  List.flatMap_append

/-- A text of ASCII is written with one octet for each character. -/
theorem encode_eq_map_octet {s : List Char} (h : ∀ c ∈ s, c.toNat < 0x80) :
    encode s = s.map octet := by
  induction s with
  | nil => rfl
  | cons c s ih =>
    rw [encode, List.flatMap_cons, encodeChar_of_lt (h c (.head _)), ← encode,
      ih fun d hd => h d (.tail _ hd)]
    rfl

section

variable {name : String}

theorem isPlainChar_of_mem (h : isPlain name = true) {c : Char} (hc : c ∈ name.toList) :
    isPlainChar c = true :=
  List.all_eq_true.mp (Bool.and_eq_true_iff.mp h).2 c hc

theorem toList_ne_nil_of_isPlain (h : isPlain name = true) : name.toList ≠ [] := by
  intro hn
  rw [isPlain, hn] at h
  cases h

/-- A plain name is written as its octets. -/
theorem encode_of_isPlain (h : isPlain name = true) : encode name.toList = octets name :=
  encode_eq_map_octet fun _ hc => toNat_lt_of_isPlainChar (isPlainChar_of_mem h hc)

/-- An octet that is none of a plain character is not in a plain name. -/
theorem octet_not_mem_of_isPlain (h : isPlain name = true) {c : Char} (hc : isPlainChar c = false)
    (hlt : c.toNat < 0x80) : octet c ∉ octets name := by
  rw [← encode_of_isPlain h, octet_mem_encode_iff hlt]
  intro hm
  rw [isPlainChar_of_mem h hm] at hc
  cases hc

/-- An octet of a plain name is none that may not stand in one. -/
theorem ne_octet_of_mem (h : isPlain name = true) {b : UInt8} (hb : b ∈ octets name) {c : Char}
    (hc : isPlainChar c = false) (hlt : c.toNat < 0x80) : b ≠ octet c := by
  rintro rfl
  exact octet_not_mem_of_isPlain h hc hlt hb

theorem isSpace_of_mem_octets (h : isPlain name = true) {b : UInt8} (hb : b ∈ octets name) :
    isSpace b = false := by
  simp only [isSpace, Bool.or_eq_false_iff, beq_eq_false_iff_ne]
  refine ⟨⟨⟨?_, ?_⟩, ?_⟩, ?_⟩
  · exact ne_octet_of_mem h hb (c := ' ') (by decide) (by decide)
  · exact ne_octet_of_mem h hb (c := '\t') (by decide) (by decide)
  · exact ne_octet_of_mem h hb (c := '\r') (by decide) (by decide)
  · exact ne_octet_of_mem h hb (c := '\n') (by decide) (by decide)

/-- An octet of a plain name opens no quotes. -/
theorem quoteAfter_none_of_mem (h : isPlain name = true) {b : UInt8} (hb : b ∈ octets name) :
    quoteAfter none b = none := by
  refine if_neg (not_or.mpr ⟨?_, ?_⟩)
  · exact ne_octet_of_mem h hb (by decide) (by decide)
  · exact ne_octet_of_mem h hb (by decide) (by decide)

/-- An escaped text has no double quote in it. -/
theorem quote_not_mem_escape (s : List Char) : '"' ∉ escape s := by
  intro h
  obtain ⟨d, -, hd⟩ := List.mem_flatMap.mp h
  unfold escapeChar at hd
  split_ifs at hd with h1 h2 h3 h4 h5
  · exact absurd hd (by decide)
  · exact absurd hd (by decide)
  · exact absurd hd (by decide)
  · exact absurd hd (by decide)
  · exact absurd hd (by decide)
  · exact h5 (List.mem_singleton.mp hd).symm

end

/-! ## Attributes -/

theorem quote_not_mem_encode_escape (value : String) :
    octet '"' ∉ encode (escape value.toList) := by
  rw [octet_mem_encode_iff (by decide)]
  exact quote_not_mem_escape _

/-- The octets of a written attribute. -/
theorem encode_attributeText {key : String} (h : isPlain key = true) (value : String) :
    encode (attributeText key value) = octet ' ' :: (octets key ++ octet '=' :: octet '"' ::
      (encode (escape value.toList) ++ [octet '"'])) := by
  simp only [attributeText, encode_append, encode_of_isPlain h, List.append_assoc]
  rfl

/-- The octets of written attributes. -/
def attributeOctets (attributes : List (String × String)) : Octets :=
  encode (attributes.flatMap fun (key, value) => attributeText key value)

theorem attributeOctets_cons (a : String × String) (attributes : List (String × String)) :
    attributeOctets (a :: attributes) =
      encode (attributeText a.1 a.2) ++ attributeOctets attributes :=
  encode_append _ _

/-! ## What the scanner passes over -/

namespace Scanner

/-- The scanner finds no mark in octets and then stands elsewhere. Of two such parts that meet, the
first ends where the second begins, and together they are one. -/
def Passes (s : Scanner) (bs : Octets) (t : Scanner) : Prop := s.run bs = ([], some t)

variable {s t u : Scanner} {content : Octets}

theorem Passes.append {first rest : Octets} (h : s.Passes first t) (hr : t.Passes rest u) :
    s.Passes (first ++ rest) u := by
  rw [Passes, run_append, h]
  exact hr

theorem Passes.cons {b : UInt8} {bs : Octets} (h : s.step b = .go t) (hr : t.Passes bs u) :
    s.Passes (b :: bs) u := by
  rw [Passes, run, h]
  exact hr

theorem Passes.nil : s.Passes [] s := rfl

/-- In text everything but an opening bracket is passed over. -/
theorem passes_text {bs : Octets} (h : octet '<' ∉ bs) : text.Passes bs text := by
  induction bs with
  | nil => exact .nil
  | cons b bs ih =>
    rw [List.mem_cons, not_or] at h
    refine .cons ?_ (ih h.2)
    rw [step, if_neg (Ne.symm h.1)]

/-- Octets are taken into the content of a tag if they do not change the quotes and none of them is
a closing bracket outside of quotes. -/
theorem passes_content (state : Octets → Option UInt8 → Scanner)
    (hs : ∀ content quote b, ¬(quote = none ∧ b = octet '>') →
      (state content quote).step b = .go (state (b :: content) (quoteAfter quote b)))
    {quote : Option UInt8} {bs : Octets}
    (h : ∀ b ∈ bs, ¬(quote = none ∧ b = octet '>') ∧ quoteAfter quote b = quote) :
    (state content quote).Passes bs (state (bs.reverse ++ content) quote) := by
  induction bs generalizing content with
  | nil => exact .nil
  | cons b bs ih =>
    obtain ⟨hg, hq⟩ := h b (.head _)
    rw [List.reverse_cons, List.append_assoc]
    refine .cons ?_ (ih fun c hc => h c (.tail _ hc))
    rw [hs _ _ _ hg, hq]
    rfl

/-- In quotes everything but the quote is passed over. -/
theorem passes_quoted {q : UInt8} {bs : Octets} (h : q ∉ bs) :
    (tag content (some q)).Passes bs (tag (bs.reverse ++ content) (some q)) := by
  refine passes_content tag (fun _ _ _ h => if_neg h) fun b hb => ⟨fun hn => ?_, if_neg ?_⟩
  · exact Option.some_ne_none q hn.1
  · rintro rfl
    exact h hb

/-- In a tag, outside of quotes, octets of a plain name are passed over. -/
theorem passes_name {name : String} (h : isPlain name = true) {bs : Octets}
    (hbs : ∀ b ∈ bs, b ∈ octets name) :
    (tag content none).Passes bs (tag (bs.reverse ++ content) none) := by
  refine passes_content tag (fun _ _ _ h => if_neg h) fun b hb => ⟨fun hn => ?_, ?_⟩
  · exact ne_octet_of_mem h (hbs b hb) (by decide) (by decide) hn.2
  · exact quoteAfter_none_of_mem h (hbs b hb)

/-- In an end tag a plain name is passed over. -/
theorem passes_closingName {name : String} (h : isPlain name = true) :
    (endTag content none).Passes (octets name)
      (endTag ((octets name).reverse ++ content) none) := by
  refine passes_content endTag (fun _ _ _ h => if_neg h) fun b hb => ⟨fun hn => ?_, ?_⟩
  · exact ne_octet_of_mem h hb (by decide) (by decide) hn.2
  · exact quoteAfter_none_of_mem h hb

/-- A written attribute is passed over in a tag, whatever its value is. -/
theorem passes_attribute {key : String} (h : isPlain key = true) (value : String) :
    (tag content none).Passes (encode (attributeText key value))
      (tag ((encode (attributeText key value)).reverse ++ content) none) := by
  have he := encode_attributeText h value
  have hr : (encode (attributeText key value)).reverse ++ content = octet '"' ::
      ((encode (escape value.toList)).reverse ++ octet '"' :: octet '=' ::
        ((octets key).reverse ++ octet ' ' :: content)) := by
    simp [he]
  rw [hr, he]
  -- outside of quotes up to the first quote, in quotes up to the last octet
  refine .cons rfl ((passes_name h fun _ hb => hb).append ?_)
  refine .cons rfl (.cons rfl ((passes_quoted (quote_not_mem_encode_escape value)).append ?_))
  exact .cons rfl .nil

/-- Written attributes are passed over in a tag. -/
theorem passes_attributes {attributes : List (String × String)}
    (h : ∀ a ∈ attributes, isPlain a.1 = true) :
    (tag content none).Passes (attributeOctets attributes)
      (tag ((attributeOctets attributes).reverse ++ content) none) := by
  induction attributes generalizing content with
  | nil => exact .nil
  | cons a attributes ih =>
    rw [attributeOctets_cons, List.reverse_append, List.append_assoc]
    exact (passes_attribute (h a (.head _)) a.2).append (ih fun o ho => h o (.tail _ ho))

end Scanner

/-! ## What the scanner finds -/

/-- The scanner finds marks in octets and stands in text before and after. Octets of this kind can
be put together in any way. -/
def Finds (bs : Octets) (marks : List Mark) : Prop := Scanner.text.run bs = (marks, some .text)

theorem Finds.nil : Finds [] [] := rfl

theorem Finds.append {first rest : Octets} {m n : List Mark} (h : Finds first m)
    (hr : Finds rest n) : Finds (first ++ rest) (m ++ n) := by
  rw [Finds, Scanner.run_append, h]
  exact congrArg (fun r : List Mark × Option Scanner => (m ++ r.1, r.2)) hr

/-- A mark is found where the scanner passes over all but the last octet of it. -/
theorem finds_of_passes {bs : Octets} {s : Scanner} {b : UInt8} {m : Mark}
    (h : Scanner.text.Passes bs s) (hb : s.step b = .found m) : Finds (bs ++ [b]) [m] := by
  rw [Finds, Scanner.run_append, h]
  simp only [Option.elim_some, Option.bind_some, Scanner.run, hb, List.nil_append]

/-! ## Tags -/

/-- The tag with a name and attributes. -/
def tagOf (name : String) (attributes : List (String × String)) : Tag :=
  ⟨octets name, attributeOctets attributes⟩

/-- The attributes of a tag are empty or begin with a space. -/
theorem attributeOctets_eq_or (attributes : List (String × String)) :
    attributeOctets attributes = [] ∨ ∃ bs, attributeOctets attributes = octet ' ' :: bs := by
  cases attributes with
  | nil => exact .inl rfl
  | cons a attributes => exact .inr ⟨_, rfl⟩

/-- The octets of a tag are split again after its name. -/
theorem ofContent_tagOf {name : String} (h : isPlain name = true)
    (attributes : List (String × String)) :
    Tag.ofContent (octets name ++ attributeOctets attributes) = tagOf name attributes := by
  have hn : ∀ b ∈ octets name, (!isSpace b) = true := by
    intro b hb
    rw [isSpace_of_mem_octets h hb]
    rfl
  rw [Tag.ofContent, List.takeWhile_append_of_pos hn, List.dropWhile_append_of_pos hn]
  rcases attributeOctets_eq_or attributes with ha | ⟨bs, ha⟩
  · rw [tagOf, ha, List.takeWhile_nil, List.append_nil, List.dropWhile_nil]
  · have hs : (!isSpace (octet ' ')) = false := by decide
    rw [tagOf, ha, List.takeWhile_cons, List.dropWhile_cons, hs]
    simp

/-- The first octet of a plain name begins a tag. -/
theorem openedStep_of_mem {name : String} (h : isPlain name = true) {b : UInt8}
    (hb : b ∈ octets name) : openedStep b = .go (.tag [b] none) := by
  have hne {c : Char} (hc : isPlainChar c = false) (hlt : c.toNat < 0x80) : b ≠ octet c :=
    ne_octet_of_mem h hb hc hlt
  rw [openedStep, if_neg (hne (by decide) (by decide)), if_neg (hne (by decide) (by decide)),
    if_neg (hne (by decide) (by decide)), if_neg (hne (by decide) (by decide)),
    quoteAfter_none_of_mem h hb]

/-- The beginning of a tag is passed over. -/
theorem passes_tagStart {name : String} (h : isPlain name = true)
    {attributes : List (String × String)} (ha : ∀ a ∈ attributes, isPlain a.1 = true) :
    Scanner.text.Passes (encode (tagStart name attributes))
      (.tag (octets name ++ attributeOctets attributes).reverse none) := by
  have he : encode (tagStart name attributes) =
      octet '<' :: (octets name ++ attributeOctets attributes) := by
    rw [tagStart, encode_append, encode_append, encode_of_isPlain h, attributeOctets]
    rfl
  -- the first octet of the name decides what kind of markup it is, the others are content
  obtain ⟨b, bs, hb⟩ := List.exists_cons_of_ne_nil (l := octets name)
    fun hn => toList_ne_nil_of_isPlain h (List.map_eq_nil_iff.mp hn)
  have hbs : (Scanner.tag [b] none).Passes bs (.tag (bs.reverse ++ [b]) none) :=
    Scanner.passes_name h fun c hc => hb ▸ List.mem_cons_of_mem b hc
  have hopen : Scanner.opened.step b = .go (.tag [b] none) :=
    openedStep_of_mem h (hb ▸ List.mem_cons_self)
  have hr : (octets name ++ attributeOctets attributes).reverse =
      (attributeOctets attributes).reverse ++ (bs.reverse ++ [b]) := by
    rw [List.reverse_append, hb, List.reverse_cons]
  rw [he, hr, hb]
  exact .cons rfl (.cons hopen (hbs.append (Scanner.passes_attributes ha)))

/-- Plain names and keys in a tag. Nothing is asked of the values, which are escaped. -/
structure PlainTag (name : String) (attributes : List (String × String)) : Prop where
  /-- the name is plain -/
  name : isPlain name = true
  /-- the keys are plain -/
  keys : ∀ a ∈ attributes, isPlain a.1 = true
  /-- no two keys are equal -/
  nodup : (attributes.map (·.1)).Nodup

section

variable {name : String} {attributes : List (String × String)}

theorem getLast?_attributeOctets (h : attributes ≠ []) :
    (attributeOctets attributes).getLast? = some (octet '"') := by
  obtain ⟨first, a, rfl⟩ := (List.eq_nil_or_concat attributes).resolve_left h
  have ha : encode (attributeText a.1 a.2) =
      encode ([' '] ++ a.1.toList ++ ['=', '"'] ++ escape a.2.toList) ++ [octet '"'] :=
    encode_append _ _
  rw [attributeOctets, List.concat_eq_append, List.flatMap_append, encode_append,
    List.flatMap_singleton, ha, ← List.append_assoc]
  exact List.getLast?_concat

theorem tagMark_reverse {content : Octets} (h : ∀ b, content.getLast? = some b → b ≠ octet '/') :
    tagMark content.reverse = .opening (.ofContent content) := by
  cases hr : content.reverse with
  | nil =>
    rw [List.reverse_eq_nil_iff.mp hr]
    rfl
  | cons b rest =>
    have hb := h b (by rw [← List.head?_reverse, hr]; rfl)
    rw [tagMark, if_neg hb, ← hr, List.reverse_reverse]

/-- A start tag does not end in a slash, be it in a value or in its name. -/
theorem tagMark_opening (h : PlainTag name attributes) :
    tagMark (octets name ++ attributeOctets attributes).reverse =
      .opening (tagOf name attributes) := by
  rw [tagMark_reverse, ofContent_tagOf h.name]
  intro b hb
  -- the last octet of the tag is in its name if it has no attributes, and else a quote
  by_cases ha : attributes = []
  · subst ha
    rw [attributeOctets, List.flatMap_nil, encode, List.flatMap_nil, List.append_nil] at hb
    rintro rfl
    exact octet_not_mem_of_isPlain h.name (by decide) (by decide) (List.mem_of_getLast? hb)
  · rw [List.getLast?_append, getLast?_attributeOctets ha] at hb
    rw [← Option.some.inj hb]
    decide

theorem tagMark_empty (h : PlainTag name attributes) :
    tagMark (octet '/' :: (octets name ++ attributeOctets attributes).reverse) =
      .empty (tagOf name attributes) := by
  rw [tagMark, if_pos rfl, List.reverse_reverse, ofContent_tagOf h.name]

theorem step_tag_close (content : Octets) :
    (Scanner.tag content none).step (octet '>') = .found (tagMark content) := by
  rw [Scanner.step, if_pos ⟨rfl, rfl⟩]

/-- A written start tag is found. -/
theorem finds_opening (h : PlainTag name attributes) :
    Finds (encode (tagStart name attributes ++ ['>'])) [.opening (tagOf name attributes)] := by
  rw [encode_append]
  refine finds_of_passes (passes_tagStart h.name h.keys) ?_
  exact (step_tag_close _).trans (congrArg Step.found (tagMark_opening h))

/-- The written tag of an empty element is found. -/
theorem finds_empty (h : PlainTag name attributes) :
    Finds (encode (tagStart name attributes ++ ['/', '>'])) [.empty (tagOf name attributes)] := by
  have hp := (passes_tagStart h.name h.keys).append (.cons (b := octet '/') rfl .nil)
  have he : encode (tagStart name attributes ++ ['/', '>']) =
      (encode (tagStart name attributes) ++ [octet '/']) ++ [octet '>'] := by
    rw [encode_append, List.append_assoc]
    rfl
  rw [he]
  refine finds_of_passes hp ?_
  exact (step_tag_close _).trans (congrArg Step.found (tagMark_empty h))

/-- A written end tag is found. -/
theorem finds_closing (h : isPlain name = true) :
    Finds (encode (['<', '/'] ++ name.toList ++ ['>'])) [.closing (octets name)] := by
  have hp : Scanner.text.Passes (octet '<' :: octet '/' :: octets name)
      (.endTag (octets name).reverse none) := by
    have hn : (Scanner.endTag [] none).Passes (octets name)
        (.endTag ((octets name).reverse ++ []) none) := Scanner.passes_closingName h
    rw [List.append_nil] at hn
    exact .cons rfl (.cons rfl hn)
  have he : encode (['<', '/'] ++ name.toList ++ ['>']) =
      (octet '<' :: octet '/' :: octets name) ++ [octet '>'] := by
    rw [encode_append, encode_append, encode_of_isPlain h]
    rfl
  have hne : octets name ≠ [] := fun hn => toList_ne_nil_of_isPlain h (List.map_eq_nil_iff.mp hn)
  have hl : ∀ b, (octets name).getLast? = some b → isSpace b = false :=
    fun b hb => isSpace_of_mem_octets h (List.mem_of_getLast? hb)
  have hc : closingName (octets name) = octets name := by
    have ha : closingName (octets name ++ []) = octets name := closingName_append hne hl nofun
    rwa [List.append_nil] at ha
  rw [he]
  refine finds_of_passes hp ?_
  rw [Scanner.step, if_pos ⟨rfl, rfl⟩, List.reverse_reverse, hc]

end

/-! ## Documents -/

mutual

/-- An element whose tags are plain. All elements of an exported document are. -/
def Element.Plain : Element → Prop
  | .mk name attributes children => PlainTag name attributes ∧ AllPlain children

/-- Elements whose tags are plain. -/
def AllPlain : List Element → Prop
  | [] => True
  | e :: es => e.Plain ∧ AllPlain es

end

mutual

/-- The structure of a written element. -/
def Element.node : Element → Node
  | .mk name attributes children =>
    match children with
    | [] => .empty (tagOf name attributes)
    | child :: rest => .full (tagOf name attributes) (child.node :: nodesOf rest)

/-- The structure of written elements. -/
def nodesOf : List Element → List Node
  | [] => []
  | e :: es => e.node :: nodesOf es

end

theorem Element.tag_node (name : String) (attributes : List (String × String))
    (children : List Element) : (Element.mk name attributes children).node.tag =
      tagOf name attributes := by
  cases children <;> rfl

theorem Element.children_node (name : String) (attributes : List (String × String))
    (children : List Element) : (Element.mk name attributes children).node.children =
      nodesOf children := by
  cases children <;> rfl

theorem nodesOf_append (first rest : List Element) :
    nodesOf (first ++ rest) = nodesOf first ++ nodesOf rest := by
  induction first with
  | nil => rfl
  | cons e es ih => rw [List.cons_append, nodesOf, nodesOf, ih, List.cons_append]

theorem AllPlain.append {first rest : List Element} (h : AllPlain first) (hr : AllPlain rest) :
    AllPlain (first ++ rest) := by
  induction first with
  | nil => exact hr
  | cons e es ih => exact ⟨h.1, ih h.2⟩

theorem allPlain_map {α : Type} {f : α → Element} (h : ∀ a, (f a).Plain) (as : List α) :
    AllPlain (as.map f) := by
  induction as with
  | nil => trivial
  | cons a as ih => exact ⟨h a, ih⟩

/-- The text of lines, each with a line feed. -/
def linesText (lines : List (List Char)) : List Char := lines.flatMap (· ++ ['\n'])

theorem linesText_append (first rest : List (List Char)) :
    linesText (first ++ rest) = linesText first ++ linesText rest :=
  List.flatMap_append

/-- Spaces and line feeds are passed over in text. -/
theorem finds_blank {s : List Char} (h : ∀ c ∈ s, c = ' ' ∨ c = '\n') : Finds (encode s) [] := by
  have hn : octet '<' ∉ encode s := by
    rw [octet_mem_encode_iff (by decide)]
    intro hc
    rcases h _ hc with hc | hc <;> cases hc
  exact Scanner.passes_text hn

/-- What is found in the indented line of a tag. -/
theorem finds_line {tag : List Char} {marks : List Mark} (h : Finds (encode tag) marks)
    (depth : Nat) : Finds (encode (linesText [indentation depth ++ tag])) marks := by
  have hi : Finds (encode (indentation depth)) [] :=
    finds_blank fun c hc => .inl (List.eq_of_mem_replicate hc)
  have hl : Finds (encode ['\n']) [] := finds_blank fun c hc => .inr (List.mem_singleton.mp hc)
  have he : encode (linesText [indentation depth ++ tag]) =
      encode (indentation depth) ++ (encode tag ++ encode ['\n']) := by
    rw [← encode_append, ← encode_append, linesText, List.flatMap_singleton, List.append_assoc]
  rw [he]
  have := hi.append (h.append hl)
  rwa [List.append_nil] at this

mutual

/-- In the lines of an element its marks are found. The induction is on the element, together with
that for the elements in it. -/
theorem finds_lines : ∀ (e : Element) (depth : Nat), e.Plain →
    Finds (encode (linesText (e.lines depth))) e.node.marks
  | .mk name attributes [], depth, ⟨h, _⟩ => by
    rw [Element.lines, List.append_assoc]
    exact finds_line (finds_empty h) depth
  | .mk name attributes (child :: rest), depth, ⟨h, hc, hr⟩ => by
    have hopen := finds_line (finds_opening h) depth
    have hclose := finds_line (finds_closing h.name) depth
    have hin := (finds_lines child (depth + 1) hc).append (finds_linesOf rest (depth + 1) hr)
    have hall := (hopen.append hin).append hclose
    simp only [← encode_append, ← linesText_append] at hall
    have hm : (Element.mk name attributes (child :: rest)).node.marks =
        [.opening (tagOf name attributes)] ++ (child.node.marks ++ marksOf (nodesOf rest))
          ++ [.closing (octets name)] := by
      simp [Element.node, Node.marks, marksOf, tagOf]
    rw [hm]
    simp only [Element.lines, List.append_assoc] at hall ⊢
    exact hall

/-- In the lines of elements their marks are found. -/
theorem finds_linesOf : ∀ (es : List Element) (depth : Nat), AllPlain es →
    Finds (encode (linesText (linesOf depth es))) (marksOf (nodesOf es))
  | [], _, _ => .nil
  | e :: es, depth, ⟨he, hes⟩ => by
    rw [linesOf, linesText_append, encode_append, nodesOf, marksOf]
    exact (finds_lines e depth he).append (finds_linesOf es depth hes)

end

/-- What stands in the declaration of a document. -/
def declarationAttributes : Octets :=
  octets " version=\"1.0\" encoding=\"utf-8\" standalone=\"yes\""

/-- In a written document the declaration and the marks of its element are found, and nothing else:
line ends and indentation are text. -/
theorem scan_document {root : Element} (h : root.Plain) :
    scan .complete (encode (document root).toList) =
      ⟨.declaration declarationAttributes :: root.node.marks, .endOfInput⟩ := by
  have hd : Finds (encode (linesText [declarationLine])) [.declaration declarationAttributes] := by
    rw [Finds]
    decide +kernel
  have hall := hd.append (finds_lines root 0 h)
  have he : encode (document root).toList =
      encode (linesText [declarationLine]) ++ encode (linesText (root.lines 0)) := by
    rw [document, String.toList_ofList, ← encode_append, ← linesText_append]
    rfl
  rw [scan, he, hall]
  rfl

end BuildingBus.Markup
