import BuildingBus.Proofs.Markup.Writing
import Mathlib.Data.List.TakeWhile

/-!
# Written attributes are read back

From the tag of an element the attributes of the element are read, each with the text that was
written: `attribute_tagOf`. The octets are taken apart attribute by attribute
(`attributesFrom_attributeText`); a value ends at the quote that the writer has put there, because
an escaped text has none in it.
-/

namespace BuildingBus.Markup

open Text Text.Utf8

/-! ## One attribute -/

/-- An attribute as it is written. -/
def attributeOf (key value : String) : Attribute := ⟨octets key, encode (escape value.toList)⟩

theorem attributesFrom_key {unique : Bool} {taken : List Octets} {bs : Octets}
    (he : octet '=' ∉ bs) (hs : ∀ b ∈ bs, isSpace b = false) (name rest : Octets) :
    attributesFrom unique taken (.key name) (bs ++ rest) =
      attributesFrom unique taken (.key (bs.reverse ++ name)) rest := by
  induction bs generalizing name with
  | nil => rfl
  | cons b bs ih =>
    rw [List.mem_cons, not_or] at he
    have hb : ¬isSpace b = true := Bool.eq_false_iff.mp (hs b (.head _))
    rw [List.cons_append, attributesFrom, if_neg (Ne.symm he.1), if_neg hb,
      ih he.2 fun c hc => hs c (.tail _ hc), List.reverse_cons, List.append_assoc]
    rfl

theorem attributesFrom_value {unique : Bool} {taken : List Octets} {quote : UInt8} {bs : Octets}
    (h : quote ∉ bs) (name content rest : Octets) :
    attributesFrom unique taken (.value name quote content) (bs ++ rest) =
      attributesFrom unique taken (.value name quote (bs.reverse ++ content)) rest := by
  induction bs generalizing content with
  | nil => rfl
  | cons b bs ih =>
    rw [List.mem_cons, not_or] at h
    rw [List.cons_append, attributesFrom, if_neg (Ne.symm h.1), ih h.2, List.reverse_cons,
      List.append_assoc]
    rfl

/-- A written attribute is read first, whatever follows it: its quotes end it, as no quote is left
in the value. -/
theorem attributesFrom_attributeText {key : String} (hk : isPlain key = true) {taken : List Octets}
    (ht : octets key ∉ taken) (value : String) (rest : Octets) :
    attributesFrom true taken .between (encode (attributeText key value) ++ rest) =
      (attributesFrom true (octets key :: taken) .between rest).cons (attributeOf key value) := by
  obtain ⟨b, bs, hb⟩ := List.exists_cons_of_ne_nil (l := octets key)
    fun hn => toList_ne_nil_of_isPlain hk (List.map_eq_nil_iff.mp hn)
  have hs : ∀ c ∈ b :: bs, isSpace c = false := fun c hc => isSpace_of_mem_octets hk (hb ▸ hc)
  have he : octet '=' ∉ bs := fun hm =>
    octet_not_mem_of_isPlain hk (by decide) (by decide) (hb ▸ List.mem_cons_of_mem b hm)
  have hname : (bs.reverse ++ [b]).reverse = octets key := by
    rw [hb, List.reverse_append, List.reverse_reverse]
    rfl
  -- one step for each piece of the text: space, first octet of the key, rest of the key, equals
  -- sign, quote, value, quote
  rw [encode_attributeText hk, hb, List.cons_append, attributesFrom, if_pos (by decide)]
  rw [List.cons_append, List.cons_append, attributesFrom,
    if_neg (Bool.eq_false_iff.mp (hs b (.head _)))]
  rw [List.append_assoc, attributesFrom_key he fun c hc => hs c (.tail _ hc)]
  rw [List.cons_append, attributesFrom, if_pos rfl, hname, if_neg ht]
  rw [List.cons_append, attributesFrom, if_neg (by decide), if_pos (.inl rfl)]
  rw [List.append_assoc, attributesFrom_value (quote_not_mem_encode_escape value)]
  rw [List.singleton_append, attributesFrom, if_pos rfl, if_pos rfl, List.append_nil,
    List.reverse_reverse, ← hb]
  rfl

/-- All written attributes are read. -/
theorem attributesFrom_attributeOctets {attributes : List (String × String)}
    (hk : ∀ a ∈ attributes, isPlain a.1 = true) {taken : List Octets}
    (hd : (attributes.map fun a => octets a.1).Nodup) (ht : ∀ a ∈ attributes, octets a.1 ∉ taken) :
    attributesFrom true taken .between (attributeOctets attributes) =
      ⟨attributes.map fun a => attributeOf a.1 a.2, true⟩ := by
  induction attributes generalizing taken with
  | nil => rfl
  | cons a attributes ih =>
    rw [List.map_cons, List.nodup_cons] at hd
    have hrest : ∀ o ∈ attributes, octets o.1 ∉ octets a.1 :: taken := by
      intro o ho hm
      rcases List.mem_cons.mp hm with hm | hm
      · exact hd.1 (hm ▸ List.mem_map.mpr ⟨o, ho, rfl⟩)
      · exact ht o (.tail _ ho) hm
    rw [attributeOctets_cons, attributesFrom_attributeText (hk a (.head _)) (ht a (.head _)),
      ih (fun o ho => hk o (.tail _ ho)) hd.2 hrest]
    rfl

/-! ## Finding -/

/-- Plain names that have the same octets are equal. -/
theorem octets_inj {s t : String} (hs : isPlain s = true) (ht : isPlain t = true) :
    octets s = octets t ↔ s = t := by
  refine ⟨fun h => ?_, congrArg octets⟩
  rw [← encode_of_isPlain hs, ← encode_of_isPlain ht] at h
  have hd := congrArg decode h
  rw [decode_encode, decode_encode] at hd
  exact String.toList_inj.mp (Option.some.inj hd)

/-- A plain name has no prefix. -/
theorem localName_octets {name : String} (h : isPlain name = true) :
    localName (octets name) = octets name := by
  have hd : (octets name).dropWhile (· != octet ':') = [] := by
    rw [List.dropWhile_eq_nil_iff]
    intro b hb
    refine bne_iff_ne.mpr ?_
    rintro rfl
    exact octet_not_mem_of_isPlain h (by decide) (by decide) hb
  rw [localName, hd]

/-- A written value stands for its text. -/
theorem text?_attributeOf (key value : String) : (attributeOf key value).text? = some value := by
  simp [Attribute.text?, attributeOf]

theorem find?_attributeOf {key : String} (hk : isPlain key = true)
    {attributes : List (String × String)} (h : ∀ a ∈ attributes, isPlain a.1 = true) :
    (attributes.map fun a => attributeOf a.1 a.2).find? (fun a => localName a.key == octets key) =
      (attributes.lookup key).map (attributeOf key) := by
  induction attributes with
  | nil => rfl
  | cons a attributes ih =>
    obtain ⟨name, value⟩ := a
    have hn : isPlain name = true := h _ (.head _)
    rw [List.map_cons, List.find?_cons, List.lookup_cons, attributeOf, localName_octets hn]
    by_cases he : key = name
    · subst he
      rw [beq_self_eq_true, beq_self_eq_true]
      rfl
    · have ho : octets name ≠ octets key := fun ho => he ((octets_inj hn hk).mp ho).symm
      rw [beq_false_of_ne he, beq_false_of_ne ho]
      exact ih fun o ho => h o (.tail _ ho)

/-- In the tag of an element the attributes of the element are found, each under its key and with
its text. -/
theorem attribute_tagOf {name key : String} {attributes : List (String × String)}
    (h : PlainTag name attributes) (hk : isPlain key = true) :
    (tagOf name attributes).attribute key = .ok (attributes.lookup key) := by
  -- the reader compares octets, and those of different plain keys differ
  have hd : (attributes.map fun a => octets a.1).Nodup := by
    refine List.pairwise_map.mpr ((List.pairwise_map.mp h.nodup).imp_of_mem ?_)
    intro a b ha hb hne ho
    exact hne ((octets_inj (h.keys a ha) (h.keys b hb)).mp ho)
  have hl : (tagOf name attributes).attributeList =
      ⟨attributes.map fun a => attributeOf a.1 a.2, true⟩ :=
    attributesFrom_attributeOctets h.keys hd fun _ _ => List.not_mem_nil
  rw [Tag.attribute, hl, Attributes.find, find?_attributeOf hk h.keys]
  cases attributes.lookup key with
  | none => rfl
  | some value => simp [text?_attributeOf]

end BuildingBus.Markup
