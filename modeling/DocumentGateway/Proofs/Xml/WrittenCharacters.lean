import DocumentGateway.Proofs.Xml.LineEnds
import DocumentGateway.Proofs.Xml.WrittenMarkup

namespace DocumentGateway
namespace Xml

/-!
# The characters of markup

Some characters come into the markup of an element from its texts and tails only.  The carriage
return is one of them, so that a document holds a carriage return exactly if some text of its element
does.
-/

/-- A character that only the texts of an element can bring into its markup. -/
structure IsOfTexts (c : Char) : Prop where
  sign : c ∉ ['<', '>', '/', ' ', '=', '"']
  colon : c ≠ ':'
  name : (TextForm.wide false).isNameChar c = false
  value : ∀ d, isXmlChar d = true → c ∉ escapeAttribute d
  text : ∀ d, c ∈ escapeChar d ↔ c = d

/-- What is written for a character holds no others but those of references. -/
theorem mem_escapeChar_iff {c : Char} (notLess : c ≠ '<') (notMore : c ≠ '>')
    (h : c ∉ "&amp;".toList ++ ("&lt;".toList ++ "&gt;".toList)) (d : Char) :
    c ∈ escapeChar d ↔ c = d := by
  rw [List.mem_append, List.mem_append, not_or, not_or] at h
  rcases h with ⟨notInAnd, notInLess, notInMore⟩
  unfold escapeChar
  split
  · apply iff_of_false notInAnd
    rintro rfl
    exact notInAnd List.mem_cons_self
  · exact iff_of_false notInLess notLess
  · exact iff_of_false notInMore notMore
  · exact List.mem_singleton

theorem isOfTexts_return : IsOfTexts '\r' where
  sign := by decide
  colon := by decide
  name := by decide
  value := by
    intro d _
    unfold escapeAttribute
    split
    · decide
    · decide
    · decide
    · decide
    · decide
    · decide
    · decide
    · next notReturn _ _ => exact fun member => notReturn (List.mem_singleton.mp member).symm
  text := mem_escapeChar_iff (by decide) (by decide) (by decide)

/-- What is written for a character of XML holds characters of XML only. -/
theorem isOfTexts_cutChar : IsOfTexts cutChar where
  sign := by decide
  colon := by decide
  name := by decide
  value := by
    intro d fits member
    have foreign : isXmlChar cutChar = false := by decide
    rcases escapeAttribute_cases fits with ⟨same, -, -⟩ | ⟨body, same, reference⟩
    · rw [same, List.mem_singleton] at member
      rw [member, fits] at foreign
      cases foreign
    · rw [same] at member
      rcases List.mem_cons.mp member with first | later
      · exact absurd first (by decide)
      · exact absurd (reference.lone cutChar later) (by decide)
  text := mem_escapeChar_iff (by decide) (by decide) (by decide)

namespace IsOfTexts

variable {c : Char}

theorem ne_sign (h : IsOfTexts c) :
    c ≠ '<' ∧ c ≠ '>' ∧ c ≠ '/' ∧ c ≠ ' ' ∧ c ≠ '=' ∧ c ≠ '"' := by
  simpa only [List.mem_cons, List.not_mem_nil, or_false, not_or] using h.sign

theorem mem_flatMap_escapeChar_iff (h : IsOfTexts c) (t : List Char) :
    c ∈ t.flatMap escapeChar ↔ c ∈ t := by
  rw [List.mem_flatMap]
  constructor
  · rintro ⟨d, among, member⟩
    exact (h.text d).mp member ▸ among
  · exact fun among => ⟨c, among, (h.text c).mpr rfl⟩

/-- A spelled name holds characters of names and a colon. -/
theorem not_mem_spell (h : IsOfTexts c) {prefixes : Prefixes} (table : prefixes.IsTable)
    {name : List Char} (spells : prefixes.CanSpell name) : c ∉ prefixes.spell name := by
  cases spells with
  | plain part =>
      rw [Prefixes.spell_of_isNamePart part]
      exact part.not_mem h.name
  | @inNamespace uri base covered hUri part =>
      have proper := (table.uri?_prefixFor (Prefixes.areBoundBy_bindings table) covered).2.1
      rw [Prefixes.spell_expandedName part, List.mem_append, List.mem_cons, not_or, not_or]
      refine ⟨?_, h.colon, part.not_mem h.name⟩
      exact (isNamePart_of_isProperName proper).not_mem h.name

/-- Attributes bring in no such character. -/
theorem not_mem_attributesMarkup (h : IsOfTexts c) {pairs : List (List Char × List Char)}
    (spelled : ∀ pair ∈ pairs, c ∉ pair.1 ∧ AreXmlChars pair.2) : c ∉ attributesMarkup pairs := by
  intro member
  rcases List.mem_flatMap.mp member with ⟨pair, among, inside⟩
  rcases spelled pair among with ⟨notInName, chars⟩
  have notInValue : c ∉ pair.2.flatMap escapeAttribute := by
    intro written
    rcases List.mem_flatMap.mp written with ⟨d, inValue, forD⟩
    exact h.value d (chars d inValue) forD
  rcases h.ne_sign with ⟨-, -, -, notBlank, notEquals, notQuote⟩
  simp [writeAttribute, notBlank, notEquals, notQuote, notInName, notInValue] at inside

theorem not_mem_bindingPairs (h : IsOfTexts c) {prefixes : Prefixes} (table : prefixes.IsTable) :
    ∀ pair ∈ prefixes.bindingPairs, c ∉ pair.1 ∧ AreXmlChars pair.2 := by
  intro pair member
  rcases Prefixes.mem_bindingPairs member with ⟨known, among, rfl⟩
  refine ⟨?_, (table.namespaces known among).1.chars⟩
  have keyword : isProperName "xmlns".toList = true := by decide
  have split : "xmlns:".toList ++ known.2 = "xmlns".toList ++ ':' :: known.2 := rfl
  rw [split, List.mem_append, List.mem_cons, not_or, not_or]
  refine ⟨(isNamePart_of_isProperName keyword).not_mem h.name, h.colon, ?_⟩
  exact (isNamePart_of_isProperName (table.properties_of_mem among).1).not_mem h.name

variable {prefixes : Prefixes}

mutual

/-- The character is in the markup exactly if it is in some text, by induction on the tree. -/
theorem mem_markup_iff (h : IsOfTexts c) (table : prefixes.IsTable)
    {bindings : List (List Char × List Char)}
    (spelled : ∀ pair ∈ bindings, c ∉ pair.1 ∧ AreXmlChars pair.2) (e : Element) (read : e.IsRead)
    (spells : ∀ name ∈ e.allNames, prefixes.CanSpell name) :
    c ∈ prefixes.markup bindings e ++ (slotChars e.tail).flatMap escapeChar ↔
      ∃ v ∈ e.allSlots, c ∈ slotChars v := by
  cases e with
  | node tag attributes text tail children =>
      rw [Element.IsRead] at read
      rw [forall_mem_allNames_node] at spells
      rcases read with ⟨-, hAttributes, ⟨t, -, rfl⟩, -, readChildren⟩
      have inChildren := mem_markupAll_iff h table children readChildren spells.2.2
      have notInName := h.not_mem_spell table spells.1
      have notInAttributes : c ∉ attributesMarkup (bindings ++ prefixes.spelledPairs attributes) := by
        refine h.not_mem_attributesMarkup (List.forall_mem_append.mpr ⟨spelled, fun pair member => ?_⟩)
        rcases List.mem_map.mp member with ⟨own, among, rfl⟩
        refine ⟨h.not_mem_spell table (spells.2.1 own.1 ?_), hAttributes.values own among⟩
        exact List.mem_map_of_mem among
      rcases h.ne_sign with ⟨notLess, notMore, notSlash, notBlank, -, -⟩
      have inside : c ∈ prefixes.markup bindings (.node tag attributes (textValue t) tail children) ↔
          c ∈ t ∨ c ∈ prefixes.markupAll children := by
        rw [Prefixes.markup]
        split
        · simp [notLess, notMore, notSlash, notInName, notInAttributes,
            h.mem_flatMap_escapeChar_iff t]
        · next filled =>
            rw [Bool.or_eq_true, not_or, isFilled_textValue] at filled
            obtain rfl : t = [] := by simpa using filled.1
            obtain rfl : children = [] := by simpa using filled.2
            simp [notLess, notMore, notSlash, notBlank, notInName, notInAttributes,
              Prefixes.markupAll]
      have gathered : (∃ v ∈ children.flatMap Element.allSlots, c ∈ slotChars v) ↔
          ∃ child ∈ children, ∃ v ∈ child.allSlots, c ∈ slotChars v := by
        constructor
        · rintro ⟨v, member, inSlot⟩
          rcases List.mem_flatMap.mp member with ⟨child, among, here⟩
          exact ⟨child, among, v, here, inSlot⟩
        · rintro ⟨child, among, v, here, inSlot⟩
          exact ⟨v, List.mem_flatMap.mpr ⟨child, among, here⟩, inSlot⟩
      rw [List.mem_append, inside, h.mem_flatMap_escapeChar_iff, inChildren, Element.allSlots_node,
        List.exists_mem_cons_iff, List.exists_mem_cons_iff, gathered, slotChars_textValue,
        Element.tail, or_assoc]
      exact or_congr_right or_comm
  | comment content tail => exact False.elim read
  | instruction content tail => exact False.elim read

theorem mem_markupAll_iff (h : IsOfTexts c) (table : prefixes.IsTable) (children : List Element)
    (read : AreRead children)
    (spells : ∀ child ∈ children, ∀ name ∈ child.allNames, prefixes.CanSpell name) :
    c ∈ prefixes.markupAll children ↔ ∃ child ∈ children, ∃ v ∈ child.allSlots, c ∈ slotChars v := by
  cases children with
  | nil => simp [Prefixes.markupAll]
  | cons child rest =>
      rw [AreRead] at read
      rw [List.forall_mem_cons] at spells
      have first := mem_markup_iff h table (fun pair member => absurd member List.not_mem_nil) child
        read.1 spells.1
      have later := mem_markupAll_iff h table rest read.2 spells.2
      rw [Prefixes.markupAll, ← List.append_assoc, List.mem_append, first, later,
        List.exists_mem_cons_iff]

end

end IsOfTexts

end Xml
end DocumentGateway
