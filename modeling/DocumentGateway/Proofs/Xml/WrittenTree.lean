import DocumentGateway.Proofs.Xml.WrittenTag

namespace DocumentGateway
namespace Xml

/-!
# Reading written elements

An element that was read, whose names are ones that the narrow form reads, is read from its markup as
the same element, except for the line ends in it.
-/

/-! ## The markup of a node -/

namespace Prefixes

variable (prefixes : Prefixes) (bindings : List (List Char × List Char))

/-- An element without text and children is written as one tag. -/
theorem markup_node_empty (tag : List Char) (attributes : OrderedPairs (List Char) (List Char))
    (tail : Value) (behind : List Char) :
    prefixes.markup bindings (.node tag attributes .null tail []) ++ behind =
      '<' :: (prefixes.spell tag ++
        (attributesMarkup (bindings ++ prefixes.spelledPairs attributes) ++
          (tagEnd true ++ behind))) := by
  rw [markup, if_neg (by decide), tagEnd, if_pos rfl]
  simp only [List.cons_append, List.append_assoc]

/-- The text and the children of another element stand between its tags. -/
theorem markup_node_filled (tag : List Char) (attributes : OrderedPairs (List Char) (List Char))
    {text : Value} (tail : Value) {children : List Element}
    (filled : (text.isFilled || !children.isEmpty) = true) (behind : List Char) :
    prefixes.markup bindings (.node tag attributes text tail children) ++ behind =
      '<' :: (prefixes.spell tag ++
        (attributesMarkup (bindings ++ prefixes.spelledPairs attributes) ++
          (tagEnd false ++ ((slotChars text).flatMap escapeChar ++ (prefixes.markupAll children ++
            '<' :: '/' :: (prefixes.spell tag ++ '>' :: behind)))))) := by
  rw [markup, if_pos filled, tagEnd, if_neg Bool.false_ne_true]
  simp only [List.cons_append, List.append_assoc, List.nil_append]

/-- Markup begins with an opening bracket. -/
theorem exists_cons_markupAll {children : List Element} (read : AreRead children)
    (following : List Char) :
    ∃ more, prefixes.markupAll children ++ '<' :: following = '<' :: more := by
  cases children with
  | nil => exact ⟨following, rfl⟩
  | cons child rest =>
      cases child with
      | node tag attributes text tail children =>
          rw [markupAll, markup]
          exact ⟨_, rfl⟩
      | comment content tail => exact False.elim read.1
      | instruction content tail => exact False.elim read.1

end Prefixes

/-! ## What is read from it -/

/-- Children as they are read, each with the text behind it. -/
def contentOf (children : List Element) : Content :=
  ⟨[], children.map fun child =>
    (child.withLineFeeds.withTail .null, lineFeeds (slotChars child.tail))⟩

theorem contentOf_cons (child : Element) (rest : List Element) :
    contentOf (child :: rest) =
      ((contentOf rest).behindText (lineFeeds (slotChars child.tail))).behindChild
        (child.withLineFeeds.withTail .null) := by
  rw [contentOf, contentOf, Content.behindText, Content.behindChild, List.append_nil, List.map_cons]

/-- A child gets its tail from the text that was read behind it. -/
theorem withTail_lineFeeds {child : Element} (read : child.IsRead) :
    (child.withLineFeeds.withTail .null).withTail (textValue (lineFeeds (slotChars child.tail))) =
      child.withLineFeeds := by
  cases child with
  | node tag attributes text tail children =>
      rw [Element.IsRead] at read
      rcases read with ⟨-, -, -, ⟨t, -, rfl⟩, -⟩
      rw [Element.tail, slotChars_textValue, ← withLineFeeds_textValue]
      rfl
  | comment content tail => exact False.elim read
  | instruction content tail => exact False.elim read

theorem isReadText_tail {e : Element} (read : e.IsRead) : IsReadText e.tail := by
  cases e with
  | node tag attributes text tail children =>
      rw [Element.IsRead] at read
      exact read.2.2.2.1
  | comment content tail => exact False.elim read
  | instruction content tail => exact False.elim read

theorem toElement_contentOf {children : List Element} (read : AreRead children)
    (tag : List Char) (attributes : OrderedPairs (List Char) (List Char)) (t : List Char)
    (tail : Value) :
    ((contentOf children).behindText (lineFeeds t)).toElement tag attributes =
      (Element.node tag attributes (textValue t) tail children).withLineFeeds.withTail .null := by
  rw [areRead_iff] at read
  have inner : (contentOf children).children.map (fun child => child.1.withTail (textValue child.2)) =
      Element.withLineFeedsAll children := by
    rw [contentOf, List.map_map, Element.withLineFeedsAll_eq_map]
    exact List.map_congr_left fun child member => withTail_lineFeeds (read child member)
  have lead : ((contentOf children).behindText (lineFeeds t)).lead = lineFeeds t :=
    List.append_nil _
  rw [Content.toElement, lead, ← withLineFeeds_textValue, Element.withLineFeeds, Element.withTail,
    ← inner]
  rfl

/-! ## Whole elements -/

/-- An element whose names are spelled with a table and read in the narrow form. -/
structure Element.IsSpelled (e : Element) (prefixes : Prefixes) : Prop where
  read : e.IsRead
  names : ∀ name ∈ e.allNames, prefixes.CanSpell name ∧ isProperName (Xml.localName name) = true

namespace Element.IsSpelled

variable {prefixes : Prefixes} {tag : List Char}
  {attributes : OrderedPairs (List Char) (List Char)} {text tail : Value} {children : List Element}

theorem spellsAttributes (h : (node tag attributes text tail children).IsSpelled prefixes) :
    prefixes.SpellsAttributes attributes := by
  have read := h.read
  have names := (forall_mem_allNames_node.mp h.names).2.1
  rw [IsRead] at read
  constructor
  · exact read.2.1
  · exact fun name member => (names name member).1
  · exact fun name member => (names name member).2

theorem child (h : (node tag attributes text tail children).IsSpelled prefixes) :
    ∀ child ∈ children, child.IsSpelled prefixes := by
  have read := h.read
  rw [IsRead, areRead_iff] at read
  intro child member
  constructor
  · exact read.2.2.2.2 child member
  · exact (forall_mem_allNames_node.mp h.names).2.2 child member

end Element.IsSpelled

section Trees

variable {prefixes : Prefixes} {scope : Scope}

mutual

/-- An element is read from its markup, by induction on the tree. -/
theorem exists_elementReadsAs_markup (table : prefixes.IsTable)
    {bindings : List (List Char × List Char)} {outer : Scope}
    (opens : prefixes.Opens bindings outer scope) (e : Element) (h : e.IsSpelled prefixes)
    (following : List Char) :
    ∃ startTag behind, ElementReadsAs outer (prefixes.markup bindings e ++ following) startTag behind
      (e.withLineFeeds.withTail .null) following := by
  cases e with
  | node tag attributes text tail children =>
      have spelled := h.spellsAttributes
      have inner := h.child
      rcases (forall_mem_allNames_node.mp h.names).1 with ⟨spells, proper⟩
      have read := h.read
      rw [Element.IsRead] at read
      rcases read with ⟨-, -, ⟨t, chars, rfl⟩, -, readChildren⟩
      by_cases filled : ((textValue t).isFilled || !children.isEmpty) = true
      · have properTag := Prefixes.isProperSpelling_spell table opens.bound spells proper
        have content := readsAs_markupAll table opens.bound properTag children inner following
        have left : following.length ≤ (t.flatMap escapeChar ++ (prefixes.markupAll children ++
            '<' :: '/' :: (prefixes.spell tag ++ '>' :: following))).length := by
          simp only [List.length_append, List.length_cons]
          omega
        rcases prefixes.exists_cons_markupAll readChildren
          ('/' :: (prefixes.spell tag ++ '>' :: following)) with
          ⟨more, cons⟩
        rw [cons] at content left
        have inside := ReadsInside.content
          (content.text (standsFor_flatMap_escapeChar chars more)) left
        rcases exists_elementReadsAs table opens spells proper spelled inside with
          ⟨startTag, result⟩
        rw [prefixes.markup_node_filled bindings tag attributes tail filled following,
          slotChars_textValue, cons, ← toElement_contentOf readChildren tag attributes t tail]
        exact ⟨startTag, _, result⟩
      · rw [Bool.or_eq_true, not_or, isFilled_textValue] at filled
        obtain rfl : t = [] := by simpa using filled.1
        obtain rfl : children = [] := by simpa using filled.2
        rcases exists_elementReadsAs table opens spells proper spelled
            (ReadsInside.empty : ReadsInside scope _ true following .empty following) with
          ⟨startTag, result⟩
        rw [textValue, prefixes.markup_node_empty bindings tag attributes tail following]
        exact ⟨startTag, _, result⟩
  | comment content tail => exact False.elim h.read
  | instruction content tail => exact False.elim h.read

/-- Children are read one after the other, each with the text behind it. -/
theorem readsAs_markupAll (table : prefixes.IsTable) (bound : prefixes.AreBoundBy scope)
    {name : List Char} (proper : IsProperSpelling name) (children : List Element)
    (h : ∀ child ∈ children, child.IsSpelled prefixes) (following : List Char) :
    ReadsAs scope name
      (prefixes.markupAll children ++ '<' :: '/' :: (name ++ '>' :: following))
      (contentOf children) following := by
  cases children with
  | nil => exact readsAs_endTag proper
  | cons child rest =>
      rw [List.forall_mem_cons] at h
      have readRest : AreRead rest := (areRead_iff rest).mpr fun child member => (h.2 child member).read
      have later := readsAs_markupAll table bound proper rest h.2 following
      rcases prefixes.exists_cons_markupAll readRest ('/' :: (name ++ '>' :: following)) with
        ⟨more, cons⟩
      rw [cons] at later
      have chars := areXmlChars_slotChars (isReadText_tail h.1.read)
      have behindChild := later.text (standsFor_flatMap_escapeChar chars more)
      rcases exists_elementReadsAs_markup table (Prefixes.opens_nil bound)
        child h.1 ((slotChars child.tail).flatMap escapeChar ++ '<' :: more) with
        ⟨startTag, behind, first⟩
      rw [Prefixes.markupAll, List.append_assoc, List.append_assoc, cons, contentOf_cons]
      exact first.child behindChild

end

end Trees

end Xml
end DocumentGateway
