import DocumentGateway.Proofs.Xml.PrefixTable
import DocumentGateway.Proofs.Xml.ReadElement
import DocumentGateway.Proofs.Xml.ScalarText

namespace DocumentGateway
namespace Xml

/-!
# What writing gives

An element that was read is written wherever there is room for its depth, and into characters only.
They are put together from the spelled names, the escaped values and the escaped texts, in the order of
the tree.
-/

/-! ## Texts -/

/-- The characters that stand for a character between tags. -/
def escapeChar : Char → List Char
  | '&' => "&amp;".toList
  | '<' => "&lt;".toList
  | '>' => "&gt;".toList
  | c => [c]

theorem escapeText_scalar (c : Char) : escapeText (.scalar c) = Text.ofChars (escapeChar c) := by
  unfold escapeText escapeChar
  split
  · next same =>
      cases same
      rfl
  · next same =>
      cases same
      rfl
  · next same =>
      cases same
      rfl
  · next notAnd notLess notMore =>
      split
      · exact absurd rfl notAnd
      · exact absurd rfl notLess
      · exact absurd rfl notMore
      · rfl

theorem flatMap_escapeText (t : List Char) :
    (Text.ofChars t).flatMap escapeText = Text.ofChars (t.flatMap escapeChar) := by
  induction t with
  | nil => rfl
  | cons c rest ih =>
      rw [Text.ofChars_cons, List.flatMap_cons, escapeText_scalar, ih, List.flatMap_cons,
        Text.ofChars_append]

/-- The characters of a value between tags. -/
def slotChars (v : Value) : List Char :=
  v.textOrEmpty.filterMap CodePoint.char?

@[simp]
theorem slotChars_textValue (t : List Char) : slotChars (textValue t) = t := by
  cases t with
  | nil => rfl
  | cons c rest => exact Text.filterMap_char?_ofChars (c :: rest)

@[simp]
theorem textValue_slotChars {v : Value} (h : IsReadText v) : textValue (slotChars v) = v := by
  rcases h with ⟨t, -, rfl⟩
  rw [slotChars_textValue]

theorem areXmlChars_slotChars {v : Value} (h : IsReadText v) : AreXmlChars (slotChars v) := by
  rcases h with ⟨t, chars, rfl⟩
  rwa [slotChars_textValue]

theorem isFilled_textValue (t : List Char) : (textValue t).isFilled = !t.isEmpty := by
  cases t with
  | nil => rfl
  | cons c rest => rfl

theorem writeSlot_textValue (t : List Char) :
    writeSlot (textValue t) = .ok (Text.ofChars (t.flatMap escapeChar)) := by
  cases t with
  | nil => rfl
  | cons c rest => exact congrArg Except.ok (flatMap_escapeText (c :: rest))

/-! ## Elements -/

/-- The text behind an element. -/
def Element.tail : Element → Value
  | .node _ _ _ tail _ => tail
  | .comment _ tail => tail
  | .instruction _ tail => tail

theorem Element.IsReadAlone.slotChars_tail {e : Element} (h : e.IsReadAlone) :
    slotChars e.tail = [] := by
  rw [← h.alone]
  cases e with
  | node tag attributes text tail children => rfl
  | comment content tail => rfl
  | instruction content tail => rfl

mutual

/-- How many nodes stand one in another at the deepest place of an element. -/
def Element.depth : Element → Nat
  | .node _ _ _ _ children => depthOfAll children + 1
  | _ => 1

def depthOfAll : List Element → Nat
  | [] => 0
  | child :: rest => max child.depth (depthOfAll rest)

end

/-- The attributes of a start tag, spelled and with their values escaped. -/
def attributesMarkup (pairs : List (List Char × List Char)) : List Char :=
  pairs.flatMap fun pair => writeAttribute pair.1 pair.2

namespace Prefixes

/-- The attributes of an element under the names that they are spelled with. -/
def spelledPairs (prefixes : Prefixes) (attributes : OrderedPairs (List Char) (List Char)) :
    List (List Char × List Char) :=
  attributes.map fun pair => (prefixes.spell pair.1, pair.2)

mutual

/-- The characters of an element without the text behind it.  Its start tag has some attributes
more. -/
def markup (prefixes : Prefixes) (bindings : List (List Char × List Char)) : Element → List Char
  | .node tag attributes text _ children =>
    '<' :: prefixes.spell tag ++
      (attributesMarkup (bindings ++ prefixes.spelledPairs attributes) ++
        if text.isFilled || !children.isEmpty then
          '>' :: (slotChars text).flatMap escapeChar ++
            (prefixes.markupAll children ++ ('<' :: '/' :: prefixes.spell tag ++ ['>']))
        else [' ', '/', '>'])
  | _ => []

/-- The characters of the children of an element, each followed by the text behind it. -/
def markupAll (prefixes : Prefixes) : List Element → List Char
  | [] => []
  | child :: rest =>
    prefixes.markup [] child ++ ((slotChars child.tail).flatMap escapeChar ++ prefixes.markupAll rest)

end

/-- The bindings and the attributes of an element make one row of attributes. -/
theorem attributesMarkup_append (prefixes : Prefixes) (bindings : List (List Char × List Char))
    (attributes : OrderedPairs (List Char) (List Char)) :
    attributesMarkup (bindings ++ prefixes.spelledPairs attributes) =
      attributesMarkup bindings ++
        attributes.flatMap fun pair => writeAttribute (prefixes.spell pair.1) pair.2 := by
  rw [attributesMarkup, List.flatMap_append, spelledPairs, List.flatMap_map]
  rfl

mutual

/-- An element that was read is written if there is room for its depth, and only then. -/
theorem writeNode_of_isRead (prefixes : Prefixes) (bindings : List (List Char × List Char))
    (room : Nat) (e : Element) (read : e.IsRead) :
    writeNode prefixes (attributesMarkup bindings) room e =
      if e.depth ≤ room then .ok (Text.ofChars
        (prefixes.markup bindings e ++ (slotChars e.tail).flatMap escapeChar))
      else .error .tooDeep := by
  cases e with
  | node tag attributes text tail children =>
      cases room with
      | zero => rfl
      | succ room =>
          rw [Element.IsRead] at read
          rcases read with ⟨-, -, ⟨t, -, rfl⟩, ⟨tailChars, -, rfl⟩, readChildren⟩
          have inner := writeNodes_of_areRead prefixes room children readChildren
          simp only [writeNode, markup, Element.tail, Element.depth, attributesMarkup_append,
            slotChars_textValue, Nat.add_le_add_iff_right]
          split
          · rw [writeSlot_textValue, writeSlot_textValue, inner]
            split
            · apply congrArg Except.ok
              simp only [← Text.ofChars_append]
              apply congrArg Text.ofChars
              simp only [List.append_assoc, List.cons_append, List.nil_append]
            · rfl
          · next empty =>
              simp only [Bool.or_eq_true, Bool.not_eq_true', List.isEmpty_eq_false_iff, not_or,
                not_not] at empty
              rw [empty.2, depthOfAll, if_pos (Nat.zero_le room), writeSlot_textValue]
              apply congrArg Except.ok
              simp only [← Text.ofChars_append]
              apply congrArg Text.ofChars
              simp only [List.append_assoc, List.cons_append, List.nil_append]
  | comment content tail => exact False.elim read
  | instruction content tail => exact False.elim read

theorem writeNodes_of_areRead (prefixes : Prefixes) (room : Nat) (children : List Element)
    (read : AreRead children) :
    writeNodes prefixes room children =
      if depthOfAll children ≤ room then .ok (Text.ofChars (prefixes.markupAll children))
      else .error .tooDeep := by
  cases children with
  | nil => rfl
  | cons child rest =>
      rw [AreRead] at read
      have first := writeNode_of_isRead prefixes [] room child read.1
      have later := writeNodes_of_areRead prefixes room rest read.2
      change writeNode prefixes [] room child = _ at first
      rw [writeNodes, markupAll, depthOfAll, first, later]
      by_cases fits : child.depth ≤ room
      · by_cases fitsToo : depthOfAll rest ≤ room
        · rw [if_pos fits, if_pos fitsToo, if_pos (Nat.max_le.mpr ⟨fits, fitsToo⟩)]
          apply congrArg Except.ok
          simp only [← Text.ofChars_append]
          apply congrArg Text.ofChars
          rw [List.append_assoc]
        · rw [if_pos fits, if_neg fitsToo, if_neg fun both => fitsToo (Nat.max_le.mp both).2]
          rfl
      · rw [if_neg fits, if_neg fun both => fits (Nat.max_le.mp both).1]
        rfl

end

end Prefixes

/-! ## The names of a whole element -/

/-- All names in an element: its own, those of its attributes, and those inside of it. -/
def Element.allNames (e : Element) : List (List Char) :=
  e.descendants.flatMap Element.ownNames

/-- What is gathered in an element is gathered at its node and in its children. -/
theorem Element.flatMap_descendants_node (gather : Element → List α) (tag : List Char)
    (attributes : OrderedPairs (List Char) (List Char)) (text tail : Value)
    (children : List Element) :
    (node tag attributes text tail children).descendants.flatMap gather =
      gather (node tag attributes text tail children) ++
        children.flatMap fun child => child.descendants.flatMap gather := by
  have inner : (descendantsOf children).flatMap gather =
      children.flatMap fun child => child.descendants.flatMap gather := by
    induction children with
    | nil => rfl
    | cons child rest ih => rw [descendantsOf, List.flatMap_append, ih, List.flatMap_cons]
  rw [descendants, List.flatMap_cons, inner]

theorem allNames_node (tag : List Char) (attributes : OrderedPairs (List Char) (List Char))
    (text tail : Value) (children : List Element) :
    (Element.node tag attributes text tail children).allNames =
      tag :: attributes.keys ++ children.flatMap Element.allNames :=
  Element.flatMap_descendants_node Element.ownNames tag attributes text tail children

theorem forall_mem_allNames_node {tag : List Char}
    {attributes : OrderedPairs (List Char) (List Char)} {text tail : Value}
    {children : List Element} {holds : List Char → Prop} :
    (∀ name ∈ (Element.node tag attributes text tail children).allNames, holds name) ↔
      holds tag ∧ (∀ name ∈ attributes.keys, holds name) ∧
        ∀ child ∈ children, ∀ name ∈ child.allNames, holds name := by
  rw [allNames_node, List.cons_append, List.forall_mem_cons, List.forall_mem_append,
    List.forall_mem_flatMap]

mutual

theorem isExpanded_of_mem_allNames {e : Element} (read : e.IsRead) :
    ∀ name ∈ e.allNames, IsExpanded name := by
  cases e with
  | node tag attributes text tail children =>
      rw [Element.IsRead] at read
      rcases read with ⟨hTag, hAttributes, -, -, hChildren⟩
      rw [forall_mem_allNames_node]
      refine ⟨hTag, fun name member => ?_, isExpanded_of_areRead hChildren⟩
      rcases List.mem_map.mp member with ⟨pair, among, rfl⟩
      exact (hAttributes.names pair among).1
  | comment content tail => exact False.elim read
  | instruction content tail => exact False.elim read

theorem isExpanded_of_areRead {children : List Element} (read : AreRead children) :
    ∀ child ∈ children, ∀ name ∈ child.allNames, IsExpanded name := by
  cases children with
  | nil => exact fun child member => absurd member List.not_mem_nil
  | cons child rest =>
      rw [AreRead] at read
      exact List.forall_mem_cons.mpr
        ⟨isExpanded_of_mem_allNames read.1, isExpanded_of_areRead read.2⟩

end

/-- An element that was read has a table of prefixes that spells all of its names, and is written with
it if there is room for its depth. -/
theorem exists_write_of_isReadAlone [Limits] {root : Element} (h : root.IsReadAlone) :
    ∃ prefixes : Prefixes, prefixes.IsTable ∧ (∀ name ∈ root.allNames, prefixes.CanSpell name) ∧
      Prefixes.addNames [] root.allNames = .ok prefixes ∧
      write root = if root.depth ≤ Limits.elements then
        .ok (Text.ofChars (prefixes.markup prefixes.bindingPairs root)) else .error .tooDeep := by
  obtain ⟨prefixes, added, table, -, spells⟩ :=
    Prefixes.exists_table_of_addNames Prefixes.isTable_nil (isExpanded_of_mem_allNames h.read)
  refine ⟨prefixes, table, spells, added, ?_⟩
  have bindings : writeBindings prefixes = attributesMarkup prefixes.bindingPairs := by
    rw [writeBindings, attributesMarkup, Prefixes.bindingPairs, List.flatMap_map]
  have written :=
    Prefixes.writeNode_of_isRead prefixes prefixes.bindingPairs Limits.elements root h.read
  rw [h.slotChars_tail, List.flatMap_nil, List.append_nil] at written
  change Prefixes.addNames [] (root.descendants.flatMap Element.ownNames) = _ at added
  rw [write, added]
  change writeNode prefixes (writeBindings prefixes) Limits.elements root = _
  rw [bindings, written]

end Xml
end DocumentGateway
