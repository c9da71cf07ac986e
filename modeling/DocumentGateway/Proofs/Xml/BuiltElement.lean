import DocumentGateway.Proofs.Text.Trimming
import DocumentGateway.Proofs.Xml.RoundTrip

namespace DocumentGateway
namespace Xml

/-!
# Elements that are built from texts

A caller builds an element with a child for each of some texts.  In its document an empty text is
not told from none, and everything else is there: the element that is read back has the same names
and a child with the same text in every place.
-/

/-- The name of an element in a namespace or in none. -/
def nameIn (uri? : Option (List Char)) (base : List Char) : List Char :=
  match uri? with
  | some uri => expandedName uri base
  | none => base

/-- An element with a text. -/
def leafOf (tag content : List Char) : Element :=
  .node tag [] (.text (Text.ofChars content)) .null []

/-- An element with a child for each text. -/
def listOf (tag childTag : List Char) (contents : List (List Char)) : Element :=
  .node tag [] .null .null (contents.map (leafOf childTag))

/-- An element with a text, as it is read. -/
def readLeaf (tag content : List Char) : Element :=
  .node tag [] (textValue content) .null []

/-- An element with a child for each text, as it is read. -/
def readList (tag childTag : List Char) (contents : List (List Char)) : Element :=
  .node tag [] .null .null (contents.map (readLeaf childTag))

theorem descendantsOf_map_readLeaf (tag : List Char) (contents : List (List Char)) :
    Element.descendantsOf (contents.map (readLeaf tag)) = contents.map (readLeaf tag) := by
  induction contents with
  | nil => rfl
  | cons content rest ih =>
      rw [List.map_cons, Element.descendantsOf, ih]
      rfl

/-! ## Names -/

section

variable {uri? : Option (List Char)} {base : List Char} (proper : isProperName base = true)

include proper

theorem isExpanded_nameIn (isNamespace : ∀ uri, uri? = some uri → IsNamespace uri) :
    IsExpanded (nameIn uri? base) := by
  cases uri? with
  | none => exact .plain (isNamePart_of_isProperName proper)
  | some uri => exact .inNamespace (isNamespace uri rfl) (isNamePart_of_isProperName proper)

theorem localName_nameIn : localName (nameIn uri? base) = base := by
  cases uri? with
  | none => exact localName_of_isNamePart (isNamePart_of_isProperName proper)
  | some uri => exact localName_expandedName (isNamePart_of_isProperName proper)

end

/-! ## Writing -/

/-- An empty text is written as none. -/
theorem writeNode_leafOf (prefixes : Prefixes) (bindings : List Char) (room : Nat)
    (tag content : List Char) :
    writeNode prefixes bindings room (leafOf tag content) =
      writeNode prefixes bindings room (readLeaf tag content) := by
  cases room with
  | zero => rfl
  | succ room => cases content <;> rfl

theorem writeNodes_map_leafOf (prefixes : Prefixes) (room : Nat) (tag : List Char)
    (contents : List (List Char)) :
    writeNodes prefixes room (contents.map (leafOf tag)) =
      writeNodes prefixes room (contents.map (readLeaf tag)) := by
  induction contents with
  | nil => rfl
  | cons content rest ih =>
      rw [List.map_cons, List.map_cons, writeNodes, writeNodes, writeNode_leafOf, ih]

theorem write_listOf [Limits] (tag childTag : List Char) (contents : List (List Char)) :
    write (listOf tag childTag contents) = write (readList tag childTag contents) := by
  have names : (listOf tag childTag contents).allNames = (readList tag childTag contents).allNames := by
    rw [listOf, readList, allNames_node, allNames_node, List.flatMap_map, List.flatMap_map]
    rfl
  have nodes : ∀ prefixes bindings room,
      writeNode prefixes bindings room (listOf tag childTag contents) =
        writeNode prefixes bindings room (readList tag childTag contents) := by
    intro prefixes bindings room
    cases room with
    | zero => rfl
    | succ room =>
        rw [listOf, readList, writeNode, writeNode, writeNodes_map_leafOf, List.isEmpty_map,
          List.isEmpty_map]
  rw [Element.allNames, Element.allNames] at names
  rw [write, write, names]
  simp only [nodes]

/-- A document of an element begins with a bracket. -/
theorem trim_ne_nil_of_write [Limits] {root : Element} (alone : root.IsReadAlone) {t : Text}
    (written : write root = .ok t) : t.trim ≠ [] := by
  rcases exists_write_of_isReadAlone alone with ⟨prefixes, table, spells, -, writtenToo⟩
  rcases exists_cons_markup table alone.read spells prefixes.bindingPairs with ⟨c, rest, cons, -, -⟩
  rw [written] at writtenToo
  split at writtenToo
  · rw [Except.ok.inj writtenToo, cons]
    exact Text.trim_ne_nil (p := .scalar '<') List.mem_cons_self rfl
  · cases writtenToo

/-! ## There and back -/

theorem textOrEmpty_textValue (t : List Char) : (textValue t).textOrEmpty = Text.ofChars t := by
  cases t <;> rfl

section

variable {tag childTag : List Char} {contents : List (List Char)}

theorem isReadAlone_readList (isTag : IsExpanded tag) (isChildTag : IsExpanded childTag)
    (areChars : ∀ content ∈ contents, AreXmlChars content) :
    (readList tag childTag contents).IsReadAlone where
  alone := rfl
  read := by
    have nothing : IsReadText .null := ⟨[], nofun, rfl⟩
    have plain : AreReadAttributes [] := ⟨List.nodup_nil, nofun, nofun⟩
    refine ⟨isTag, plain, nothing, nothing, (areRead_iff _).mpr fun child member => ?_⟩
    rcases List.mem_map.mp member with ⟨content, among, rfl⟩
    exact ⟨isChildTag, plain, ⟨content, areChars content among, rfl⟩, nothing, trivial⟩

theorem depth_readList_le : (readList tag childTag contents).depth ≤ 2 := by
  have leaves : depthOfAll (contents.map (readLeaf childTag)) ≤ 1 := by
    induction contents with
    | nil => exact Nat.zero_le 1
    | cons content rest ih => exact Nat.max_le.mpr ⟨Nat.le_refl 1, ih⟩
  exact Nat.succ_le_succ leaves

theorem isLegible_readList (proper : isProperName (localName tag) = true)
    (properChild : isProperName (localName childTag) = true) :
    (readList tag childTag contents).IsLegible := by
  refine forall_mem_allNames_node.mpr ⟨proper, nofun, fun child member => ?_⟩
  rcases List.mem_map.mp member with ⟨content, -, rfl⟩
  exact forall_mem_allNames_node.mpr ⟨properChild, nofun, nofun⟩

theorem withLineFeeds_readList (noReturns : ∀ content ∈ contents, '\r' ∉ content) :
    (readList tag childTag contents).withLineFeeds = readList tag childTag contents := by
  refine Element.withLineFeeds_of_not_mem _ (Element.forall_mem_allSlots_node.mpr
    ⟨List.not_mem_nil, List.not_mem_nil, fun child member => ?_⟩)
  rcases List.mem_map.mp member with ⟨content, among, rfl⟩
  refine Element.forall_mem_allSlots_node.mpr ⟨fun holds => ?_, List.not_mem_nil, nofun⟩
  rw [textOrEmpty_textValue] at holds
  rcases List.mem_map.mp holds with ⟨c, isReturn, same⟩
  exact noReturns content among (CodePoint.scalar.inj same ▸ isReturn)

end

/-- What is built in a namespace, or in none, is written into a document, from which it is read as it
was built. -/
theorem exists_document_listOf [Limits] {uri? : Option (List Char)}
    (isNamespace : ∀ uri, uri? = some uri → IsNamespace uri) {base childBase : List Char}
    (proper : isProperName base = true) (properChild : isProperName childBase = true)
    {contents : List (List Char)} (areChars : ∀ content ∈ contents, AreXmlChars content)
    (noReturns : ∀ content ∈ contents, '\r' ∉ content) :
    ∃ t, (toDocument (.element (listOf (nameIn uri? base) (nameIn uri? childBase) contents))).result =
        .ok (.make (.text t) MediaType.xml) ∧
      read t = .ok (readList (nameIn uri? base) (nameIn uri? childBase) contents) ∧ t.trim ≠ [] := by
  have alone := isReadAlone_readList (isExpanded_nameIn proper isNamespace)
    (isExpanded_nameIn properChild isNamespace) areChars
  have legible : (readList (nameIn uri? base) (nameIn uri? childBase) contents).IsLegible :=
    isLegible_readList (by rw [localName_nameIn proper, proper])
      (by rw [localName_nameIn properChild, properChild])
  rcases exists_write_and_read_iff alone (depth_readList_le.trans Limits.two_le_elements) with
    ⟨t, written, accepted, same⟩
  rcases accepted.mpr legible with ⟨e, found⟩
  refine ⟨t, ?_, ?_, trim_ne_nil_of_write alone written⟩
  · rw [result_toDocument_eq_ok_iff, write_listOf, written]
  · rw [found, same e found, withLineFeeds_readList noReturns]

end Xml
end DocumentGateway
