import DocumentGateway.Proofs.Xml.WrittenDocument

namespace DocumentGateway
namespace Xml

/-!
# XML there and back

An element that comes from a text becomes a document of the type of XML, if there is room for its
depth.  The document is accepted exactly if all names are ones that the narrow form reads, and then it
holds the element again, with line feeds for the line ends in its texts.  After that nothing changes
any more.
-/

theorem result_toDocument_eq_ok_iff [Limits] {e : Element} {t : Text} :
    (toDocument (.element e)).result = .ok (.make (.text t) MediaType.xml) ↔ write e = .ok t := by
  rw [toDocument, Run.result_timed, writeDocument]
  cases write e with
  | ok written =>
      constructor
      · rintro ⟨⟩
        rfl
      · rintro ⟨⟩
        rfl
  | error fault => exact ⟨by rintro ⟨⟩, by rintro ⟨⟩⟩

/-- A document of the type of XML is read as the text in it. -/
theorem result_ofDocument_make (t : Text) (isTypeChecked : Bool) :
    (ofDocument (.make (.text t) MediaType.xml) isTypeChecked).result = (parse t).result := by
  have accepted : (Document.make (.text t) MediaType.xml).textIn .xml isTypeChecked = .ok t := by
    cases isTypeChecked with
    | true => rfl
    | false => rfl
  rw [ofDocument, Run.result_timed, accepted]
  rfl

/-! ## Carriage returns -/

theorem mem_slotChars_iff (c : Char) (v : Value) : c ∈ slotChars v ↔ .scalar c ∈ v.textOrEmpty := by
  rw [slotChars, List.mem_filterMap]
  constructor
  · rintro ⟨p, member, same⟩
    cases p with
    | scalar d =>
        cases same
        exact member
    | surrogate offset => cases same
  · exact fun member => ⟨.scalar c, member, rfl⟩

section

variable [Limits]

/-- The characters of a document hold a carriage return exactly if a text of the element does. -/
theorem exists_write_and_return_mem_iff {root : Element} (alone : root.IsReadAlone)
    (fits : root.depth ≤ Limits.elements) : ∃ t, write root = .ok (Text.ofChars t) ∧
      ('\r' ∈ t ↔ ∃ v ∈ root.allSlots, .scalar '\r' ∈ v.textOrEmpty) := by
  rcases exists_write_of_isReadAlone alone with ⟨prefixes, table, spells, -, written⟩
  rw [if_pos fits] at written
  refine ⟨_, written, ?_⟩
  rw [mem_markup_iff_of_isReadAlone isOfTexts_return table alone spells]
  simp only [mem_slotChars_iff]

/-- The element is written with line feeds as it is exactly if it has no carriage returns. -/
theorem write_withLineFeeds_iff {root : Element} (alone : root.IsReadAlone)
    (fits : root.depth ≤ Limits.elements) {t : Text} (written : write root = .ok t) :
    write root.withLineFeeds = .ok t ↔ ∀ v ∈ root.allSlots, .scalar '\r' ∉ v.textOrEmpty := by
  constructor
  · intro again
    have fitsToo : root.withLineFeeds.depth ≤ Limits.elements :=
      root.depth_withLineFeeds.symm ▸ fits
    rcases exists_write_and_return_mem_iff alone fits with ⟨chars, writtenChars, inChars⟩
    rcases exists_write_and_return_mem_iff alone.withLineFeeds fitsToo with
      ⟨others, writtenOthers, inOthers⟩
    rw [written] at writtenChars
    rw [again, writtenChars] at writtenOthers
    obtain rfl : chars = others := Text.ofChars_inj (Except.ok.inj writtenOthers)
    intro v member holds
    rcases inOthers.mp (inChars.mpr ⟨v, member, holds⟩) with ⟨w, memberFed, left⟩
    exact root.return_not_mem_withLineFeeds w memberFed left
  · intro none
    rw [root.withLineFeeds_of_not_mem none, written]

end

/-! ## Elements without children -/

/-- Whether an element has a name, attributes and a text, and nothing else in it. -/
def Element.isLeaf (tag : List Char) (attributes : OrderedPairs (List Char) (List Char))
    (t : List Char) : Element → Bool
  | node ownTag ownAttributes text _ [] =>
    ownTag = tag && ownAttributes = attributes && slotChars text = t
  | _ => false

theorem result_parse_of_isLeaf {chars tag t : List Char}
    {attributes : OrderedPairs (List Char) (List Char)}
    (h : (readScalars chars).toOption.any (Element.isLeaf tag attributes t) = true) :
    (parse (Text.ofChars chars)).result = .ok (.node tag attributes (textValue t) .null []) := by
  rw [result_parse_eq_ok_iff, read_ofChars]
  cases found : readScalars chars with
  | error fault =>
      rw [found] at h
      cases h
  | ok e =>
      rw [found] at h
      have alone := isReadAlone_read ((read_ofChars chars).trans found)
      change e.isLeaf tag attributes t = true at h
      unfold Element.isLeaf at h
      split at h
      · next ownTag ownAttributes text tail =>
          simp only [Bool.and_eq_true, decide_eq_true_eq] at h
          rcases h with ⟨⟨rfl, rfl⟩, rfl⟩
          have read := alone.read
          rw [Element.IsRead] at read
          rw [textValue_slotChars read.2.2.1]
          exact congrArg Except.ok alone.alone.symm
      · cases h

/-! ## There and back -/

section

variable [Limits]

/-- What was read is written into a text that is accepted exactly if it is legible, and holds it
then. -/
theorem exists_write_and_read_iff {root : Element} (alone : root.IsReadAlone)
    (fits : root.depth ≤ Limits.elements) :
    ∃ t, write root = .ok t ∧ ((∃ e, read t = .ok e) ↔ root.IsLegible) ∧
      ∀ e, read t = .ok e → e = root.withLineFeeds := by
  rcases exists_write_of_isReadAlone alone with ⟨prefixes, table, spells, -, written⟩
  rw [if_pos fits] at written
  refine ⟨_, written, ⟨?_, ?_⟩, ?_⟩
  · rintro ⟨e, accepted⟩
    exact isLegible_of_read_markup table alone spells accepted
  · intro legible
    exact ⟨_, read_markup_of_isLegible table alone spells legible⟩
  · intro e accepted
    have legible := isLegible_of_read_markup table alone spells accepted
    rw [read_markup_of_isLegible table alone spells legible] at accepted
    exact (Except.ok.inj accepted).symm

/-- A legible element with line feeds is written into a text that holds it again. -/
theorem exists_write_withLineFeeds {root : Element} (alone : root.IsReadAlone)
    (fits : root.depth ≤ Limits.elements) (legible : root.IsLegible) :
    ∃ t, write root.withLineFeeds = .ok t ∧ read t = .ok root.withLineFeeds := by
  have fitsToo : root.withLineFeeds.depth ≤ Limits.elements := root.depth_withLineFeeds.symm ▸ fits
  rcases exists_write_and_read_iff alone.withLineFeeds fitsToo with ⟨t, written, accepted, same⟩
  have stays : root.withLineFeeds.IsLegible := by
    rwa [Element.IsLegible, Element.allNames_withLineFeeds]
  rcases accepted.mpr stays with ⟨e, found⟩
  refine ⟨t, written, ?_⟩
  rw [found, same e found, Element.withLineFeeds_withLineFeeds]

theorem result_toDocument_eq_tooDeep {root : Element} (alone : root.IsReadAlone)
    (deep : Limits.elements < root.depth) :
    (toDocument (.element root)).result = .error (.element .tooDeep) := by
  rcases exists_write_of_isReadAlone alone with ⟨prefixes, -, -, -, written⟩
  rw [if_neg (Nat.not_le_of_lt deep)] at written
  rw [toDocument, Run.result_timed, writeDocument, written]
  rfl

/-- The conversion loses nothing but carriage returns.  An element that was read from a text becomes a
document if there is room for its depth, and only then.  The document is accepted exactly if all names
of the element can be read in the narrow form.  What it is read as is the element with line feeds for
its line ends.  This becomes the same document again exactly if the element has no carriage returns,
and it is read from its own document unchanged. -/
theorem withLineFeeds_ofDocument_toDocument {chars : List Char} {root : Element}
    (accepted : (parse (Text.ofChars chars)).result = .ok root) :
    (Limits.elements < root.depth →
      (toDocument (.element root)).result = .error (.element .tooDeep)) ∧
    (root.depth ≤ Limits.elements →
      ∃ d, (toDocument (.element root)).result = .ok d ∧ d.mimeType = MediaType.xml ∧
        ((∃ e, (ofDocument d true).result = .ok e) ↔ root.IsLegible) ∧
        ∀ e, (ofDocument d true).result = .ok e →
          e = root.withLineFeeds ∧
          ((toDocument (.element e)).result = .ok d ↔
            ∀ v ∈ root.allSlots, .scalar '\r' ∉ v.textOrEmpty) ∧
          ∃ again, (toDocument (.element e)).result = .ok again ∧
            (ofDocument again true).result = .ok e) := by
  have alone := isReadAlone_read (result_parse_eq_ok_iff.mp accepted)
  refine ⟨result_toDocument_eq_tooDeep alone, fun fits => ?_⟩
  rcases exists_write_and_read_iff alone fits with ⟨t, written, readable, same⟩
  refine ⟨.make (.text t) MediaType.xml, result_toDocument_eq_ok_iff.mpr written, rfl, ?_, ?_⟩
  · simp only [result_ofDocument_make, result_parse_eq_ok_iff]
    exact readable
  · intro e found
    rw [result_ofDocument_make, result_parse_eq_ok_iff] at found
    obtain rfl := same e found
    rcases exists_write_withLineFeeds alone fits (readable.mp ⟨_, found⟩) with
      ⟨s, writtenAgain, readAgain⟩
    refine ⟨rfl, ?_, .make (.text s) MediaType.xml, ?_, ?_⟩
    · rw [result_toDocument_eq_ok_iff]
      exact write_withLineFeeds_iff alone fits written
    · exact result_toDocument_eq_ok_iff.mpr writtenAgain
    · rw [result_ofDocument_make]
      exact result_parse_eq_ok_iff.mpr readAgain

end

/-- An element whose text holds what was spelled by number. -/
def returningElement (t : List Char) : Element :=
  .node ['r'] [] (textValue t) .null []

section

open scoped Limits

/-- A carriage return is lost on the way, and the document becomes another one. -/
theorem withLineFeeds_returningElement :
    (parse (Text.ofString "<r>&#13;&#10;</r>")).result = .ok (returningElement ['\r', '\n']) ∧
      ∃ d, (toDocument (.element (returningElement ['\r', '\n']))).result = .ok d ∧
        (ofDocument d true).result = .ok (returningElement ['\n']) ∧
        (toDocument (.element (returningElement ['\n']))).result ≠ .ok d := by
  have accepted : (parse (Text.ofString "<r>&#13;&#10;</r>")).result =
      .ok (returningElement ['\r', '\n']) :=
    result_parse_of_isLeaf (by decide +kernel)
  have legible : (returningElement ['\r', '\n']).IsLegible :=
    List.forall_mem_singleton.mpr (by decide)
  rcases (withLineFeeds_ofDocument_toDocument accepted).2 (by decide) with
    ⟨d, written, -, readable, back⟩
  rcases readable.mpr legible with ⟨e, found⟩
  rcases back e found with ⟨rfl, same, -⟩
  have changed : (returningElement ['\r', '\n']).withLineFeeds = returningElement ['\n'] := rfl
  rw [changed] at found same
  refine ⟨accepted, d, written, found, fun again => ?_⟩
  exact same.mp again (textValue ['\r', '\n']) List.mem_cons_self List.mem_cons_self

/-- An element with an attribute whose name begins with a digit behind its prefix. -/
def digitElement : Element :=
  .node ['r'] [("\x7bu\x7d1b".toList, ['x'])] (textValue []) .null []

/-- The declaration of an attribute may give it a name that no tag can have.  The document of the
element is refused. -/
theorem result_ofDocument_digitElement :
    (parse (Text.ofString "<!DOCTYPE r [<!ATTLIST r a:1b CDATA \"x\">]><r xmlns:a=\"u\"/>")).result =
        .ok digitElement ∧
      ∃ d, (toDocument (.element digitElement)).result = .ok d ∧
        d.content = .text (Text.ofString "<r xmlns:ns0=\"u\" ns0:1b=\"x\" />") ∧
        ∀ e, (ofDocument d true).result ≠ .ok e := by
  have accepted : (parse (Text.ofString
      "<!DOCTYPE r [<!ATTLIST r a:1b CDATA \"x\">]><r xmlns:a=\"u\"/>")).result = .ok digitElement :=
    result_parse_of_isLeaf (by decide +kernel)
  have written : write digitElement =
      .ok (Text.ofString "<r xmlns:ns0=\"u\" ns0:1b=\"x\" />") :=
    eq_ok_of_toOption_eq_some (by decide +kernel)
  have refused :
      (readScalars "<r xmlns:ns0=\"u\" ns0:1b=\"x\" />".toList).toOption.isNone = true := by
    decide +kernel
  refine ⟨accepted, _, result_toDocument_eq_ok_iff.mpr written, rfl, fun e found => ?_⟩
  rw [result_ofDocument_make, result_parse_eq_ok_iff, Text.ofString, read_ofChars] at found
  rw [found] at refused
  cases refused

end

/-! ## Elements in elements -/

/-- Elements one in another, the innermost of them empty. -/
def elementsInElements : Nat → Element
  | 0 => .node ['a'] [] .null .null []
  | n + 1 => .node ['a'] [] .null .null [elementsInElements n]

theorem depth_elementsInElements (n : Nat) : (elementsInElements n).depth = n + 1 := by
  induction n with
  | zero => rfl
  | succ n ih => rw [elementsInElements, Element.depth, depthOfAll, depthOfAll, ih, Nat.max_zero]

theorem isRead_elementsInElements (n : Nat) : (elementsInElements n).IsRead := by
  have isTag : IsExpanded ['a'] := .plain (isNamePart_of_isProperName (by decide))
  have plain : AreReadAttributes [] := ⟨List.nodup_nil, nofun, nofun⟩
  have nothing : IsReadText .null := ⟨[], nofun, rfl⟩
  induction n with
  | zero => exact ⟨isTag, plain, nothing, nothing, trivial⟩
  | succ n ih => exact ⟨isTag, plain, nothing, nothing, ih, trivial⟩

theorem isLegible_elementsInElements (n : Nat) : (elementsInElements n).IsLegible := by
  have proper : isProperName (localName ['a']) = true := by decide
  induction n with
  | zero => exact forall_mem_allNames_node.mpr ⟨proper, nofun, nofun⟩
  | succ n ih => exact forall_mem_allNames_node.mpr ⟨proper, nofun, List.forall_mem_singleton.mpr ih⟩

theorem withLineFeeds_elementsInElements (n : Nat) :
    (elementsInElements n).withLineFeeds = elementsInElements n := by
  induction n with
  | zero => rfl
  | succ n ih =>
      rw [elementsInElements, Element.withLineFeeds, Element.withLineFeedsAll, ih,
        Element.withLineFeedsAll]
      rfl

/-- Elements that are read are nested as deeply as one likes. -/
theorem exists_parse_elementsInElements (n : Nat) :
    ∃ chars, (parse (Text.ofChars chars)).result = .ok (elementsInElements n) := by
  have alone : (elementsInElements n).IsReadAlone :=
    ⟨isRead_elementsInElements n, by cases n <;> rfl⟩
  obtain ⟨prefixes, -, table, -, spells⟩ :=
    Prefixes.exists_table_of_addNames Prefixes.isTable_nil (isExpanded_of_mem_allNames alone.read)
  have found := read_markup_of_isLegible table alone spells (isLegible_elementsInElements n)
  rw [withLineFeeds_elementsInElements] at found
  exact ⟨_, result_parse_eq_ok_iff.mpr found⟩

section

open scoped Limits

/-- Not every element that was read is kept: one has a name that its document cannot have, and one is
nested too deeply for a document. -/
theorem not_keeps_digitElement_and_elementsInElements :
    ((parse (Text.ofString "<!DOCTYPE r [<!ATTLIST r a:1b CDATA \"x\">]><r xmlns:a=\"u\"/>")).result =
        .ok digitElement ∧
      ∃ d, (toDocument (.element digitElement)).result = .ok d ∧
        ∀ e, (ofDocument d true).result ≠ .ok e) ∧
    ∃ chars, (parse (Text.ofChars chars)).result = .ok (elementsInElements Limits.elements) ∧
      ∀ d, (toDocument (.element (elementsInElements Limits.elements))).result ≠ .ok d := by
  rcases result_ofDocument_digitElement with ⟨accepted, d, written, -, refused⟩
  rcases exists_parse_elementsInElements Limits.elements with ⟨chars, found⟩
  have deep : Limits.elements < (elementsInElements Limits.elements).depth := by
    rw [depth_elementsInElements]
    exact Nat.lt_succ_self _
  have alone := isReadAlone_read (result_parse_eq_ok_iff.mp found)
  refine ⟨⟨accepted, d, written, refused⟩, chars, found, fun other kept => ?_⟩
  rw [result_toDocument_eq_tooDeep alone deep] at kept
  cases kept

end

end Xml
end DocumentGateway
