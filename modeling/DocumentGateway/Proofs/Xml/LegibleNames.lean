import DocumentGateway.Proofs.Xml.WrittenTree

namespace DocumentGateway
namespace Xml

/-!
# Names that documents can hold

A name that came from a document of the wide form, or from a default value, need not be one that the
narrow form reads.  Scanning stops in the middle of such a name, and what stands there goes on with no
tag.  Wherever the name stands in an element, the document of the element is therefore refused.
-/

/-! ## Spelled names -/

/-- A name as it is spelled, behind its prefix or without one. -/
inductive IsSpelling : (name base : List Char) → Prop
  | plain {base : List Char} (h : IsNamePart base) : IsSpelling base base
  | prefixed {front base : List Char} (hFront : isProperName front = true) (h : IsNamePart base) :
      IsSpelling (front ++ ':' :: base) base

theorem isSpelling_spell {prefixes : Prefixes} (table : prefixes.IsTable) {name : List Char}
    (spells : prefixes.CanSpell name) : IsSpelling (prefixes.spell name) (localName name) := by
  cases spells with
  | plain part =>
      rw [Prefixes.spell_of_isNamePart part, localName_of_isNamePart part]
      exact .plain part
  | @inNamespace uri base covered hUri part =>
      have proper := (table.uri?_prefixFor (Prefixes.areBoundBy_bindings table) covered).2.1
      rw [Prefixes.spell_expandedName part, localName_expandedName part]
      exact .prefixed proper part

theorem IsSpelling.isProperSpelling {name base : List Char} (h : IsSpelling name base)
    (proper : isProperName base = true) : IsProperSpelling name := by
  cases h with
  | plain part => exact .plain proper
  | prefixed hFront part => exact .prefixed hFront proper

theorem IsProperSpelling.exists_isSpelling {name : List Char} (proper : IsProperSpelling name) :
    ∃ base, IsSpelling name base := by
  cases proper with
  | plain h => exact ⟨_, .plain (isNamePart_of_isProperName h)⟩
  | prefixed hFront h => exact ⟨_, .prefixed hFront (isNamePart_of_isProperName h)⟩

/-- The part of a name behind its prefix is told by the colon. -/
theorem IsSpelling.splitName {name base : List Char} (h : IsSpelling name base) :
    (splitName name).2 = base := by
  cases h with
  | plain part => rw [splitName_of_not_mem part.colon_not_mem]
  | prefixed hFront part =>
      rw [splitName_append (isNamePart_of_isProperName hFront).colon_not_mem]

theorem IsSpelling.isProperName_of_isProperSpelling {name base : List Char}
    (h : IsSpelling name base) (proper : IsProperSpelling name) : isProperName base = true := by
  rw [← h.splitName]
  cases proper with
  | plain h => rwa [splitName_of_not_mem (isNamePart_of_isProperName h).colon_not_mem]
  | prefixed hFront h => rwa [splitName_append (isNamePart_of_isProperName hFront).colon_not_mem]

/-- What is left of a name that was not read in full. -/
def IsCutName (t : List Char) : Prop :=
  ∃ c more, t = c :: more ∧ TextForm.isWideLetter c = true

theorem isWideLetter_of_isNameChar {c : Char} (wide : (TextForm.wide false).isNameChar c = true)
    (narrow : isNameChar c = false) : TextForm.isWideLetter c = true := by
  rw [TextForm.isNameChar, narrow, Bool.false_or, Bool.and_eq_true] at wide
  exact wide.2

/-- Scanning stops in the middle of a name that is none of the narrow form. -/
theorem isCutName_of_scanName {base : List Char} (part : IsNamePart base)
    (improper : isProperName base = false) {start rest name behind : List Char}
    (h : scanName .narrow start (base ++ rest) = .ok (name, behind)) : IsCutName behind := by
  cases base with
  | nil => exact absurd rfl part.nonempty
  | cons d more =>
      rw [List.cons_append, scanName] at h
      split at h
      · next begins =>
          rw [isNameStart_narrow] at begins
          rcases exists_run isNameChar more with ⟨run, left, rfl, inside, ends⟩
          cases left with
          | nil =>
              rw [List.append_nil] at improper
              rw [isProperName, begins, Bool.true_and, List.all_eq_false] at improper
              rcases improper with ⟨c, member, foreign⟩
              exact absurd (inside c member) foreign
          | cons c others =>
              have wide := isWideLetter_of_isNameChar
                (part.chars c (by simp)) (ends c others rfl)
              have narrow : ∀ e ∈ run, TextForm.narrow.isNameChar e = true := fun e member =>
                (isNameChar_narrow e).trans (inside e member)
              have stops : ∀ e tail, c :: others ++ rest = e :: tail →
                  TextForm.narrow.isNameChar e = false := by
                rintro e tail ⟨⟩
                exact (isNameChar_narrow c).trans (ends c others rfl)
              have split := takeWhile_append_of_ends narrow stops
              rw [List.append_assoc, split.1, split.2, List.cons_append, endName] at h
              split at h
              · exact absurd h stop_ne_ok
              · cases h
                exact ⟨c, others ++ rest, rfl, wide⟩
      · exact absurd h refused_ne_ok

theorem isCutName_of_scanQualifiedName {spelling base : List Char} (h : IsSpelling spelling base)
    (improper : isProperName base = false) {start rest name behind : List Char}
    (scanned : scanQualifiedName .narrow start (spelling ++ rest) = .ok (name, behind)) :
    IsCutName behind := by
  cases h with
  | plain part =>
      rcases exists_of_bind_eq_ok scanned with ⟨⟨first, behindFirst⟩, scannedFirst, scanned⟩
      rcases isCutName_of_scanName part improper scannedFirst with ⟨c, more, rfl, wide⟩
      dsimp only at scanned
      split at scanned
      · next same =>
          cases same
          exact absurd wide (by decide)
      · cases scanned
        exact ⟨c, more, rfl, wide⟩
  | @prefixed front base hFront part =>
      rw [scanQualifiedName, List.append_assoc, List.cons_append,
        scanName_append hFront (by decide) (by decide)] at scanned
      change (scanName .narrow start (base ++ rest)).bind _ = _ at scanned
      rcases exists_of_bind_eq_ok scanned with ⟨⟨second, behindSecond⟩, scannedSecond, scanned⟩
      cases scanned
      exact isCutName_of_scanName part improper scannedSecond

/-! ## Tags -/

/-- The rest of a name is not skipped, and is no sign that goes on with a tag. -/
theorem IsCutName.exists_cons {t : List Char} (h : IsCutName t) :
    ∃ c more, t = c :: more ∧ isSpace c = false ∧ c ≠ '=' ∧ c ≠ '/' ∧ c ≠ '>' := by
  rcases h with ⟨c, more, rfl, wide⟩
  refine ⟨c, more, rfl, ?_⟩
  simp only [TextForm.isWideLetter, Bool.or_eq_true, beq_iff_eq] at wide
  rcases wide with (rfl | rfl) | rfl
  · decide
  · decide
  · decide

theorem scanEquals_of_isCutName {t : List Char} (h : IsCutName t) (start : List Char)
    {result : Char × List Char} : scanEquals start t ≠ .ok result := by
  rcases h.exists_cons with ⟨c, more, rfl, notSpace, notEquals, -⟩
  have kept : skipSpaces (c :: more) = c :: more :=
    List.dropWhile_cons_of_neg (Bool.eq_false_iff.mp notSpace)
  rw [scanEquals, kept]
  split
  · next same => exact absurd (List.cons.inj same).1 notEquals
  · exact unexpected_ne_ok

theorem scanAttributes_of_isCutName {t : List Char} (h : IsCutName t) (start : List Char)
    (budget : Nat) {result : List WrittenAttribute × Bool × List Char} :
    scanAttributes .narrow start budget t ≠ .ok result := by
  cases budget with
  | zero => exact stop_ne_ok
  | succ budget =>
      rcases h.exists_cons with ⟨c, more, rfl, notSpace, -, notSlash, notClose⟩
      have goesOn : endsPart (c :: more) = false := by
        simp [endsPart, notSpace, notSlash, notClose]
      rw [scanAttributes, if_pos (by rw [goesOn, Bool.not_false])]
      exact unexpected_ne_ok

/-- A spelled name begins with a character of names. -/
theorem IsSpelling.exists_cons {spelling base : List Char} (h : IsSpelling spelling base) :
    ∃ c rest, spelling = c :: rest ∧ (TextForm.wide false).isNameChar c = true := by
  cases h with
  | plain part =>
      rcases List.exists_cons_of_ne_nil part.nonempty with ⟨c, rest, rfl⟩
      exact ⟨c, rest, rfl, part.chars c List.mem_cons_self⟩
  | @prefixed front base hFront part =>
      rcases List.exists_cons_of_ne_nil (isNamePart_of_isProperName hFront).nonempty with
        ⟨c, rest, rfl⟩
      exact ⟨c, _, rfl, (isNamePart_of_isProperName hFront).chars c List.mem_cons_self⟩

/-- No attribute is scanned whose name is none of the narrow form. -/
theorem scanAttributes_of_improper {spelling base : List Char} (h : IsSpelling spelling base)
    (improper : isProperName base = false) (start value following : List Char) (budget : Nat)
    {result : List WrittenAttribute × Bool × List Char} :
    scanAttributes .narrow start budget (writeAttribute spelling value ++ following) ≠ .ok result := by
  intro scanned
  cases budget with
  | zero => exact absurd scanned stop_ne_ok
  | succ budget =>
      rcases h.exists_cons with ⟨c, more, cons, inName⟩
      have place : skipSpaces (' ' :: (spelling ++ valueMarkup value following)) =
          spelling ++ valueMarkup value following := by
        rw [skipSpaces, List.dropWhile_cons_of_pos (by decide), cons, List.cons_append,
          List.dropWhile_cons_of_neg (Bool.eq_false_iff.mp (not_isSpace_of_isNameChar inName))]
      rw [writeAttribute_append, scanAttributes, if_neg (by simp [endsPart, isSpace]), place] at scanned
      split at scanned
      · next same =>
          rw [cons] at same
          exact ne_of_isNameChar inName (by decide) (List.cons.inj same).1
      · next same =>
          rw [cons] at same
          exact ne_of_isNameChar inName (by decide) (List.cons.inj same).1
      · next same =>
          rw [cons] at same
          exact ne_of_isNameChar inName (by decide) (List.cons.inj same).1
      · rcases exists_of_bind_eq_ok scanned with ⟨⟨name, behindName⟩, named, scanned⟩
        rcases exists_of_bind_eq_ok scanned with ⟨opened, equals, -⟩
        exact scanEquals_of_isCutName (isCutName_of_scanQualifiedName h improper named) start equals

/-- Attributes as they are spelled. -/
def AreSpelled (pairs : List (List Char × List Char)) : Prop :=
  ∀ pair ∈ pairs, (∃ base, IsSpelling pair.1 base) ∧ AreXmlChars pair.2

theorem isProperSpelling_of_scanAttributes {pairs : List (List Char × List Char)}
    (h : AreSpelled pairs) {start following : List Char} {budget : Nat}
    {result : List WrittenAttribute × Bool × List Char}
    (scanned : scanAttributes .narrow start budget (attributesMarkup pairs ++ following) = .ok result) :
    ∀ pair ∈ pairs, IsProperSpelling pair.1 := by
  induction pairs generalizing budget result with
  | nil => exact fun pair member => absurd member List.not_mem_nil
  | cons pair more ih =>
      rcases List.forall_mem_cons.mp h with ⟨first, later⟩
      rcases first with ⟨⟨base, spelling⟩, chars⟩
      rw [attributesMarkup_cons, List.append_assoc] at scanned
      cases proper : isProperName base with
      | false =>
          exact absurd scanned (scanAttributes_of_improper spelling proper start pair.2 _ budget)
      | true =>
          have properPair := spelling.isProperSpelling proper
          refine List.forall_mem_cons.mpr ⟨properPair, ?_⟩
          cases budget with
          | zero => exact absurd scanned stop_ne_ok
          | succ budget =>
              rw [scanAttributes_writeAttribute properPair chars] at scanned
              rcases exists_of_bind_eq_ok scanned with ⟨between, scannedMore, -⟩
              exact ih later scannedMore

/-- A start tag that is scanned has names of the narrow form only, and is the one that was
written. -/
theorem exists_of_scanToken_startTag {spelling base : List Char} (h : IsSpelling spelling base)
    {pairs : List (List Char × List Char)} (hPairs : AreSpelled pairs) {isEmpty : Bool}
    {rest behind : List Char} {token : Token}
    (scanned : scanToken .narrow
      ('<' :: (spelling ++ (attributesMarkup pairs ++ (tagEnd isEmpty ++ rest)))) =
        .ok (token, behind)) :
    IsProperSpelling spelling ∧ (∀ pair ∈ pairs, IsProperSpelling pair.1) ∧ behind = rest ∧
      ∃ tag, token = .startTag tag ∧ tag.name = spelling ∧ tag.isEmpty = isEmpty := by
  have proper : IsProperSpelling spelling ∧ ∀ pair ∈ pairs, IsProperSpelling pair.1 := by
    rcases h.exists_cons with ⟨c, more, cons, inName⟩
    have bracketed : scanBracketed .narrow
        ('<' :: (spelling ++ (attributesMarkup pairs ++ (tagEnd isEmpty ++ rest))))
        (spelling ++ (attributesMarkup pairs ++ (tagEnd isEmpty ++ rest))) = .ok (token, behind) :=
      scanned
    rw [cons, List.cons_append, scanBracketed_of_isNameChar .narrow inName, ← List.cons_append, ← cons]
      at bracketed
    rcases exists_of_bind_eq_ok bracketed with ⟨result, tagged, -⟩
    rcases exists_of_bind_eq_ok tagged with ⟨⟨name, behindName⟩, named, tagged⟩
    rcases exists_of_bind_eq_ok tagged with ⟨parts, attributes, -⟩
    cases legible : isProperName base with
    | false =>
        have cut := isCutName_of_scanQualifiedName h legible named
        exact absurd attributes (scanAttributes_of_isCutName cut _ _)
    | true =>
        have properName := h.isProperSpelling legible
        rw [scanQualifiedName_tag properName pairs isEmpty] at named
        cases named
        exact ⟨properName, isProperSpelling_of_scanAttributes hPairs attributes⟩
  rcases proper with ⟨properName, properPairs⟩
  rcases exists_scanToken_startTag properName
    (fun pair member => ⟨properPairs pair member, (hPairs pair member).2⟩) isEmpty rest with
    ⟨tag, result, named, same, -⟩
  rw [scanned] at result
  cases result
  exact ⟨properName, properPairs, rfl, tag, rfl, named, same⟩

/-! ## Content -/

open Reading

/-- Whatever a text is read as, what is left behind the content has a property. -/
def Leaves (scope : Scope) (name t : List Char) (holds : List Char → Prop) : Prop :=
  ∀ budget, (readContent (.empty false) budget .narrow [] (some name) scope t).Ensures
    fun result => holds result.2

/-- Whatever an element is read as, the text behind it is left, and something holds. -/
structure ElementLeaves (t following : List Char) (holds : Prop) : Prop where
  nonempty : t ≠ []
  read : ∀ token behind, scanToken .narrow t = .ok (token, behind) →
    ∃ tag, token = .startTag tag ∧ ∀ scope budget place,
      (readElement (.empty false) budget .narrow [] scope place tag behind).Ensures
        fun result => result.2 = following ∧ holds

theorem ElementLeaves.mono {t following : List Char} {holds weaker : Prop}
    (h : ElementLeaves t following holds) (implied : holds → weaker) :
    ElementLeaves t following weaker := by
  refine ⟨h.nonempty, fun token behind scanned => ?_⟩
  rcases h.read token behind scanned with ⟨tag, same, read⟩
  refine ⟨tag, same, fun scope budget place => ?_⟩
  exact (read scope budget place).mono fun _ both => ⟨both.1, implied both.2⟩

section Content

variable {scope : Scope} {name t behind following : List Char} {holds : List Char → Prop}

theorem Leaves.text {inner : List Char} (h : StandsFor behind t inner)
    (later : Leaves scope name behind holds) : Leaves scope name t holds := by
  induction h with
  | nil => exact later
  | @piece token front behind inner more references nonempty means scanned _ ih =>
      intro budget
      cases budget with
      | zero => exact ensures_stop
      | succ budget =>
          have filled : front ++ behind ≠ [] := fun empty => nonempty (List.append_eq_nil_iff.mp empty).1
          have joined : Ensures (do
              let result ← readContent (.empty false) budget .narrow [] (some name) scope behind
              return (result.1.behindText inner, result.2)) fun result => holds result.2 :=
            (ih budget).bind fun result left => ensures_pure left
          rw [readContent.eq_3 _ _ _ _ _ _ _ filled]
          refine (ensures_liftM_of_eq_ok scanned).bind ?_
          rintro _ rfl
          apply ensures_bind
          intro _
          cases means with
          | text => exact joined
          | lineEnd => exact joined
          | character h =>
              dsimp only
              rw [h]
              exact joined
          | entity h =>
              dsimp only
              rw [h]
              exact ensures_bind fun _ => joined

theorem Leaves.mono (h : Leaves scope name t holds) {weaker : List Char → Prop}
    (implied : ∀ left, holds left → weaker left) : Leaves scope name t weaker :=
  fun budget => (h budget).mono fun result left => implied result.2 left

/-- Nothing is left but the text behind the end tag. -/
theorem leaves_endTag (proper : IsProperSpelling name) :
    Leaves scope name ('<' :: '/' :: (name ++ '>' :: following)) (· = following) := by
  rcases exists_scanToken_endTag proper following with ⟨place, scanned⟩
  intro budget
  cases budget with
  | zero => exact ensures_stop
  | succ budget =>
      rw [readContent.eq_3 _ _ _ _ _ _ _ (List.cons_ne_nil _ _)]
      refine (ensures_liftM_of_eq_ok scanned).bind ?_
      rintro _ rfl
      apply ensures_bind
      intro _
      exact .ite (fun _ => ensures_pure rfl) fun _ => ensures_stop

/-- What holds of a child holds when the content behind it has been read. -/
theorem ElementLeaves.child {ofChild : Prop} (h : ElementLeaves t behind ofChild)
    (later : Leaves scope name behind holds) :
    Leaves scope name t fun left => ofChild ∧ holds left := by
  intro budget
  cases budget with
  | zero => exact ensures_stop
  | succ budget =>
      rw [readContent.eq_3 _ _ _ _ _ _ _ h.nonempty]
      refine (ensures_liftM fun _ scanned => scanned).bind ?_
      rintro ⟨token, afterTag⟩ scanned
      rcases h.read token afterTag scanned with ⟨tag, rfl, read⟩
      apply ensures_bind
      intro _
      refine (read scope budget t).bind ?_
      rintro ⟨child, left⟩ ⟨rfl, inChild⟩
      exact (later budget).bind fun result inRest => ensures_pure ⟨inChild, inRest⟩

/-- What is left behind the content of an element, unless the element is empty. -/
inductive LeavesInside (spelling following : List Char) (holds : Prop) :
    (isEmpty : Bool) → List Char → Prop
  | empty (h : holds) : LeavesInside spelling following holds true following
  | content {behind : List Char} (h : ∀ scope, IsProperSpelling spelling →
      Leaves scope spelling behind fun left => left = following ∧ holds) :
      LeavesInside spelling following holds false behind

/-- An element that is read has names of the narrow form in its start tag. -/
theorem elementLeaves_startTag {spelling base : List Char} (h : IsSpelling spelling base)
    {pairs : List (List Char × List Char)} (hPairs : AreSpelled pairs) {isEmpty : Bool}
    {ofContent : Prop} (inside : LeavesInside spelling following ofContent isEmpty behind) :
    ElementLeaves ('<' :: (spelling ++ (attributesMarkup pairs ++ (tagEnd isEmpty ++ behind))))
      following (IsProperSpelling spelling ∧ (∀ pair ∈ pairs, IsProperSpelling pair.1) ∧
        ofContent) := by
  refine ⟨List.cons_ne_nil _ _, ?_⟩
  intro token afterTag scanned
  rcases exists_of_scanToken_startTag h hPairs scanned with
    ⟨proper, properPairs, rfl, tag, rfl, rfl, rfl⟩
  refine ⟨tag, rfl, fun scope budget place => ?_⟩
  cases budget with
  | zero => exact ensures_stop
  | succ budget =>
      rw [readElement]
      apply ensures_bind
      intro element
      generalize tag.isEmpty = isEmpty at inside
      cases inside with
      | empty holds => exact ensures_pure ⟨rfl, proper, properPairs, holds⟩
      | content inner =>
          refine (inner element.scope proper budget).bind ?_
          rintro ⟨content, left⟩ ⟨rfl, holds⟩
          exact ensures_pure ⟨rfl, proper, properPairs, holds⟩

end Content

/-! ## Whole elements -/

/-- Names that the narrow form reads in full behind their prefixes. -/
def Element.IsLegible (e : Element) : Prop :=
  ∀ name ∈ e.allNames, isProperName (Xml.localName name) = true

section Trees

variable {prefixes : Prefixes}

theorem areSpelled_spelledPairs (table : prefixes.IsTable)
    {attributes : OrderedPairs (List Char) (List Char)} (read : AreReadAttributes attributes)
    (spells : ∀ name ∈ attributes.keys, prefixes.CanSpell name) :
    AreSpelled (prefixes.spelledPairs attributes) := by
  intro pair member
  rcases List.mem_map.mp member with ⟨own, among, rfl⟩
  have key : own.1 ∈ attributes.keys := List.mem_map_of_mem among
  exact ⟨⟨_, isSpelling_spell table (spells own.1 key)⟩, read.values own among⟩

theorem areSpelled_bindingPairs (table : prefixes.IsTable) : AreSpelled prefixes.bindingPairs := by
  intro pair member
  rcases (Prefixes.opens_bindingPairs table).spellings pair member with ⟨proper, chars⟩
  exact ⟨proper.exists_isSpelling, chars⟩

/-- Proper spellings in a start tag and legible children make an element legible. -/
theorem isLegible_node (table : prefixes.IsTable) {tag : List Char}
    {attributes : OrderedPairs (List Char) (List Char)} {children : List Element}
    (hTag : prefixes.CanSpell tag) (hAttributes : ∀ name ∈ attributes.keys, prefixes.CanSpell name)
    (proper : IsProperSpelling (prefixes.spell tag))
    (properPairs : ∀ pair ∈ prefixes.spelledPairs attributes, IsProperSpelling pair.1)
    (inner : ∀ child ∈ children, child.IsLegible) (text tail : Value) :
    (Element.node tag attributes text tail children).IsLegible := by
  refine forall_mem_allNames_node.mpr ⟨?_, fun name member => ?_, inner⟩
  · exact (isSpelling_spell table hTag).isProperName_of_isProperSpelling proper
  · rcases List.mem_map.mp member with ⟨own, among, rfl⟩
    have spelled := properPairs (prefixes.spell own.1, own.2) (List.mem_map_of_mem among)
    exact (isSpelling_spell table (hAttributes own.1 member)).isProperName_of_isProperSpelling spelled

mutual

/-- An element that is read from its markup is legible, by induction on the tree. -/
theorem elementLeaves_markup (table : prefixes.IsTable)
    {bindings : List (List Char × List Char)} (hBindings : AreSpelled bindings) (e : Element)
    (read : e.IsRead) (spells : ∀ name ∈ e.allNames, prefixes.CanSpell name)
    (following : List Char) :
    ElementLeaves (prefixes.markup bindings e ++ following) following e.IsLegible := by
  cases e with
  | node tag attributes text tail children =>
      rw [Element.IsRead] at read
      rw [forall_mem_allNames_node] at spells
      rcases read with ⟨-, hAttributes, ⟨t, chars, rfl⟩, -, readChildren⟩
      have spelling := isSpelling_spell table spells.1
      have hPairs : AreSpelled (bindings ++ prefixes.spelledPairs attributes) :=
        List.forall_mem_append.mpr ⟨hBindings, areSpelled_spelledPairs table hAttributes spells.2.1⟩
      have legible : IsProperSpelling (prefixes.spell tag) ∧
          (∀ pair ∈ bindings ++ prefixes.spelledPairs attributes, IsProperSpelling pair.1) ∧
            (∀ child ∈ children, child.IsLegible) →
          (Element.node tag attributes (textValue t) tail children).IsLegible :=
        fun ⟨proper, properPairs, inner⟩ => isLegible_node table spells.1 spells.2.1 proper
          (fun pair member => properPairs pair (List.mem_append_right _ member)) inner _ _
      by_cases filled : ((textValue t).isFilled || !children.isEmpty) = true
      · rcases prefixes.exists_cons_markupAll readChildren
          ('/' :: (prefixes.spell tag ++ '>' :: following)) with
          ⟨more, cons⟩
        have content : ∀ scope, IsProperSpelling (prefixes.spell tag) →
            Leaves scope (prefixes.spell tag) (t.flatMap escapeChar ++ '<' :: more)
              fun left => left = following ∧ ∀ child ∈ children, child.IsLegible := by
          intro scope proper
          have inner := leaves_markupAll table scope proper children readChildren spells.2.2 following
          rw [cons] at inner
          exact inner.text (standsFor_flatMap_escapeChar chars more)
        rw [prefixes.markup_node_filled bindings tag attributes tail filled following,
          slotChars_textValue, cons]
        exact (elementLeaves_startTag spelling hPairs (.content content)).mono legible
      · rw [Bool.or_eq_true, not_or, isFilled_textValue] at filled
        obtain rfl : t = [] := by simpa using filled.1
        obtain rfl : children = [] := by simpa using filled.2
        have none : ∀ child ∈ ([] : List Element), child.IsLegible :=
          fun child member => absurd member List.not_mem_nil
        rw [textValue, prefixes.markup_node_empty bindings tag attributes tail following]
        exact (elementLeaves_startTag spelling hPairs (.empty none)).mono legible
  | comment content tail => exact False.elim read
  | instruction content tail => exact False.elim read

/-- Children that are read one after the other are legible. -/
theorem leaves_markupAll (table : prefixes.IsTable) (scope : Scope) {name : List Char}
    (proper : IsProperSpelling name) (children : List Element) (read : AreRead children)
    (spells : ∀ child ∈ children, ∀ name ∈ child.allNames, prefixes.CanSpell name)
    (following : List Char) :
    Leaves scope name (prefixes.markupAll children ++ '<' :: '/' :: (name ++ '>' :: following))
      fun left => left = following ∧ ∀ child ∈ children, child.IsLegible := by
  cases children with
  | nil =>
      exact (leaves_endTag proper).mono fun left same =>
        ⟨same, fun child member => absurd member List.not_mem_nil⟩
  | cons child rest =>
      rw [AreRead] at read
      rw [List.forall_mem_cons] at spells
      have later := leaves_markupAll table scope proper rest read.2 spells.2 following
      rcases prefixes.exists_cons_markupAll read.2 ('/' :: (name ++ '>' :: following)) with
        ⟨more, cons⟩
      rw [cons] at later
      have chars := areXmlChars_slotChars (isReadText_tail read.1)
      have behindChild := later.text (standsFor_flatMap_escapeChar chars more)
      have first := elementLeaves_markup table (fun pair member => absurd member List.not_mem_nil)
        child read.1 spells.1 ((slotChars child.tail).flatMap escapeChar ++ '<' :: more)
      rw [Prefixes.markupAll, List.append_assoc, List.append_assoc, cons]
      exact (first.child behindChild).mono fun left ⟨ofChild, same, ofRest⟩ =>
        ⟨same, List.forall_mem_cons.mpr ⟨ofChild, ofRest⟩⟩

end

end Trees

end Xml
end DocumentGateway
