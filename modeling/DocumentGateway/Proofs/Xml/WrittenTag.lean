import DocumentGateway.Proofs.Xml.WrittenText

namespace DocumentGateway
namespace Xml

/-!
# Reading written tags

The start tag of an element is read as the name and the attributes of the element, in a scope that
understands all prefixes.  That of the outermost element makes this scope by its bindings, the others
are read in it.  An end tag ends the content of the element that it names.
-/

/-! ## The attributes of a start tag -/

namespace Prefixes

variable {prefixes : Prefixes}

/-- Attributes of a start tag that make a scope from the scope around it. -/
structure Opens (prefixes : Prefixes) (bindings : List (List Char × List Char))
    (outer scope : Scope) : Prop where
  bound : prefixes.AreBoundBy scope
  around :
    (bindings.filterMap fun pair => (boundPrefix? pair.1).map (·, pair.2)).reverse ++ outer = scope
  spellings : ∀ pair ∈ bindings, IsProperSpelling pair.1 ∧ AreXmlChars pair.2
  binds : ∀ pair ∈ bindings, ∃ nsPrefix,
    boundPrefix? pair.1 = some nsPrefix ∧ bindingFault? nsPrefix pair.2 = none
  distinct : (bindings.map (·.1)).Nodup

theorem opens_nil {scope : Scope} (bound : prefixes.AreBoundBy scope) :
    prefixes.Opens [] scope scope where
  bound := bound
  around := rfl
  spellings := fun _ member => absurd member List.not_mem_nil
  binds := fun _ member => absurd member List.not_mem_nil
  distinct := List.nodup_nil

theorem opens_bindingPairs (table : prefixes.IsTable) :
    prefixes.Opens prefixes.bindingPairs Scope.outermost
      ((prefixes.bindingPairs.filterMap fun pair => (boundPrefix? pair.1).map (·, pair.2)).reverse ++
        Scope.outermost) where
  bound := areBoundBy_bindings table
  around := rfl
  spellings := by
    intro pair member
    rcases mem_bindingPairs member with ⟨known, among, rfl⟩
    refine ⟨?_, (table.namespaces known among).1.chars⟩
    have proper : isProperName "xmlns".toList = true := by decide
    exact .prefixed proper (table.properties_of_mem among).1
  binds := by
    intro pair member
    rcases mem_bindingPairs member with ⟨known, among, rfl⟩
    exact ⟨known.2, boundPrefix?_binding known.2, bindingFault?_of_mem table among⟩
  distinct := by
    have sorted := (List.mergeSort_perm prefixes fun a b =>
      !List.lex b.2 a.2 fun c d => c.toNat < d.toNat).map (·.2)
    have distinct := (sorted.nodup_iff).mpr table.distinct
    rw [bindingPairs, List.map_map]
    have injective : Function.Injective fun nsPrefix : List Char => "xmlns:".toList ++ nsPrefix :=
      List.append_right_injective _
    have mapped := distinct.map injective
    rwa [List.map_map] at mapped

/-- The attributes of an element that can be spelled. -/
structure SpellsAttributes (prefixes : Prefixes)
    (attributes : OrderedPairs (List Char) (List Char)) : Prop where
  read : AreReadAttributes attributes
  spells : ∀ name ∈ attributes.keys, prefixes.CanSpell name
  proper : ∀ name ∈ attributes.keys, isProperName (localName name) = true

variable {scope : Scope} {attributes : OrderedPairs (List Char) (List Char)}

theorem properties_of_mem_spelledPairs (table : prefixes.IsTable) (bound : prefixes.AreBoundBy scope)
    (h : prefixes.SpellsAttributes attributes) {pair : List Char × List Char}
    (member : pair ∈ prefixes.spelledPairs attributes) :
    IsProperSpelling pair.1 ∧ AreXmlChars pair.2 ∧ boundPrefix? pair.1 = none := by
  rcases List.mem_map.mp member with ⟨⟨name, value⟩, among, rfl⟩
  have key : name ∈ attributes.keys := List.mem_map_of_mem among
  refine ⟨?_, h.read.values (name, value) among, ?_⟩
  · exact isProperSpelling_spell table bound (h.spells name key) (h.proper name key)
  · exact boundPrefix?_spell table bound (h.spells name key) (h.read.names (name, value) among).2

/-- No two attributes are spelled alike, since each spelling is read as one name. -/
theorem nodup_spelledPairs (table : prefixes.IsTable) (bound : prefixes.AreBoundBy scope)
    (h : prefixes.SpellsAttributes attributes) :
    ((prefixes.spelledPairs attributes).map (·.1)).Nodup := by
  have spelled : (prefixes.spelledPairs attributes).map (·.1) = attributes.keys.map prefixes.spell := by
    rw [spelledPairs, List.map_map, OrderedPairs.keys, List.map_map]
    rfl
  rw [spelled]
  apply h.read.keys.map_on
  intro name member other memberOther same
  have back := expandAttribute_spell table bound (h.spells name member)
  rw [same, expandAttribute_spell table bound (h.spells other memberOther)] at back
  exact (Except.ok.inj back).symm

variable {bindings : List (List Char × List Char)} {outer : Scope}

/-- Bindings and attributes are written properly, and no name is written twice. -/
theorem properties_of_opens (table : prefixes.IsTable) (opens : prefixes.Opens bindings outer scope)
    (h : prefixes.SpellsAttributes attributes) :
    (∀ pair ∈ bindings ++ prefixes.spelledPairs attributes,
      IsProperSpelling pair.1 ∧ AreXmlChars pair.2) ∧
    ((bindings ++ prefixes.spelledPairs attributes).map (·.1)).Nodup ∧
    ∀ pair ∈ bindings ++ prefixes.spelledPairs attributes,
      (boundPrefix? pair.1).bind (bindingFault? · pair.2) = none := by
  have own : ∀ pair ∈ prefixes.spelledPairs attributes,
      IsProperSpelling pair.1 ∧ AreXmlChars pair.2 ∧ boundPrefix? pair.1 = none :=
    fun pair member => properties_of_mem_spelledPairs table opens.bound h member
  refine ⟨?_, ?_, ?_⟩
  · exact List.forall_mem_append.mpr ⟨opens.spellings, fun pair member =>
      ⟨(own pair member).1, (own pair member).2.1⟩⟩
  · rw [List.map_append, List.nodup_append']
    refine ⟨opens.distinct, nodup_spelledPairs table opens.bound h, ?_⟩
    intro name isBound isOwn
    rcases List.mem_map.mp isBound with ⟨pair, among, rfl⟩
    rcases List.mem_map.mp isOwn with ⟨other, amongOwn, same⟩
    rcases opens.binds pair among with ⟨nsPrefix, binds, -⟩
    have unbinding := (own other amongOwn).2.2
    rw [same, binds] at unbinding
    cases unbinding
  · refine List.forall_mem_append.mpr ⟨fun pair member => ?_, fun pair member => ?_⟩
    · rcases opens.binds pair member with ⟨nsPrefix, binds, accepted⟩
      rw [binds, Option.bind_some, accepted]
    · rw [(own pair member).2.2, Option.bind_none]

/-- The attributes that bind no prefix are those of the element. -/
theorem filter_spelledPairs (table : prefixes.IsTable) (opens : prefixes.Opens bindings outer scope)
    (h : prefixes.SpellsAttributes attributes) :
    (bindings ++ prefixes.spelledPairs attributes).filter
        (fun pair => (boundPrefix? pair.1).isNone) = prefixes.spelledPairs attributes := by
  have binding : ∀ pair ∈ bindings, ¬ (boundPrefix? pair.1).isNone = true := by
    intro pair member isNone
    rcases opens.binds pair member with ⟨nsPrefix, binds, -⟩
    rw [binds] at isNone
    cases isNone
  have own : ∀ pair ∈ prefixes.spelledPairs attributes, (boundPrefix? pair.1).isNone = true := by
    intro pair member
    rw [(properties_of_mem_spelledPairs table opens.bound h member).2.2]
    rfl
  rw [List.filter_append, List.filter_eq_nil_iff.mpr binding, List.filter_eq_self.mpr own,
    List.nil_append]

/-- The attributes that bind prefixes are the bindings. -/
theorem filterMap_spelledPairs (table : prefixes.IsTable)
    (opens : prefixes.Opens bindings outer scope) (h : prefixes.SpellsAttributes attributes) :
    ((bindings ++ prefixes.spelledPairs attributes).filterMap
      fun pair => (boundPrefix? pair.1).map (·, pair.2)).reverse ++ outer = scope := by
  have own : (prefixes.spelledPairs attributes).filterMap
      (fun pair => (boundPrefix? pair.1).map (·, pair.2)) = [] := by
    apply List.filterMap_eq_nil_iff.mpr
    intro pair member
    rw [(properties_of_mem_spelledPairs table opens.bound h member).2.2]
    rfl
  rw [List.filterMap_append, own, List.append_nil, opens.around]

end Prefixes

/-! ## Octets of a start tag -/

theorem escapeAttribute_ne_nil (c : Char) : escapeAttribute c ≠ [] := by
  unfold escapeAttribute
  split <;> exact List.cons_ne_nil _ _

theorem length_le_length_flatMap_escapeAttribute (value : List Char) :
    value.length ≤ (value.flatMap escapeAttribute).length := by
  induction value with
  | nil => exact Nat.le_refl 0
  | cons c rest ih =>
      have some := List.length_pos_iff.mpr (escapeAttribute_ne_nil c)
      rw [List.flatMap_cons, List.length_cons, List.length_append]
      omega

/-- Values take up no more than the characters that they are written with. -/
theorem length_flatMap_le_octets (pairs : List (List Char × List Char)) :
    (pairs.flatMap (·.2)).length ≤ TextForm.narrow.octets (attributesMarkup pairs) := by
  refine Nat.le_trans ?_ (length_le_octets _)
  induction pairs with
  | nil => exact Nat.le_refl 0
  | cons pair more ih =>
      have value := length_le_length_flatMap_escapeAttribute pair.2
      rw [attributesMarkup_cons, List.flatMap_cons, List.length_append, List.length_append,
        writeAttribute]
      simp only [List.cons_append, List.length_cons, List.length_append]
      omega

/-! ## Tags -/

/-- A character of names begins no other markup but a start tag. -/
theorem scanBracketed_of_isNameChar (f : TextForm) {c : Char}
    (h : (TextForm.wide false).isNameChar c = true) (start rest : List Char) :
    scanBracketed f start (c :: rest) = (do
      let (tag, behind) ← scanStartTag f start (c :: rest)
      return (.startTag tag, behind)) := by
  have notSlash : c ≠ '/' := ne_of_isNameChar h (by decide)
  have notMark : c ≠ '!' := ne_of_isNameChar h (by decide)
  have notQuestion : c ≠ '?' := ne_of_isNameChar h (by decide)
  unfold scanBracketed
  split
  · next same => cases same
  · next same => exact absurd (List.cons.inj same).1 notSlash
  · next same => exact absurd (List.cons.inj same).1 notMark
  · next same => exact absurd (List.cons.inj same).1 notMark
  · next same => exact absurd (List.cons.inj same).1 notMark
  · next same => exact absurd (List.cons.inj same).1 notQuestion
  · rfl

/-- A start tag is taken off the front of what is written. -/
theorem exists_scanToken_startTag {name : List Char} (proper : IsProperSpelling name)
    {pairs : List (List Char × List Char)}
    (h : ∀ pair ∈ pairs, IsProperSpelling pair.1 ∧ AreXmlChars pair.2) (isEmpty : Bool)
    (rest : List Char) :
    ∃ tag : StartTag, scanToken .narrow
        ('<' :: (name ++ (attributesMarkup pairs ++ (tagEnd isEmpty ++ rest)))) =
          .ok (.startTag tag, rest) ∧
      tag.name = name ∧ tag.isEmpty = isEmpty ∧
      tag.attributes.map (fun a => (a.name, a.value)) =
        pairs.map fun pair => (pair.1, pair.2.flatMap escapeAttribute) := by
  rcases exists_scanStartTag proper h isEmpty
    ('<' :: (name ++ (attributesMarkup pairs ++ (tagEnd isEmpty ++ rest)))) rest with
    ⟨tag, scanned, properties⟩
  refine ⟨tag, ?_, properties⟩
  rcases exists_cons_of_isProperSpelling proper with ⟨c, more, rfl, begins⟩
  have bracketed := scanBracketed_of_isNameChar .narrow (isNameChar_wide_of_isNameStart begins)
    ('<' :: (c :: more ++ (attributesMarkup pairs ++ (tagEnd isEmpty ++ rest))))
    (more ++ (attributesMarkup pairs ++ (tagEnd isEmpty ++ rest)))
  exact bracketed.trans (bind_of_eq_ok scanned _)

/-- Whether a character goes on with the name in an end tag. -/
def isInEndName (c : Char) : Bool :=
  TextForm.narrow.isNameChar c || c == ':'

theorem isInEndName_of_isProperName {name : List Char} (proper : isProperName name = true) :
    ∀ c ∈ name, isInEndName c = true := by
  cases name with
  | nil => exact absurd proper Bool.false_ne_true
  | cons c rest =>
      rw [isProperName, Bool.and_eq_true, List.all_eq_true] at proper
      refine List.forall_mem_cons.mpr ⟨?_, fun d member => ?_⟩
      · rw [isInEndName, isNameChar_narrow, isNameChar_of_isNameStart proper.1, Bool.true_or]
      · rw [isInEndName, isNameChar_narrow, proper.2 d member, Bool.true_or]

theorem isInEndName_of_isProperSpelling {name : List Char} (proper : IsProperSpelling name) :
    ∀ c ∈ name, isInEndName c = true := by
  cases proper with
  | plain h => exact isInEndName_of_isProperName h
  | prefixed hFront h =>
      refine List.forall_mem_append.mpr ⟨isInEndName_of_isProperName hFront, ?_⟩
      exact List.forall_mem_cons.mpr ⟨by decide, isInEndName_of_isProperName h⟩

/-- An end tag is taken off the front of what is written. -/
theorem exists_scanToken_endTag {name : List Char} (proper : IsProperSpelling name)
    (rest : List Char) :
    ∃ place, scanToken .narrow ('<' :: '/' :: (name ++ '>' :: rest)) =
      .ok (.endTag name place, rest) := by
  have inside := isInEndName_of_isProperSpelling proper
  rcases exists_cons_of_isProperSpelling proper with ⟨c, more, rfl, begins⟩
  rw [List.forall_mem_cons] at inside
  have ends : ∀ d others, '>' :: rest = d :: others → isInEndName d = false := by
    rintro d others ⟨⟩
    decide
  have split := takeWhile_append_of_ends inside.2 ends
  have scanned : scanEndTag .narrow ('<' :: '/' :: (c :: more ++ '>' :: rest))
      (c :: more ++ '>' :: rest) = .ok (c :: more, rest) := by
    have named : endName ('<' :: '/' :: (c :: (more ++ '>' :: rest)))
        (c :: (more ++ '>' :: rest).takeWhile isInEndName)
        ((more ++ '>' :: rest).dropWhile isInEndName) = .ok (c :: more, '>' :: rest) := by
      rw [split.1, split.2]
      rfl
    rw [List.cons_append, scanEndTag, isNameStart_narrow, if_pos begins]
    exact bind_of_eq_ok named _
  exact ⟨_, bind_of_eq_ok scanned _⟩

/-! ## Elements -/

section Elements

variable {scope outer : Scope} {name : List Char} {c : Content} {following : List Char}

/-- The content of an element ends at its end tag. -/
theorem readsAs_endTag (proper : IsProperSpelling name) :
    ReadsAs scope name ('<' :: '/' :: (name ++ '>' :: following)) .empty following := by
  rcases exists_scanToken_endTag proper following with ⟨place, scanned⟩
  have split : '<' :: '/' :: (name ++ '>' :: following) =
      ('<' :: '/' :: (name ++ ['>'])) ++ following := by
    simp only [List.cons_append, List.append_assoc, List.nil_append]
  intro budget tally enough covers
  have coversBehind : tally.Covers following := by
    rw [split, Tally.Covers, TextForm.octets_append] at covers
    unfold Tally.Covers
    omega
  cases budget with
  | zero => exact absurd enough (Nat.not_succ_le_zero _)
  | succ budget =>
      refine ⟨tally.upTo .narrow following, ?_, coversBehind⟩
      rw [readContent.eq_3 _ _ _ _ _ _ _ (List.cons_ne_nil _ _)]
      refine (Reading.bind_of_eq_ok (Reading.liftM_of_eq_ok scanned tally) _).trans ?_
      refine (Reading.bind_of_eq_ok (countToken_of_covers coversBehind) _).trans ?_
      dsimp only
      rw [if_pos rfl]
      rfl

/-- A text begins with the start tag of an element, which is read with everything in it, and what
follows the element is left. -/
structure ElementReadsAs (outer : Scope) (t : List Char) (tag : StartTag) (behind : List Char)
    (e : Element) (following : List Char) : Prop where
  scanned : scanToken .narrow t = .ok (.startTag tag, behind)
  shorter : behind.length + 2 ≤ t.length
  fewer : TextForm.narrow.octets behind ≤ TextForm.narrow.octets t
  left : following.length ≤ behind.length
  read : ∀ budget (tally : Tally), behind.length < budget → tally.Covers t →
    ∃ after, readElement (.empty false) budget .narrow [] outer t tag behind
      (tally.upTo .narrow behind) = .ok ((e, following), after) ∧ after.Covers following

/-- A child comes before the content behind it. -/
theorem ElementReadsAs.child {t : List Char} {tag : StartTag} {behind : List Char} {e : Element}
    {final : List Char} (h : ElementReadsAs scope t tag behind e following)
    (later : ReadsAs scope name following c final) :
    ReadsAs scope name t (c.behindChild e) final := by
  have shorter := h.shorter
  have fewer := h.fewer
  have left := h.left
  intro budget tally enough covers
  have nonempty : t ≠ [] := by
    rintro rfl
    rw [List.length_nil] at shorter
    omega
  have coversBehind : tally.Covers behind := Nat.le_trans (Nat.add_le_add_left fewer _) covers
  cases budget with
  | zero => omega
  | succ budget =>
      rcases h.read budget tally (by omega) covers with ⟨between, readChild, coversFollowing⟩
      rcases later budget between (by omega) coversFollowing with ⟨after, readRest, coversFinal⟩
      refine ⟨after, ?_, coversFinal⟩
      rw [readContent.eq_3 _ _ _ _ _ _ _ nonempty]
      refine (Reading.bind_of_eq_ok (Reading.liftM_of_eq_ok h.scanned tally) _).trans ?_
      refine (Reading.bind_of_eq_ok (countToken_of_covers coversBehind) _).trans ?_
      refine (Reading.bind_of_eq_ok readChild _).trans ?_
      exact Reading.bind_of_eq_ok readRest _

/-- What follows a start tag is read as the content of its element, unless the tag is that of an
empty element. -/
inductive ReadsInside (scope : Scope) (name : List Char) :
    (isEmpty : Bool) → List Char → Content → List Char → Prop
  | empty {behind : List Char} : ReadsInside scope name true behind .empty behind
  | content {behind : List Char} {c : Content} {following : List Char}
      (h : ReadsAs scope name behind c following) (left : following.length ≤ behind.length) :
      ReadsInside scope name false behind c following

theorem ReadsInside.left {isEmpty : Bool} {behind : List Char}
    (h : ReadsInside scope name isEmpty behind c following) : following.length ≤ behind.length := by
  cases h with
  | empty => exact Nat.le_refl _
  | content h left => exact left

/-- An element whose start tag has been read is read with what is inside of it. -/
theorem exists_readElement {startTag : StartTag} {tag : List Char}
    {attributes : OrderedPairs (List Char) (List Char)} {place behind : List Char}
    {tally between : Tally}
    (opened : openElement (.empty false) .narrow [] outer place startTag tally =
      .ok (⟨tag, attributes, scope⟩, between))
    (inside : ReadsInside scope startTag.name startTag.isEmpty behind c following)
    {budget : Nat} (enough : behind.length < budget) (covers : between.Covers behind) :
    ∃ after, readElement (.empty false) budget .narrow [] outer place startTag behind tally =
      .ok ((c.toElement tag attributes, following), after) ∧ after.Covers following := by
  cases budget with
  | zero => exact absurd enough (Nat.not_lt_zero _)
  | succ budget =>
      rw [readElement]
      generalize isEmpty : startTag.isEmpty = empty at inside
      cases inside with
      | empty =>
          refine ⟨between, ?_, covers⟩
          refine (Reading.bind_of_eq_ok opened _).trans ?_
          rw [if_pos rfl]
          rfl
      | content h left =>
          rcases h budget between (Nat.le_of_lt_succ enough) covers with
            ⟨after, read, coversFollowing⟩
          refine ⟨after, ?_, coversFollowing⟩
          refine (Reading.bind_of_eq_ok opened _).trans ?_
          rw [if_neg Bool.false_ne_true]
          exact Reading.bind_of_eq_ok read _

/-- An element is read from its start tag and from what follows the tag. -/
theorem exists_elementReadsAs {prefixes : Prefixes} (table : prefixes.IsTable)
    {bindings : List (List Char × List Char)} (opens : prefixes.Opens bindings outer scope)
    {tag : List Char} (spells : prefixes.CanSpell tag) (proper : isProperName (localName tag) = true)
    {attributes : OrderedPairs (List Char) (List Char)} (h : prefixes.SpellsAttributes attributes)
    {isEmpty : Bool} {behind : List Char}
    (inside : ReadsInside scope (prefixes.spell tag) isEmpty behind c following) :
    ∃ startTag, ElementReadsAs outer
      ('<' :: (prefixes.spell tag ++
        (attributesMarkup (bindings ++ prefixes.spelledPairs attributes) ++
          (tagEnd isEmpty ++ behind))))
      startTag behind (c.toElement tag attributes) following := by
  rcases Prefixes.properties_of_opens table opens h with ⟨spelled, distinct, binds⟩
  have around := Prefixes.filterMap_spelledPairs table opens h
  have expanded := expandAttributes_spelledPairs table opens.bound h.read.keys
    (fun _ _ => List.not_mem_nil) h.spells
  rw [← Prefixes.filter_spelledPairs table opens h] at expanded
  generalize bindings ++ prefixes.spelledPairs attributes = pairs at *
  have values := length_flatMap_le_octets pairs
  have properTag := Prefixes.isProperSpelling_spell table opens.bound spells proper
  rcases exists_scanToken_startTag properTag spelled isEmpty behind with
    ⟨startTag, scanned, named, rfl, written⟩
  have tagged := Prefixes.expandElement_spell table opens.bound spells
  rw [← named] at inside tagged
  refine ⟨startTag, scanned, ?_, ?_, inside.left, ?_⟩
  · have ended : 1 ≤ (tagEnd startTag.isEmpty).length := by
      unfold tagEnd
      split <;> decide
    simp only [List.length_cons, List.length_append]
    omega
  · simp only [TextForm.octets_cons, TextForm.octets_append]
    omega
  · intro budget tally enough covers
    simp only [Tally.Covers, TextForm.octets_cons, TextForm.octets_append] at covers
    have room : (tally.upTo .narrow behind).indirect + (pairs.flatMap (·.2)).length ≤
        (tally.upTo .narrow behind).direct.get := by
      change tally.indirect + _ ≤ tally.whole - TextForm.narrow.octets behind + tally.again
      omega
    obtain ⟨between, opened, grown⟩ := exists_openElement
      ('<' :: (prefixes.spell tag ++ (attributesMarkup pairs ++ (tagEnd startTag.isEmpty ++ behind))))
      written (fun pair member => (spelled pair member).2) distinct binds around tagged expanded
      room
    have coversBehind : between.Covers behind := by
      have whole : between.whole = tally.whole := grown.whole
      have indirect : between.indirect ≤ tally.indirect + (pairs.flatMap (·.2)).length :=
        grown.indirect
      unfold Tally.Covers
      omega
    exact exists_readElement opened inside enough coversBehind

end Elements

end Xml
end DocumentGateway
