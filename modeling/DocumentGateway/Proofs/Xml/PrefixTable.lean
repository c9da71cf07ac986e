import DocumentGateway.Proofs.Number.DigitRow
import DocumentGateway.Proofs.Xml.QualifiedName
import Mathlib.Data.List.Nodup

namespace DocumentGateway
namespace Xml

/-!
# Prefixes of namespaces

No two namespaces get the same prefix: those with prefixes of their own have different ones, and the
others are numbered.  Where all prefixes are bound to their namespaces, a name as it is spelled is
therefore read as the same name.
-/

/-! ## Spelled names -/

/-- A name that the narrow form reads in full, with a prefix or without. -/
inductive IsProperSpelling : List Char → Prop
  | plain {base : List Char} (h : isProperName base = true) : IsProperSpelling base
  | prefixed {front base : List Char} (hFront : isProperName front = true)
      (h : isProperName base = true) : IsProperSpelling (front ++ ':' :: base)

/-- The prefix of a namespace that has none of its own. -/
def numberedPrefix (n : Nat) : List Char :=
  'n' :: 's' :: decimalDigits n

theorem numberedPrefix_inj {m n : Nat} (same : numberedPrefix m = numberedPrefix n) : m = n := by
  have digits : decimalDigits m = decimalDigits n := (List.cons.inj (List.cons.inj same).2).2
  rw [← digitsValue_decimalDigits m, digits, digitsValue_decimalDigits]

theorem isNameChar_of_isAsciiDigit {c : Char} (h : isAsciiDigit c = true) : isNameChar c = true := by
  have digit : c.isDigit = true := h
  have ascii : c.toNat < 0x80 := by
    simp only [Char.isDigit, Bool.and_eq_true, decide_eq_true_eq] at digit
    have upper : c.toNat ≤ '9'.toNat := digit.2
    exact Nat.lt_of_le_of_lt upper (by decide)
  unfold isNameChar
  rw [if_pos ascii, Char.isAlphanum, digit, Bool.or_true, Bool.true_or, Bool.true_or, Bool.true_or]

theorem isProperName_numberedPrefix (n : Nat) : isProperName (numberedPrefix n) = true := by
  rw [numberedPrefix, isProperName, Bool.and_eq_true, List.all_eq_true]
  refine ⟨by decide, List.forall_mem_cons.mpr ⟨by decide, fun c member => ?_⟩⟩
  exact isNameChar_of_isAsciiDigit (isAsciiDigit_of_mem_decimalDigits n c member)

/-! ## Namespaces with prefixes of their own -/

theorem Prefixes.mem_of_assigned? {prefixes : Prefixes} {uri found : List Char}
    (h : prefixes.assigned? uri = some found) : (uri, found) ∈ prefixes := by
  rcases Option.map_eq_some_iff.mp h with ⟨⟨other, given⟩, among, rfl⟩
  have holds := List.find?_some among
  have same : other = uri := of_decide_eq_true holds
  exact same ▸ List.mem_of_find?_eq_some among

theorem Prefixes.exists_assigned?_of_mem {prefixes : Prefixes} {uri given : List Char}
    (h : (uri, given) ∈ prefixes) : ∃ found, prefixes.assigned? uri = some found := by
  have isSome : (prefixes.find? fun known => known.1 = uri).isSome = true :=
    List.find?_isSome.mpr ⟨_, h, decide_eq_true rfl⟩
  rcases Option.isSome_iff_exists.mp isSome with ⟨known, found⟩
  exact ⟨known.2, Option.map_eq_some_iff.mpr ⟨known, found, rfl⟩⟩

theorem assigned?_xmlUri : wellKnownPrefixes.assigned? xmlUri = some "xml".toList := by
  decide

/-- Prefixes of this kind are names that no number is part of and that bind nothing. -/
theorem properties_of_mem_wellKnownPrefixes :
    ∀ known ∈ wellKnownPrefixes, isProperName known.2 = true ∧ known.2.head? ≠ some 'n' ∧
      known.2 ≠ "xmlns".toList ∧ (known.2 = "xml".toList → known.1 = xmlUri) := by
  decide

theorem nodup_wellKnownPrefixes : (wellKnownPrefixes.map (·.2)).Nodup := by
  decide

/-- No prefix of this kind belongs to two namespaces. -/
theorem eq_of_mem_wellKnownPrefixes {uri other chosen : List Char}
    (h : (uri, chosen) ∈ wellKnownPrefixes) (hOther : (other, chosen) ∈ wellKnownPrefixes) :
    uri = other :=
  congrArg Prod.fst (List.inj_on_of_nodup_map nodup_wellKnownPrefixes h hOther rfl)

/-! ## The table -/

namespace Prefixes

variable {prefixes : Prefixes}

/-- The prefixes of different namespaces, each with its namespace.  The namespace that `xml` stands
for is not among them. -/
structure IsTable (prefixes : Prefixes) : Prop where
  distinct : (prefixes.map (·.2)).Nodup
  namespaces : ∀ known ∈ prefixes, IsNamespace known.1 ∧ known.1 ≠ xmlUri
  origins : ∀ known ∈ prefixes, known ∈ wellKnownPrefixes ∨
    ∃ i < prefixes.length, known.2 = numberedPrefix i

/-- A namespace has a prefix, in the table or from the outset. -/
def Covers (prefixes : Prefixes) (uri : List Char) : Prop :=
  uri = xmlUri ∨ ∃ chosen, (uri, chosen) ∈ prefixes

theorem isTable_nil : IsTable [] where
  distinct := List.nodup_nil
  namespaces := fun _ member => absurd member List.not_mem_nil
  origins := fun _ member => absurd member List.not_mem_nil

theorem IsTable.properties_of_mem (table : prefixes.IsTable) {known : List Char × List Char}
    (member : known ∈ prefixes) :
    isProperName known.2 = true ∧ known.2 ≠ "xmlns".toList ∧ known.2 ≠ "xml".toList := by
  rcases table.origins known member with wellKnown | ⟨i, -, numbered⟩
  · have properties := properties_of_mem_wellKnownPrefixes known wellKnown
    refine ⟨properties.1, properties.2.2.1, fun isXml => ?_⟩
    exact (table.namespaces known member).2 (properties.2.2.2 isXml)
  · rw [numbered]
    refine ⟨isProperName_numberedPrefix i, fun same => ?_, fun same => ?_⟩
    · exact absurd (List.cons.inj same).1 (by decide)
    · exact absurd (List.cons.inj same).1 (by decide)

/-- One more prefix is taken into the table, provided that no other namespace has it. -/
theorem IsTable.append (table : prefixes.IsTable) {uri chosen : List Char} (hUri : IsNamespace uri)
    (notXml : uri ≠ xmlUri) (isNew : chosen ∉ prefixes.map (·.2))
    (origin : (uri, chosen) ∈ wellKnownPrefixes ∨ chosen = numberedPrefix prefixes.length) :
    IsTable (prefixes ++ [(uri, chosen)]) where
  distinct := by
    rw [List.map_append, List.nodup_append']
    refine ⟨table.distinct, List.nodup_singleton _, ?_⟩
    exact List.disjoint_singleton.mpr isNew
  namespaces := List.forall_mem_append.mpr ⟨table.namespaces, List.forall_mem_singleton.mpr ⟨hUri, notXml⟩⟩
  origins := by
    rw [List.length_append, List.length_singleton]
    refine List.forall_mem_append.mpr ⟨fun known member => ?_, List.forall_mem_singleton.mpr ?_⟩
    · rcases table.origins known member with wellKnown | ⟨i, below, numbered⟩
      · exact Or.inl wellKnown
      · exact Or.inr ⟨i, Nat.lt_succ_of_lt below, numbered⟩
    · exact origin.imp_right fun numbered => ⟨prefixes.length, Nat.lt_succ_self _, numbered⟩

theorem prefixFor_of_assigned?_eq_none {uri : List Char} (new : prefixes.assigned? uri = none) :
    prefixes.prefixFor uri =
      (wellKnownPrefixes.assigned? uri).getD (numberedPrefix prefixes.length) := by
  unfold prefixFor
  rw [new]
  cases wellKnownPrefixes.assigned? uri with
  | none => rfl
  | some own => rfl

/-- Only the namespace that `xml` stands for can get that prefix. -/
theorem eq_xmlUri_of_prefixFor {uri : List Char} (new : prefixes.assigned? uri = none)
    (isXml : prefixes.prefixFor uri = "xml".toList) : uri = xmlUri := by
  rw [prefixFor_of_assigned?_eq_none new] at isXml
  cases wellKnown : wellKnownPrefixes.assigned? uri with
  | none =>
      rw [wellKnown] at isXml
      exact absurd (List.cons.inj isXml).1 (by decide)
  | some own =>
      rw [wellKnown] at isXml
      exact (properties_of_mem_wellKnownPrefixes _ (mem_of_assigned? wellKnown)).2.2.2 isXml

theorem isTable_addUri (table : prefixes.IsTable) {uri : List Char} (hUri : IsNamespace uri) :
    (prefixes.addUri uri).IsTable := by
  unfold addUri
  dsimp only
  cases assigned : prefixes.assigned? uri with
  | some known => exact table
  | none =>
      have chosen := prefixFor_of_assigned?_eq_none assigned
      split
      · exact table
      · next isNew =>
          have notXml : uri ≠ xmlUri := by
            rintro rfl
            rw [assigned?_xmlUri] at chosen
            exact isNew (by rw [chosen]; rfl)
          rw [chosen]
          cases wellKnown : wellKnownPrefixes.assigned? uri with
          | none =>
              refine table.append hUri notXml (fun member => ?_) (Or.inr rfl)
              rcases List.mem_map.mp member with ⟨known, among, same⟩
              rcases table.origins known among with ofItsOwn | ⟨i, below, numbered⟩
              · apply (properties_of_mem_wellKnownPrefixes known ofItsOwn).2.1
                rw [same]
                rfl
              · have alike := numberedPrefix_inj (numbered.symm.trans same)
                omega
          | some own =>
              have ownMember := mem_of_assigned? wellKnown
              refine table.append hUri notXml (fun member => ?_) (Or.inl ownMember)
              rcases List.mem_map.mp member with ⟨⟨other, given⟩, among, same⟩
              obtain rfl : given = own := same
              rcases table.origins _ among with ofItsOwn | ⟨i, below, numbered⟩
              · have alike := eq_of_mem_wellKnownPrefixes ofItsOwn ownMember
                rcases exists_assigned?_of_mem (alike ▸ among) with ⟨found, isAssigned⟩
                rw [assigned] at isAssigned
                cases isAssigned
              · apply (properties_of_mem_wellKnownPrefixes _ ownMember).2.1
                exact congrArg List.head? numbered

theorem covers_addUri (prefixes : Prefixes) (uri : List Char) :
    (prefixes.addUri uri).Covers uri := by
  unfold addUri
  dsimp only
  cases assigned : prefixes.assigned? uri with
  | some known => exact Or.inr ⟨known, mem_of_assigned? assigned⟩
  | none =>
      split
      · next isXml =>
          have chosen : prefixes.prefixFor uri = "xml".toList := by simpa using isXml
          exact Or.inl (eq_xmlUri_of_prefixFor assigned chosen)
      · exact Or.inr ⟨_, List.mem_append_right _ (List.mem_singleton.mpr rfl)⟩

theorem Covers.addUri {uri : List Char} (h : prefixes.Covers uri) (other : List Char) :
    (prefixes.addUri other).Covers uri := by
  unfold Prefixes.addUri
  dsimp only
  split
  · exact h
  · exact h.imp_right fun ⟨chosen, member⟩ => ⟨chosen, List.mem_append_left _ member⟩

/-- A name can be spelled: it is in no namespace or in one that has a prefix. -/
inductive CanSpell (prefixes : Prefixes) : List Char → Prop
  | plain {base : List Char} (h : IsNamePart base) : CanSpell prefixes base
  | inNamespace {uri base : List Char} (covered : prefixes.Covers uri) (hUri : IsNamespace uri)
      (h : IsNamePart base) : CanSpell prefixes (expandedName uri base)

theorem CanSpell.addUri {name : List Char} (h : prefixes.CanSpell name) (other : List Char) :
    (prefixes.addUri other).CanSpell name := by
  cases h with
  | plain part => exact .plain part
  | inNamespace covered hUri part => exact .inNamespace (covered.addUri other) hUri part

/-- The names of elements that are read get a table of prefixes that spells all of them. -/
theorem exists_table_of_addNames (table : prefixes.IsTable) {names : List (List Char)}
    (expanded : ∀ name ∈ names, IsExpanded name) :
    ∃ more : Prefixes, prefixes.addNames names = .ok more ∧ more.IsTable ∧
      (∀ name, prefixes.CanSpell name → more.CanSpell name) ∧ ∀ name ∈ names, more.CanSpell name := by
  induction names generalizing prefixes with
  | nil => exact ⟨prefixes, rfl, table, fun _ h => h, fun _ member => absurd member List.not_mem_nil⟩
  | cons name rest ih =>
      rw [List.forall_mem_cons] at expanded
      rcases expanded with ⟨first, later⟩
      -- The table behind the first name, with which the others go on.
      have stepped : ∃ between : Prefixes,
          prefixes.addNames (name :: rest) = between.addNames rest ∧ between.IsTable ∧
            (∀ name, prefixes.CanSpell name → between.CanSpell name) ∧ between.CanSpell name := by
        cases first with
        | plain part =>
            refine ⟨prefixes, ?_, table, fun _ h => h, .plain part⟩
            rw [addNames, List.foldlM_cons, uriOf_of_isNamePart part]
            rfl
        | @inNamespace uri base hUri part =>
            refine ⟨prefixes.addUri uri, ?_, isTable_addUri table hUri, fun _ h => h.addUri uri,
              .inNamespace (covers_addUri prefixes uri) hUri part⟩
            rw [addNames, List.foldlM_cons, uriOf_expandedName part]
            rfl
      rcases stepped with ⟨between, added, hBetween, kept, hName⟩
      rcases ih hBetween later with ⟨more, result, hMore, still, all⟩
      refine ⟨more, added.trans result, hMore, fun other h => still other (kept other h), ?_⟩
      exact List.forall_mem_cons.mpr ⟨still name hName, all⟩

/-! ## Names there and back -/

/-- A scope in which the prefixes of a table have their meaning. -/
structure AreBoundBy (prefixes : Prefixes) (scope : Scope) : Prop where
  bound : ∀ known ∈ prefixes, scope.uri? known.2 = some known.1
  xml : scope.uri? "xml".toList = some xmlUri
  default : scope.uri? [] = none

/-- A namespace has a proper prefix, which a scope understands. -/
theorem IsTable.uri?_prefixFor (table : prefixes.IsTable) {scope : Scope}
    (bound : prefixes.AreBoundBy scope) {uri : List Char} (covered : prefixes.Covers uri) :
    scope.uri? (prefixes.prefixFor uri) = some uri ∧
      isProperName (prefixes.prefixFor uri) = true ∧ prefixes.prefixFor uri ≠ "xmlns".toList := by
  cases assigned : prefixes.assigned? uri with
  | some chosen =>
      have member := mem_of_assigned? assigned
      have found : prefixes.prefixFor uri = chosen := by
        unfold prefixFor
        rw [assigned]
      rw [found]
      have properties := table.properties_of_mem member
      exact ⟨bound.bound _ member, properties.1, properties.2.1⟩
  | none =>
      have isXml : uri = xmlUri := by
        rcases covered with isXml | ⟨chosen, member⟩
        · exact isXml
        · rcases exists_assigned?_of_mem member with ⟨found, isAssigned⟩
          rw [assigned] at isAssigned
          cases isAssigned
      subst isXml
      have found : prefixes.prefixFor xmlUri = "xml".toList := by
        rw [prefixFor_of_assigned?_eq_none assigned, assigned?_xmlUri]
        rfl
      rw [found]
      exact ⟨bound.xml, by decide, by decide⟩

theorem spell_of_isNamePart {base : List Char} (h : IsNamePart base) :
    prefixes.spell base = base := by
  rw [spell, uriOf_of_isNamePart h]

theorem spell_expandedName {uri base : List Char} (h : IsNamePart base) :
    prefixes.spell (expandedName uri base) = prefixes.prefixFor uri ++ ':' :: base := by
  rw [spell, uriOf_expandedName h, localName_expandedName h]

variable {scope : Scope} {name : List Char}

/-- The name of an element, as it is spelled, is read as the name again. -/
theorem expandElement_spell (table : prefixes.IsTable) (bound : prefixes.AreBoundBy scope)
    (h : prefixes.CanSpell name) : expandElement scope (prefixes.spell name) = .ok name := by
  cases h with
  | plain part =>
      rw [spell_of_isNamePart part, expandElement, splitName_of_not_mem part.colon_not_mem]
      dsimp only
      rw [bound.default]
  | @inNamespace uri base covered hUri part =>
      rcases table.uri?_prefixFor bound covered with ⟨understood, proper, -⟩
      have unsplit := (isNamePart_of_isProperName proper).colon_not_mem
      rw [spell_expandedName part, expandElement, splitName_append unsplit]
      dsimp only
      rw [understood]

/-- The name of an attribute, as it is spelled, is read as the name again. -/
theorem expandAttribute_spell (table : prefixes.IsTable) (bound : prefixes.AreBoundBy scope)
    (h : prefixes.CanSpell name) : expandAttribute scope (prefixes.spell name) = .ok name := by
  cases h with
  | plain part =>
      rw [spell_of_isNamePart part, expandAttribute, splitName_of_not_mem part.colon_not_mem]
  | @inNamespace uri base covered hUri part =>
      rcases table.uri?_prefixFor bound covered with ⟨understood, proper, -⟩
      have unsplit := (isNamePart_of_isProperName proper).colon_not_mem
      rw [spell_expandedName part, expandAttribute, splitName_append unsplit]
      dsimp only
      rw [understood]

/-- No attribute of an element is taken for a binding. -/
theorem boundPrefix?_spell (table : prefixes.IsTable) (bound : prefixes.AreBoundBy scope)
    (h : prefixes.CanSpell name) (different : name ≠ "xmlns".toList) :
    boundPrefix? (prefixes.spell name) = none := by
  cases h with
  | plain part =>
      rw [spell_of_isNamePart part, boundPrefix?, splitName_of_not_mem part.colon_not_mem]
      exact if_neg different
  | @inNamespace uri base covered hUri part =>
      rcases table.uri?_prefixFor bound covered with ⟨-, proper, notXmlns⟩
      have unsplit := (isNamePart_of_isProperName proper).colon_not_mem
      rw [spell_expandedName part, boundPrefix?, splitName_append unsplit]
      exact if_neg notXmlns

/-- A name whose local part is proper is spelled properly. -/
theorem isProperSpelling_spell (table : prefixes.IsTable) (bound : prefixes.AreBoundBy scope)
    (h : prefixes.CanSpell name) (proper : isProperName (localName name) = true) :
    IsProperSpelling (prefixes.spell name) := by
  cases h with
  | plain part =>
      rw [spell_of_isNamePart part]
      rw [localName_of_isNamePart part] at proper
      exact .plain proper
  | @inNamespace uri base covered hUri part =>
      rw [localName_expandedName part] at proper
      rw [spell_expandedName part]
      exact .prefixed (table.uri?_prefixFor bound covered).2.1 proper

/-! ## The bindings of a table -/

/-- The attributes that bind the prefixes of a table, in the order in which they are written. -/
def bindingPairs (prefixes : Prefixes) : List (List Char × List Char) :=
  (prefixes.mergeSort fun a b => !List.lex b.2 a.2 fun c d => c.toNat < d.toNat).map fun known =>
    ("xmlns:".toList ++ known.2, known.1)

theorem mem_bindingPairs {pair : List Char × List Char} (member : pair ∈ prefixes.bindingPairs) :
    ∃ known ∈ prefixes, pair = ("xmlns:".toList ++ known.2, known.1) := by
  rcases List.mem_map.mp member with ⟨known, among, same⟩
  exact ⟨known, List.mem_mergeSort.mp among, same.symm⟩

theorem boundPrefix?_binding (nsPrefix : List Char) :
    boundPrefix? ("xmlns:".toList ++ nsPrefix) = some nsPrefix := by
  have split : splitName ("xmlns".toList ++ ':' :: nsPrefix) = (some "xmlns".toList, nsPrefix) :=
    splitName_append (by decide) nsPrefix
  change boundPrefix? ("xmlns".toList ++ ':' :: nsPrefix) = _
  rw [boundPrefix?, split]
  exact if_pos rfl

/-- What the written bindings bind. -/
theorem filterMap_bindingPairs (prefixes : Prefixes) :
    (prefixes.bindingPairs.filterMap fun pair => (boundPrefix? pair.1).map (·, pair.2)) =
      (prefixes.mergeSort fun a b => !List.lex b.2 a.2 fun c d => c.toNat < d.toNat).map
        fun known => (known.2, known.1) := by
  have each : (fun pair : List Char × List Char => (boundPrefix? pair.1).map (·, pair.2)) ∘
      (fun known : List Char × List Char => ("xmlns:".toList ++ known.2, known.1)) =
        some ∘ fun known => (known.2, known.1) := by
    funext known
    simp only [Function.comp_apply, boundPrefix?_binding, Option.map_some]
  rw [bindingPairs, List.filterMap_map, each, List.filterMap_eq_map]

theorem bindingFault?_of_mem (table : prefixes.IsTable) {known : List Char × List Char}
    (member : known ∈ prefixes) : bindingFault? known.2 known.1 = none := by
  rcases table.namespaces known member with ⟨space, notXmlUri⟩
  rcases table.properties_of_mem member with ⟨-, notXmlns, notXml⟩
  have unbraced : known.1.contains '\x7d' = false :=
    Bool.eq_false_iff.mpr fun braced => space.unbraced (List.contains_iff_mem.mp braced)
  have notReserved : ¬ (known.1 = xmlUri ∨ known.1 = xmlnsUri) := by
    rintro (isXml | isXmlns)
    · exact notXmlUri isXml
    · exact space.unreserved isXmlns
  unfold bindingFault?
  rw [if_neg fun empty => space.nonempty empty.2, if_neg notXmlns, unbraced,
    if_neg Bool.false_ne_true, if_neg notXml, if_neg notReserved]

end Prefixes

/-- In a scope that binds every prefix once, each prefix has the namespace of its binding. -/
theorem Scope.uri?_of_mem {scope : Scope} (distinct : (scope.map (·.1)).Nodup)
    {nsPrefix uri : List Char} (member : (nsPrefix, uri) ∈ scope) (filled : uri ≠ []) :
    scope.uri? nsPrefix = some uri := by
  have isSome : (scope.find? fun binding => binding.1 = nsPrefix).isSome = true :=
    List.find?_isSome.mpr ⟨_, member, decide_eq_true rfl⟩
  rcases Option.isSome_iff_exists.mp isSome with ⟨binding, found⟩
  have holds := List.find?_some found
  have same : binding = (nsPrefix, uri) :=
    List.inj_on_of_nodup_map distinct (List.mem_of_find?_eq_some found) member
      (of_decide_eq_true holds)
  rw [Scope.uri?, found, same, Option.bind_some]
  exact if_neg filled

namespace Prefixes

variable {prefixes : Prefixes}

/-- Behind the bindings of the outermost element all prefixes have their meaning. -/
theorem areBoundBy_bindings (table : prefixes.IsTable) :
    prefixes.AreBoundBy
      ((prefixes.bindingPairs.filterMap fun pair => (boundPrefix? pair.1).map (·, pair.2)).reverse ++
        Scope.outermost) := by
  rw [filterMap_bindingPairs]
  have sorted := List.mergeSort_perm prefixes fun a b => !List.lex b.2 a.2 fun c d => c.toNat < d.toNat
  generalize prefixes.mergeSort (fun a b => !List.lex b.2 a.2 fun c d => c.toNat < d.toNat) = ordered at *
  have keys : (((ordered.map fun known => (known.2, known.1)).reverse ++ Scope.outermost).map (·.1)).Perm
      ("xml".toList :: prefixes.map (·.2)) := by
    rw [List.map_append, List.map_reverse, List.map_map]
    refine List.perm_append_comm.trans (List.Perm.cons _ ?_)
    exact (List.reverse_perm _).trans (sorted.map _)
  have distinct : (((ordered.map fun known => (known.2, known.1)).reverse ++
      Scope.outermost).map (·.1)).Nodup := by
    rw [keys.nodup_iff, List.nodup_cons]
    refine ⟨fun member => ?_, table.distinct⟩
    rcases List.mem_map.mp member with ⟨known, among, isXml⟩
    exact (table.properties_of_mem among).2.2 isXml
  refine ⟨fun known member => ?_, ?_, ?_⟩
  · refine Scope.uri?_of_mem distinct ?_ (table.namespaces known member).1.nonempty
    refine List.mem_append_left _ (List.mem_reverse.mpr (List.mem_map.mpr ⟨known, ?_, rfl⟩))
    exact sorted.mem_iff.mpr member
  · refine Scope.uri?_of_mem distinct (List.mem_append_right _ ?_) isNamespace_xmlUri.nonempty
    exact List.mem_singleton.mpr rfl
  · have absent : ∀ binding ∈ (ordered.map fun known => (known.2, known.1)).reverse ++
        Scope.outermost, ¬ (decide (binding.1 = []) = true) := by
      intro binding member empty
      have key : [] ∈ "xml".toList :: prefixes.map (·.2) := by
        rw [← keys.mem_iff, ← of_decide_eq_true empty]
        exact List.mem_map_of_mem member
      rcases List.mem_cons.mp key with isXml | later
      · exact absurd isXml (by decide)
      · rcases List.mem_map.mp later with ⟨known, among, same⟩
        have proper := (table.properties_of_mem among).1
        rw [same] at proper
        exact absurd proper (by decide)
    rw [Scope.uri?, List.find?_eq_none.mpr absent]
    rfl

end Prefixes

end Xml
end DocumentGateway
