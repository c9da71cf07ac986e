import DocumentGateway.Proofs.Xml.ReadProlog
import DocumentGateway.Xml.Reader

namespace DocumentGateway
namespace Xml

/-!
# What reading gives

An element that is read has nothing but elements in it.  Their names and those of their attributes
are in namespaces that prefixes can be bound to, or in none, no attribute occurs twice, and all
texts hold characters of XML only.
-/

/-- What stands between two tags that are read: characters, or nothing. -/
def IsReadText (v : Value) : Prop :=
  ∃ t, AreXmlChars t ∧ v = textValue t

/-- The attributes of an element that is read.  None of them binds a prefix. -/
structure AreReadAttributes (attributes : OrderedPairs (List Char) (List Char)) : Prop where
  keys : attributes.keys.Nodup
  names : ∀ pair ∈ attributes, IsExpanded pair.1 ∧ pair.1 ≠ "xmlns".toList
  values : ∀ pair ∈ attributes, AreXmlChars pair.2

mutual

/-- What an element is like that is read. -/
def Element.IsRead : Element → Prop
  | .node tag attributes text tail children =>
    IsExpanded tag ∧ AreReadAttributes attributes ∧ IsReadText text ∧ IsReadText tail ∧
      AreRead children
  | .comment _ _ => False
  | .instruction _ _ => False

def AreRead : List Element → Prop
  | [] => True
  | child :: rest => child.IsRead ∧ AreRead rest

end

theorem areRead_iff (children : List Element) :
    AreRead children ↔ ∀ child ∈ children, child.IsRead := by
  induction children with
  | nil => simp [AreRead]
  | cons child rest ih => simp [AreRead, ih]

/-! ## Attributes -/

/-- An attribute as it is written, with the value that is read for it. -/
structure IsReadPair (pair : List Char × List Char) : Prop where
  name : IsQualified pair.1
  value : AreXmlChars pair.2
  binding : ∀ nsPrefix, boundPrefix? pair.1 = some nsPrefix → pair.2 = [] ∨ IsNamespace pair.2

theorem isReadPair_of_checkBinding {home name value : List Char} (qualified : IsQualified name)
    (chars : AreXmlChars value) (h : readAttributes.checkBinding home name value = .ok ()) :
    IsReadPair (name, value) := by
  refine ⟨qualified, chars, fun nsPrefix bound => ?_⟩
  unfold readAttributes.checkBinding at h
  rw [bound, Option.bind_some] at h
  cases fault : bindingFault? nsPrefix value with
  | none => exact isNamespace_of_bindingFault? fault chars
  | some cause =>
      rw [fault] at h
      exact absurd h stop_ne_ok

open Reading

theorem ensures_checkBinding (home : List Char) (pair : List Char × List Char)
    (qualified : IsQualified pair.1) (chars : AreXmlChars pair.2) :
    Ensures (liftM (readAttributes.checkBinding home pair.1 pair.2)) fun _ => IsReadPair pair :=
  ensures_liftM fun _ checked => isReadPair_of_checkBinding qualified chars checked

theorem ensures_readAttributes {d : Declarations} (sound : d.IsSound) {f : TextForm}
    {account : Account} {opened : List (List Char)} {home elementName : List Char}
    {seen : List (List Char)} {attributes : List WrittenAttribute}
    (h : ∀ a ∈ attributes, IsQualified a.name ∧ AreXmlChars a.value) :
    (readAttributes d f account opened home elementName seen attributes).Ensures
      fun pairs => ∀ pair ∈ pairs, IsReadPair pair := by
  induction attributes generalizing seen with
  | nil => exact ensures_pure fun pair member => absurd member List.not_mem_nil
  | cons a rest ih =>
      rw [List.forall_mem_cons] at h
      have joined : ∀ value, AreXmlChars value → Ensures (do
          readAttributes.checkBinding home a.name value
          let more ← readAttributes d f account opened home elementName (a.name :: seen) rest
          return (a.name, value) :: more) fun pairs => ∀ pair ∈ pairs, IsReadPair pair := by
        intro value chars
        refine (ensures_checkBinding home (a.name, value) h.1.1 chars).bind fun _ first => ?_
        refine (ih h.2).bind fun more hMore => ensures_pure ?_
        exact List.forall_mem_cons.mpr ⟨first, hMore⟩
      have valued : Ensures (do
          let value ←
            if isPlainValue a.value then pure a.value
            else
              attributeValue d f account home opened (d.isTokenized elementName a.name) a.following
                a.value
          readAttributes.checkBinding home a.name value
          let more ← readAttributes d f account opened home elementName (a.name :: seen) rest
          return (a.name, value) :: more) fun pairs => ∀ pair ∈ pairs, IsReadPair pair := by
        refine .ite (fun _ => (ensures_pure h.1.2).bind joined) fun _ => ?_
        exact (ensures_attributeValue sound h.1.2).bind joined
      rw [readAttributes]
      exact .ite (fun _ => ensures_bind fun _ => valued) fun _ => valued

/-- Whatever every member ensures holds of all members. -/
theorem ensures_forM {items : List α} {check : α → Reading PUnit} {holds : α → Prop}
    (h : ∀ item ∈ items, (check item).Ensures fun _ => holds item) :
    (items.forM check).Ensures fun _ => ∀ item ∈ items, holds item := by
  induction items with
  | nil => exact ensures_pure fun item member => absurd member List.not_mem_nil
  | cons first rest ih =>
      rw [List.forall_mem_cons] at h
      change Ensures (check first >>= fun _ => rest.forM check) _
      refine h.1.bind fun _ hFirst => (ih h.2).mono fun _ hRest => ?_
      exact List.forall_mem_cons.mpr ⟨hFirst, hRest⟩

/-! ## Start tags -/

/-- The attributes of an element are those that were written, each of them once. -/
theorem areReadAttributes_expandAttributes {scope : Scope} (sound : scope.IsSound)
    {seen : List (List Char)} {plain attributes : List (List Char × List Char)}
    (h : ∀ pair ∈ plain, IsReadPair pair ∧ boundPrefix? pair.1 = none)
    (expanded : expandAttributes scope seen plain = .ok attributes) :
    AreReadAttributes attributes ∧ ∀ pair ∈ attributes, pair.1 ∉ seen := by
  induction plain generalizing seen attributes with
  | nil =>
      cases expanded
      refine ⟨⟨List.nodup_nil, ?_, ?_⟩, ?_⟩
      · exact fun pair member => absurd member List.not_mem_nil
      · exact fun pair member => absurd member List.not_mem_nil
      · exact fun pair member => absurd member List.not_mem_nil
  | cons first rest ih =>
      rcases first with ⟨name, value⟩
      rw [List.forall_mem_cons] at h
      rcases h with ⟨⟨read, unbinding⟩, later⟩
      rw [expandAttributes] at expanded
      rcases exists_of_bind_eq_ok expanded with ⟨key, named, expanded⟩
      split at expanded
      · cases expanded
      · next fresh =>
          rcases exists_of_bind_eq_ok expanded with ⟨more, continued, expanded⟩
          cases expanded
          rcases ih later continued with ⟨attributes, different⟩
          have isNew : key ∉ more.map (·.1) := by
            intro member
            rcases List.mem_map.mp member with ⟨pair, among, same⟩
            exact different pair among (same ▸ List.mem_cons_self)
          refine ⟨⟨?_, ?_, ?_⟩, ?_⟩
          · exact List.nodup_cons.mpr ⟨isNew, attributes.keys⟩
          · exact List.forall_mem_cons.mpr
              ⟨isExpanded_expandAttribute sound read.name unbinding named, attributes.names⟩
          · exact List.forall_mem_cons.mpr ⟨read.value, attributes.values⟩
          · refine List.forall_mem_cons.mpr ⟨fun member => ?_, fun pair among member => ?_⟩
            · exact fresh (List.contains_iff_mem.mpr member)
            · exact different pair among (List.mem_cons_of_mem _ member)

/-- A start tag that is read, with the scope of what is inside of it. -/
structure OpenedElement.IsSound (element : OpenedElement) : Prop where
  tag : IsExpanded element.tag
  attributes : AreReadAttributes element.attributes
  scope : element.scope.IsSound

/-- The bindings of an element are added to those around it. -/
theorem isSound_append_bindings {scope : Scope} (sound : scope.IsSound)
    {pairs : List (List Char × List Char)} (h : ∀ pair ∈ pairs, IsReadPair pair) :
    Scope.IsSound
      ((pairs.filterMap fun pair => (boundPrefix? pair.1).map (·, pair.2)).reverse ++ scope) := by
  intro binding member
  rcases List.mem_append.mp member with own | outer
  · rcases List.mem_filterMap.mp (List.mem_reverse.mp own) with ⟨pair, among, bound⟩
    rcases Option.map_eq_some_iff.mp bound with ⟨nsPrefix, binds, rfl⟩
    exact (h pair among).binding nsPrefix binds
  · exact sound binding outer

theorem ensures_openElement {d : Declarations} (sound : d.IsSound) {f : TextForm}
    {opened : List (List Char)} {scope : Scope} (hScope : scope.IsSound) {home : List Char}
    {tag : StartTag} (hTag : tag.IsSound) :
    (openElement d f opened scope home tag).Ensures OpenedElement.IsSound := by
  rw [openElement]
  refine (ensures_readAttributes sound hTag.attributes).bind fun written hWritten => ?_
  have given : ∀ pair ∈ (d.defaults tag.name).filter fun pair =>
      !(written.any fun known => known.1 = pair.1), IsQualified pair.1 ∧ AreXmlChars pair.2 :=
    fun pair member => sound.defaults tag.name pair (List.mem_filter.mp member).1
  refine (ensures_forM fun pair member =>
    ensures_checkBinding home pair (given pair member).1 (given pair member).2).bind fun _ hDefaults => ?_
  have all := List.forall_mem_append.mpr ⟨hWritten, hDefaults⟩
  have inner := isSound_append_bindings hScope all
  dsimp only
  split
  · next element expanded =>
      rcases exists_of_bind_eq_ok expanded with ⟨attributes, named, expanded⟩
      rcases exists_of_bind_eq_ok expanded with ⟨name, tagged, expanded⟩
      cases expanded
      refine ensures_pure ⟨?_, ?_, inner⟩
      · exact isExpanded_expandElement inner hTag.name tagged
      · refine (areReadAttributes_expandAttributes inner (fun pair member => ?_) named).1
        rcases List.mem_filter.mp member with ⟨among, unbinding⟩
        exact ⟨all pair among, Option.isNone_iff_eq_none.mp unbinding⟩
  · exact ensures_stop

/-! ## Content -/

theorem isReadText_textValue {t : List Char} (h : AreXmlChars t) : IsReadText (textValue t) :=
  ⟨t, h, rfl⟩

namespace Content

/-- Content that is read. -/
structure IsSound (c : Content) : Prop where
  lead : AreXmlChars c.lead
  children : ∀ child ∈ c.children, child.1.IsRead ∧ AreXmlChars child.2

theorem isSound_text {t : List Char} (chars : AreXmlChars t) : IsSound ⟨t, []⟩ where
  lead := chars
  children := fun _ member => absurd member List.not_mem_nil

theorem isSound_empty : empty.IsSound := isSound_text .nil

variable {c : Content}

theorem IsSound.behindText (h : c.IsSound) {t : List Char} (chars : AreXmlChars t) :
    (c.behindText t).IsSound where
  lead := chars.append h.lead
  children := h.children

theorem IsSound.behindChild (h : c.IsSound) {child : Element} (read : child.IsRead) :
    (c.behindChild child).IsSound where
  lead := .nil
  children := List.forall_mem_cons.mpr ⟨⟨read, h.lead⟩, h.children⟩

theorem IsSound.appendChildren (h : c.IsSound) {children : List (Element × List Char)}
    (read : ∀ child ∈ children, child.1.IsRead ∧ AreXmlChars child.2) :
    (c.appendChildren children).IsSound := by
  induction children with
  | nil => exact h
  | cons first rest ih =>
      rw [List.forall_mem_cons] at read
      have more := ih read.2
      refine ⟨.nil, List.forall_mem_cons.mpr ⟨⟨read.1.1, ?_⟩, more.children⟩⟩
      exact read.1.2.append more.lead

theorem IsSound.append (h : c.IsSound) {front : Content} (hFront : front.IsSound) :
    (front.append c).IsSound :=
  (h.appendChildren hFront.children).behindText hFront.lead

theorem isRead_withTail {e : Element} (h : e.IsRead) {t : List Char} (chars : AreXmlChars t) :
    (e.withTail (textValue t)).IsRead := by
  cases e with
  | node tag attributes text tail children =>
      rw [Element.IsRead] at h
      rw [Element.withTail, Element.IsRead]
      exact ⟨h.1, h.2.1, h.2.2.1, isReadText_textValue chars, h.2.2.2.2⟩
  | comment content tail => exact False.elim h
  | instruction content tail => exact False.elim h

theorem IsSound.isRead_toElement (h : c.IsSound) {tag : List Char}
    {attributes : OrderedPairs (List Char) (List Char)} (hTag : IsExpanded tag)
    (hAttributes : AreReadAttributes attributes) : (c.toElement tag attributes).IsRead := by
  rw [toElement, Element.IsRead]
  refine ⟨hTag, hAttributes, isReadText_textValue h.lead, isReadText_textValue .nil, ?_⟩
  rw [areRead_iff]
  intro e member
  rcases List.mem_map.mp member with ⟨child, among, rfl⟩
  exact isRead_withTail (h.children child among).1 (h.children child among).2

end Content

theorem ensures_readCdata {f : TextForm} {opened : List (List Char)} {budget : Nat}
    {t : List Char} : (readCdata f opened budget t).Ensures fun result => AreXmlChars result.1 := by
  induction budget generalizing t with
  | zero => exact ensures_stop
  | succ budget ih =>
      rw [readCdata]
      refine (ensures_liftM fun _ scanned => scanned).bind ?_
      rintro ⟨piece, behind⟩ scanned
      have continued : ∀ run, AreXmlChars run → Ensures (do
          let more ← readCdata f opened budget behind
          return (run ++ more.1, more.2)) fun result => AreXmlChars result.1 :=
        fun run hRun => ih.bind fun result hResult => ensures_pure (hRun.append hResult)
      have counted : ∀ next : Reading (List Char × List Char),
          (next.Ensures fun result => AreXmlChars result.1) →
          Ensures (if opened.isEmpty then tolerate t (·.upTo f behind) >>= fun _ => next
            else Account.indirect.count t (f.octetsBefore t behind) >>= fun _ => next)
            fun result => AreXmlChars result.1 :=
        fun next h => .ite (fun _ => ensures_bind fun _ => h) fun _ => ensures_bind fun _ => h
      cases piece with
      | close => exact counted _ (ensures_pure .nil)
      | lineEnd => exact counted _ (continued ['\n'] (.cons (by decide) .nil))
      | text run => exact counted _ (continued run (areXmlChars_scanCdataPiece scanned))

/-- An element that stands alone, without text behind it. -/
structure Element.IsReadAlone (e : Element) : Prop where
  read : e.IsRead
  alone : e.withTail .null = e

theorem OpenedElement.IsSound.isReadAlone {element : OpenedElement} (h : element.IsSound)
    {c : Content} (hContent : c.IsSound) :
    (c.toElement element.tag element.attributes).IsReadAlone where
  read := hContent.isRead_toElement h.tag h.attributes
  alone := rfl

/-- With a budget, content that is read is in order. -/
def EnsuresContent (d : Declarations) (budget : Nat) : Prop :=
  ∀ {f opened enclosing scope t}, Scope.IsSound scope →
    (readContent d budget f opened enclosing scope t).Ensures fun result => result.1.IsSound

/-- With a budget, elements that are read are in order. -/
def EnsuresElement (d : Declarations) (budget : Nat) : Prop :=
  ∀ {f opened scope place tag behind}, Scope.IsSound scope → StartTag.IsSound tag →
    (readElement d budget f opened scope place tag behind).Ensures
      fun result => result.1.IsReadAlone

/-- Most tokens are some text that stands before the content behind them. -/
theorem EnsuresContent.behindText {d : Declarations} {budget : Nat} (ih : EnsuresContent d budget)
    {f : TextForm} {opened : List (List Char)} {enclosing : Option (List Char)} {scope : Scope}
    (hScope : Scope.IsSound scope) {run : List Char} (hRun : AreXmlChars run) (behind : List Char) :
    Ensures (do
      let result ← readContent d budget f opened enclosing scope behind
      return (result.1.behindText run, result.2)) fun result => result.1.IsSound :=
  (ih hScope).bind fun _ hResult => ensures_pure (hResult.behindText hRun)

theorem ensuresContent_succ {d : Declarations} {budget : Nat} (ihContent : EnsuresContent d budget)
    (ihElement : EnsuresElement d budget) : EnsuresContent d (budget + 1) := by
  intro f opened enclosing scope t hScope
  cases t with
  | nil =>
      rw [readContent.eq_2 _ _ _ _ _ _ (Nat.succ_ne_zero budget)]
      have ended : Ensures (do
          endOfText opened [] enclosing
          return (Content.empty, ([] : List Char))) fun result => result.1.IsSound :=
        ensures_bind fun _ => ensures_pure Content.isSound_empty
      exact .ite (fun _ => ensures_bind fun _ => ended) fun _ => ended
  | cons c rest =>
      rw [readContent.eq_3 _ _ _ _ _ _ _ (List.cons_ne_nil c rest)]
      refine (ensures_liftM fun _ scanned => scanned).bind ?_
      rintro ⟨token, behind⟩ scanned
      have hToken : token.IsSound := isSound_scanToken scanned
      apply ensures_bind
      intro _
      cases token with
      | text run => exact ihContent.behindText hScope hToken behind
      | lineEnd => exact ihContent.behindText hScope (.cons (by decide) .nil) behind
      | lastReturn => exact ensures_bind fun _ => ensures_pure (Content.isSound_text (.cons (by decide) .nil))
      | lastBrackets run => exact ensures_bind fun _ => ensures_pure (Content.isSound_text hToken)
      | cdataOpen => exact ensures_readCdata.bind fun _ hText => ihContent.behindText hScope hText _
      | nothing => exact ihContent hScope
      | reference r =>
          cases r with
          | character number =>
              dsimp only
              split
              · exact ensures_stop
              · next c found =>
                  exact ihContent.behindText hScope (.cons (isXmlChar_of_characterOf? found) .nil) behind
          | entity name =>
              dsimp only
              split
              · next c found =>
                  apply ensures_bind
                  intro _
                  exact ihContent.behindText hScope (.cons (isXmlChar_of_predefined? found) .nil) behind
              · apply ensures_bind
                intro replacement
                refine ((ihContent hScope).movedTo _).bind fun inner hInner => ?_
                refine (ihContent hScope).bind fun result hResult => ensures_pure ?_
                exact hResult.append hInner
      | startTag tag =>
          refine (ihElement hScope hToken).bind fun child hChild => ?_
          refine (ihContent hScope).bind fun result hResult => ensures_pure ?_
          exact hResult.behindChild hChild.read
      | endTag name place =>
          cases enclosing with
          | none => exact ensures_stop
          | some expected =>
              exact .ite (fun _ => ensures_pure Content.isSound_empty) fun _ => ensures_stop

theorem ensuresElement_succ {d : Declarations} (sound : d.IsSound) {budget : Nat}
    (ihContent : EnsuresContent d budget) : EnsuresElement d (budget + 1) := by
  intro f opened scope place tag behind hScope hTag
  rw [readElement]
  refine (ensures_openElement sound hScope hTag).bind fun element hElement => ?_
  refine .ite (fun _ => ensures_pure ?_) fun _ => ?_
  · exact hElement.isReadAlone Content.isSound_empty
  · refine (ihContent hElement.scope).bind fun result hResult => ensures_pure ?_
    exact hElement.isReadAlone hResult

/-- Content and elements that are read are in order, by induction on the budget that both of them
share. -/
theorem ensures_readContent_readElement {d : Declarations} (sound : d.IsSound) (budget : Nat) :
    EnsuresContent d budget ∧ EnsuresElement d budget := by
  induction budget with
  | zero => exact ⟨fun _ => ensures_stop, fun _ _ => ensures_stop⟩
  | succ budget ih => exact ⟨ensuresContent_succ ih.1 ih.2, ensuresElement_succ sound ih.1⟩

theorem ensures_readDocument (f : TextForm) (t : List Char) :
    (readDocument f t).Ensures Element.IsReadAlone := by
  rw [readDocument]
  refine Prolog.ensures_read.bind ?_
  rintro ⟨d, root⟩ sound
  refine (ensures_liftM fun _ scanned => scanned).bind ?_
  rintro ⟨token, behind⟩ scanned
  cases token with
  | startTag tag =>
      apply ensures_bind
      intro _
      have hTag : tag.IsSound := isSound_scanToken scanned
      refine ((ensures_readContent_readElement sound _).2 isSound_outermost hTag).bind ?_
      rintro ⟨e, following⟩ hElement
      exact ensures_bind fun _ => ensures_pure hElement
  | _ => exact ensures_stop

theorem isReadAlone_readChars {f : TextForm} {t : List Char} {root : Element}
    (h : readChars f t = .ok root) : root.IsReadAlone := by
  unfold readChars at h
  split at h
  · next after found =>
      cases h
      exact ensures_readDocument f t _ _ _ found
  · cases h

/-- Every element that is read is in order. -/
theorem isReadAlone_read {t : Text} {root : Element} (h : read t = .ok root) :
    root.IsReadAlone := by
  rw [read] at h
  rcases exists_of_bind_eq_ok h with ⟨octets, -, h⟩
  split at h
  · exact isReadAlone_readChars h
  · exact isReadAlone_readChars h

end Xml
end DocumentGateway
