import DocumentGateway.Xml.Printer
import Mathlib.Tactic.SplitIfs

namespace DocumentGateway
namespace Xml

/-!
# Names with and without namespaces

A name as it is written has a prefix or none, and a name as elements have it is in a namespace or
in none.  The part behind the prefix and the part behind the namespace are made of the characters
of names, so that they hold neither colons nor braces.
-/

/-- Characters that may all stand in an XML text. -/
def AreXmlChars (t : List Char) : Prop :=
  ∀ c ∈ t, isXmlChar c = true

namespace AreXmlChars

variable {front back : List Char}

theorem nil : AreXmlChars [] :=
  fun _ member => absurd member List.not_mem_nil

theorem cons {c : Char} (first : isXmlChar c = true) (h : AreXmlChars back) :
    AreXmlChars (c :: back) :=
  List.forall_mem_cons.mpr ⟨first, h⟩

theorem tail {c : Char} (h : AreXmlChars (c :: back)) : AreXmlChars back :=
  fun d member => h d (List.mem_cons_of_mem c member)

theorem append (hFront : AreXmlChars front) (hBack : AreXmlChars back) :
    AreXmlChars (front ++ back) :=
  List.forall_mem_append.mpr ⟨hFront, hBack⟩

/-- What is made of some of the characters is in order as well. -/
theorem of_subset (h : AreXmlChars back) (among : front ⊆ back) : AreXmlChars front :=
  fun c member => h c (among member)

end AreXmlChars

/-! ## Parts of names -/

/-- Whether characters are a name without colon in a document of the narrow form. -/
def isProperName : List Char → Bool
  | [] => false
  | c :: rest => isNameStart c && rest.all isNameChar

/-- Characters that documents of some form have in the place of a name without colon. -/
structure IsNamePart (t : List Char) : Prop where
  nonempty : t ≠ []
  chars : ∀ c ∈ t, (TextForm.wide false).isNameChar c = true

theorem isNameChar_wide_of_isNameChar {f : TextForm} {c : Char} (h : f.isNameChar c = true) :
    (TextForm.wide false).isNameChar c = true := by
  rw [TextForm.isNameChar, Bool.or_eq_true] at h ⊢
  rcases h with narrow | wide
  · exact Or.inl narrow
  · rw [Bool.and_eq_true] at wide
    exact Or.inr wide.2

theorem isNamePart_of_isProperName {t : List Char} (h : isProperName t = true) : IsNamePart t := by
  cases t with
  | nil => exact absurd h Bool.false_ne_true
  | cons c rest =>
      rw [isProperName, Bool.and_eq_true, List.all_eq_true] at h
      refine ⟨List.cons_ne_nil c rest, ?_⟩
      intro d member
      rw [TextForm.isNameChar, Bool.or_eq_true]
      rcases List.mem_cons.mp member with first | later
      · exact Or.inl (first ▸ isNameChar_of_isNameStart h.1)
      · exact Or.inl (h.2 d later)

namespace IsNamePart

variable {t : List Char}

/-- A name holds no character that is none of a name. -/
theorem not_mem (h : IsNamePart t) {c : Char} (foreign : (TextForm.wide false).isNameChar c = false) :
    c ∉ t :=
  fun member => Bool.false_ne_true (foreign.symm.trans (h.chars c member))

theorem colon_not_mem (h : IsNamePart t) : ':' ∉ t := h.not_mem (by decide)

theorem openBrace_not_mem (h : IsNamePart t) : '\x7b' ∉ t := h.not_mem (by decide)

theorem closeBrace_not_mem (h : IsNamePart t) : '\x7d' ∉ t := h.not_mem (by decide)

end IsNamePart

/-! ## Names as they are written -/

/-- A name with at most one colon, which has something on both of its sides. -/
inductive IsQualified : List Char → Prop
  | plain {base : List Char} (h : IsNamePart base) : IsQualified base
  | prefixed {front base : List Char} (hFront : IsNamePart front) (h : IsNamePart base) :
      IsQualified (front ++ ':' :: base)

theorem splitName_of_not_mem {t : List Char} (h : ':' ∉ t) : splitName t = (none, t) := by
  induction t with
  | nil => rfl
  | cons c rest ih =>
      have different : c ≠ ':' := fun same => h (same ▸ List.mem_cons_self)
      have unsplit := ih fun member => h (List.mem_cons_of_mem c member)
      rw [splitName, unsplit]
      exact different

theorem splitName_append {front : List Char} (h : ':' ∉ front) (back : List Char) :
    splitName (front ++ ':' :: back) = (some front, back) := by
  induction front with
  | nil => rfl
  | cons c rest ih =>
      have different : c ≠ ':' := fun same => h (same ▸ List.mem_cons_self)
      have split := ih fun member => h (List.mem_cons_of_mem c member)
      rw [List.cons_append, splitName, split]
      exact different

/-! ## Names in namespaces -/

/-- What a prefix of an element's or attribute's name may be bound to. -/
structure IsNamespace (uri : List Char) : Prop where
  nonempty : uri ≠ []
  chars : AreXmlChars uri
  unbraced : '\x7d' ∉ uri
  unreserved : uri ≠ xmlnsUri

/-- A name in a namespace or in none. -/
inductive IsExpanded : List Char → Prop
  | plain {base : List Char} (h : IsNamePart base) : IsExpanded base
  | inNamespace {uri base : List Char} (hUri : IsNamespace uri) (h : IsNamePart base) :
      IsExpanded (expandedName uri base)

/-- No brace stands in a name, from whichever end it is looked at. -/
theorem IsNamePart.reverse_unbraced {base : List Char} (h : IsNamePart base) :
    ∀ c ∈ base.reverse, decide (c ≠ '\x7d') = true := by
  intro c member
  apply decide_eq_true
  rintro rfl
  exact h.closeBrace_not_mem (List.mem_reverse.mp member)

theorem localName_of_isNamePart {base : List Char} (h : IsNamePart base) :
    localName base = base := by
  have all : (base.reverse ++ []).takeWhile (· ≠ '\x7d') = base.reverse ++ [] :=
    List.takeWhile_append_of_pos h.reverse_unbraced
  rw [List.append_nil] at all
  rw [localName, all, List.reverse_reverse]

/-- What stands before the last brace does not belong to the local part. -/
theorem localName_append (front : List Char) {base : List Char} (h : IsNamePart base) :
    localName (front ++ '\x7d' :: base) = base := by
  have reversed : (front ++ '\x7d' :: base).reverse = base.reverse ++ '\x7d' :: front.reverse := by
    simp
  rw [localName, reversed, List.takeWhile_append_of_pos h.reverse_unbraced,
    List.takeWhile_cons_of_neg (by decide), List.append_nil, List.reverse_reverse]

theorem localName_expandedName {uri base : List Char} (h : IsNamePart base) :
    localName (expandedName uri base) = base :=
  localName_append ('\x7b' :: uri) h

/-- A name that is in no namespace opens no brace. -/
theorem uriOf_of_isNamePart {base : List Char} (h : IsNamePart base) : uriOf base = .ok none := by
  cases base with
  | nil => rfl
  | cons c rest =>
      have different : c ≠ '\x7b' := fun same => h.openBrace_not_mem (same ▸ List.mem_cons_self)
      unfold uriOf
      split
      · next same => exact absurd (List.cons.inj same).1 different
      · rfl

theorem uriOf_expandedName {uri base : List Char} (h : IsNamePart base) :
    uriOf (expandedName uri base) = .ok (some uri) := by
  have closed : (uri ++ '\x7d' :: base).contains '\x7d' = true := by simp
  have size : (uri ++ '\x7d' :: base).length - base.length - 1 = uri.length := by
    rw [List.length_append, List.length_cons]
    omega
  rw [expandedName, List.cons_append, uriOf, if_pos closed, localName_append uri h, size,
    List.take_left]

/-! ## Expanding names -/

/-- The namespaces that a scope binds prefixes to are ones that names can be in. -/
def Scope.IsSound (scope : Scope) : Prop :=
  ∀ binding ∈ scope, binding.2 = [] ∨ IsNamespace binding.2

theorem isNamespace_xmlUri : IsNamespace xmlUri where
  nonempty := by decide
  chars := List.all_eq_true.mp (by decide)
  unbraced := by decide
  unreserved := by decide

theorem isSound_outermost : Scope.outermost.IsSound := by
  intro binding member
  rw [Scope.outermost, List.mem_singleton] at member
  exact Or.inr (member ▸ isNamespace_xmlUri)

theorem Scope.IsSound.isNamespace {scope : Scope} (sound : scope.IsSound)
    {nsPrefix uri : List Char} (bound : scope.uri? nsPrefix = some uri) : IsNamespace uri := by
  unfold Scope.uri? at bound
  rcases Option.bind_eq_some_iff.mp bound with ⟨binding, found, same⟩
  split at same
  · exact absurd same (by simp)
  · next filled =>
      cases same
      exact (sound binding (List.mem_of_find?_eq_some found)).resolve_left filled

/-- A namespace that a prefix may be bound to is one that names can be in. -/
theorem isNamespace_of_bindingFault? {nsPrefix uri : List Char}
    (accepted : bindingFault? nsPrefix uri = none) (chars : AreXmlChars uri) :
    uri = [] ∨ IsNamespace uri := by
  unfold bindingFault? at accepted
  split_ifs at accepted with _ _ unbraced _ isXml reserved
  · exact Or.inr (isXml ▸ isNamespace_xmlUri)
  · by_cases empty : uri = []
    · exact Or.inl empty
    · refine Or.inr ⟨empty, chars, ?_, ?_⟩
      · exact fun member => unbraced (List.contains_iff_mem.mpr member)
      · exact fun same => reserved (Or.inr same)

theorem isExpanded_expandElement {scope : Scope} (sound : scope.IsSound) {name expanded : List Char}
    (qualified : IsQualified name) (h : expandElement scope name = .ok expanded) :
    IsExpanded expanded := by
  cases qualified with
  | plain part =>
      rw [expandElement, splitName_of_not_mem part.colon_not_mem] at h
      cases bound : scope.uri? [] with
      | none =>
          simp only [bound] at h
          cases h
          exact .plain part
      | some uri =>
          simp only [bound] at h
          cases h
          exact .inNamespace (sound.isNamespace bound) part
  | @prefixed front base hFront part =>
      rw [expandElement, splitName_append hFront.colon_not_mem] at h
      cases bound : scope.uri? front with
      | none =>
          simp only [bound] at h
          exact absurd h (by simp)
      | some uri =>
          simp only [bound] at h
          cases h
          exact .inNamespace (sound.isNamespace bound) part

/-- The name of an attribute that binds no prefix. -/
theorem isExpanded_expandAttribute {scope : Scope} (sound : scope.IsSound)
    {name expanded : List Char} (qualified : IsQualified name) (unbinding : boundPrefix? name = none)
    (h : expandAttribute scope name = .ok expanded) :
    IsExpanded expanded ∧ expanded ≠ "xmlns".toList := by
  cases qualified with
  | plain part =>
      have split := splitName_of_not_mem part.colon_not_mem
      rw [expandAttribute, split] at h
      rw [boundPrefix?, split] at unbinding
      cases h
      refine ⟨.plain part, fun same => ?_⟩
      simp only [same, if_true] at unbinding
      exact absurd unbinding (by simp)
  | @prefixed front base hFront part =>
      rw [expandAttribute, splitName_append hFront.colon_not_mem] at h
      cases bound : scope.uri? front with
      | none =>
          simp only [bound] at h
          exact absurd h (by simp)
      | some uri =>
          simp only [bound] at h
          cases h
          refine ⟨.inNamespace (sound.isNamespace bound) part, fun same => ?_⟩
          exact absurd (List.cons.inj same).1 (by decide)

end Xml
end DocumentGateway
