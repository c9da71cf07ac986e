import DocumentGateway.Proofs.Xml.ReadMarkup
import DocumentGateway.Proofs.Xml.Reading

namespace DocumentGateway
namespace Xml

/-!
# What declarations give

What is declared is in order when the texts of entities and the defaults of attributes hold only
characters of XML and the names of attributes are qualified.  The value of an attribute is then made
of such characters, wherever its text comes from.
-/

/-! ## References -/

/-- A name and what follows it are the text that was scanned. -/
theorem eq_append_of_scanName {f : TextForm} {start t : List Char} {result : List Char × List Char}
    (h : scanName f start t = .ok result) : t = result.1 ++ result.2 := by
  cases t with
  | nil => exact absurd h stop_ne_ok
  | cons c rest =>
      rw [scanName] at h
      split at h
      · rw [eq_of_endName_eq_ok h, List.cons_append, List.takeWhile_append_dropWhile]
      · exact absurd h refused_ne_ok

theorem subset_of_scanNumber {start t behind : List Char} {base : Nat} {isDigit : Char → Bool}
    {r : Reference} (h : scanNumber start base isDigit t = .ok (r, behind)) :
    (∃ number, r = .character number) ∧ behind ⊆ t := by
  unfold scanNumber at h
  dsimp only at h
  split at h
  · next same =>
      cases h
      refine ⟨⟨_, rfl⟩, fun c member => (List.dropWhile_suffix isDigit).subset ?_⟩
      rw [same]
      exact List.mem_cons_of_mem _ member
  · exact absurd h unexpected_ne_ok

/-- What follows a reference is part of the text, and so is the name of an entity. -/
theorem subset_of_scanReference {f : TextForm} {start t behind : List Char} {r : Reference}
    (h : scanReference f start t = .ok (r, behind)) :
    behind ⊆ t ∧ ∀ name, r = .entity name → name ⊆ t := by
  unfold scanReference at h
  split at h
  · rcases subset_of_scanNumber h with ⟨⟨number, rfl⟩, part⟩
    refine ⟨fun c member => ?_, fun name same => absurd same (by simp)⟩
    exact List.mem_cons_of_mem _ (List.mem_cons_of_mem _ (part member))
  · rcases subset_of_scanNumber h with ⟨⟨number, rfl⟩, part⟩
    refine ⟨fun c member => ?_, fun name same => absurd same (by simp)⟩
    exact List.mem_cons_of_mem _ (part member)
  · rcases exists_of_bind_eq_ok h with ⟨⟨name, found⟩, scanned, h⟩
    have whole : _ = name ++ found := eq_append_of_scanName scanned
    dsimp only at h
    split at h
    · cases h
      refine ⟨fun c member => ?_, fun other same => ?_⟩
      · rw [whole]
        exact List.mem_append_right _ (List.mem_cons_of_mem _ member)
      · cases same
        rw [whole]
        exact List.subset_append_left _ _
    · exact absurd h unexpected_ne_ok

/-! ## The texts of entities -/

/-- Once the texts of its references are resolved, a text is made of its own characters, of line
feeds and of characters that may be given by number. -/
theorem areXmlChars_entityValue {f : TextForm} {following : List Char} {budget : Nat}
    {t value : List Char} (chars : AreXmlChars t)
    (h : entityValue f following budget t = .ok value) : AreXmlChars value := by
  fun_induction entityValue f following budget t generalizing value with
  | case1 | case2 =>
      cases h
      exact .nil
  | case3 | case7 => cases h
  | case5 | case8 | case9 | case10 => exact absurd h stop_ne_ok
  | case4 budget rest number behind scanned c found ih =>
      rcases exists_of_bind_eq_ok h with ⟨more, continued, h⟩
      cases h
      have charsRest := chars.tail
      have charsBehind := charsRest.of_subset (subset_of_scanReference scanned).1
      exact .cons (isXmlChar_of_characterOf? found) (ih charsBehind continued)
  | case6 budget rest name behind scanned ih =>
      rcases exists_of_bind_eq_ok h with ⟨more, continued, h⟩
      cases h
      have charsRest := chars.tail
      have parts := subset_of_scanReference scanned
      have charsMore := ih (charsRest.of_subset parts.1) continued
      have charsName : AreXmlChars name := charsRest.of_subset (parts.2 name rfl)
      exact .cons (by decide) (charsName.append (.cons (by decide) charsMore))
  | case11 budget rest ih =>
      rcases exists_of_bind_eq_ok h with ⟨more, continued, h⟩
      cases h
      exact .cons (by decide) (ih chars.tail.tail continued)
  | case12 budget c rest _ _ _ ih =>
      rcases exists_of_bind_eq_ok h with ⟨more, continued, h⟩
      cases h
      refine .cons ?_ (ih chars.tail continued)
      split
      · decide
      · exact chars c List.mem_cons_self

/-! ## Declarations in order -/

structure AttributeRule.IsSound (rule : AttributeRule) : Prop where
  name : IsQualified rule.attributeName
  default : ∀ value, rule.default? = some value → AreXmlChars value

structure Declarations.IsSound (d : Declarations) : Prop where
  entities : ∀ declared ∈ d.entities, ∀ replacement, declared.2 = .internal replacement →
    AreXmlChars replacement
  rules : ∀ rule ∈ d.rules, rule.IsSound

namespace Declarations

theorem isSound_empty (standsAlone : Bool) : (empty standsAlone).IsSound where
  entities := fun _ member => absurd member List.not_mem_nil
  rules := fun _ member => absurd member List.not_mem_nil

variable {d : Declarations}

theorem IsSound.areXmlChars_entity? (sound : d.IsSound) {name replacement : List Char}
    (found : d.entity? name = some (.internal replacement)) : AreXmlChars replacement := by
  rcases Option.map_eq_some_iff.mp found with ⟨declared, among, same⟩
  exact sound.entities declared (List.mem_of_find?_eq_some among) replacement same

theorem IsSound.withEntity (sound : d.IsSound) (name : List Char) {e : Entity}
    (h : ∀ replacement, e = .internal replacement → AreXmlChars replacement) :
    (d.withEntity name e).IsSound := by
  unfold Declarations.withEntity
  split
  · refine ⟨?_, sound.rules⟩
    intro declared member
    rcases List.mem_append.mp member with before | added
    · exact sound.entities declared before
    · rw [List.mem_singleton.mp added]
      exact h
  · exact sound

theorem IsSound.withRule (sound : d.IsSound) {rule : AttributeRule} (h : rule.IsSound)
    (isIdentifier : Bool) : (d.withRule rule isIdentifier).IsSound := by
  unfold Declarations.withRule
  dsimp only
  split
  · exact sound
  · refine ⟨sound.entities, ?_⟩
    intro other member
    rcases List.mem_append.mp member with before | added
    · exact sound.rules other before
    · exact List.mem_singleton.mp added ▸ h

/-- The defaults of an element's attributes. -/
theorem IsSound.defaults (sound : d.IsSound) (elementName : List Char) :
    ∀ pair ∈ d.defaults elementName, IsQualified pair.1 ∧ AreXmlChars pair.2 := by
  intro pair member
  rcases List.mem_filterMap.mp member with ⟨rule, among, chosen⟩
  split at chosen
  · rcases Option.map_eq_some_iff.mp chosen with ⟨value, given, rfl⟩
    have ofRule := sound.rules rule among
    exact ⟨ofRule.name, ofRule.default value given⟩
  · exact absurd chosen (by simp)

end Declarations

/-! ## Attribute values -/

/-- The text of a piece is in order, and so is what follows the piece. -/
theorem areXmlChars_scanValuePiece {f : TextForm} {t behind : List Char} {piece : ValuePiece}
    {octets : Nat} (chars : AreXmlChars t) (h : scanValuePiece f t = .ok (piece, octets, behind)) :
    (∀ run, piece = .text run → AreXmlChars run) ∧ AreXmlChars behind := by
  unfold scanValuePiece at h
  split at h
  · cases h
    refine ⟨fun run same => ?_, .nil⟩
    cases same
    exact .nil
  · exact absurd h stop_ne_ok
  · next rest =>
      rcases exists_of_bind_eq_ok h with ⟨⟨r, found⟩, scanned, h⟩
      cases h
      refine ⟨fun run same => absurd same (by simp), ?_⟩
      exact chars.tail.of_subset
        (subset_of_scanReference scanned).1
  · next c rest _ _ =>
      have charsRest : AreXmlChars rest := chars.tail
      split at h
      · split at h
        · cases h
          exact ⟨fun run same => absurd same (by simp), .nil⟩
        · cases h
          refine ⟨fun run same => absurd same (by simp), ?_⟩
          exact charsRest.tail
        · cases h
          exact ⟨fun run same => absurd same (by simp), charsRest⟩
      · split at h
        · cases h
          exact ⟨fun run same => absurd same (by simp), charsRest⟩
        · dsimp only at h
          split at h
          · exact absurd h stop_ne_ok
          · cases h
            refine ⟨fun run same => ?_, ?_⟩
            · cases same
              refine .cons (chars c List.mem_cons_self) (charsRest.of_subset ?_)
              exact (List.takeWhile_prefix _).subset
            · exact charsRest.of_subset (List.dropWhile_suffix _).subset

theorem scanValuePiece_of_nextValuePiece {f : TextForm} {place : List Char → List Char}
    {t : List Char} {result : ValuePiece × Nat × List Char}
    (h : nextValuePiece f place t = .ok result) : scanValuePiece f t = .ok result := by
  unfold nextValuePiece at h
  cases scanned : scanValuePiece f t with
  | error s =>
      rw [scanned] at h
      cases h
  | ok found =>
      rw [scanned] at h
      cases h
      rfl

open Reading

/-- An attribute value holds only characters of XML, whatever entities it refers to. -/
theorem ensures_attributeText {d : Declarations} (sound : d.IsSound) {home : List Char}
    {budget : Nat} {f : TextForm} {account : Account} {opened : List (List Char)}
    {place : List Char → List Char} {t : List Char} (chars : AreXmlChars t) :
    (attributeText d home budget f account opened place t).Ensures AreXmlChars := by
  induction budget generalizing f account opened place t with
  | zero => exact ensures_pure .nil
  | succ budget ih =>
      cases t with
      | nil => exact ensures_pure .nil
      | cons c rest =>
          rw [attributeText.eq_3 _ _ _ _ _ _ _ _ (List.cons_ne_nil c rest)]
          refine (ensures_liftM fun result found => found).bind ?_
          rintro ⟨piece, octets, behind⟩ found
          have parts := areXmlChars_scanValuePiece chars (scanValuePiece_of_nextValuePiece found)
          -- Whatever the piece stands for, the text of what follows it is put behind.
          have joined : ∀ inner, AreXmlChars inner → Ensures (do
              return inner ++ (← attributeText d home budget f account opened place behind))
              AreXmlChars :=
            fun inner hInner => (ih parts.2).bind fun more hMore => ensures_pure (hInner.append hMore)
          apply ensures_bind
          intro _
          cases piece with
          | text run => exact (ensures_pure (parts.1 run rfl)).bind joined
          | space => exact (ensures_pure (.cons (by decide) .nil)).bind joined
          | reference r =>
              cases r with
              | character number =>
                  dsimp only
                  split
                  · next c found =>
                      have fits := isXmlChar_of_characterOf? found
                      exact (ensures_pure (.cons fits .nil)).bind joined
                  · exact ensures_stop.bind joined
              | entity name =>
                  dsimp only
                  split
                  · next c found =>
                      have fits := isXmlChar_of_predefined? found
                      exact ensures_bind fun _ => (ensures_pure (.cons fits .nil)).bind joined
                  · split
                    · exact .ite (fun _ => ensures_stop.bind joined) fun _ =>
                        (ensures_pure .nil).bind joined
                    · next e found =>
                        refine .ite (fun _ => ensures_stop.bind joined) fun _ => ?_
                        split
                        · exact ensures_stop.bind joined
                        · exact ensures_stop.bind joined
                        · exact (ih (sound.areXmlChars_entity? found)).bind joined

/-- A text is taken apart into pieces of its own. -/
theorem areXmlChars_of_mem_splitOnP {p : Char → Bool} {t : List Char} (chars : AreXmlChars t) :
    ∀ word ∈ t.splitOnP p, AreXmlChars word := by
  induction t with
  | nil =>
      intro word member
      rw [List.splitOnP_nil, List.mem_singleton] at member
      exact member ▸ .nil
  | cons c rest ih =>
      have words := ih chars.tail
      rw [List.splitOnP_cons_eq_if_modifyHead]
      split
      · exact List.forall_mem_cons.mpr ⟨.nil, words⟩
      · cases split : rest.splitOnP p with
        | nil => exact absurd split (List.splitOnP_ne_nil p rest)
        | cons first more =>
            rw [split, List.forall_mem_cons] at words
            exact List.forall_mem_cons.mpr ⟨.cons (chars c List.mem_cons_self) words.1, words.2⟩

theorem areXmlChars_intercalate {words : List (List Char)}
    (h : ∀ word ∈ words, AreXmlChars word) : AreXmlChars ([' '].intercalate words) := by
  induction words with
  | nil => exact .nil
  | cons first rest ih =>
      rw [List.forall_mem_cons] at h
      cases rest with
      | nil =>
          rw [List.intercalate_singleton]
          exact h.1
      | cons second more =>
          rw [List.intercalate_cons_cons]
          exact (h.1.append (.cons (by decide) .nil)).append (ih h.2)

theorem areXmlChars_joinWords {t : List Char} (chars : AreXmlChars t) :
    AreXmlChars (joinWords t) :=
  areXmlChars_intercalate fun word member =>
    areXmlChars_of_mem_splitOnP chars word (List.mem_filter.mp member).1

theorem ensures_attributeValue {d : Declarations} (sound : d.IsSound) {f : TextForm}
    {account : Account} {home : List Char} {opened : List (List Char)} {isTokenized : Bool}
    {following t : List Char} (chars : AreXmlChars t) :
    (attributeValue d f account home opened isTokenized following t).Ensures AreXmlChars := by
  refine (ensures_attributeText sound chars).bind fun text hText => ensures_pure ?_
  split
  · exact areXmlChars_joinWords hText
  · exact hText

end Xml
end DocumentGateway
