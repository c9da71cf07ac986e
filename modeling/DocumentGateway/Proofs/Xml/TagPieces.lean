import DocumentGateway.Proofs.Xml.MarkupPieces

namespace DocumentGateway
namespace Xml

/-!
# Pieces that are tags

A tag is scanned alike whatever follows it.  What is kept of it for reports, the text from an
attribute on and the text behind one, is another one each time and is not compared.
-/

/-! ## White space -/

theorem head?_append {piece : List Char} (filled : piece ≠ []) (behind other : List Char) :
    (piece ++ other).head? = (piece ++ behind).head? := by
  rcases List.exists_cons_of_ne_nil filled with ⟨c, rest, rfl⟩
  rfl

/-- White space stands in front of what is left when it is skipped. -/
theorem exists_spaces (t : List Char) :
    ∃ spaces, (∀ c ∈ spaces, isSpace c = true) ∧ t = spaces ++ skipSpaces t :=
  ⟨t.takeWhile isSpace, fun _ => List.mem_takeWhile_imp, List.takeWhile_append_dropWhile.symm⟩

theorem skipSpaces_append {spaces : List Char} (h : ∀ c ∈ spaces, isSpace c = true) {c : Char}
    (visible : isSpace c = false) (rest : List Char) :
    skipSpaces (spaces ++ c :: rest) = c :: rest := by
  rw [skipSpaces, List.dropWhile_append_of_pos h,
    List.dropWhile_cons_of_neg (Bool.eq_false_iff.mp visible)]

/-! ## Attributes -/

theorem takes_scanEquals {start t behind : List Char} {quote : Char}
    (h : scanEquals start t = .ok (quote, behind)) :
    ∃ piece, piece ≠ [] ∧ t = piece ++ behind ∧ IsQuote quote ∧ Takes scanEquals piece quote := by
  rcases exists_spaces t with ⟨front, blank, whole⟩
  have opens : ∀ rest, skipSpaces t = '=' :: rest → ∀ quote, IsQuote quote →
      skipSpaces rest = quote :: behind → ∃ piece, piece ≠ [] ∧ t = piece ++ behind ∧
        ∀ other, ∃ rest, skipSpaces (piece ++ other) = '=' :: rest ∧ skipSpaces rest = quote :: other := by
    intro rest sign quote isQuote opened
    rcases exists_spaces rest with ⟨inner, innerBlank, between⟩
    refine ⟨front ++ '=' :: (inner ++ [quote]), by simp, ?_, fun other =>
      ⟨inner ++ quote :: other, ?_, skipSpaces_append innerBlank ?_ other⟩⟩
    · rw [whole, sign, between, opened]
      simp
    · rw [List.append_assoc, List.cons_append, skipSpaces_append blank (by decide),
        List.append_assoc, List.singleton_append]
    · rcases isQuote with rfl | rfl <;> decide
  unfold scanEquals at h
  split at h
  · next rest sign =>
      split at h
      · next opened =>
          cases h
          rcases opens rest sign '"' (Or.inl rfl) opened with ⟨piece, filled, same, again⟩
          refine ⟨piece, filled, same, Or.inl rfl, fun place other => ?_⟩
          rcases again other with ⟨rest, sign, opened⟩
          rw [scanEquals, sign]
          simp only [opened]
      · next opened =>
          cases h
          rcases opens rest sign '\'' (Or.inr rfl) opened with ⟨piece, filled, same, again⟩
          refine ⟨piece, filled, same, Or.inr rfl, fun place other => ?_⟩
          rcases again other with ⟨rest, sign, opened⟩
          rw [scanEquals, sign]
          simp only [opened]
      · exact absurd h unexpected_ne_ok
  · exact absurd h unexpected_ne_ok

/-- A piece without quotes is part of what stands before a quote. -/
theorem exists_append_of_unquoted {quote : Char} (isQuote : IsQuote quote)
    {more behind piece found : List Char} (unquoted : ∀ c ∈ piece, ¬ IsQuote c)
    (same : more ++ quote :: behind = piece ++ found) : ∃ left, more = piece ++ left := by
  rcases List.append_eq_append_iff.mp same with ⟨left, rfl, beyond⟩ | ⟨left, within, -⟩
  · cases left with
    | nil => exact ⟨[], by simp⟩
    | cons d left =>
        cases beyond
        exact absurd isQuote (unquoted quote (by simp))
  · exact ⟨left, within⟩

/-- A value ends at its closing quote.  The references in it end before. -/
theorem takes_scanValue {f : TextForm} {start : List Char} {quote : Char} (isQuote : IsQuote quote)
    {t value behind : List Char} (h : scanValue f start quote t = .ok (value, behind)) :
    t = value ++ quote :: behind ∧ Takes (scanValue f · quote ·) (value ++ [quote]) value := by
  induction t generalizing value with
  | nil => exact absurd h stop_ne_ok
  | cons c rest ih =>
      rw [scanValue] at h
      split at h
      · next same =>
          cases h
          subst same
          refine ⟨rfl, fun place other => ?_⟩
          dsimp only
          rw [List.nil_append, List.singleton_append, scanValue, if_pos rfl]
      · next notQuote =>
          split at h
          · exact absurd h refused_ne_ok
          · next fits =>
              split at h
              · next isReference =>
                  rcases exists_of_bind_eq_ok h with ⟨⟨r, found⟩, reference, h⟩
                  rcases exists_of_bind_eq_ok h with ⟨⟨more, behind'⟩, scanned, h⟩
                  cases h
                  rcases ih scanned with ⟨whole, takes⟩
                  rcases takes_scanReference reference with ⟨piece, parts, unquoted, takesReference⟩
                  rcases exists_append_of_unquoted isQuote unquoted (whole.symm.trans parts) with
                    ⟨left, rfl⟩
                  refine ⟨by rw [whole]; rfl, fun place other => ?_⟩
                  have referred := takesReference place (left ++ ([quote] ++ other))
                  have later := takes place other
                  rw [List.append_assoc, List.append_assoc] at later
                  dsimp only
                  rw [List.append_assoc, List.cons_append, List.append_assoc, scanValue,
                    if_neg notQuote, if_neg fits]
                  dsimp only
                  rw [if_pos isReference]
                  exact (bind_of_eq_ok referred _).trans (bind_of_eq_ok later _)
              · next notReference =>
                  rcases exists_of_bind_eq_ok h with ⟨⟨more, behind'⟩, scanned, h⟩
                  cases h
                  rcases ih scanned with ⟨rfl, takes⟩
                  refine ⟨rfl, fun place other => ?_⟩
                  have later := takes place other
                  dsimp only at later ⊢
                  rw [List.append_assoc] at later
                  rw [List.append_assoc, List.cons_append, scanValue, if_neg notQuote, if_neg fits]
                  dsimp only
                  rw [if_neg notReference]
                  exact bind_of_eq_ok later _

/-- What a written attribute says, wherever it stands. -/
def WrittenAttribute.pair (a : WrittenAttribute) : List Char × List Char :=
  (a.name, a.value)

theorem endsPart_append {spaces : List Char} (blank : ∀ c ∈ spaces, isSpace c = true)
    {t : List Char} (h : spaces ≠ [] ∨ endsPart t = true) : endsPart (spaces ++ t) = true := by
  cases spaces with
  | nil => exact h.resolve_left (absurd rfl)
  | cons c rest =>
      rw [List.cons_append, endsPart, blank c List.mem_cons_self]
      rfl

section

variable {f : TextForm} {spaces : List Char} (blank : ∀ c ∈ spaces, isSpace c = true)
  (place : List Char) (budget : Nat)

include blank

theorem scanAttributes_close (other : List Char) :
    scanAttributes f place (budget + 1) (spaces ++ '>' :: other) = .ok ([], false, other) := by
  have ends : endsPart (spaces ++ '>' :: other) = true := endsPart_append blank (Or.inr rfl)
  rw [scanAttributes, ends, skipSpaces_append blank (by decide)]
  rfl

theorem scanAttributes_closeEmpty (other : List Char) :
    scanAttributes f place (budget + 1) (spaces ++ '/' :: '>' :: other) = .ok ([], true, other) := by
  have ends : endsPart (spaces ++ '/' :: '>' :: other) = true := endsPart_append blank (Or.inr rfl)
  rw [scanAttributes, ends, skipSpaces_append blank (by decide)]
  rfl

/-- An attribute stands before those that follow its value. -/
theorem scanAttributes_attribute (filled : spaces ≠ []) {t name behindName opened value behind : List Char}
    {quote : Char} (visible : ∃ c rest, t = c :: rest ∧ (TextForm.wide false).isNameChar c = true)
    (named : scanQualifiedName f place t = .ok (name, behindName))
    (equals : scanEquals place behindName = .ok (quote, opened))
    (valued : scanValue f place quote opened = .ok (value, behind)) :
    scanAttributes f place (budget + 1) (spaces ++ t) = (do
      let (attributes, isEmpty, following) ← scanAttributes f place budget behind
      return (⟨name, value, t, quote :: behind⟩ :: attributes, isEmpty, following)) := by
  rcases visible with ⟨c, rest, rfl, begins⟩
  have ends : endsPart (spaces ++ c :: rest) = true := endsPart_append blank (Or.inl filled)
  rw [scanAttributes, ends, skipSpaces_append blank (not_isSpace_of_isNameChar begins)]
  simp only [Bool.not_true, Bool.false_eq_true, if_false]
  split
  · next same =>
      cases same
      exact absurd begins (by decide)
  · next same =>
      cases same
      exact absurd begins (by decide)
  · next same =>
      cases same
      exact absurd begins (by decide)
  · refine (bind_of_eq_ok named _).trans ?_
    refine (bind_of_eq_ok equals _).trans ?_
    exact bind_of_eq_ok valued _

end

/-- A piece that a tag ends with is scanned as some attributes, whatever stands behind it. -/
structure ScansAttributes (f : TextForm) (piece : List Char) (attributes : List WrittenAttribute)
    (isEmpty : Bool) : Prop where
  closed : IsClosed piece
  scans : ∀ place other enough, piece.length ≤ enough → ∃ written,
    scanAttributes f place enough (piece ++ other) = .ok (written, isEmpty, other) ∧
      written.map WrittenAttribute.pair = attributes.map WrittenAttribute.pair

section

variable {f : TextForm} {spaces : List Char} (blank : ∀ c ∈ spaces, isSpace c = true)

include blank

theorem scansAttributes_close : ScansAttributes f (spaces ++ ['>']) [] false where
  closed := ⟨spaces, rfl⟩
  scans := by
    intro place other enough hEnough
    rw [List.length_append, List.length_singleton] at hEnough
    rcases Nat.exists_eq_add_one_of_ne_zero (by omega : enough ≠ 0) with ⟨less, rfl⟩
    rw [List.append_assoc]
    exact ⟨[], scanAttributes_close blank place less other, rfl⟩

theorem scansAttributes_closeEmpty : ScansAttributes f (spaces ++ ['/', '>']) [] true where
  closed := ⟨spaces ++ ['/'], List.append_cons spaces '/' ['>']⟩
  scans := by
    intro place other enough hEnough
    rw [List.length_append, List.length_cons] at hEnough
    rcases Nat.exists_eq_add_one_of_ne_zero (by omega : enough ≠ 0) with ⟨less, rfl⟩
    rw [List.append_assoc]
    exact ⟨[], scanAttributes_closeEmpty blank place less other, rfl⟩

omit blank in
/-- Behind white space a name begins only if there is some. -/
theorem spaces_ne_nil_of_endsPart {c : Char} {rest : List Char}
    (begins : (TextForm.wide false).isNameChar c = true) (ends : endsPart (spaces ++ c :: rest) = true) :
    spaces ≠ [] := by
  rintro rfl
  have notSlash : c ≠ '/' := ne_of_isNameChar begins (by decide)
  have notClose : c ≠ '>' := ne_of_isNameChar begins (by decide)
  simp [endsPart, not_isSpace_of_isNameChar begins, notSlash, notClose] at ends

/-- An attribute is scanned again before a piece that is. -/
theorem ScansAttributes.attribute {piece : List Char} {a : WrittenAttribute} {more : List WrittenAttribute}
    {isEmpty : Bool} (h : ScansAttributes f piece more isEmpty) (filled : spaces ≠ [])
    {start t behindName opened behind : List Char} {quote : Char}
    (scannedName : scanQualifiedName f start t = .ok (a.name, behindName))
    (scannedEquals : scanEquals start behindName = .ok (quote, opened))
    (scannedValue : scanValue f start quote opened = .ok (a.value, behind)) :
    ∃ front, spaces ++ t = front ++ behind ∧ ScansAttributes f (front ++ piece) (a :: more) isEmpty := by
  have named : t = a.name ++ behindName := eq_append_of_scanQualifiedName scannedName
  rcases takes_scanEquals scannedEquals with ⟨sign, signed, rfl, isQuote, takesEquals⟩
  rcases takes_scanValue isQuote scannedValue with ⟨rfl, takesValue⟩
  rcases exists_cons_of_scanQualifiedName scannedName with ⟨c, tail, cons, begins⟩
  have visible : ∀ rest, ∃ c' tail', a.name ++ rest = c' :: tail' ∧
      (TextForm.wide false).isNameChar c' = true :=
    fun rest => ⟨c, tail ++ rest, by rw [cons]; rfl, begins⟩
  refine ⟨spaces ++ (a.name ++ (sign ++ (a.value ++ [quote]))), by rw [named]; simp,
    h.closed.append _, fun place other enough hEnough => ?_⟩
  have longer := List.length_pos_of_ne_nil filled
  simp only [List.length_append] at hEnough
  rcases Nat.exists_eq_add_one_of_ne_zero (by omega : enough ≠ 0) with ⟨less, rfl⟩
  rcases h.scans place other less (by omega) with ⟨written, scanned, same⟩
  have nameAgain := scanQualifiedName_of_head? scannedName place
    (sign ++ (a.value ++ [quote] ++ (piece ++ other))) (head?_append signed _ _)
  have first := scanAttributes_attribute blank place less filled (visible _) nameAgain
    (takesEquals place _) (takesValue place _)
  have parts : spaces ++ (a.name ++ (sign ++ (a.value ++ [quote]))) ++ piece ++ other =
      spaces ++ (a.name ++ (sign ++ (a.value ++ [quote] ++ (piece ++ other)))) := by simp
  rw [parts, first, scanned]
  exact ⟨_, rfl, congrArg (a.pair :: ·) same⟩

end

/-- The attributes of a tag are scanned alike up to its end, be there more behind it or less. -/
theorem exists_piece_of_scanAttributes {f : TextForm} {start : List Char} {budget : Nat}
    {t behind : List Char} {attributes : List WrittenAttribute} {isEmpty : Bool}
    (h : scanAttributes f start budget t = .ok (attributes, isEmpty, behind)) :
    ∃ piece, t = piece ++ behind ∧ ScansAttributes f piece attributes isEmpty := by
  induction budget generalizing t attributes with
  | zero => exact absurd h stop_ne_ok
  | succ budget ih =>
      rw [scanAttributes] at h
      split at h
      · exact absurd h unexpected_ne_ok
      · next ends =>
          rw [Bool.not_eq_true', Bool.not_eq_false] at ends
          rcases exists_spaces t with ⟨spaces, blank, whole⟩
          split at h
          · next close =>
              cases h
              rw [close] at whole
              exact ⟨spaces ++ ['>'], by rw [whole]; simp, scansAttributes_close blank⟩
          · next close =>
              cases h
              rw [close] at whole
              exact ⟨spaces ++ ['/', '>'], by rw [whole]; simp, scansAttributes_closeEmpty blank⟩
          · exact absurd h unexpected_ne_ok
          · rcases exists_of_bind_eq_ok h with ⟨⟨name, behindName⟩, scannedName, h⟩
            rcases exists_of_bind_eq_ok h with ⟨⟨quote, opened⟩, scannedEquals, h⟩
            rcases exists_of_bind_eq_ok h with ⟨⟨value, behindValue⟩, scannedValue, h⟩
            rcases exists_of_bind_eq_ok h with ⟨⟨more, isEmpty', behind'⟩, scannedMore, h⟩
            cases h
            rcases ih scannedMore with ⟨piece, rfl, scansMore⟩
            have filled : spaces ≠ [] := by
              rcases exists_cons_of_scanQualifiedName scannedName with ⟨c, tail, cons, begins⟩
              rw [whole, eq_append_of_scanQualifiedName scannedName, cons] at ends
              exact spaces_ne_nil_of_endsPart begins ends
            rcases scansMore.attribute (a := ⟨name, value, _, _⟩) blank filled scannedName scannedEquals
              scannedValue with ⟨front, same, scans⟩
            exact ⟨front ++ piece, by rw [whole, same, List.append_assoc], scans⟩

/-! ## Tags -/

/-- Start tags that say the same. -/
structure StartTag.IsLike (tag other : StartTag) : Prop where
  name : other.name = tag.name
  isEmpty : other.isEmpty = tag.isEmpty
  attributes : other.attributes.map WrittenAttribute.pair = tag.attributes.map WrittenAttribute.pair

theorem exists_piece_of_scanStartTag {f : TextForm} {start t behind : List Char} {tag : StartTag}
    (h : scanStartTag f start t = .ok (tag, behind)) :
    ∃ piece, IsClosed piece ∧ t = piece ++ behind ∧
      (∃ c rest, piece = c :: rest ∧ (TextForm.wide false).isNameChar c = true) ∧
      ∀ place other, ∃ tag', tag.IsLike tag' ∧
        scanStartTag f place (piece ++ other) = .ok (tag', other) := by
  rcases exists_of_bind_eq_ok h with ⟨⟨name, behindName⟩, scannedName, h⟩
  rcases exists_of_bind_eq_ok h with ⟨⟨attributes, isEmpty, behind'⟩, scannedMore, h⟩
  cases h
  have whole : t = name ++ behindName := eq_append_of_scanQualifiedName scannedName
  rcases exists_piece_of_scanAttributes scannedMore with ⟨piece, rfl, closed, again⟩
  rcases exists_cons_of_scanQualifiedName scannedName with ⟨c, rest, rfl, begins⟩
  refine ⟨c :: rest ++ piece, closed.append _, by rw [whole, List.append_assoc],
    ⟨c, _, rfl, begins⟩, fun place other => ?_⟩
  have filled : piece ≠ [] := by
    rcases closed.exists_cons with ⟨d, more, rfl⟩
    exact List.cons_ne_nil d more
  have enough : piece.length ≤ (c :: rest ++ piece ++ other).length + 1 := by
    simp only [List.length_append]
    omega
  have named := scanQualifiedName_of_head? scannedName place (piece ++ other)
    (head?_append filled _ _)
  rcases again place other _ enough with ⟨written, scanned, same⟩
  refine ⟨⟨c :: rest, written, isEmpty⟩, ⟨rfl, rfl, same⟩, ?_⟩
  rw [List.append_assoc] at scanned ⊢
  exact (bind_of_eq_ok named _).trans (bind_of_eq_ok scanned _)

theorem takes_scanEndTag {f : TextForm} {start t name behind : List Char}
    (h : scanEndTag f start t = .ok (name, behind)) :
    ∃ piece, IsClosed piece ∧ t = piece ++ behind ∧ Takes (scanEndTag f) piece name := by
  cases t with
  | nil => exact absurd h stop_ne_ok
  | cons c rest =>
      rw [scanEndTag] at h
      split at h
      · next begins =>
          rcases exists_of_bind_eq_ok h with ⟨⟨name', behindName⟩, ended, h⟩
          cases eq_of_endName_eq_ok ended
          dsimp only at h
          split at h
          · next close =>
              cases h
              let inName (d : Char) : Bool := f.isNameChar d || d == ':'
              rcases exists_spaces (rest.dropWhile inName) with ⟨spaces, blank, between⟩
              rw [close] at between
              have whole : rest = rest.takeWhile inName ++ (spaces ++ '>' :: behind) := by
                rw [← between, List.takeWhile_append_dropWhile]
              refine ⟨c :: (rest.takeWhile inName ++ (spaces ++ ['>'])), ?_, ?_,
                fun place other => ?_⟩
              · exact ⟨c :: (rest.takeWhile inName ++ spaces), by simp⟩
              · rw [List.cons_append, List.append_assoc, List.append_assoc, List.singleton_append,
                  ← whole]
              · have alike : (spaces ++ ['>'] ++ other).head? = (rest.dropWhile inName).head? := by
                  have filled : spaces ++ ['>'] ≠ [] := by simp
                  rw [between, List.append_cons spaces '>' behind]
                  exact head?_append filled behind other
                have parts := takeWhile_append_of_head? alike
                have named := endName_of_head? ended place _ alike
                rw [List.cons_append, List.append_assoc]
                rw [scanEndTag, if_pos begins]
                dsimp only
                rw [parts.1, parts.2]
                refine (bind_of_eq_ok named _).trans ?_
                dsimp only
                rw [List.append_assoc, List.singleton_append, skipSpaces_append blank (by decide)]
                rfl
          · exact absurd h unexpected_ne_ok
      · exact absurd h refused_ne_ok

end Xml
end DocumentGateway
