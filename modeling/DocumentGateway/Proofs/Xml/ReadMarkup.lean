import DocumentGateway.Proofs.Peeling
import DocumentGateway.Proofs.Xml.QualifiedName
import DocumentGateway.Xml.Content
import Mathlib.Data.List.TakeWhile

namespace DocumentGateway
namespace Xml

/-!
# What markup gives

The names that are taken off the front of a text are qualified, and texts and values hold only
characters that may stand in XML, be they written out or given by number.
-/

/-! ## Stops -/

theorem stop_ne_ok {cause : Cause} {place : List Char} {a : α} : stop cause place ≠ .ok a := by
  rintro ⟨⟩

theorem unexpected_ne_ok {start found : List Char} {a : α} : unexpected start found ≠ .ok a := by
  cases found with
  | nil => exact stop_ne_ok
  | cons c rest => exact stop_ne_ok

theorem refused_ne_ok {start found : List Char} {a : α} : refused start found ≠ .ok a := by
  cases found with
  | nil => exact stop_ne_ok
  | cons c rest =>
      rw [refused]
      split
      · exact stop_ne_ok
      · exact stop_ne_ok

/-! ## Names -/

theorem eq_of_endName_eq_ok {start name rest : List Char} {result : List Char × List Char}
    (h : endName start name rest = .ok result) : result = (name, rest) := by
  cases rest with
  | nil => exact (Except.ok.inj h).symm
  | cons c rest =>
      rw [endName] at h
      split at h
      · exact absurd h stop_ne_ok
      · exact (Except.ok.inj h).symm

theorem isNamePart_scanName {f : TextForm} {start t : List Char} {result : List Char × List Char}
    (h : scanName f start t = .ok result) : IsNamePart result.1 := by
  cases t with
  | nil => exact absurd h stop_ne_ok
  | cons c rest =>
      rw [scanName] at h
      split at h
      · next begins =>
          rw [eq_of_endName_eq_ok h]
          refine ⟨List.cons_ne_nil _ _, List.forall_mem_cons.mpr ⟨?_, ?_⟩⟩
          · exact isNameChar_wide_of_isNameChar (TextForm.isNameChar_of_isNameStart begins)
          · exact fun d member => isNameChar_wide_of_isNameChar (List.mem_takeWhile_imp member)
      · exact absurd h refused_ne_ok

theorem isQualified_scanQualifiedName {f : TextForm} {start t : List Char}
    {result : List Char × List Char} (h : scanQualifiedName f start t = .ok result) :
    IsQualified result.1 := by
  rw [scanQualifiedName] at h
  rcases exists_of_bind_eq_ok h with ⟨⟨first, behind⟩, scanned, h⟩
  have hFirst := isNamePart_scanName scanned
  dsimp only at h
  split at h
  · rcases exists_of_bind_eq_ok h with ⟨⟨second, behindSecond⟩, scannedSecond, h⟩
    cases h
    exact .prefixed hFirst (isNamePart_scanName scannedSecond)
  · cases h
    exact .plain hFirst

/-! ## Characters -/

theorem isXmlChar_of_characterOf? {number : Nat} {c : Char} (h : characterOf? number = some c) :
    isXmlChar c = true := by
  rw [characterOf?] at h
  split at h
  · next valid =>
      cases h
      exact valid.2
  · exact absurd h (by simp)

theorem isXmlChar_of_predefined? {name : List Char} {c : Char} (h : predefined? name = some c) :
    isXmlChar c = true := by
  rcases List.exists_of_findSome?_eq_some h with ⟨known, among, found⟩
  split at found
  · cases found
    simp only [List.mem_cons, List.not_mem_nil, or_false] at among
    rcases among with rfl | rfl | rfl | rfl | rfl <;> decide
  · exact absurd found (by simp)

/-! ## Tags -/

/-- Names are qualified and values hold characters of XML. -/
structure StartTag.IsSound (tag : StartTag) : Prop where
  name : IsQualified tag.name
  attributes : ∀ a ∈ tag.attributes, IsQualified a.name ∧ AreXmlChars a.value

theorem areXmlChars_scanValue {f : TextForm} {start : List Char} {quote : Char} {t : List Char}
    {result : List Char × List Char} (h : scanValue f start quote t = .ok result) :
    AreXmlChars result.1 := by
  induction t generalizing result with
  | nil => exact absurd h stop_ne_ok
  | cons c rest ih =>
      rw [scanValue] at h
      split at h
      · cases h
        exact .nil
      · split at h
        · exact absurd h refused_ne_ok
        · next fits =>
            have continued : ∃ more, scanValue f start quote rest = .ok more ∧
                result = (c :: more.1, more.2) := by
              split at h
              · rcases exists_of_bind_eq_ok h with ⟨reference, -, h⟩
                rcases exists_of_bind_eq_ok h with ⟨more, scanned, h⟩
                exact ⟨more, scanned, (Except.ok.inj h).symm⟩
              · rcases exists_of_bind_eq_ok h with ⟨more, scanned, h⟩
                exact ⟨more, scanned, (Except.ok.inj h).symm⟩
            rcases continued with ⟨more, scanned, rfl⟩
            refine .cons ?_ (ih scanned)
            by_contra foreign
            exact fits (by simp [foreign])

theorem isSound_scanAttributes {f : TextForm} {start : List Char} {budget : Nat} {t : List Char}
    {result : List WrittenAttribute × Bool × List Char}
    (h : scanAttributes f start budget t = .ok result) :
    ∀ a ∈ result.1, IsQualified a.name ∧ AreXmlChars a.value := by
  induction budget generalizing t result with
  | zero => exact absurd h stop_ne_ok
  | succ budget ih =>
      rw [scanAttributes] at h
      split at h
      · exact absurd h unexpected_ne_ok
      · split at h
        · cases h
          exact fun a member => absurd member List.not_mem_nil
        · cases h
          exact fun a member => absurd member List.not_mem_nil
        · exact absurd h unexpected_ne_ok
        · rcases exists_of_bind_eq_ok h with ⟨⟨name, behindName⟩, scannedName, h⟩
          rcases exists_of_bind_eq_ok h with ⟨⟨quote, behindQuote⟩, -, h⟩
          rcases exists_of_bind_eq_ok h with ⟨⟨value, behindValue⟩, scannedValue, h⟩
          rcases exists_of_bind_eq_ok h with ⟨more, scannedMore, h⟩
          cases h
          intro a member
          rcases List.mem_cons.mp member with rfl | later
          · exact ⟨isQualified_scanQualifiedName scannedName, areXmlChars_scanValue scannedValue⟩
          · exact ih scannedMore a later

theorem isSound_scanStartTag {f : TextForm} {start t : List Char} {result : StartTag × List Char}
    (h : scanStartTag f start t = .ok result) : result.1.IsSound := by
  rw [scanStartTag] at h
  rcases exists_of_bind_eq_ok h with ⟨⟨name, behindName⟩, scannedName, h⟩
  rcases exists_of_bind_eq_ok h with ⟨more, scannedMore, h⟩
  cases h
  exact ⟨isQualified_scanQualifiedName scannedName, isSound_scanAttributes scannedMore⟩

/-! ## Pieces of content -/

/-- A piece of content that is text or a start tag is in order. -/
def Token.IsSound : Token → Prop
  | text run => AreXmlChars run
  | lastBrackets run => AreXmlChars run
  | startTag tag => tag.IsSound
  | _ => True

/-- The run of text that a text begins with ends before anything that is no character. -/
theorem areXmlChars_take_runLength {f : TextForm} (t : List Char) :
    AreXmlChars (t.take (runLength f t)) := by
  fun_induction runLength f t with
  | case1 => exact .nil
  | case2 => exact .nil
  | case3 => exact .nil
  | case4 => exact .nil
  | case5 => exact .nil
  | case6 c rest h1 h2 h3 fits ih =>
      rw [List.take_succ_cons]
      refine .cons ?_ ih
      by_contra foreign
      exact fits (by simp [foreign])

theorem isSound_scanBracketed {f : TextForm} {start t : List Char} {result : Token × List Char}
    (h : scanBracketed f start t = .ok result) : result.1.IsSound := by
  unfold scanBracketed at h
  split at h
  · exact absurd h stop_ne_ok
  · rcases exists_of_bind_eq_ok h with ⟨⟨name, behind⟩, -, h⟩
    cases h
    trivial
  · rcases exists_of_bind_eq_ok h with ⟨behind, -, h⟩
    cases h
    trivial
  · rcases exists_of_bind_eq_ok h with ⟨behind, -, h⟩
    cases h
    trivial
  · exact absurd h unexpected_ne_ok
  · rcases exists_of_bind_eq_ok h with ⟨⟨instruction, behind⟩, -, h⟩
    cases instruction with
    | declaration body closing => exact absurd h stop_ne_ok
    | processing =>
        cases h
        trivial
  · rcases exists_of_bind_eq_ok h with ⟨⟨tag, behind⟩, scanned, h⟩
    cases h
    exact isSound_scanStartTag scanned

theorem areXmlChars_scanRun {f : TextForm} {t : List Char} {result : List Char × List Char}
    (h : scanRun f t = .ok result) : AreXmlChars result.1 := by
  unfold scanRun at h
  split at h
  · exact absurd h stop_ne_ok
  · cases h
    exact areXmlChars_take_runLength t

theorem isSound_scanToken {f : TextForm} {t : List Char} {result : Token × List Char}
    (h : scanToken f t = .ok result) : result.1.IsSound := by
  unfold scanToken at h
  split at h
  · exact absurd h stop_ne_ok
  · exact isSound_scanBracketed h
  · rcases exists_of_bind_eq_ok h with ⟨⟨reference, behind⟩, -, h⟩
    cases h
    trivial
  · cases h
    exact .cons (by decide) .nil
  · cases h
    exact .cons (by decide) (.cons (by decide) .nil)
  · cases h
    trivial
  · split at h
    · split at h
      · cases h
        trivial
      · cases h
        trivial
      · cases h
        trivial
    · split at h
      · rcases exists_of_bind_eq_ok h with ⟨⟨run, behind⟩, scanned, h⟩
        cases h
        exact areXmlChars_scanRun scanned
      · exact absurd h refused_ne_ok

theorem areXmlChars_scanCdataPiece {f : TextForm} {t run behind : List Char}
    (h : scanCdataPiece f t = .ok (.text run, behind)) : AreXmlChars run := by
  unfold scanCdataPiece at h
  split at h
  · exact absurd h stop_ne_ok
  · cases h
  · exact absurd h stop_ne_ok
  · exact absurd h stop_ne_ok
  · cases h
  · split at h
    · split at h
      · exact absurd h stop_ne_ok
      · cases h
      · cases h
    · split at h
      · next fits =>
          cases h
          refine .cons fits fun c member => ?_
          have inside := List.mem_takeWhile_imp member
          rw [Bool.and_eq_true, Bool.and_eq_true] at inside
          exact inside.1.1
      · exact absurd h refused_ne_ok

end Xml
end DocumentGateway
