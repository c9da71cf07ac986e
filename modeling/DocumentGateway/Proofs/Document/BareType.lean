import DocumentGateway.Proofs.Document.Spelling
import DocumentGateway.Proofs.MediaType.FirstPair
import DocumentGateway.Proofs.Text.Trimming

namespace DocumentGateway

/-!
# Bare media types

A response is read by its content type as it came, a document by its media type without parameters.
Both are read alike whenever the pair that counts stands before the first semicolon; where none does,
the document is one of octets.  Media types are made bare whenever they are set, so that those of
documents stay bare whatever is done, and a copy of a text document is the same document.
-/

namespace MediaType

/-! ## Pairs and what surrounds them -/

theorem isWordChar_of_isBlank {p : CodePoint} (blank : p.isBlank = true) : isWordChar p = false := by
  cases p with
  | surrogate offset => rfl
  | scalar c =>
      by_contra word
      have dot : c = '.' → c.toNat = 46 := fun same => by rw [same]; rfl
      simp only [CodePoint.isBlank, isBlank, Bool.or_eq_true, Bool.and_eq_true, decide_eq_true_eq,
        beq_iff_eq] at blank
      rw [Bool.not_eq_false] at word
      change (decide (c.val ≥ 'A'.val ∧ c.val ≤ 'Z'.val) ||
        (decide (c.val ≥ 'a'.val) && decide (c.val ≤ 'z'.val)) || c == '.') = true at word
      simp only [Bool.or_eq_true, Bool.and_eq_true, decide_eq_true_eq, beq_iff_eq, ge_iff_le,
        UInt32.le_iff_toNat_le] at word
      change (((65 ≤ c.toNat ∧ c.toNat ≤ 90) ∨ (97 ≤ c.toNat ∧ c.toNat ≤ 122)) ∨ c = '.') at word
      rcases word with (upper | lower) | same
      · omega
      · omega
      · have number := dot same
        omega

/-- What stands before a text and is not of a type is passed over. -/
theorem firstPair?_append_left {left : Text} (foreign : ∀ p ∈ left, isWordChar p = false)
    (t : Text) : firstPair? (left ++ t) = firstPair? t := by
  induction left with
  | nil => rfl
  | cons p rest ih =>
      obtain ⟨first, others⟩ := List.forall_mem_cons.mp foreign
      rw [List.cons_append, firstPair?, firstPairBehind?, if_neg (by rw [first]; decide),
        if_neg (by simp)]
      exact ih others

theorem takeWhile_append_parted {tail : Text} (parted : tail.head?.any isWordChar = false) (t : Text) :
    (t ++ tail).takeWhile isWordChar = t.takeWhile isWordChar := by
  have none : tail.takeWhile isWordChar = [] := by
    cases tail with
    | nil => rfl
    | cons p rest => exact List.takeWhile_cons_of_neg (Bool.eq_false_iff.mp parted)
  rw [List.takeWhile_append, none, List.append_nil]
  split_ifs with whole
  · exact ((List.takeWhile_prefix _).eq_of_length whole).symm
  · rfl

/-- Where something follows that does not go on with a type and has the same pair whatever word comes
before it, that pair counts when there is none before. -/
theorem firstPairBehind?_append {tail : Text} {found : Option (Text × Text)}
    (parted : tail.head?.any isWordChar = false) (same : ∀ word, firstPairBehind? word tail = found)
    (word t : Text) :
    firstPairBehind? word (t ++ tail) = (firstPairBehind? word t).or found := by
  induction t generalizing word with
  | nil => exact same word
  | cons p rest ih =>
      have next : (rest ++ tail).head?.any isWordChar = rest.head?.any isWordChar := by
        cases rest with
        | nil => exact parted
        | cons q rest => rfl
      rw [List.cons_append, firstPairBehind?, firstPairBehind?, next, takeWhile_append_parted parted]
      split_ifs
      · exact ih _
      · rfl
      · exact ih _

theorem firstPairBehind?_of_foreign {right : Text} (foreign : ∀ p ∈ right, isWordChar p = false)
    (word : Text) : firstPairBehind? word right = none := by
  induction right generalizing word with
  | nil => rfl
  | cons p rest ih =>
      obtain ⟨first, others⟩ := List.forall_mem_cons.mp foreign
      have behind : rest.head?.any isWordChar = false := by
        cases rest with
        | nil => rfl
        | cons q rest => exact others q List.mem_cons_self
      rw [firstPairBehind?, if_neg (by rw [first]; decide), if_neg (by simp [behind])]
      exact ih others []

/-- Trimming a text leaves the pair in it. -/
theorem firstPair?_trim (t : Text) : firstPair? t.trim = firstPair? t := by
  have before : ∀ p ∈ t.leadingBlanks, isWordChar p = false :=
    fun p member => isWordChar_of_isBlank (Text.isBlank_of_mem_leadingBlanks member)
  have behind : ∀ p ∈ t.trailingBlanks, isWordChar p = false :=
    fun p member => isWordChar_of_isBlank (Text.isBlank_of_mem_trailingBlanks member)
  have parted : t.trailingBlanks.head?.any isWordChar = false := by
    cases blanks : t.trailingBlanks with
    | nil => rfl
    | cons p rest => exact behind p (by rw [blanks]; exact List.mem_cons_self)
  have whole := firstPair?_append_left before (t.trim ++ t.trailingBlanks)
  rw [Text.blanks_append_trim] at whole
  rw [whole, firstPair?, firstPair?,
    firstPairBehind?_append parted (firstPairBehind?_of_foreign behind), Option.or_none]

/-- The part of a content type before its parameters. -/
def withoutParameters (t : Text) : Text :=
  t.takeWhile (· ≠ .scalar ';')

/-- A pair before the parameters is the one that counts. -/
theorem firstPair?_of_withoutParameters {t : Text} {pair : Text × Text}
    (found : firstPair? (withoutParameters t) = some pair) : firstPair? t = some pair := by
  have whole : withoutParameters t ++ t.dropWhile (· ≠ .scalar ';') = t :=
    List.takeWhile_append_dropWhile
  cases parameters : t.dropWhile (· ≠ .scalar ';') with
  | nil =>
      rw [parameters, List.append_nil] at whole
      rw [← whole, found]
  | cons p rest =>
      have first := List.head?_dropWhile_not (· ≠ CodePoint.scalar ';') t
      rw [parameters] at first
      obtain rfl : p = .scalar ';' := by simpa using first
      have parted : (CodePoint.scalar ';' :: rest).head?.any isWordChar = false :=
        show isWordChar (.scalar ';') = false by decide
      have same : ∀ word, firstPairBehind? word (.scalar ';' :: rest) = firstPair? rest := by
        intro word
        rw [firstPairBehind?, if_neg (by decide), if_neg (by simp)]
        rfl
      rw [← whole, parameters, firstPair?, firstPairBehind?_append parted same]
      exact congrArg (Option.or · (firstPair? rest)) found

/-! ## Bare types -/

/-- A media type without parameters and without blanks around it. -/
structure IsBare (t : Text) : Prop where
  noParameters : .scalar ';' ∉ t
  isTrimmed : t.IsTrimmed

theorem isBare_bare (t : Text) : IsBare (bare t) where
  noParameters := by
    intro member
    have inside : CodePoint.scalar ';' ∈ withoutParameters t := by
      rw [← Text.blanks_append_trim (withoutParameters t)]
      exact List.mem_append_right _ (List.mem_append_left _ member)
    exact absurd (List.mem_takeWhile_imp inside) (by decide)
  isTrimmed := Text.isTrimmed_trim _

theorem bare_of_isBare {t : Text} (h : IsBare t) : bare t = t := by
  have whole : t.takeWhile (· ≠ .scalar ';') = t := by
    rw [List.takeWhile_eq_self_iff]
    intro p member
    have other : p ≠ .scalar ';' := fun same => h.noParameters (same ▸ member)
    simpa using other
  rw [bare, whole, Text.trim_of_isTrimmed h.isTrimmed]

theorem classify_bare_eq (t : Text) :
    classify (bare t) = (firstPair? (withoutParameters t)).elim .binary pairType := by
  rw [classify, bare, firstPair?_trim]
  rfl

end MediaType

/-! ## Documents -/

namespace Document

/-- The documents that are made with a content and a media type. -/
def IsMade (d : Document) : Prop :=
  ∃ content mimeType, ofText content mimeType = .ok d ∨ ofOctets content mimeType = .ok d

theorem IsMade.exists_make {d : Document} (h : IsMade d) :
    ∃ content mimeType, d = make content mimeType := by
  obtain ⟨content, mimeType, made | made⟩ := h
  · rw [ofText.eq_def] at made
    split at made
    · exact ⟨_, _, (Except.ok.inj made).symm⟩
    · cases made
  · rw [ofOctets.eq_def] at made
    split at made
    · exact ⟨_, _, (Except.ok.inj made).symm⟩
    · exact ⟨_, _, (Except.ok.inj made).symm⟩
    · cases made
    · cases made

/-- Take steps one after the other. -/
def takeAll (d : Document) (steps : List Step) : Document :=
  steps.foldl (fun d step => (d.take step).2) d

theorem isBare_make (content : DocumentContent) (mimeType : Text) :
    MediaType.IsBare (make content mimeType).mimeType :=
  MediaType.isBare_bare mimeType

/-- Setting the content changes nothing else. -/
theorem mimeType_setContent {d changed : Document} {content : Value} {encoding : BinaryEncoding}
    (h : d.setContent content encoding = .ok changed) : changed.mimeType = d.mimeType := by
  rw [setContent.eq_def] at h
  split at h
  · split at h
    · rw [← Except.ok.inj h]
    · cases h
  · obtain ⟨bytes, -, same⟩ := exists_of_bind_eq_ok h
    rw [← Except.ok.inj same]

/-- A step leaves a bare media type bare. -/
theorem isBare_take {d : Document} (h : MediaType.IsBare d.mimeType) (step : Step) :
    MediaType.IsBare (d.take step).2.mimeType := by
  cases step with
  | setMimeType mimeType => exact MediaType.isBare_bare mimeType
  | setContent content encoding =>
      rw [take]
      cases changed : d.setContent content encoding with
      | error fault => exact h
      | ok other =>
          rw [← mimeType_setContent changed] at h
          exact h
  | setOctets bytes =>
      rw [take]
      split
      · exact h
      · exact h
  | copyAsText => exact MediaType.isBare_bare d.mimeType

theorem isBare_takeAll {d : Document} (h : MediaType.IsBare d.mimeType) (steps : List Step) :
    MediaType.IsBare (d.takeAll steps).mimeType := by
  induction steps generalizing d with
  | nil => exact h
  | cons step steps ih => exact ih (isBare_take h step)

/-- A text document with a bare media type is its own copy. -/
theorem copyAsText_of_isBare {d : Document} {t : Text} (h : MediaType.IsBare d.mimeType)
    (isText : d.content = .text t) : d.copyAsText = d := by
  obtain ⟨content, mimeType⟩ := d
  subst isText
  rw [copyAsText, make, MediaType.bare_of_isBare h]
  rfl

/-- A content type and the bare type that a document keeps of it are read alike, if there is a pair
before the parameters; otherwise the document is one of octets.  Making a type bare twice does no more
than once: whatever is done to a document, its type stays bare, and a text document is its own
copy. -/
theorem classify_bare_and_copyAsText (t : Text) :
    ((∃ before major minor behind,
        MediaType.IsPairIn (MediaType.withoutParameters t) before major minor behind) →
      MediaType.classify (MediaType.bare t) = MediaType.classify t) ∧
    ((¬ ∃ before major minor behind,
        MediaType.IsPairIn (MediaType.withoutParameters t) before major minor behind) →
      MediaType.classify (MediaType.bare t) = .binary) ∧
    MediaType.bare (MediaType.bare t) = MediaType.bare t ∧
    ∀ start, IsMade start → ∀ steps,
      MediaType.IsBare (start.takeAll steps).mimeType ∧
      ∀ text, (start.takeAll steps).content = .text text →
        (start.takeAll steps).copyAsText = start.takeAll steps := by
  refine ⟨fun pair => ?_, fun none => ?_, ?_, fun start made steps => ?_⟩
  · obtain ⟨types, found⟩ := Option.isSome_iff_exists.mp (MediaType.isSome_firstPair?_iff.mpr pair)
    rw [MediaType.classify_bare_eq, MediaType.classify, found,
      MediaType.firstPair?_of_withoutParameters found]
  · rw [← MediaType.isSome_firstPair?_iff, Option.not_isSome_iff_eq_none] at none
    rw [MediaType.classify_bare_eq, none]
    rfl
  · exact MediaType.bare_of_isBare (MediaType.isBare_bare t)
  · obtain ⟨content, mimeType, rfl⟩ := made.exists_make
    have isBare := isBare_takeAll (isBare_make content mimeType) steps
    exact ⟨isBare, fun text isText => copyAsText_of_isBare isBare isText⟩

/-- A pair in a parameter does not count, but one before it does, blanks around it or not. -/
theorem classify_bare_and_copyAsText_parameters :
    (∃ before major minor behind, MediaType.IsPairIn
        (MediaType.withoutParameters " text/xml ; a=text/plain") before major minor behind) ∧
    MediaType.classify (MediaType.bare " text/xml ; a=text/plain") =
      MediaType.classify " text/xml ; a=text/plain" ∧
    (¬ ∃ before major minor behind, MediaType.IsPairIn
        (MediaType.withoutParameters "xml; a=text/plain") before major minor behind) ∧
    MediaType.classify (MediaType.bare "xml; a=text/plain") = .binary ∧
    IsMade (make (.text "a") "text/plain;b") ∧
    ((make (.text "a") "text/plain;b").takeAll [.setMimeType "text/xml ;c", .copyAsText]).copyAsText =
      (make (.text "a") "text/plain;b").takeAll [.setMimeType "text/xml ;c", .copyAsText] := by
  have pair : ∃ before major minor behind, MediaType.IsPairIn
      (MediaType.withoutParameters " text/xml ; a=text/plain") before major minor behind :=
    MediaType.isSome_firstPair?_iff.mp (by decide)
  have none : ¬ ∃ before major minor behind, MediaType.IsPairIn
      (MediaType.withoutParameters "xml; a=text/plain") before major minor behind :=
    fun found => absurd (MediaType.isSome_firstPair?_iff.mpr found) (by decide)
  have made : IsMade (make (.text "a") "text/plain;b") :=
    ⟨.text "a", "text/plain;b", .inl rfl⟩
  refine ⟨pair, (classify_bare_and_copyAsText _).1 pair, none,
    (classify_bare_and_copyAsText _).2.1 none, made, ?_⟩
  exact ((classify_bare_and_copyAsText "").2.2.2 _ made _).2 "a" rfl

end Document

end DocumentGateway
