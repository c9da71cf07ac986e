import DocumentGateway.Proofs.Xml.WrittenElement

namespace DocumentGateway
namespace Xml

/-!
# Scanning what was written

The names, values and tags of an element that is written are taken off the front of its characters
again.  A value is scanned as it is escaped; what it stands for is found when it is read.
-/

/-! ## Names -/

theorem isNameStart_narrow (c : Char) : TextForm.narrow.isNameStart c = isNameStart c :=
  Bool.or_false (isNameStart c)

theorem isNameChar_narrow (c : Char) : TextForm.narrow.isNameChar c = isNameChar c :=
  Bool.or_false (isNameChar c)

/-- Characters of a kind are parted from what follows them and is not of that kind. -/
theorem takeWhile_append_of_ends {p : Char → Bool} {front rest : List Char}
    (inside : ∀ c ∈ front, p c = true) (ends : ∀ c more, rest = c :: more → p c = false) :
    (front ++ rest).takeWhile p = front ∧ (front ++ rest).dropWhile p = rest := by
  rw [List.takeWhile_append_of_pos inside, List.dropWhile_append_of_pos inside]
  cases rest with
  | nil => exact ⟨List.append_nil front, rfl⟩
  | cons c more =>
      have stops : ¬ p c = true := Bool.eq_false_iff.mp (ends c more rfl)
      rw [List.takeWhile_cons_of_neg stops, List.dropWhile_cons_of_neg stops]
      exact ⟨List.append_nil front, rfl⟩

/-- They are parted in the same way from everything that begins as what followed them. -/
theorem takeWhile_append_of_head? {p : Char → Bool} {t other : List Char}
    (alike : other.head? = (t.dropWhile p).head?) :
    (t.takeWhile p ++ other).takeWhile p = t.takeWhile p ∧
      (t.takeWhile p ++ other).dropWhile p = other := by
  refine takeWhile_append_of_ends (fun c => List.mem_takeWhile_imp) ?_
  rintro c more rfl
  have first := List.head?_dropWhile_not p t
  rw [← alike] at first
  exact first

/-- What stands behind a name and ends it. -/
structure EndsName (c : Char) : Prop where
  foreign : isNameChar c = false
  notColon : c ≠ ':'
  whole : c ≠ cutChar

theorem endsName_space : EndsName ' ' := ⟨by decide, by decide, by decide⟩

theorem endsName_equals : EndsName '=' := ⟨by decide, by decide, by decide⟩

theorem endsName_close : EndsName '>' := ⟨by decide, by decide, by decide⟩

theorem scanName_append {name : List Char} (proper : isProperName name = true) {c : Char}
    (foreign : isNameChar c = false) (whole : c ≠ cutChar) (start rest : List Char) :
    scanName .narrow start (name ++ c :: rest) = .ok (name, c :: rest) := by
  cases name with
  | nil => exact absurd proper Bool.false_ne_true
  | cons d more =>
      rw [isProperName, Bool.and_eq_true, List.all_eq_true] at proper
      rcases proper with ⟨begins, inside⟩
      have inName : ∀ e ∈ more, TextForm.narrow.isNameChar e = true := fun e member =>
        (isNameChar_narrow e).trans (inside e member)
      have ends : ∀ e others, c :: rest = e :: others → TextForm.narrow.isNameChar e = false := by
        rintro e others ⟨⟩
        exact (isNameChar_narrow c).trans foreign
      have split := takeWhile_append_of_ends inName ends
      rw [List.cons_append, scanName, isNameStart_narrow, if_pos begins, split.1, split.2, endName,
        if_neg whole]

theorem scanQualifiedName_append {name : List Char} (proper : IsProperSpelling name) {c : Char}
    (ends : EndsName c) (start rest : List Char) :
    scanQualifiedName .narrow start (name ++ c :: rest) = .ok (name, c :: rest) := by
  cases proper with
  | plain h =>
      rw [scanQualifiedName, scanName_append h ends.foreign ends.whole]
      dsimp only [bind, Except.bind]
      split
      · next same => exact absurd (List.cons.inj same).1 ends.notColon
      · rfl
  | @prefixed front base hFront h =>
      have split : front ++ ':' :: base ++ c :: rest = front ++ ':' :: (base ++ c :: rest) := by
        rw [List.append_assoc, List.cons_append]
      rw [scanQualifiedName, split, scanName_append hFront (by decide) (by decide)]
      change (scanName .narrow start (base ++ c :: rest)).bind _ = _
      rw [scanName_append h ends.foreign ends.whole]
      rfl

/-- A name begins with a character that begins no other part of a tag. -/
theorem exists_cons_of_isProperName {name : List Char} (proper : isProperName name = true) :
    ∃ c rest, name = c :: rest ∧ isNameStart c = true := by
  cases name with
  | nil => exact absurd proper Bool.false_ne_true
  | cons c rest =>
      rw [isProperName, Bool.and_eq_true] at proper
      exact ⟨c, rest, rfl, proper.1⟩

theorem exists_cons_of_isProperSpelling {name : List Char} (proper : IsProperSpelling name) :
    ∃ c rest, name = c :: rest ∧ isNameStart c = true := by
  cases proper with
  | plain h => exact exists_cons_of_isProperName h
  | @prefixed front base hFront h =>
      rcases exists_cons_of_isProperName hFront with ⟨c, rest, rfl, begins⟩
      exact ⟨c, rest ++ ':' :: base, rfl, begins⟩

/-! ## Values -/

/-- What a reference stands for without any declaration. -/
inductive Reference.Means : Reference → Char → Prop
  | character {number : Nat} {c : Char} (h : characterOf? number = some c) : Means (.character number) c
  | entity {name : List Char} {c : Char} (h : predefined? name = some c) : Means (.entity name) c

/-- Whether a character of a value is scanned by itself. -/
def isLoneInValue (c : Char) : Bool :=
  isXmlChar c && c != '"' && c != '<' && c != '&'

/-- What follows the ampersand of a reference to a character. -/
structure IsReferenceTo (c : Char) (body : List Char) : Prop where
  scanned : ∃ r : Reference, r.Means c ∧
    ∀ start rest, scanReference .narrow start (body ++ rest) = .ok (r, rest)
  lone : ∀ d ∈ body, isLoneInValue d = true

/-- The name of a predefined character refers to it. -/
theorem isReferenceTo_name (name : List Char) {c : Char} (proper : isProperName name = true)
    (found : predefined? name = some c) (lone : (name ++ [';']).all isLoneInValue = true) :
    IsReferenceTo c (name ++ [';']) := by
  refine ⟨⟨.entity name, .entity found, fun start rest => ?_⟩, List.all_eq_true.mp lone⟩
  have named : scanName .narrow start (name ++ ';' :: rest) = .ok (name, ';' :: rest) :=
    scanName_append proper (by decide) (by decide) start rest
  have notNumber : ∀ more, name ++ ';' :: rest ≠ '#' :: more := by
    cases name with
    | nil => exact absurd proper Bool.false_ne_true
    | cons d others =>
        rw [isProperName, Bool.and_eq_true] at proper
        rintro more ⟨⟩
        exact absurd proper.1 (by decide)
  rw [List.append_assoc, List.singleton_append]
  unfold scanReference
  split
  · next same => exact absurd same (notNumber _)
  · next same => exact absurd same (notNumber _)
  · exact bind_of_eq_ok named _

/-- The number of a character refers to it. -/
theorem isReferenceTo_number (digits : List Char) {c : Char} (nonempty : digits ≠ [])
    (areDigits : digits.all isAsciiDigit = true)
    (found : characterOf? (digits.foldl (fun n d => 10 * n + (hexDigit? d).getD 0) 0) = some c)
    (lone : ('#' :: (digits ++ [';'])).all isLoneInValue = true) :
    IsReferenceTo c ('#' :: (digits ++ [';'])) := by
  refine ⟨⟨_, .character found, fun start rest => ?_⟩, List.all_eq_true.mp lone⟩
  rw [List.all_eq_true] at areDigits
  have ends : ∀ d others, ';' :: rest = d :: others → isAsciiDigit d = false := by
    rintro d others ⟨⟩
    decide
  have split := takeWhile_append_of_ends areDigits ends
  have decimal : ∀ more, digits ++ ';' :: rest ≠ 'x' :: more := by
    intro more same
    cases digits with
    | nil => exact nonempty rfl
    | cons d others =>
        have digit := areDigits d List.mem_cons_self
        rw [(List.cons.inj same).1] at digit
        exact absurd digit (by decide)
  rw [List.cons_append, List.append_assoc, List.singleton_append,
    scanReference.eq_2 _ _ _ fun more same => decimal more same, scanNumber]
  dsimp only
  rw [split.1, split.2]
  cases digits with
  | nil => exact absurd rfl nonempty
  | cons d others => rfl

/-- A character of an attribute value is written as it is, or as a reference to it. -/
theorem escapeAttribute_cases {c : Char} (fits : isXmlChar c = true) :
    (escapeAttribute c = [c] ∧ isLoneInValue c = true ∧ (c = ' ' ∨ isSpace c = false)) ∨
      ∃ body, escapeAttribute c = '&' :: body ∧ IsReferenceTo c body := by
  unfold escapeAttribute
  split
  · exact Or.inr ⟨_, rfl, isReferenceTo_name "amp".toList (by decide) (by decide) (by decide)⟩
  · exact Or.inr ⟨_, rfl, isReferenceTo_name "lt".toList (by decide) (by decide) (by decide)⟩
  · exact Or.inr ⟨_, rfl, isReferenceTo_name "gt".toList (by decide) (by decide) (by decide)⟩
  · exact Or.inr ⟨_, rfl, isReferenceTo_name "quot".toList (by decide) (by decide) (by decide)⟩
  · exact Or.inr ⟨_, rfl, isReferenceTo_number "13".toList (by decide) (by decide) (by decide) (by decide)⟩
  · exact Or.inr ⟨_, rfl, isReferenceTo_number "10".toList (by decide) (by decide) (by decide) (by decide)⟩
  · exact Or.inr ⟨_, rfl, isReferenceTo_number "09".toList (by decide) (by decide) (by decide) (by decide)⟩
  · next notAnd notLess notMore notQuote notReturn notFeed notTab =>
      refine Or.inl ⟨rfl, ?_, ?_⟩
      · simp only [isLoneInValue, fits, Bool.and_eq_true, bne_iff_ne]
        exact ⟨⟨⟨trivial, notQuote⟩, notLess⟩, notAnd⟩
      · by_cases isBlank : c = ' '
        · exact Or.inl isBlank
        · apply Or.inr
          simp only [isSpace, Bool.or_eq_false_iff, beq_eq_false_iff_ne]
          exact ⟨⟨⟨isBlank, notTab⟩, notFeed⟩, notReturn⟩

/-- Characters that are scanned by themselves stand before the rest of a value. -/
theorem scanValue_append {lone : List Char} (h : ∀ c ∈ lone, isLoneInValue c = true)
    {start t value behind : List Char}
    (scanned : scanValue .narrow start '"' t = .ok (value, behind)) :
    scanValue .narrow start '"' (lone ++ t) = .ok (lone ++ value, behind) := by
  induction lone with
  | nil => exact scanned
  | cons c rest ih =>
      rw [List.forall_mem_cons] at h
      rcases h with ⟨first, later⟩
      simp only [isLoneInValue, Bool.and_eq_true, bne_iff_ne] at first
      rcases first with ⟨⟨⟨fits, notQuote⟩, notLess⟩, notAnd⟩
      have inside : ¬ (c = '<' || !isXmlChar c) = true := by simp [notLess, fits]
      rw [List.cons_append, scanValue, if_neg notQuote, if_neg inside]
      dsimp only
      rw [if_neg notAnd, ih later]
      rfl

/-- A value is scanned up to its closing quote. -/
theorem scanValue_escaped {value : List Char} (chars : AreXmlChars value) (start rest : List Char) :
    scanValue .narrow start '"' (value.flatMap escapeAttribute ++ '"' :: rest) =
      .ok (value.flatMap escapeAttribute, rest) := by
  induction value with
  | nil => rfl
  | cons c more ih =>
      have later := ih chars.tail
      rw [List.flatMap_cons, List.append_assoc]
      rcases escapeAttribute_cases (chars c List.mem_cons_self) with
        ⟨same, lone, -⟩ | ⟨body, same, reference⟩
      · rw [same]
        exact scanValue_append (List.forall_mem_singleton.mpr lone) later
      · rcases reference.scanned with ⟨r, -, scanned⟩
        have behind := scanValue_append reference.lone later
        rw [same, List.cons_append, scanValue, if_neg (by decide), if_neg (by decide)]
        dsimp only
        rw [if_pos rfl, scanned, behind]
        rfl

/-! ## Tags -/

/-- The end of a start tag as it is written. -/
def tagEnd (isEmpty : Bool) : List Char :=
  if isEmpty then [' ', '/', '>'] else ['>']

theorem ne_of_isNameChar {c d : Char} (h : (TextForm.wide false).isNameChar c = true)
    (foreign : (TextForm.wide false).isNameChar d = false) : c ≠ d := by
  rintro rfl
  exact Bool.false_ne_true (foreign.symm.trans h)

theorem not_isSpace_of_isNameChar {c : Char} (h : (TextForm.wide false).isNameChar c = true) :
    isSpace c = false := by
  simp only [isSpace, Bool.or_eq_false_iff, beq_eq_false_iff_ne]
  refine ⟨⟨⟨?_, ?_⟩, ?_⟩, ?_⟩
  · exact ne_of_isNameChar h (by decide)
  · exact ne_of_isNameChar h (by decide)
  · exact ne_of_isNameChar h (by decide)
  · exact ne_of_isNameChar h (by decide)

theorem isNameChar_wide_of_isNameStart {c : Char} (begins : isNameStart c = true) :
    (TextForm.wide false).isNameChar c = true := by
  rw [TextForm.isNameChar, isNameChar_of_isNameStart begins, Bool.true_or]

/-- What stands behind the name of an attribute up to the text that follows the attribute. -/
def valueMarkup (value following : List Char) : List Char :=
  '=' :: '"' :: (value.flatMap escapeAttribute ++ '"' :: following)

theorem writeAttribute_append (name value following : List Char) :
    writeAttribute name value ++ following = ' ' :: (name ++ valueMarkup value following) := by
  simp only [writeAttribute, valueMarkup, List.cons_append, List.append_assoc, List.nil_append]

theorem attributesMarkup_cons (pair : List Char × List Char) (more : List (List Char × List Char)) :
    attributesMarkup (pair :: more) = writeAttribute pair.1 pair.2 ++ attributesMarkup more :=
  List.flatMap_cons

/-- Every attribute takes up some of the tag. -/
theorem length_le_length_attributesMarkup (pairs : List (List Char × List Char)) :
    pairs.length ≤ (attributesMarkup pairs).length := by
  induction pairs with
  | nil => exact Nat.le_refl 0
  | cons pair more ih =>
      rw [attributesMarkup_cons, List.length_append, writeAttribute, List.length_cons]
      simp only [List.cons_append, List.length_cons]
      omega

/-- An attribute is scanned before those that follow it. -/
theorem scanAttributes_writeAttribute {name value : List Char} (proper : IsProperSpelling name)
    (chars : AreXmlChars value) (start following : List Char) (budget : Nat) :
    scanAttributes .narrow start (budget + 1) (writeAttribute name value ++ following) = (do
      let (written, isEmpty, behind) ← scanAttributes .narrow start budget following
      return (⟨name, value.flatMap escapeAttribute, name ++ valueMarkup value following,
        '"' :: following⟩ :: written, isEmpty, behind)) := by
  rcases exists_cons_of_isProperSpelling proper with ⟨c, tail, cons, begins⟩
  have place : skipSpaces (' ' :: (name ++ valueMarkup value following)) =
      name ++ valueMarkup value following := by
    rw [skipSpaces, List.dropWhile_cons_of_pos (by decide), cons, List.cons_append,
      List.dropWhile_cons_of_neg (Bool.eq_false_iff.mp (not_isSpace_of_isNameChar (isNameChar_wide_of_isNameStart begins)))]
  have named : scanQualifiedName .narrow start (name ++ valueMarkup value following) =
      .ok (name, valueMarkup value following) :=
    scanQualifiedName_append proper endsName_equals start _
  have opened : scanEquals start (valueMarkup value following) =
      .ok ('"', value.flatMap escapeAttribute ++ '"' :: following) := rfl
  rw [writeAttribute_append, scanAttributes, if_neg (by simp [endsPart, isSpace]), place]
  split
  · next same =>
      rw [cons] at same
      cases (List.cons.inj same).1
      exact absurd begins (by decide)
  · next same =>
      rw [cons] at same
      cases (List.cons.inj same).1
      exact absurd begins (by decide)
  · next same =>
      rw [cons] at same
      cases (List.cons.inj same).1
      exact absurd begins (by decide)
  · refine (bind_of_eq_ok named _).trans ?_
    refine (bind_of_eq_ok opened _).trans ?_
    exact bind_of_eq_ok (scanValue_escaped chars start following) _

/-- Attributes are scanned one by one up to the end of their tag. -/
theorem exists_scanAttributes {pairs : List (List Char × List Char)}
    (h : ∀ pair ∈ pairs, IsProperSpelling pair.1 ∧ AreXmlChars pair.2) (isEmpty : Bool)
    (start rest : List Char) {budget : Nat} (enough : pairs.length < budget) :
    ∃ written, scanAttributes .narrow start budget
        (attributesMarkup pairs ++ (tagEnd isEmpty ++ rest)) = .ok (written, isEmpty, rest) ∧
      written.map (fun a => (a.name, a.value)) =
        pairs.map fun pair => (pair.1, pair.2.flatMap escapeAttribute) := by
  induction pairs generalizing budget with
  | nil =>
      cases budget with
      | zero => exact absurd enough (Nat.lt_irrefl 0)
      | succ budget =>
          refine ⟨[], ?_, rfl⟩
          cases isEmpty with
          | true => rfl
          | false => rfl
  | cons pair more ih =>
      rw [List.forall_mem_cons] at h
      cases budget with
      | zero => exact absurd enough (Nat.not_lt_zero _)
      | succ budget =>
          rcases ih h.2 (Nat.lt_of_succ_lt_succ enough) with ⟨written, scanned, same⟩
          have first := scanAttributes_writeAttribute h.1.1 h.1.2 start
            (attributesMarkup more ++ (tagEnd isEmpty ++ rest)) budget
          rw [attributesMarkup_cons, List.append_assoc]
          exact ⟨_, first.trans (bind_of_eq_ok scanned _), congrArg ((pair.1, pair.2.flatMap escapeAttribute) :: ·) same⟩

/-- The name of a tag ends before its attributes. -/
theorem scanQualifiedName_tag {name : List Char} (proper : IsProperSpelling name)
    (pairs : List (List Char × List Char)) (isEmpty : Bool) (start rest : List Char) :
    scanQualifiedName .narrow start
        (name ++ (attributesMarkup pairs ++ (tagEnd isEmpty ++ rest))) =
      .ok (name, attributesMarkup pairs ++ (tagEnd isEmpty ++ rest)) := by
  have begins : ∃ c more, attributesMarkup pairs ++ (tagEnd isEmpty ++ rest) = c :: more ∧
      EndsName c := by
    cases pairs with
    | nil =>
        cases isEmpty with
        | true => exact ⟨' ', _, rfl, endsName_space⟩
        | false => exact ⟨'>', _, rfl, endsName_close⟩
    | cons pair more =>
        rw [attributesMarkup_cons, List.append_assoc, writeAttribute_append]
        exact ⟨' ', _, rfl, endsName_space⟩
  rcases begins with ⟨c, more, cons, ends⟩
  rw [cons]
  exact scanQualifiedName_append proper ends start more

theorem exists_scanStartTag {name : List Char} (proper : IsProperSpelling name)
    {pairs : List (List Char × List Char)}
    (h : ∀ pair ∈ pairs, IsProperSpelling pair.1 ∧ AreXmlChars pair.2) (isEmpty : Bool)
    (start rest : List Char) :
    ∃ tag : StartTag, scanStartTag .narrow start
        (name ++ (attributesMarkup pairs ++ (tagEnd isEmpty ++ rest))) = .ok (tag, rest) ∧
      tag.name = name ∧ tag.isEmpty = isEmpty ∧
      tag.attributes.map (fun a => (a.name, a.value)) =
        pairs.map fun pair => (pair.1, pair.2.flatMap escapeAttribute) := by
  have fewer : pairs.length <
      (name ++ (attributesMarkup pairs ++ (tagEnd isEmpty ++ rest))).length + 1 := by
    have each := length_le_length_attributesMarkup pairs
    simp only [List.length_append]
    omega
  rcases exists_scanAttributes h isEmpty start rest fewer with ⟨written, scanned, same⟩
  refine ⟨⟨name, written, isEmpty⟩, ?_, rfl, rfl, same⟩
  refine (bind_of_eq_ok (scanQualifiedName_tag proper pairs isEmpty start rest) _).trans ?_
  exact bind_of_eq_ok scanned _

end Xml
end DocumentGateway
