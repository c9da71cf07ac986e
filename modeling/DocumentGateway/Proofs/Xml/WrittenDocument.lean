import DocumentGateway.Proofs.Xml.LegibleNames
import DocumentGateway.Proofs.Xml.WrittenCharacters

namespace DocumentGateway
namespace Xml

/-!
# Reading written documents

A document as it is written has neither a prolog nor anything behind its element, and no zero octet,
so that it is taken for a text in the narrow form.
-/

/-! ## The form of a document -/

theorem uInt8_ofNat_ne_zero {n : Nat} (positive : 0 < n) (small : n < 256) : UInt8.ofNat n ≠ 0 := by
  intro same
  have number := congrArg UInt8.toNat same
  rw [UInt8.toNat_ofNat', Nat.mod_eq_of_lt small] at number
  exact absurd number (Nat.ne_of_gt positive)

/-- The first octet of a character is zero for no other character but zero. -/
theorem exists_cons_utf8EncodeChar {c : Char} (positive : 0 < c.toNat) :
    ∃ octet more, String.utf8EncodeChar c = octet :: more ∧ octet ≠ 0 := by
  have number : c.val.toNat = c.toNat := rfl
  unfold String.utf8EncodeChar
  rw [number]
  dsimp only
  split
  · exact ⟨_, _, rfl, uInt8_ofNat_ne_zero positive (by omega)⟩
  · split
    · exact ⟨_, _, rfl, uInt8_ofNat_ne_zero (by omega) (by omega)⟩
    · split
      · exact ⟨_, _, rfl, uInt8_ofNat_ne_zero (by omega) (by omega)⟩
      · exact ⟨_, _, rfl, uInt8_ofNat_ne_zero (by omega) (by omega)⟩

/-- A text that begins with two characters other than zero is in the narrow form. -/
theorem octetOrder?_utf8Octets {c : Char} (positive : 0 < c.toNat) (rest : List Char) :
    octetOrder? (utf8Octets ('<' :: c :: rest)) = none := by
  rcases exists_cons_utf8EncodeChar positive with ⟨octet, more, encoded, notZero⟩
  have octets : utf8Octets ('<' :: c :: rest) =
      60 :: octet :: (more ++ utf8Octets rest) := by
    rw [utf8Octets, List.flatMap_cons, List.flatMap_cons, encoded]
    rfl
  rw [octets]
  unfold octetOrder?
  split
  · next same => exact absurd (List.cons.inj same).1 (by decide)
  · next same => exact absurd (List.cons.inj (List.cons.inj same).2).1 notZero
  · rfl

theorem map_uncut {t : List Char} (h : cutChar ∉ t) : t.map uncut = t := by
  induction t with
  | nil => rfl
  | cons c rest ih =>
      rw [List.mem_cons, not_or] at h
      rw [List.map_cons, uncut, if_neg (Ne.symm h.1), ih h.2]

/-! ## The root element -/

/-- What begins with a character of names is taken for the root element or refused. -/
theorem scanToken_of_isNameChar {c : Char} (h : (TextForm.wide false).isNameChar c = true)
    (rest : List Char) :
    Prolog.scanToken .narrow ('<' :: c :: rest) =
      if TextForm.narrow.beginsRoot c then .ok (.root, '<' :: c :: rest)
      else stop .invalidToken (c :: rest) := by
  have notMark : c ≠ '!' := ne_of_isNameChar h (by decide)
  have notQuestion : c ≠ '?' := ne_of_isNameChar h (by decide)
  change Prolog.scanBracket .narrow ('<' :: c :: rest) (c :: rest) = _
  unfold Prolog.scanBracket
  split
  · next same => cases same
  · next same => exact absurd (List.cons.inj same).1 notMark
  · next same => exact absurd (List.cons.inj same).1 notQuestion
  · next same =>
      cases same
      rfl

/-- A document that begins with a tag has no prolog. -/
theorem read_of_isNameStart {c : Char} (begins : isNameStart c = true) (rest : List Char)
    (tally : Tally) :
    Prolog.read .narrow ('<' :: c :: rest) tally = .ok ((.empty false, '<' :: c :: rest), tally) := by
  have beginsRoot : TextForm.narrow.beginsRoot c = true := by
    simp [TextForm.beginsRoot, TextForm.isWide, isNameStart_narrow, begins]
  have scanned := scanToken_of_isNameChar (isNameChar_wide_of_isNameStart begins) rest
  rw [if_pos beginsRoot] at scanned
  rw [Prolog.read, Prolog.readFrom.eq_3 _ _ _ _ _ _ (List.cons_ne_nil _ _)]
  · exact Reading.bind_of_eq_ok (Reading.liftM_of_eq_ok scanned tally) _
  · exact fun _ same => absurd (List.cons.inj same).1 (by decide)

/-- No prolog is found before a name, whatever character it begins with. -/
theorem ensures_read_of_isNameChar {c : Char} (h : (TextForm.wide false).isNameChar c = true)
    (rest : List Char) :
    (Prolog.read .narrow ('<' :: c :: rest)).Ensures (· = (.empty false, '<' :: c :: rest)) := by
  rw [Prolog.read, Prolog.readFrom.eq_3 _ _ _ _ _ _ (List.cons_ne_nil _ _)]
  · refine (Reading.ensures_liftM fun _ scanned => scanned).bind ?_
    rintro ⟨token, behind⟩ scanned
    rw [scanToken_of_isNameChar h] at scanned
    split at scanned
    · cases scanned
      exact Reading.ensures_pure rfl
    · exact absurd scanned stop_ne_ok
  · exact fun _ same => absurd (List.cons.inj same).1 (by decide)

/-- A document that is one written element, with nothing behind it, is read as the element. -/
theorem readChars_of_elementReadsAs {c : Char} (begins : isNameStart c = true) {rest : List Char}
    {tag : StartTag} {behind : List Char} {e : Element}
    (h : ElementReadsAs Scope.outermost ('<' :: c :: rest) tag behind e []) :
    readChars .narrow ('<' :: c :: rest) = .ok e := by
  have covers : (Tally.start (TextForm.narrow.octets ('<' :: c :: rest))).Covers ('<' :: c :: rest) :=
    Nat.le_of_eq (Nat.zero_add _)
  have coversBehind := Nat.le_trans (Nat.add_le_add_left h.fewer _) covers
  have enough : behind.length < readingBudget (.empty false) ('<' :: c :: rest) := by
    have shorter := h.shorter
    unfold readingBudget
    omega
  rcases h.read _ _ enough covers with ⟨after, read, -⟩
  have document : readDocument .narrow ('<' :: c :: rest)
      (.start (TextForm.narrow.octets ('<' :: c :: rest))) = .ok (e, after) := by
    rw [readDocument]
    refine (Reading.bind_of_eq_ok (read_of_isNameStart begins rest _) _).trans ?_
    refine (Reading.bind_of_eq_ok (Reading.liftM_of_eq_ok h.scanned _) _).trans ?_
    refine (Reading.bind_of_eq_ok (countToken_of_covers coversBehind) _).trans ?_
    refine (Reading.bind_of_eq_ok read _).trans ?_
    rfl
  rw [readChars, StateT.run, document]

/-- Only an element that leaves nothing behind it is read from a whole document. -/
theorem holds_of_readChars {c : Char} (h : (TextForm.wide false).isNameChar c = true)
    {rest following : List Char} {holds : Prop}
    (leaves : ElementLeaves ('<' :: c :: rest) following holds) {e : Element}
    (read : readChars .narrow ('<' :: c :: rest) = .ok e) : holds := by
  have ensured : (readDocument .narrow ('<' :: c :: rest)).Ensures fun _ => holds := by
    rw [readDocument]
    refine (ensures_read_of_isNameChar h rest).bind ?_
    rintro _ rfl
    refine (Reading.ensures_liftM fun _ scanned => scanned).bind ?_
    rintro ⟨token, behind⟩ scanned
    rcases leaves.read token behind scanned with ⟨tag, rfl, inner⟩
    apply Reading.ensures_bind
    intro _
    refine (inner _ _ _).bind fun _ both => ?_
    exact Reading.ensures_bind fun _ => Reading.ensures_pure both.2
  unfold readChars at read
  split at read
  · next after found => exact ensured _ _ _ found
  · cases read

/-! ## The markup of a root element -/

section Root

variable {prefixes : Prefixes} {root : Element}

theorem exists_cons_markup (table : prefixes.IsTable) (read : root.IsRead)
    (spells : ∀ name ∈ root.allNames, prefixes.CanSpell name)
    (bindings : List (List Char × List Char)) :
    ∃ c rest, prefixes.markup bindings root = '<' :: c :: rest ∧
      (TextForm.wide false).isNameChar c = true ∧ (root.IsLegible → isNameStart c = true) := by
  cases root with
  | node tag attributes text tail children =>
      have spelling := isSpelling_spell table (forall_mem_allNames_node.mp spells).1
      rcases spelling.exists_cons with ⟨c, rest, cons, inName⟩
      rw [Prefixes.markup, cons]
      refine ⟨c, _, rfl, inName, fun legible => ?_⟩
      rcases exists_cons_of_isProperSpelling
        (spelling.isProperSpelling (forall_mem_allNames_node.mp legible).1) with
        ⟨d, more, same, begins⟩
      rw [cons] at same
      exact (List.cons.inj same).1 ▸ begins
  | comment content tail => exact False.elim read
  | instruction content tail => exact False.elim read

/-- The root has no text behind it, so that the characters of all texts are those of the markup. -/
theorem mem_markup_iff_of_isReadAlone {c : Char} (h : IsOfTexts c) (table : prefixes.IsTable)
    (alone : root.IsReadAlone) (spells : ∀ name ∈ root.allNames, prefixes.CanSpell name) :
    c ∈ prefixes.markup prefixes.bindingPairs root ↔ ∃ v ∈ root.allSlots, c ∈ slotChars v := by
  have inMarkup := h.mem_markup_iff table (h.not_mem_bindingPairs table) root alone.read spells
  rwa [alone.slotChars_tail, List.flatMap_nil, List.append_nil] at inMarkup

/-- The characters of a document are read in the narrow form. -/
theorem read_markup (table : prefixes.IsTable) (alone : root.IsReadAlone)
    (spells : ∀ name ∈ root.allNames, prefixes.CanSpell name) :
    read (Text.ofChars (prefixes.markup prefixes.bindingPairs root)) =
      readChars .narrow (prefixes.markup prefixes.bindingPairs root) := by
  have notCut : cutChar ∉ prefixes.markup prefixes.bindingPairs root := by
    rw [mem_markup_iff_of_isReadAlone isOfTexts_cutChar table alone spells]
    rintro ⟨v, member, inSlot⟩
    have chars := areXmlChars_slotChars (Element.isReadText_of_mem_allSlots alone.read v member)
    exact absurd (chars cutChar inSlot) (by decide)
  rcases exists_cons_markup table alone.read spells prefixes.bindingPairs with
    ⟨c, rest, cons, inName, -⟩
  have notZero : c ≠ Char.ofNat 0 := ne_of_isNameChar inName (by decide)
  have positive : 0 < c.toNat := by
    refine Nat.pos_of_ne_zero fun zero => notZero ?_
    rw [← zero, Char.ofNat_toNat]
  rw [read_ofChars, readScalars, map_uncut notCut, cons, octetOrder?_utf8Octets positive]

/-- A legible element is read from its document, with line feeds for all of its line ends. -/
theorem read_markup_of_isLegible (table : prefixes.IsTable) (alone : root.IsReadAlone)
    (spells : ∀ name ∈ root.allNames, prefixes.CanSpell name) (legible : root.IsLegible) :
    read (Text.ofChars (prefixes.markup prefixes.bindingPairs root)) = .ok root.withLineFeeds := by
  have spelled : root.IsSpelled prefixes :=
    ⟨alone.read, fun name member => ⟨spells name member, legible name member⟩⟩
  rcases exists_elementReadsAs_markup table (Prefixes.opens_bindingPairs table) root spelled [] with
    ⟨tag, behind, result⟩
  rcases exists_cons_markup table alone.read spells prefixes.bindingPairs with
    ⟨c, rest, cons, -, begins⟩
  rw [read_markup table alone spells]
  rw [List.append_nil, alone.withLineFeeds.alone, cons] at result
  rw [cons]
  exact readChars_of_elementReadsAs (begins legible) result

/-- No document is accepted but that of a legible element. -/
theorem isLegible_of_read_markup (table : prefixes.IsTable) (alone : root.IsReadAlone)
    (spells : ∀ name ∈ root.allNames, prefixes.CanSpell name) {e : Element}
    (accepted : read (Text.ofChars (prefixes.markup prefixes.bindingPairs root)) = .ok e) :
    root.IsLegible := by
  have leaves := elementLeaves_markup table (areSpelled_bindingPairs table) root alone.read spells []
  rcases exists_cons_markup table alone.read spells prefixes.bindingPairs with
    ⟨c, rest, cons, inName, -⟩
  rw [read_markup table alone spells, cons] at accepted
  rw [List.append_nil, cons] at leaves
  exact holds_of_readChars inName leaves accepted

end Root

end Xml
end DocumentGateway
