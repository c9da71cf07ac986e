import DocumentGateway.Proofs.Xml.Reading
import DocumentGateway.Proofs.Xml.WrittenMarkup

namespace DocumentGateway
namespace Xml

/-!
# Reading written values

An attribute value that is read back is the one that was escaped.  Every reference in it is read
indirectly as one octet, but takes up more than one octet of its tag, so that reading never stops for
what was counted.
-/

/-! ## Counting -/

namespace Tally

/-- What reading a part of a tag does to a tally: at most so many octets more were read indirectly,
and no fewer directly. -/
structure Grows (references : Nat) (tally after : Tally) : Prop where
  whole : after.whole = tally.whole
  indirect : after.indirect ≤ tally.indirect + references
  direct : tally.direct.get ≤ after.direct.get

variable {tally between after : Tally}

theorem Grows.refl (tally : Tally) : Grows 0 tally tally :=
  ⟨rfl, Nat.le_refl _, Nat.le_refl _⟩

theorem Grows.trans {m n : Nat} (h : Grows m tally between) (hNext : Grows n between after) :
    Grows (m + n) tally after where
  whole := hNext.whole.trans h.whole
  indirect := by
    have first := h.indirect
    have second := hNext.indirect
    omega
  direct := h.direct.trans hNext.direct

end Tally

theorem tolerate_of_isTolerable {place : List Char} {change : Tally → Tally} {tally : Tally}
    (h : (change tally).isTolerable = true) :
    tolerate place change tally = .ok ((), change tally) := by
  have tested : tolerate place change tally =
      (if !(change tally).isTolerable then liftM (stop .excessiveExpansion place) else pure () :
        Reading Unit) (change tally) := rfl
  rw [tested, h]
  rfl

/-- Octets of the document may be counted while no more was read indirectly than directly. -/
theorem exists_count {account : Account} (notIndirect : account ≠ .indirect) (place : List Char)
    (octets : Nat) {tally : Tally} (h : tally.indirect ≤ tally.direct.get) :
    ∃ after, account.count place octets tally = .ok ((), after) ∧ tally.Grows 0 after := by
  cases account with
  | direct =>
      refine ⟨tally.withAgain octets, tolerate_of_isTolerable ?_, rfl, Nat.le_refl _, ?_⟩
      · exact Tally.isTolerable_of_indirect_le (h.trans (Nat.le_add_right _ _))
      · exact Nat.le_add_right _ _
  | indirect => exact absurd rfl notIndirect
  | free => exact ⟨tally, rfl, .refl tally⟩

/-! ## Pieces of a value -/

/-- Whether a character of a value is in a run of text, as it is written. -/
def isInsideWritten (c : Char) : Bool :=
  isInsideRun c && escapeAttribute c == [c]

/-- Characters up to the first one that does not go on with them. -/
theorem exists_run (p : Char → Bool) (t : List Char) :
    ∃ run rest, t = run ++ rest ∧ (∀ c ∈ run, p c = true) ∧
      ∀ c more, rest = c :: more → p c = false := by
  induction t with
  | nil => exact ⟨[], [], rfl, fun c member => absurd member List.not_mem_nil, by rintro c more ⟨⟩⟩
  | cons c rest ih =>
      by_cases goesOn : p c = true
      · rcases ih with ⟨run, behind, rfl, inside, ends⟩
        exact ⟨c :: run, behind, rfl, List.forall_mem_cons.mpr ⟨goesOn, inside⟩, ends⟩
      · refine ⟨[], c :: rest, rfl, fun d member => absurd member List.not_mem_nil, ?_⟩
        rintro d more ⟨⟩
        exact Bool.eq_false_iff.mpr goesOn

theorem scanValuePiece_run {c : Char} {run : List Char}
    (inside : ∀ d ∈ c :: run, isInsideRun d = true) {rest : List Char}
    (ends : ∀ d more, rest = d :: more → isInsideRun d = false ∧ d ≠ '<') :
    ∃ octets, scanValuePiece .narrow (c :: run ++ rest) = .ok (.text (c :: run), octets, rest) := by
  rw [List.forall_mem_cons] at inside
  rcases inside with ⟨first, later⟩
  have parts := takeWhile_append_of_ends later fun d more same => (ends d more same).1
  simp only [isInsideRun, Bool.and_eq_true, bne_iff_ne, Bool.not_eq_true'] at first
  rcases first with ⟨⟨notAnd, notLess⟩, notSpace⟩
  have notReturn : TextForm.narrow.isReturn c = false := by
    by_contra isReturn
    simp only [TextForm.isReturn, Bool.not_eq_false, Bool.and_eq_true, beq_iff_eq] at isReturn
    rw [isReturn.1] at notSpace
    exact absurd notSpace (by decide)
  rw [List.cons_append]
  unfold scanValuePiece
  split
  · next same => cases same
  · next same => exact absurd (List.cons.inj same).1 notLess
  · next same => exact absurd (List.cons.inj same).1 notAnd
  · next same =>
      rcases List.cons.inj same with ⟨rfl, rfl⟩
      rw [if_neg (Bool.eq_false_iff.mp notReturn), if_neg (Bool.eq_false_iff.mp notSpace)]
      dsimp only
      rw [parts.1, parts.2]
      split
      · exact absurd rfl (ends _ _ rfl).2
      · exact ⟨_, rfl⟩

theorem scanValuePiece_space (rest : List Char) :
    scanValuePiece .narrow (' ' :: rest) = .ok (.space, 1, rest) := by
  unfold scanValuePiece
  split
  · next same => cases same
  · next same => exact absurd (List.cons.inj same).1 (by decide)
  · next same => exact absurd (List.cons.inj same).1 (by decide)
  · next same =>
      cases same
      rfl

theorem scanValuePiece_reference {r : Reference} {t behind : List Char}
    (scanned : scanReference .narrow ('&' :: t) t = .ok (r, behind)) :
    ∃ octets, scanValuePiece .narrow ('&' :: t) = .ok (.reference r, octets, behind) :=
  ⟨_, bind_of_eq_ok scanned _⟩

theorem nextValuePiece_of_scanValuePiece {f : TextForm} (place : List Char → List Char)
    {t : List Char} {result : ValuePiece × Nat × List Char}
    (h : scanValuePiece f t = .ok result) : nextValuePiece f place t = .ok result := by
  rw [nextValuePiece, h]
  rfl

/-- What a piece stands for without any declaration, and how many octets of it are read
indirectly. -/
inductive ValuePiece.Means : ValuePiece → List Char → Nat → Prop
  | text {run : List Char} : Means (.text run) run 0
  | space : Means .space [' '] 0
  | character {number : Nat} {c : Char} (h : characterOf? number = some c) :
      Means (.reference (.character number)) [c] 0
  | entity {name : List Char} {c : Char} (h : predefined? name = some c) :
      Means (.reference (.entity name)) [c] 1

/-! ## The text of a value -/

section Text

variable {d : Declarations} {home : List Char} {account : Account} {place : List Char → List Char}

/-- What a piece stands for comes before the rest of a value. -/
theorem attributeText_piece {t behind inner more : List Char} {piece : ValuePiece}
    {references octets budget : Nat} {tally between after : Tally} (nonempty : t ≠ [])
    (means : piece.Means inner references)
    (scanned : scanValuePiece .narrow t = .ok (piece, octets, behind))
    (counted : account.count home octets tally = .ok ((), between))
    (later : attributeText d home budget .narrow account [] place behind
      (between.withIndirect references) = .ok (more, after)) :
    attributeText d home (budget + 1) .narrow account [] place t tally =
      .ok (inner ++ more, after) := by
  have found := Reading.liftM_of_eq_ok (nextValuePiece_of_scanValuePiece place scanned) tally
  have joined := Reading.bind_of_eq_ok later fun more => pure (inner ++ more)
  rw [attributeText.eq_3 _ _ _ _ _ _ _ _ nonempty]
  refine (Reading.bind_of_eq_ok found _).trans ?_
  refine (Reading.bind_of_eq_ok counted _).trans ?_
  cases means with
  | text => exact joined
  | space => exact joined
  | character h =>
      dsimp only
      rw [h]
      exact joined
  | entity h =>
      dsimp only
      rw [h]
      exact joined

variable (d home account place) in
/-- A value is read back as it was before it was escaped, provided that so much has been read
directly that every one of its characters may be a reference. -/
def IsReadBack (value : List Char) : Prop :=
  ∀ budget tally, (value.flatMap escapeAttribute).length ≤ budget →
    tally.indirect + value.length ≤ tally.direct.get →
      ∃ after, attributeText d home budget .narrow account [] place
          (value.flatMap escapeAttribute) tally = .ok (value, after) ∧
        tally.Grows value.length after

theorem isReadBack_nil : IsReadBack d home account place [] := by
  intro budget tally _ _
  refine ⟨tally, ?_, .refl tally⟩
  cases budget with
  | zero => rfl
  | succ budget => rfl

/-- A value that begins with a piece is read back when what follows the piece is. -/
theorem isReadBack_append (notIndirect : account ≠ .indirect) {front rest : List Char}
    {piece : ValuePiece} {references octets : Nat} (means : piece.Means front references)
    (few : references ≤ front.length) (written : front.flatMap escapeAttribute ≠ [])
    (scanned : scanValuePiece .narrow ((front ++ rest).flatMap escapeAttribute) =
      .ok (piece, octets, rest.flatMap escapeAttribute))
    (later : IsReadBack d home account place rest) :
    IsReadBack d home account place (front ++ rest) := by
  intro budget tally enough room
  rw [List.length_append] at room
  rw [List.flatMap_append, List.length_append] at enough
  cases budget with
  | zero =>
      have some := List.length_pos_iff.mpr written
      omega
  | succ budget =>
      have some := List.length_pos_iff.mpr written
      have few : tally.indirect ≤ tally.direct.get := by omega
      rcases exists_count notIndirect home octets few with ⟨between, counted, grown⟩
      have indirect := grown.indirect
      have direct := grown.direct
      rcases later budget (between.withIndirect references) (by omega) (by
        change between.indirect + references + rest.length ≤ between.direct.get
        omega) with
        ⟨after, read, grownMore⟩
      refine ⟨after, attributeText_piece ?_ means scanned counted read, ?_⟩
      · intro empty
        rw [List.flatMap_append, List.append_eq_nil_iff] at empty
        exact written empty.1
      · have indirectMore : after.indirect ≤ between.indirect + references + rest.length :=
          grownMore.indirect
        refine ⟨grownMore.whole.trans grown.whole, ?_, direct.trans grownMore.direct⟩
        rw [List.length_append]
        omega

/-- A character is written in a run of text, as a space or as a reference. -/
theorem isInsideWritten_or {c : Char} (fits : isXmlChar c = true) :
    isInsideWritten c = true ∨ c = ' ' ∨
      ∃ body, escapeAttribute c = '&' :: body ∧ IsReferenceTo c body := by
  rcases escapeAttribute_cases fits with ⟨same, lone, isBlank | notSpace⟩ | reference
  · exact Or.inr (Or.inl isBlank)
  · simp only [isLoneInValue, Bool.and_eq_true, bne_iff_ne] at lone
    exact Or.inl (by simp [isInsideWritten, isInsideRun, same, notSpace, lone])
  · exact Or.inr (Or.inr reference)

/-- No run of text goes on where something else is written. -/
theorem ends_of_not_isInsideWritten {rest : List Char} (chars : AreXmlChars rest)
    (ends : ∀ c more, rest = c :: more → isInsideWritten c = false) :
    ∀ d others, rest.flatMap escapeAttribute = d :: others → isInsideRun d = false ∧ d ≠ '<' := by
  cases rest with
  | nil => rintro d others ⟨⟩
  | cons c more =>
      have outside := ends c more rfl
      rw [List.flatMap_cons]
      rcases isInsideWritten_or (chars c List.mem_cons_self) with inside | rfl | ⟨body, same, -⟩
      · exact absurd inside (Bool.eq_false_iff.mp outside)
      · rintro d others ⟨⟩
        exact ⟨by decide, by decide⟩
      · rw [same]
        rintro d others ⟨⟩
        exact ⟨by decide, by decide⟩

/-- Characters of a run are written as they are. -/
theorem flatMap_escapeAttribute_run {run : List Char}
    (inside : ∀ c ∈ run, isInsideWritten c = true) : run.flatMap escapeAttribute = run := by
  induction run with
  | nil => rfl
  | cons c rest ih =>
      rw [List.forall_mem_cons] at inside
      have same : escapeAttribute c = [c] := by
        have both := inside.1
        rw [isInsideWritten, Bool.and_eq_true, beq_iff_eq] at both
        exact both.2
      rw [List.flatMap_cons, same, ih inside.2, List.singleton_append]

/-- A run of characters is read back at once, before what is read back. -/
theorem isReadBack_run (notIndirect : account ≠ .indirect) {c : Char} {run rest : List Char}
    (inside : ∀ d ∈ c :: run, isInsideWritten d = true) (chars : AreXmlChars rest)
    (ends : ∀ d more, rest = d :: more → isInsideWritten d = false)
    (later : IsReadBack d home account place rest) :
    IsReadBack d home account place (c :: run ++ rest) := by
  have written := flatMap_escapeAttribute_run inside
  have insideRun : ∀ d ∈ c :: run, isInsideRun d = true := fun d member =>
    (Bool.and_eq_true_iff.mp (inside d member)).1
  rcases scanValuePiece_run insideRun (ends_of_not_isInsideWritten chars ends) with ⟨octets, scanned⟩
  have front : (c :: run).flatMap escapeAttribute ≠ [] := by
    rw [written]
    exact List.cons_ne_nil c run
  rw [← written, ← List.flatMap_append, written] at scanned
  exact isReadBack_append notIndirect .text (Nat.zero_le _) front scanned later

theorem isReadBack_space (notIndirect : account ≠ .indirect) {rest : List Char}
    (later : IsReadBack d home account place rest) : IsReadBack d home account place (' ' :: rest) := by
  have scanned : scanValuePiece .narrow (([' '] ++ rest).flatMap escapeAttribute) =
      .ok (.space, 1, rest.flatMap escapeAttribute) := scanValuePiece_space _
  exact isReadBack_append notIndirect .space (Nat.zero_le _) (List.cons_ne_nil _ _) scanned later

theorem isReadBack_reference (notIndirect : account ≠ .indirect) {c : Char} {body rest : List Char}
    (same : escapeAttribute c = '&' :: body) (reference : IsReferenceTo c body)
    (later : IsReadBack d home account place rest) : IsReadBack d home account place (c :: rest) := by
  rcases reference.scanned with ⟨r, means, scans⟩
  obtain ⟨octets, piece⟩ := scanValuePiece_reference
    (scans ('&' :: (body ++ rest.flatMap escapeAttribute)) (rest.flatMap escapeAttribute))
  have front : [c].flatMap escapeAttribute = '&' :: body := by
    rw [List.flatMap_singleton, same]
  have scanned : scanValuePiece .narrow (([c] ++ rest).flatMap escapeAttribute) =
      .ok (.reference r, octets, rest.flatMap escapeAttribute) := by
    rw [List.flatMap_append, front]
    exact piece
  have written : [c].flatMap escapeAttribute ≠ [] := front ▸ List.cons_ne_nil _ _
  cases means with
  | character h =>
      exact isReadBack_append notIndirect (.character h) (Nat.zero_le _) written scanned later
  | entity h =>
      exact isReadBack_append notIndirect (.entity h) (Nat.le_refl 1) written scanned later

/-- Every value is read back, by induction on its length: a run is more than one character. -/
theorem isReadBack_of_areXmlChars (notIndirect : account ≠ .indirect) {value : List Char}
    (chars : AreXmlChars value) : IsReadBack d home account place value := by
  induction size : value.length using Nat.strongRecOn generalizing value with
  | ind n ih =>
      cases value with
      | nil => exact isReadBack_nil
      | cons c more =>
          rw [List.length_cons] at size
          have charsMore := chars.tail
          have later := ih more.length (by omega) charsMore rfl
          rcases isInsideWritten_or (chars c List.mem_cons_self) with
            inside | rfl | ⟨body, same, reference⟩
          · rcases exists_run isInsideWritten more with ⟨run, rest, rfl, insideRun, ends⟩
            have charsRest := charsMore.of_subset (List.subset_append_right run rest)
            have laterRest := ih rest.length (by rw [← size, List.length_append]; omega) charsRest rfl
            exact isReadBack_run notIndirect (List.forall_mem_cons.mpr ⟨inside, insideRun⟩) charsRest
              ends laterRest
          · exact isReadBack_space notIndirect later
          · exact isReadBack_reference notIndirect same reference later

end Text

/-- A value that is taken as it is written was written as it is. -/
theorem flatMap_escapeAttribute_of_isPlainValue {value : List Char} (chars : AreXmlChars value)
    (plain : isPlainValue (value.flatMap escapeAttribute) = true) :
    value.flatMap escapeAttribute = value := by
  rw [isPlainValue, Bool.and_eq_true, List.all_eq_true] at plain
  have noReference : '&' ∉ value.flatMap escapeAttribute := by
    intro member
    have fits := plain.1 '&' member
    exact absurd fits (by decide)
  clear plain
  induction value with
  | nil => rfl
  | cons c more ih =>
      rw [List.flatMap_cons, List.mem_append] at noReference
      rw [List.flatMap_cons, ih chars.tail
        fun member => noReference (Or.inr member)]
      rcases escapeAttribute_cases (chars c List.mem_cons_self) with ⟨same, -, -⟩ | ⟨body, same, -⟩
      · rw [same, List.singleton_append]
      · refine absurd (Or.inl ?_) noReference
        rw [same]
        exact List.mem_cons_self

/-! ## The attributes of a tag -/

theorem exists_attributeValue {account : Account} (notIndirect : account ≠ .indirect)
    {d : Declarations} {home following value : List Char} (chars : AreXmlChars value) {tally : Tally}
    (room : tally.indirect + value.length ≤ tally.direct.get) :
    ∃ after, attributeValue d .narrow account home [] false following
        (value.flatMap escapeAttribute) tally = .ok (value, after) ∧
      tally.Grows value.length after := by
  have back : IsReadBack d home account (· ++ following) value :=
    isReadBack_of_areXmlChars notIndirect chars
  rcases back ((value.flatMap escapeAttribute).length + d.entitySize + 1) tally (by omega) room with
    ⟨after, read, grown⟩
  exact ⟨after, Reading.bind_of_eq_ok read _, grown⟩

/-- A value is taken as it is written, or else what it stands for is found. -/
theorem exists_valueOf {account : Account} (notIndirect : account ≠ .indirect)
    (home following : List Char) {value : List Char} (chars : AreXmlChars value) {tally : Tally}
    (room : tally.indirect + value.length ≤ tally.direct.get) :
    ∃ after, (if isPlainValue (value.flatMap escapeAttribute) then
        pure (value.flatMap escapeAttribute)
      else attributeValue (.empty false) .narrow account home [] false following
        (value.flatMap escapeAttribute) : Reading (List Char)) tally = .ok (value, after) ∧
      tally.Grows value.length after := by
  by_cases plain : isPlainValue (value.flatMap escapeAttribute) = true
  · have same := flatMap_escapeAttribute_of_isPlainValue chars plain
    rw [if_pos plain, same]
    refine ⟨tally, rfl, rfl, Nat.le_add_right _ _, Nat.le_refl _⟩
  · rw [if_neg plain]
    exact exists_attributeValue notIndirect chars room

/-- What the attributes of a tag say, in order, when none is written twice and all bindings are
allowed. -/
theorem exists_readAttributes {account : Account} (notIndirect : account ≠ .indirect)
    (home elementName : List Char) {attributes : List WrittenAttribute}
    {pairs : List (List Char × List Char)} {seen : List (List Char)}
    (written : attributes.map (fun a => (a.name, a.value)) =
      pairs.map fun pair => (pair.1, pair.2.flatMap escapeAttribute))
    (chars : ∀ pair ∈ pairs, AreXmlChars pair.2) (distinct : (pairs.map (·.1)).Nodup)
    (fresh : ∀ pair ∈ pairs, pair.1 ∉ seen)
    (binds : ∀ pair ∈ pairs, (boundPrefix? pair.1).bind (bindingFault? · pair.2) = none)
    {tally : Tally} (room : tally.indirect + (pairs.flatMap (·.2)).length ≤ tally.direct.get) :
    ∃ after, readAttributes (.empty false) .narrow account [] home elementName seen attributes tally =
        .ok (pairs, after) ∧ tally.Grows (pairs.flatMap (·.2)).length after := by
  induction pairs generalizing attributes seen tally with
  | nil =>
      rw [List.map_nil, List.map_eq_nil_iff] at written
      subst written
      exact ⟨tally, rfl, .refl tally⟩
  | cons pair more ih =>
      cases attributes with
      | nil => cases written
      | cons a rest =>
          rcases pair with ⟨name, value⟩
          rw [List.map_cons, List.map_cons, List.cons.injEq, Prod.mk.injEq] at written
          rcases written with ⟨⟨rfl, sameValue⟩, writtenRest⟩
          rw [List.forall_mem_cons] at chars fresh binds
          rw [List.map_cons, List.nodup_cons] at distinct
          rw [List.flatMap_cons, List.length_append] at room
          dsimp only at room
          have roomFirst : tally.indirect + value.length ≤ tally.direct.get := by omega
          rcases exists_valueOf notIndirect home a.following chars.1 roomFirst with
            ⟨between, valued, grown⟩
          have indirect : between.indirect ≤ tally.indirect + value.length := grown.indirect
          have direct := grown.direct
          have freshMore : ∀ pair ∈ more, pair.1 ∉ a.name :: seen := by
            intro pair member again
            rcases List.mem_cons.mp again with same | before
            · exact distinct.1 (List.mem_map.mpr ⟨pair, member, same⟩)
            · exact fresh.2 pair member before
          have roomMore : between.indirect + (more.flatMap (·.2)).length ≤ between.direct.get := by
            omega
          rcases ih writtenRest chars.2 distinct.2 freshMore binds.2 roomMore with
            ⟨after, readMore, grownMore⟩
          have checked : readAttributes.checkBinding home a.name value = .ok () := by
            rw [readAttributes.checkBinding, binds.1]
          -- Once the value is known, its binding is checked and the other attributes are read.
          have later : (do
              readAttributes.checkBinding home a.name value
              let more ← readAttributes (.empty false) .narrow account [] home elementName
                (a.name :: seen) rest
              return (a.name, value) :: more : Reading (List (List Char × List Char))) between =
                .ok ((a.name, value) :: more, after) :=
            (Reading.bind_of_eq_ok (Reading.liftM_of_eq_ok checked between) _).trans
              (Reading.bind_of_eq_ok readMore _)
          refine ⟨after, ?_, ?_⟩
          · rw [readAttributes, if_neg (by simpa using fresh.1), sameValue]
            by_cases plain : isPlainValue (value.flatMap escapeAttribute) = true
            · rw [if_pos plain] at valued ⊢
              exact (Reading.bind_of_eq_ok valued _).trans later
            · rw [if_neg plain] at valued ⊢
              exact (Reading.bind_of_eq_ok valued _).trans later
          · rw [List.flatMap_cons, List.length_append]
            exact grown.trans grownMore

/-! ## Opening an element -/

/-- Attributes that are spelled with a table are those of the element again. -/
theorem expandAttributes_spelledPairs {prefixes : Prefixes} (table : prefixes.IsTable)
    {scope : Scope} (bound : prefixes.AreBoundBy scope) {seen : List (List Char)}
    {attributes : OrderedPairs (List Char) (List Char)} (distinct : attributes.keys.Nodup)
    (fresh : ∀ name ∈ attributes.keys, name ∉ seen)
    (spells : ∀ name ∈ attributes.keys, prefixes.CanSpell name) :
    expandAttributes scope seen (prefixes.spelledPairs attributes) = .ok attributes := by
  induction attributes generalizing seen with
  | nil => rfl
  | cons pair rest ih =>
      rcases pair with ⟨name, value⟩
      simp only [OrderedPairs.keys, List.map_cons] at distinct fresh spells
      rw [List.forall_mem_cons] at fresh spells
      rw [List.nodup_cons] at distinct
      have freshRest : ∀ other ∈ OrderedPairs.keys rest, other ∉ name :: seen := by
        intro other member again
        rcases List.mem_cons.mp again with rfl | before
        · exact distinct.1 member
        · exact fresh.2 other member before
      have later := ih distinct.2 freshRest spells.2
      have named := Prefixes.expandAttribute_spell table bound spells.1
      refine (bind_of_eq_ok named _).trans ?_
      rw [if_neg (by simpa using fresh.1)]
      exact bind_of_eq_ok later _

/-- A start tag says what its attributes say, in the scope that they make. -/
theorem exists_openElement (home : List Char) {scope : Scope} {name : List Char} {tag : StartTag}
    {pairs : List (List Char × List Char)} {attributes : OrderedPairs (List Char) (List Char)}
    (written : tag.attributes.map (fun a => (a.name, a.value)) =
      pairs.map fun pair => (pair.1, pair.2.flatMap escapeAttribute))
    (chars : ∀ pair ∈ pairs, AreXmlChars pair.2) (distinct : (pairs.map (·.1)).Nodup)
    (binds : ∀ pair ∈ pairs, (boundPrefix? pair.1).bind (bindingFault? · pair.2) = none)
    {inner : Scope}
    (around : (pairs.filterMap fun pair => (boundPrefix? pair.1).map (·, pair.2)).reverse ++ scope =
      inner)
    (named : expandElement inner tag.name = .ok name)
    (expanded : expandAttributes inner []
      (pairs.filter fun pair => (boundPrefix? pair.1).isNone) = .ok attributes)
    {tally : Tally} (room : tally.indirect + (pairs.flatMap (·.2)).length ≤ tally.direct.get) :
    ∃ after, openElement (.empty false) .narrow [] scope home tag tally =
        .ok (⟨name, attributes, inner⟩, after) ∧ tally.Grows (pairs.flatMap (·.2)).length after := by
  have notIndirect : accountOf [] tag ≠ .indirect := by
    unfold accountOf
    split
    · exact Account.noConfusion
    · exact Account.noConfusion
  rcases exists_readAttributes notIndirect home tag.name written chars
    distinct (fun _ _ => List.not_mem_nil) binds room with
    ⟨after, read, grown⟩
  refine ⟨after, ?_, grown⟩
  rw [openElement]
  refine (Reading.bind_of_eq_ok read _).trans ?_
  have noDefaults : (Declarations.empty false).defaults tag.name = [] := rfl
  have noFault : ([] : List (List Char × List Char)).forM
      (fun pair => liftM (readAttributes.checkBinding home pair.1 pair.2) : _ → Reading Unit) after =
        .ok ((), after) := rfl
  rw [noDefaults, List.filter_nil, List.append_nil]
  refine (Reading.bind_of_eq_ok noFault _).trans ?_
  rw [around, expanded, named]
  rfl

end Xml
end DocumentGateway
