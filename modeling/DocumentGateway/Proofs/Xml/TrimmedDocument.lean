import DocumentGateway.Proofs.Xml.PrologAlike
import DocumentGateway.Proofs.Xml.ScalarText
import DocumentGateway.Proofs.Xml.WrittenDocument
import DocumentGateway.Proofs.Text.Trimming
import DocumentGateway.Proofs.Text.Decoding

namespace DocumentGateway
namespace Xml

/-!
# Documents without the white space around them

White space may stand around what a document consists of.  Without it the document is read as the
same element.  Only where it stood in front there may be a difference: fewer octets are read directly
then, and the entities of the document may stand for too much in comparison.
-/

open Reading Tally

/-! ## From the root element on -/

/-- Read the root element and what follows it. -/
def readRoot (d : Declarations) (f : TextForm) (t : List Char) : Reading Element := do
  match ← scanToken f t with
  | (.startTag tag, behind) =>
    countToken f [] t (.startTag tag) behind
    let (element, following) ← readElement d (readingBudget d t) f [] Scope.outermost t tag behind
    Prolog.readEpilog f (following.length + 1) following
    return element
  | _ => stop .noElement t

theorem readDocument_eq (f : TextForm) (t : List Char) :
    readDocument f t = Prolog.read f t >>= fun result => readRoot result.1 f result.2 := rfl

section

variable {d : Declarations} {f : TextForm} {t behind : List Char} {e : Element} {tally after : Tally}

theorem readRoot_of_scanToken {tag : StartTag} (scan : scanToken f t = .ok (.startTag tag, behind)) :
    readRoot d f t = (do
      countToken f [] t (.startTag tag) behind
      let (element, following) ← readElement d (readingBudget d t) f [] Scope.outermost t tag behind
      Prolog.readEpilog f (following.length + 1) following
      return element) := by
  rw [readRoot, bind_liftM_of_eq_ok scan]

theorem exists_tag_of_readRoot (h : readRoot d f t tally = .ok (e, after)) :
    ∃ tag behind, scanToken f t = .ok (.startTag tag, behind) := by
  rcases exists_between_of_bind_eq_ok h with ⟨⟨token, behind⟩, start, scanned, left⟩
  cases token with
  | startTag tag => exact ⟨tag, behind, (eq_of_liftM_eq_ok scanned).1⟩
  | _ => cases left

/-- The root element is read alike without the white space at the end of its document. -/
theorem exists_piece_of_readRoot (opens : ∃ rest, t = '<' :: rest)
    (h : readRoot d f t tally = .ok (e, after)) :
    ∃ piece spaces later, t = piece ++ spaces ∧ (∀ c ∈ spaces, isSpace c = true) ∧ IsClosed piece ∧
      GoesOnLike t piece ∧ ∀ {cut? otherTally}, CutsOff cut? f [] spaces [] →
        AreLike cut? tally otherTally → EndsLike cut? e later (readRoot d f piece otherTally) := by
  rcases exists_tag_of_readRoot h with ⟨tag, behind, scan⟩
  rw [readRoot_of_scanToken scan] at h
  rcases exists_between_of_bind_eq_ok h with ⟨_, between, counted, left⟩
  rcases exists_between_of_bind_eq_ok left with ⟨⟨element, following⟩, inner, inside, ending⟩
  rcases exists_between_of_bind_eq_ok ending with ⟨_, last, ended, given⟩
  cases given
  rcases Prolog.exists_piece_of_readEpilog (Nat.lt_succ_self _) ended with
    ⟨-, epilog, spaces, later, rfl, trailing, closedEpilog, epilogAgain⟩
  rcases exists_piece_of_scanToken scan with ⟨opening, filled, rfl, closes, scanAgain⟩
  have bracket : ∃ inTag, opening = '<' :: inTag := by
    rcases opens with ⟨rest, same⟩
    rcases List.exists_cons_of_ne_nil filled with ⟨c, inTag, rfl⟩
    exact ⟨inTag, congrArg (· :: inTag) (List.cons.inj same).1⟩
  have closedOpening : IsClosed opening := (closes bracket).resolve_right (by rintro ⟨⟩)
  have isRead : ∀ cut?, ReadsElement cut? d f [] Scope.outermost tag between behind e
      (epilog ++ spaces) inner := fun _ => (readsContent_and_readsElement _).2 inside
  rcases isRead none with ⟨piece, reads, closedPiece⟩
  have whole := (reads tag ⟨rfl, rfl, rfl⟩).whole
  subst whole
  have closed : IsClosed (opening ++ (piece ++ epilog)) := by
    rcases closedEpilog with closedEpilog | rfl
    · exact (closedEpilog.append piece).append opening
    · rw [List.append_nil]
      rcases closedPiece with closedPiece | rfl
      · exact closedPiece.append opening
      · rw [List.append_nil]
        exact closedOpening
  refine ⟨opening ++ (piece ++ epilog), spaces, later, by simp only [List.append_assoc], trailing, closed,
    .of_isClosed closedOpening _ _, ?_⟩
  intro cut? otherTally cuts alike
  have cutsElement := cuts.append epilog
  rw [List.append_nil] at cutsElement
  rcases scanAgain (piece ++ epilog) (Or.inr bracket) with ⟨token', likeToken, scanned⟩
  have asTag : ∃ tag', token' = .startTag tag' ∧ tag.IsLike tag' := by
    cases likeToken with
    | same => exact ⟨tag, rfl, rfl, rfl, rfl⟩
    | startTag likeTag => exact ⟨_, rfl, likeTag⟩
  rcases asTag with ⟨tag', rfl, likeTag⟩
  rcases isRead cut? with ⟨piece', readsAlike, -⟩
  have samePiece : piece' = piece :=
    (List.append_cancel_right (readsAlike tag ⟨rfl, rfl, rfl⟩).whole).symm
  subst samePiece
  rw [readRoot_of_scanToken scanned]
  refine (follows_countToken (cutsElement.append piece') opening likeToken _ _ _ _ alike counted).bind
    fun _ alikeBetween => ?_
  have enough : 2 * (piece'.length + d.sizeUnopened []) + 2 ≤
      readingBudget d (opening ++ (piece' ++ epilog)) := by
    rw [readingBudget, Declarations.sizeUnopened_nil, List.length_append, List.length_append]
    omega
  refine ((readsAlike tag' likeTag).ends _ (fun no => absurd trivial no) cutsElement enough
    alikeBetween).bind fun _ alikeInner => ?_
  exact (epilogAgain cuts (Nat.lt_succ_self _) alikeInner).bind fun _ alikeLast => .alike alikeLast

end

/-! ## Whole documents -/

/-- A text that is to be cut out of another one: what surrounds it is white space, which it neither
begins nor ends with. -/
structure IsCore (blanks core spaces : List Char) : Prop where
  leading : ∀ c ∈ blanks, isSpace c = true
  opens : ∃ rest, core = '<' :: rest ∨ core = '\uFEFF' :: rest
  closed : IsClosed core
  trailing : ∀ c ∈ spaces, isSpace c = true

/-- The octets that are cut off the end, if none are cut off the front. -/
def cutOff (f : TextForm) (blanks spaces : List Char) : Option Nat :=
  if blanks = [] then some (f.octets spaces) else none

theorem cutsOff_cutOff (f : TextForm) (blanks spaces : List Char) :
    CutsOff (cutOff f blanks spaces) f [] spaces [] := by
  intro cut known _
  unfold cutOff at known
  split at known
  · cases known
    exact (Nat.zero_add _).symm
  · cases known

/-- What is read of a document is read without the white space around it. -/
theorem exists_core_of_readDocument {f : TextForm} {t : List Char} {root : Element}
    {tally after : Tally} (h : readDocument f t tally = .ok (root, after)) :
    ∃ blanks core spaces, t = blanks ++ (core ++ spaces) ∧ IsCore blanks core spaces ∧
      ∃ later, ∀ {otherTally}, AreLike (cutOff f blanks spaces) tally otherTally →
        EndsLike (cutOff f blanks spaces) root later (readDocument f core otherTally) := by
  rw [readDocument_eq] at h
  rcases exists_between_of_bind_eq_ok h with ⟨⟨d, place⟩, start, prolog, left⟩
  rcases exists_spaces t with ⟨blanks, leading, whole⟩
  have visible : ∀ c rest, skipSpaces t = c :: rest → isSpace c = false := by
    intro c rest same
    have first := List.head?_dropWhile_not isSpace t
    rw [← skipSpaces, same] at first
    exact first
  rw [whole] at prolog
  -- What is cut off the end is known first, for the prolog is read in view of it.
  have isTag : ∃ rest, place = '<' :: rest := by
    rcases Prolog.exists_piece_of_read leading visible (fun _ => rfl) prolog with ⟨-, -, isTag, -⟩
    exact isTag
  rcases exists_piece_of_readRoot isTag left with
    ⟨piece, spaces, later, rfl, trailing, closed, goesOn, rootAgain⟩
  have cuts := cutsOff_cutOff f blanks spaces
  rcases Prolog.exists_piece_of_read leading visible (fun filled => if_neg filled) prolog with
    ⟨front, parts, -, opens, prologAgain⟩
  have closedCore : IsClosed (front ++ piece) := closed.append front
  refine ⟨blanks, front ++ piece, spaces, by rw [whole, parts, List.append_assoc],
    ⟨leading, ?_, closedCore, trailing⟩, later, ?_⟩
  · rcases closedCore.exists_cons with ⟨c, more, same⟩
    rcases opens with ⟨rest, opens⟩
    rw [parts, ← List.append_assoc, same] at opens
    rcases opens with opens | opens
    · cases opens
      exact ⟨more, Or.inl same⟩
    · cases opens
      exact ⟨more, Or.inr same⟩
  · intro otherTally alike
    have cutsRoot := cuts.append piece
    rw [List.append_nil] at cutsRoot
    exact (prologAgain goesOn cutsRoot alike).bind fun _ alikeStart => rootAgain cuts alikeStart

/-- A reading that is refused because the entities stand for too much. -/
def IsRefusedForExpansion (result : Except ReadFault Element) : Prop :=
  ∃ line column, result = .error (.misplaced .excessiveExpansion line column)

theorem exists_core_of_readChars {f : TextForm} {t : List Char} {root : Element}
    (h : readChars f t = .ok root) :
    ∃ blanks core spaces, t = blanks ++ (core ++ spaces) ∧ IsCore blanks core spaces ∧
      (readChars f core = .ok root ∨ blanks ≠ [] ∧ IsRefusedForExpansion (readChars f core)) := by
  unfold readChars at h
  split at h
  · next found after ended =>
      cases h
      rcases exists_core_of_readDocument ended with ⟨blanks, core, spaces, rfl, isCore, later, again⟩
      refine ⟨blanks, core, spaces, rfl, isCore, ?_⟩
      have alike : AreLike (cutOff f blanks spaces) (.start (f.octets (blanks ++ (core ++ spaces))))
          (.start (f.octets core)) := by
        intro cut known
        unfold cutOff at known
        split at known
        · next empty =>
            cases known
            subst empty
            exact ⟨TextForm.octets_append f core spaces, rfl, rfl, rfl⟩
        · cases known
      have ends := again alike
      unfold readChars
      unfold StateT.run
      generalize readDocument f core (.start (f.octets core)) = result at ends
      cases ends with
      | alike => exact Or.inl rfl
      | refused unknown place =>
          refine Or.inr ⟨fun empty => ?_, _, _, rfl⟩
          rw [cutOff, if_pos empty] at unknown
          cases unknown
  · cases h

/-! ## Texts -/

theorem exists_chars_of_read {t : Text} {root : Element} (h : read t = .ok root) :
    ∃ chars, t = Text.ofChars chars := by
  rcases exists_of_bind_eq_ok h with ⟨octets, encoded, -⟩
  exact Encoding.exists_ofChars_of_encodeFrom (eq_ok_of_mapError_eq_ok encoded)

/-- Among the octets of a character there is a zero only if it is the character zero. -/
theorem ne_zero_of_mem_utf8EncodeChar {c : Char} (positive : 0 < c.toNat) {octet : UInt8}
    (member : octet ∈ String.utf8EncodeChar c) : octet ≠ 0 := by
  have number : c.val.toNat = c.toNat := rfl
  unfold String.utf8EncodeChar at member
  rw [number] at member
  dsimp only at member
  split at member
  · rw [List.mem_singleton.mp member]
    exact uInt8_ofNat_ne_zero positive (by omega)
  · split at member
    · simp only [List.mem_cons, List.not_mem_nil, or_false] at member
      rcases member with rfl | rfl <;> exact uInt8_ofNat_ne_zero (by omega) (by omega)
    · split at member
      · simp only [List.mem_cons, List.not_mem_nil, or_false] at member
        rcases member with rfl | rfl | rfl <;> exact uInt8_ofNat_ne_zero (by omega) (by omega)
      · simp only [List.mem_cons, List.not_mem_nil, or_false] at member
        rcases member with rfl | rfl | rfl | rfl <;> exact uInt8_ofNat_ne_zero (by omega) (by omega)

theorem octetOrder?_of_forall_ne {chars : List Char} (h : '\x00' ∉ chars) :
    octetOrder? (utf8Octets chars) = none := by
  have filled : ∀ octet ∈ utf8Octets chars, octet ≠ 0 := by
    intro octet member
    rcases List.mem_flatMap.mp member with ⟨c, among, inChar⟩
    refine ne_zero_of_mem_utf8EncodeChar (Nat.pos_of_ne_zero fun zero => h ?_) inChar
    rw [← Char.ofNat_toNat c, zero] at among
    exact among
  unfold octetOrder?
  split
  · next same => exact absurd rfl (filled 0 (by simp [same]))
  · next same => exact absurd rfl (filled 0 (by simp [same]))
  · rfl

theorem eq_of_uncut_eq {c d : Char} (same : uncut c = d) (known : d ≠ foreignChar) : c = d := by
  unfold uncut at same
  split at same
  · exact absurd same.symm known
  · exact same

theorem isBlank_of_isSpace_uncut {c : Char} (space : isSpace (uncut c) = true) : isBlank c = true := by
  simp only [isSpace, Bool.or_eq_true, beq_iff_eq] at space
  rcases space with ((same | same) | same) | same
  · rw [eq_of_uncut_eq same (by decide)]; rfl
  · rw [eq_of_uncut_eq same (by decide)]; rfl
  · rw [eq_of_uncut_eq same (by decide)]; rfl
  · rw [eq_of_uncut_eq same (by decide)]; rfl

theorem forall_isBlank_ofChars {spaces : List Char} (h : ∀ c ∈ spaces.map uncut, isSpace c = true) :
    ∀ p ∈ Text.ofChars spaces, p.isBlank = true := by
  intro p member
  rcases List.mem_map.mp member with ⟨c, among, rfl⟩
  exact isBlank_of_isSpace_uncut (h _ (List.mem_map_of_mem among))

/-- What a document consists of is trimmed. -/
theorem IsCore.isTrimmed {blanks spaces core : List Char}
    (isCore : IsCore blanks (core.map uncut) spaces) : (Text.ofChars core).IsTrimmed where
  head := by
    cases core with
    | nil => exact nofun
    | cons c more =>
        rintro p ⟨⟩
        rcases isCore.opens with ⟨rest, same | same⟩
        · rw [eq_of_uncut_eq (List.cons.inj same).1 (by decide)]
          rfl
        · rw [eq_of_uncut_eq (List.cons.inj same).1 (by decide)]
          rfl
  last := by
    rcases isCore.closed with ⟨front, whole⟩
    rcases List.map_eq_append_iff.mp whole with ⟨inner, last, rfl, -, ends⟩
    rcases List.map_eq_singleton_iff.mp ends with ⟨c, rfl, same⟩
    rw [Text.ofChars_append, Text.ofChars_cons, Text.ofChars_nil, List.getLast?_concat]
    rintro p ⟨⟩
    rw [eq_of_uncut_eq same (by decide)]
    rfl

theorem IsCore.ne_nil {blanks spaces core : List Char} (isCore : IsCore blanks core spaces) :
    core ≠ [] := by
  rintro rfl
  rcases isCore.opens with ⟨rest, same | same⟩
  · cases same
  · cases same

/-- A text without the character zero that is read as an element is read as the same one when it is
trimmed, unless it had white space in front and is refused for what its entities stand for. -/
theorem read_trim {t : Text} {root : Element} (noZero : .scalar '\x00' ∉ t) (h : read t = .ok root) :
    read t.trim = .ok root ∨ t.leadingBlanks ≠ [] ∧ IsRefusedForExpansion (read t.trim) := by
  rcases exists_chars_of_read h with ⟨chars, rfl⟩
  have noZeroChar : '\x00' ∉ chars := fun member => noZero (List.mem_map_of_mem member)
  rw [read_ofChars, readScalars, octetOrder?_of_forall_ne noZeroChar] at h
  rcases exists_core_of_readChars h with ⟨blanks, core, spaces, whole, isCore, ends⟩
  rcases List.map_eq_append_iff.mp whole with ⟨front, behind, rfl, rfl, wholeBehind⟩
  rcases List.map_eq_append_iff.mp wholeBehind with ⟨inner, back, rfl, rfl, rfl⟩
  have filled : Text.ofChars inner ≠ [] := by
    intro empty
    rw [List.map_eq_nil_iff.mp empty] at isCore
    exact isCore.ne_nil rfl
  have trimmed := Text.trim_append (forall_isBlank_ofChars isCore.leading) filled isCore.isTrimmed
    (forall_isBlank_ofChars isCore.trailing)
  rw [← Text.ofChars_append, ← Text.ofChars_append] at trimmed
  have noZeroInner : '\x00' ∉ inner := fun member =>
    noZeroChar (List.mem_append_right _ (List.mem_append_left _ member))
  rw [trimmed.1, trimmed.2, read_ofChars, readScalars, octetOrder?_of_forall_ne noZeroInner]
  refine ends.imp_right (And.imp_left fun some empty => some ?_)
  rw [List.map_eq_nil_iff.mp empty]
  rfl

end Xml
end DocumentGateway
