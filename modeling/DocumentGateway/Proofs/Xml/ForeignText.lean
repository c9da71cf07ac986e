import DocumentGateway.Proofs.Text.Decoding
import DocumentGateway.Proofs.Xml.Reading
import DocumentGateway.Proofs.Xml.ScalarText

namespace DocumentGateway
namespace Xml

/-!
# Texts that are not XML

Before the root element stands nothing but declarations, comments, instructions and white space.  A
text with a bracket of JSON in front, but for white space, is therefore never read as an element, in
whatever form its characters come.
-/

/-- Whether a character opens an object or a list of JSON. -/
def IsBracket (c : Char) : Prop :=
  c = '\x7b' ∨ c = '['

theorem IsBracket.isSpace_eq_false {c : Char} (isBracket : IsBracket c) : isSpace c = false := by
  rcases isBracket with rfl | rfl <;> rfl

namespace Prolog

open Reading

theorem exists_scanToken_brace (f : TextForm) (rest : List Char) :
    ∃ s, scanToken f ('\x7b' :: rest) = .error s := by
  have noName : (f.isNameChar '\x7b' || decide ('\x7b' = ':')) = false := by
    cases f <;> rfl
  have scanned : scanToken f ('\x7b' :: rest) = refused ('\x7b' :: rest) ('\x7b' :: rest) := by
    change scanWord f ('\x7b' :: rest) = _
    rw [scanWord, noName]
    rfl
  exact ⟨_, scanned⟩

theorem scanToken_space (f : TextForm) {c : Char} (space : isSpace c = true) (rest : List Char) :
    scanToken f (c :: rest) = .ok (.space, skipSpaces rest) := by
  simp only [isSpace, Bool.or_eq_true, beq_iff_eq] at space
  rcases space with ((rfl | rfl) | rfl) | rfl <;> rfl

section

variable {f : TextForm} {d : Declarations} {expecting : Expecting} (outside : expecting.area = .outside)

include outside

theorem step_outside (place : List Char) (token : Token) :
    step d f place expecting token = stepOutside d place expecting token := by
  rw [step]
  exact outside

variable {c : Char} (isBracket : IsBracket c)

include isBracket

/-- Outside of declarations nothing is read from a bracket on. -/
theorem ensures_readFrom_bracket (budget : Nat) (taken? : Option Stop) (rest : List Char) :
    (readFrom f budget taken? expecting d (c :: rest)).Ensures fun _ => False := by
  cases budget with
  | zero => exact ensures_stop
  | succ budget =>
      rw [readFrom.eq_3 _ _ _ _ _ _ (List.cons_ne_nil c rest)]
      refine (ensures_liftM fun _ scanned => scanned).bind ?_
      rintro ⟨token, behind⟩ scanned
      rcases isBracket with rfl | rfl
      · rcases exists_scanToken_brace f rest with ⟨s, stops⟩
        cases stops.symm.trans scanned
      · cases scanned
        refine .ite (fun isRoot => (nomatch isRoot.1)) fun _ => ensures_bind fun _ => ?_
        refine .bind (?_ : Ensures _ fun _ => False) fun _ absurd => absurd.elim
        rw [step_outside outside]
        exact ensures_stop

theorem ensures_readFrom_spaces {blanks : List Char} (spaces : ∀ b ∈ blanks, isSpace b = true)
    (budget : Nat) (taken? : Option Stop) (rest : List Char) :
    (readFrom f budget taken? expecting d (blanks ++ c :: rest)).Ensures
      fun _ => False := by
  cases blanks with
  | nil => exact ensures_readFrom_bracket outside isBracket budget taken? rest
  | cons b blanks =>
      rcases List.forall_mem_cons.mp spaces with ⟨space, others⟩
      cases budget with
      | zero => exact ensures_stop
      | succ budget =>
          have skipped : skipSpaces (blanks ++ c :: rest) = c :: rest := by
            rw [skipSpaces, List.dropWhile_append_of_pos others,
              List.dropWhile_cons_of_neg (by rw [isBracket.isSpace_eq_false]; decide)]
          rw [List.cons_append, readFrom.eq_3 _ _ _ _ _ _ (List.cons_ne_nil b _)]
          refine (ensures_liftM_of_eq_ok (scanToken_space f space _)).bind ?_
          rintro ⟨token, behind⟩ scanned
          cases scanned
          refine .ite (fun isRoot => (nomatch isRoot.1)) fun _ => ensures_bind fun _ => ?_
          refine .bind (?_ : Ensures _ fun next => next.1.area = .outside) ?_
          · rw [step_outside outside]
            refine ensures_liftM fun next stepped => ?_
            cases stepped
            dsimp only
            split <;> rfl
          · rintro ⟨next, declared⟩ isOutside
            rw [skipped]
            exact ensures_readFrom_bracket isOutside isBracket _ _ rest

end

end Prolog

section

variable {blanks : List Char} (spaces : ∀ b ∈ blanks, isSpace b = true) {c : Char}
  (isBracket : IsBracket c)

include spaces isBracket

theorem Prolog.ensures_read_spaces {f : TextForm} (rest : List Char) :
    (Prolog.read f (blanks ++ c :: rest)).Ensures fun _ => False := by
  unfold Prolog.read
  split
  · next more marked =>
      cases blanks with
      | nil =>
          cases marked
          rcases isBracket with isBrace | isBracket
          · cases isBrace
          · cases isBracket
      | cons b blanks =>
          cases marked
          cases spaces _ List.mem_cons_self
  · exact ensures_readFrom_spaces rfl isBracket spaces _ _ rest

theorem readChars_ne_ok {f : TextForm} (rest : List Char) (root : Element) :
    readChars f (blanks ++ c :: rest) ≠ .ok root := by
  intro isRoot
  have nothing : (readDocument f (blanks ++ c :: rest)).Ensures fun _ => False :=
    (Prolog.ensures_read_spaces spaces isBracket rest).bind fun _ absurd => absurd.elim
  unfold readChars at isRoot
  split at isRoot
  · next found after ended => exact nothing _ _ _ ended
  · cases isRoot

end

/-! ## Octets -/

/-- White space and brackets have one octet, which is not zero. -/
theorem exists_octet {c : Char} (h : isSpace c = true ∨ IsBracket c) :
    ∃ octet, octet ≠ 0 ∧ String.utf8EncodeChar c = [octet] := by
  simp only [isSpace, Bool.or_eq_true, beq_iff_eq, IsBracket] at h
  rcases h with (((rfl | rfl) | rfl) | rfl) | rfl | rfl <;> refine ⟨_, ?_, rfl⟩ <;> decide

/-- They are not cut. -/
theorem uncut_eq {c : Char} (h : isSpace c = true ∨ IsBracket c) : uncut c = c := by
  simp only [isSpace, Bool.or_eq_true, beq_iff_eq, IsBracket] at h
  rcases h with (((rfl | rfl) | rfl) | rfl) | rfl | rfl <;> rfl

/-- A text with two such characters in front is in the narrow form. -/
theorem octetOrder?_eq_none {b c : Char} (first : isSpace b = true ∨ IsBracket b)
    (second : isSpace c = true ∨ IsBracket c) (rest : List Char) :
    octetOrder? (utf8Octets (b :: c :: rest)) = none := by
  rcases exists_octet first with ⟨octet, notZero, encoded⟩
  rcases exists_octet second with ⟨next, nextNotZero, nextEncoded⟩
  rw [Utf8.utf8Octets_cons, Utf8.utf8Octets_cons, encoded, nextEncoded]
  unfold octetOrder?
  split
  · next same => exact absurd (List.cons.inj same).1 notZero
  · next same => exact absurd (List.cons.inj (List.cons.inj same).2).1 nextNotZero
  · rfl

theorem charsOfUnits_cons {unit : Nat} (alone : beginsPair unit = false) (rest : List Nat) :
    charsOfUnits (unit :: rest) = charOfUnit unit :: charsOfUnits rest := by
  cases rest <;> simp [charsOfUnits, alone]

theorem exists_of_octetOrder? {octet : UInt8} (notZero : octet ≠ 0) {tail : Bytes} {order : OctetOrder}
    (told : octetOrder? (octet :: tail) = some order) :
    order = .lowFirst ∧ ∃ more, tail = 0 :: more := by
  unfold octetOrder? at told
  split at told
  · next same => exact absurd (List.cons.inj same).1 notZero
  · next same =>
      cases told
      exact ⟨rfl, _, (List.cons.inj same).2⟩
  · cases told

/-- Taken for a text in units of two octets, a text with a bracket in front has it there as well. -/
theorem exists_chars_eq_cons {c : Char} (isBracket : IsBracket c) {rest : List Char}
    {order : OctetOrder} (told : octetOrder? (utf8Octets (c :: rest)) = some order) :
    ∃ more, order.chars (utf8Octets (c :: rest)) = c :: more := by
  have one : String.utf8EncodeChar c = [UInt8.ofNat c.toNat] ∧ UInt8.ofNat c.toNat ≠ 0 ∧
      beginsPair (OctetOrder.lowFirst.unit (UInt8.ofNat c.toNat) 0) = false ∧
      charOfUnit (OctetOrder.lowFirst.unit (UInt8.ofNat c.toNat) 0) = c := by
    rcases isBracket with rfl | rfl <;> exact ⟨rfl, by decide, by decide, by decide⟩
  rcases one with ⟨encoded, notZero, alone, back⟩
  rw [Utf8.utf8Octets_cons, encoded, List.singleton_append] at told ⊢
  rcases exists_of_octetOrder? notZero told with ⟨rfl, more, behind⟩
  refine ⟨charsOfUnits (OctetOrder.lowFirst.units more), ?_⟩
  rw [behind, OctetOrder.chars, OctetOrder.units, charsOfUnits_cons alone, back]

/-- A text with a bracket of JSON in front, but for white space, is not XML. -/
theorem read_ne_ok {blanks : List Char} (spaces : ∀ b ∈ blanks, isSpace b = true) {c : Char}
    (isBracket : IsBracket c) (rest : List Char) (root : Element) :
    read (Text.ofChars (blanks ++ c :: rest)) ≠ .ok root := by
  rw [read_ofChars, readScalars]
  cases told : octetOrder? (utf8Octets (blanks ++ c :: rest)) with
  | none =>
      have kept : ∀ b ∈ blanks ++ [c], uncut b = b := by
        simp only [List.forall_mem_append, List.forall_mem_singleton]
        exact ⟨fun b member => uncut_eq (Or.inl (spaces b member)), uncut_eq (Or.inr isBracket)⟩
      have same : (blanks ++ c :: rest).map uncut = blanks ++ c :: rest.map uncut := by
        rw [List.append_cons, List.map_append, List.map_congr_left kept, List.map_id',
          ← List.append_cons]
      simp only
      rw [same]
      exact readChars_ne_ok spaces isBracket _ root
  | some order =>
      cases blanks with
      | nil =>
          rcases exists_chars_eq_cons isBracket told with ⟨more, same⟩
          simp only [List.nil_append] at same ⊢
          rw [same]
          exact readChars_ne_ok (nofun : ∀ b ∈ [], isSpace b = true) isBracket more root
      | cons b blanks =>
          rcases List.forall_mem_cons.mp spaces with ⟨space, others⟩
          have narrow : octetOrder? (utf8Octets (b :: blanks ++ c :: rest)) = none := by
            cases blanks with
            | nil => exact octetOrder?_eq_none (Or.inl space) (Or.inr isBracket) rest
            | cons next blanks =>
                exact octetOrder?_eq_none (Or.inl space) (Or.inl (others _ List.mem_cons_self)) _
          cases narrow.symm.trans told

end Xml
end DocumentGateway
