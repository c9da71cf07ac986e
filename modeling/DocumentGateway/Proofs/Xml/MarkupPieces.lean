import DocumentGateway.Proofs.Xml.ReadDeclarations
import DocumentGateway.Proofs.Xml.WrittenValue

namespace DocumentGateway
namespace Xml

/-!
# Pieces of markup

What is scanned is a piece off the front of a text.  A piece that has its end in itself, as
references, comments and instructions have, is scanned alike whatever follows it; a name is scanned
alike wherever the same character follows it.
-/

/-- A scan takes a piece off every text that begins with it, and gives the same each time. -/
def Takes (scan : (start t : List Char) → Except Stop (α × List Char)) (piece : List Char) (a : α) :
    Prop :=
  ∀ start behind, scan start (piece ++ behind) = .ok (a, behind)

/-! ## Names -/

theorem endName_of_head? {start name rest : List Char} {result : List Char × List Char}
    (h : endName start name rest = .ok result) (place other : List Char)
    (alike : other.head? = rest.head?) : endName place name other = .ok (name, other) := by
  cases other with
  | nil => rfl
  | cons c others =>
      cases rest with
      | nil => cases alike
      | cons d more =>
          cases alike
          rw [endName] at h ⊢
          split at h
          · exact absurd h stop_ne_ok
          · next whole => rw [if_neg whole]

theorem scanName_of_head? {f : TextForm} {start t name behind : List Char}
    (h : scanName f start t = .ok (name, behind)) (place other : List Char)
    (alike : other.head? = behind.head?) : scanName f place (name ++ other) = .ok (name, other) := by
  cases t with
  | nil => exact absurd h stop_ne_ok
  | cons c rest =>
      rw [scanName] at h
      split at h
      · next begins =>
          cases eq_of_endName_eq_ok h
          have parts := takeWhile_append_of_head? alike
          rw [List.cons_append, scanName, if_pos begins, parts.1, parts.2]
          exact endName_of_head? h place other alike
      · exact absurd h refused_ne_ok

theorem exists_cons_of_scanName {f : TextForm} {start t name behind : List Char}
    (h : scanName f start t = .ok (name, behind)) :
    ∃ c rest, name = c :: rest ∧ (TextForm.wide false).isNameChar c = true := by
  have part := isNamePart_scanName h
  rcases List.exists_cons_of_ne_nil part.nonempty with ⟨c, rest, same⟩
  exact ⟨c, rest, same, part.chars c (same ▸ List.mem_cons_self)⟩

theorem eq_append_of_scanQualifiedName {f : TextForm} {start t name behind : List Char}
    (h : scanQualifiedName f start t = .ok (name, behind)) : t = name ++ behind := by
  rcases exists_of_bind_eq_ok h with ⟨⟨first, behindFirst⟩, scanned, h⟩
  have whole : t = first ++ behindFirst := eq_append_of_scanName scanned
  dsimp only at h
  split at h
  · rcases exists_of_bind_eq_ok h with ⟨⟨second, behindSecond⟩, scannedSecond, h⟩
    cases h
    have rest := eq_append_of_scanName scannedSecond
    rw [whole, rest, List.append_assoc, List.cons_append]
  · cases h
    exact whole

theorem scanQualifiedName_of_head? {f : TextForm} {start t name behind : List Char}
    (h : scanQualifiedName f start t = .ok (name, behind)) (place other : List Char)
    (alike : other.head? = behind.head?) :
    scanQualifiedName f place (name ++ other) = .ok (name, other) := by
  rcases exists_of_bind_eq_ok h with ⟨⟨first, behindFirst⟩, scanned, h⟩
  dsimp only at h
  split at h
  · rcases exists_of_bind_eq_ok h with ⟨⟨second, behindSecond⟩, scannedSecond, h⟩
    cases h
    have colon := scanName_of_head? scanned place (':' :: (second ++ other)) rfl
    rw [List.append_assoc, List.cons_append]
    refine (bind_of_eq_ok colon _).trans ?_
    exact bind_of_eq_ok (scanName_of_head? scannedSecond place other alike) _
  · next noColon =>
      cases h
      refine (bind_of_eq_ok (scanName_of_head? scanned place _ alike) _).trans ?_
      dsimp only
      split
      · next more =>
          cases behind with
          | nil => cases alike
          | cons c others =>
              cases alike
              exact absurd rfl (noColon others)
      · rfl

theorem exists_cons_of_scanQualifiedName {f : TextForm} {start t name behind : List Char}
    (h : scanQualifiedName f start t = .ok (name, behind)) :
    ∃ c rest, name = c :: rest ∧ (TextForm.wide false).isNameChar c = true := by
  rcases exists_of_bind_eq_ok h with ⟨⟨first, behindFirst⟩, scanned, h⟩
  rcases exists_cons_of_scanName scanned with ⟨c, rest, rfl, begins⟩
  dsimp only at h
  split at h
  · rcases exists_of_bind_eq_ok h with ⟨⟨second, behindSecond⟩, -, h⟩
    cases h
    exact ⟨c, _, rfl, begins⟩
  · cases h
    exact ⟨c, rest, rfl, begins⟩

/-! ## References -/

/-- A character of no attribute value that is quoted. -/
def IsQuote (c : Char) : Prop :=
  c = '"' ∨ c = '\''

instance (c : Char) : Decidable (IsQuote c) := inferInstanceAs (Decidable (_ ∨ _))

theorem takes_scanNumber {base : Nat} {isDigit : Char → Bool} (notSemicolon : isDigit ';' = false)
    {start t behind : List Char} {r : Reference}
    (h : scanNumber start base isDigit t = .ok (r, behind)) :
    ∃ d digits, (∀ c ∈ d :: digits, isDigit c = true) ∧ t = d :: digits ++ ';' :: behind ∧
      Takes (scanNumber · base isDigit ·) (d :: digits ++ [';']) r := by
  unfold scanNumber at h
  dsimp only at h
  split at h
  · next d digits rest found same =>
      cases h
      refine ⟨d, digits, ?_, ?_, fun place other => ?_⟩
      · rw [← found]
        exact fun c => List.mem_takeWhile_imp
      · rw [← found, ← same, List.takeWhile_append_dropWhile]
      · have inside : ∀ c ∈ d :: digits, isDigit c = true := by
          rw [← found]
          exact fun c => List.mem_takeWhile_imp
        have ends : ∀ c more, ';' :: other = c :: more → isDigit c = false := by
          rintro c more ⟨⟩
          exact notSemicolon
        have parts := takeWhile_append_of_ends inside ends
        rw [List.append_assoc, List.singleton_append]
        unfold scanNumber
        dsimp only
        rw [parts.1, parts.2, found]
        rfl
  · exact absurd h unexpected_ne_ok

/-- The digits of a number are no quotes. -/
theorem not_isQuote_of_isDigit {c : Char} (h : (hexDigit? c).isSome = true ∨ isAsciiDigit c = true) :
    ¬ IsQuote c := by
  rintro (rfl | rfl)
  · exact absurd h (by decide)
  · exact absurd h (by decide)

theorem not_isQuote_of_isNameChar {c : Char} (h : (TextForm.wide false).isNameChar c = true) :
    ¬ IsQuote c := by
  rintro (rfl | rfl)
  · exact absurd h (by decide)
  · exact absurd h (by decide)

/-- A reference ends with its semicolon. -/
theorem takes_scanReference {f : TextForm} {start t behind : List Char} {r : Reference}
    (h : scanReference f start t = .ok (r, behind)) :
    ∃ piece, t = piece ++ behind ∧ (∀ c ∈ piece, ¬ IsQuote c) ∧ Takes (scanReference f) piece r := by
  unfold scanReference at h
  split at h
  · rcases takes_scanNumber (by decide) h with ⟨d, digits, inside, rfl, takes⟩
    refine ⟨'#' :: 'x' :: (d :: digits ++ [';']), by simp, ?_, fun place other => takes place other⟩
    intro c member
    simp only [List.mem_cons, List.mem_append, List.not_mem_nil, or_false] at member inside
    rcases member with rfl | rfl | digit | rfl
    · decide
    · decide
    · exact not_isQuote_of_isDigit (Or.inl (inside c digit))
    · decide
  · next rest notHex =>
      rcases takes_scanNumber (by decide) h with ⟨d, digits, inside, rfl, takes⟩
      refine ⟨'#' :: (d :: digits ++ [';']), by simp, ?_, fun place other => ?_⟩
      · intro c member
        simp only [List.mem_cons, List.mem_append, List.not_mem_nil, or_false] at member inside
        rcases member with rfl | digit | rfl
        · decide
        · exact not_isQuote_of_isDigit (Or.inr (inside c digit))
        · decide
      · refine Eq.trans (scanReference.eq_2 _ _ _ fun more same => ?_) (takes place other)
        cases same
        exact notHex _ rfl
  · next notNumber =>
      rcases exists_of_bind_eq_ok h with ⟨⟨name, found⟩, scanned, h⟩
      have whole : t = name ++ found := eq_append_of_scanName scanned
      have part := isNamePart_scanName scanned
      dsimp only at h
      split at h
      · cases h
        refine ⟨name ++ [';'], by rw [whole, List.append_assoc, List.singleton_append], ?_,
          fun place other => ?_⟩
        · intro c member
          rcases List.mem_append.mp member with inName | last
          · exact not_isQuote_of_isNameChar (part.chars c inName)
          · cases List.mem_singleton.mp last
            decide
        · rcases exists_cons_of_scanName scanned with ⟨c, more, rfl, begins⟩
          have notHash : c ≠ '#' := ne_of_isNameChar begins (by decide)
          have named := scanName_of_head? scanned place (';' :: other) rfl
          rw [List.append_assoc, List.singleton_append]
          unfold scanReference
          split
          · next same => exact absurd (List.cons.inj same).1 notHash
          · next same => exact absurd (List.cons.inj same).1 notHash
          · exact bind_of_eq_ok named _
      · exact absurd h unexpected_ne_ok

/-! ## Comments and instructions -/

/-- A piece with a closing bracket at its end. -/
def IsClosed (piece : List Char) : Prop :=
  ∃ front, piece = front ++ ['>']

theorem IsClosed.append {piece : List Char} (h : IsClosed piece) (front : List Char) :
    IsClosed (front ++ piece) := by
  rcases h with ⟨inner, rfl⟩
  exact ⟨front ++ inner, (List.append_assoc _ _ _).symm⟩

theorem IsClosed.cons {piece : List Char} (h : IsClosed piece) (c : Char) : IsClosed (c :: piece) :=
  h.append [c]

theorem IsClosed.exists_cons {piece : List Char} (h : IsClosed piece) :
    ∃ c rest, piece = c :: rest := by
  rcases h with ⟨front, rfl⟩
  exact List.exists_cons_of_ne_nil (by simp)

theorem takes_scanComment {start t behind : List Char} (h : scanComment start t = .ok behind) :
    ∃ piece, IsClosed piece ∧ t = piece ++ behind ∧
      ∀ place other, scanComment place (piece ++ other) = .ok other := by
  fun_induction scanComment start t with
  | case1 => exact absurd h stop_ne_ok
  | case2 =>
      cases h
      exact ⟨['-', '-', '>'], ⟨['-', '-'], rfl⟩, rfl, fun _ _ => rfl⟩
  | case3 => exact absurd h unexpected_ne_ok
  | case4 c rest notEnd notHyphens fits ih =>
      rcases ih h with ⟨piece, closed, rfl, takes⟩
      refine ⟨c :: piece, closed.cons c, rfl, fun place other => ?_⟩
      rcases closed.exists_cons with ⟨d, more, rfl⟩
      rw [List.cons_append, List.cons_append, scanComment.eq_4, if_pos fits]
      · exact takes place other
      · rintro others rfl same
        cases (List.cons.inj same).1
        exact notHyphens _ rfl rfl
      · rintro found rfl same
        cases (List.cons.inj same).1
        exact notHyphens _ rfl rfl
  | case5 => exact absurd h refused_ne_ok

theorem takes_scanCommentOpening {start t behind : List Char}
    (h : scanCommentOpening start t = .ok behind) :
    ∃ piece, IsClosed piece ∧ t = piece ++ behind ∧
      ∀ place other, scanCommentOpening place (piece ++ other) = .ok other := by
  unfold scanCommentOpening at h
  split at h
  · rcases takes_scanComment h with ⟨piece, closed, rfl, takes⟩
    exact ⟨'-' :: piece, closed.cons '-', rfl, takes⟩
  · exact absurd h unexpected_ne_ok

theorem takes_scanInstructionBody {start t body behind : List Char}
    (h : scanInstructionBody start t = .ok (body, behind)) :
    t = body ++ '?' :: '>' :: behind ∧
      Takes scanInstructionBody (body ++ ['?', '>']) body := by
  induction t generalizing body with
  | nil => exact absurd h stop_ne_ok
  | cons c rest ih =>
      unfold scanInstructionBody at h
      split at h
      · next same => cases same
      · next same =>
          cases same
          cases h
          exact ⟨rfl, fun _ _ => rfl⟩
      · next c' rest' notEnd same =>
          cases same
          split at h
          · next fits =>
              rcases exists_of_bind_eq_ok h with ⟨⟨more, found⟩, scanned, h⟩
              cases h
              rcases ih scanned with ⟨rfl, takes⟩
              refine ⟨rfl, fun place other => ?_⟩
              have later := takes place other
              rw [List.cons_append, List.cons_append, scanInstructionBody.eq_3, if_pos fits]
              · exact bind_of_eq_ok later _
              · rintro others rfl same
                cases more with
                | nil => cases same
                | cons d more =>
                    cases same
                    exact notEnd _ rfl rfl
          · exact absurd h refused_ne_ok

/-- An instruction ends with the first closing sign behind its target. -/
theorem takes_scanInstruction {f : TextForm} {start t behind : List Char} {i : Instruction}
    (h : scanInstruction f start t = .ok (i, behind)) :
    ∃ target body piece, IsClosed piece ∧ t = piece ++ behind ∧
      i = instructionOf target body ('?' :: '>' :: behind) ∧
      ∀ place other, scanInstruction f place (piece ++ other) =
        .ok (instructionOf target body ('?' :: '>' :: other), other) := by
  rcases exists_of_bind_eq_ok h with ⟨⟨target, behindTarget⟩, scanned, h⟩
  have whole : t = target ++ behindTarget := eq_append_of_scanName scanned
  dsimp only at h
  split at h
  · exact absurd h stop_ne_ok
  · next c rest =>
      split at h
      · exact absurd h stop_ne_ok
      · next fits =>
          split at h
          · next isEnd =>
              subst isEnd
              split at h
              · next behind' =>
                  cases h
                  refine ⟨target, [], target ++ ['?', '>'], ⟨target ++ ['?'], by simp⟩,
                    by rw [whole]; simp, rfl, fun place other => ?_⟩
                  have named := scanName_of_head? scanned place ('?' :: '>' :: other) rfl
                  rw [List.append_assoc]
                  refine (bind_of_eq_ok named _).trans ?_
                  dsimp only
                  rw [if_neg fits, if_pos rfl]
                  rfl
              · exact absurd h unexpected_ne_ok
          · next notEnd =>
              rcases exists_of_bind_eq_ok h with ⟨⟨body, found⟩, scannedBody, h⟩
              cases h
              rcases takes_scanInstructionBody scannedBody with ⟨rfl, takes⟩
              refine ⟨target, c :: body, target ++ c :: (body ++ ['?', '>']),
                ⟨target ++ c :: (body ++ ['?']), by simp⟩, by rw [whole]; simp, rfl,
                fun place other => ?_⟩
              have named :=
                scanName_of_head? scanned place (c :: (body ++ ['?', '>'] ++ other)) rfl
              rw [List.append_assoc, List.cons_append]
              refine (bind_of_eq_ok named _).trans ?_
              dsimp only
              rw [if_neg fits, if_neg notEnd]
              exact bind_of_eq_ok (takes place other) _

end Xml
end DocumentGateway
