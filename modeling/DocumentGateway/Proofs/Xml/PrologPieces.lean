import DocumentGateway.Proofs.Xml.ContentPieces
import DocumentGateway.Proofs.Xml.ForeignText

namespace DocumentGateway
namespace Xml
namespace Prolog

/-!
# Pieces of the prolog

A token outside of the root element is scanned alike wherever the text goes on alike behind it.  For
most tokens only the next character matters, and behind a comment or an instruction nothing does.
-/

/-! ## What tokens have in common -/

/-- Tokens that say the same. -/
inductive Token.IsLike : Token → Token → Prop
  | same (token : Token) : IsLike token token
  | literal (content following other : List Char) :
      IsLike (.literal content following) (.literal content other)
  | xmlDeclaration (body closing other : List Char) :
      IsLike (.xmlDeclaration body closing) (.xmlDeclaration body other)

/-- A comment or an instruction, which has its end in itself. -/
def Token.IsAside (token : Token) : Prop :=
  token = .comment ∨ token = .instruction

theorem Token.IsLike.eq_of_passes {token other : Token} (h : token.IsLike other)
    (passes : token = .space ∨ token.IsAside) : other = token := by
  rcases passes with rfl | rfl | rfl
  · cases h
    rfl
  · cases h
    rfl
  · cases h
    rfl

/-- A token that neither white space nor an opening bracket begins. -/
def Token.IsPlain : Token → Prop
  | .space | .comment | .instruction | .xmlDeclaration _ _ | .root => False
  | .declarationOpen _ | .conditionalOpen => False
  | _ => True

theorem Token.IsPlain.not_isAside {token : Token} (h : token.IsPlain) : ¬ token.IsAside := by
  rintro (rfl | rfl)
  · exact h
  · exact h

/-! ## Names -/

theorem isDelimited_of_head? {delimiters t other : List Char} (alike : other.head? = t.head?) :
    isDelimited delimiters other = isDelimited delimiters t := by
  cases t with
  | nil => rw [List.head?_eq_none_iff.mp alike]
  | cons c rest =>
      cases other with
      | nil => cases alike
      | cons d more =>
          cases alike
          rfl

/-- The kind of a name whose colon has been taken off, if it can be told. -/
def kindBehindColon? (f : TextForm) : NameKind → (rest : List Char) → Option NameKind
  | .plain, [] => none
  | .plain, d :: _ => some (if f.isNameChar d then .qualified else .loose)
  | _, _ => some .loose

theorem kindBehindColon?_of_head? {f : TextForm} {kind : NameKind} {rest other : List Char}
    (alike : other.head? = rest.head?) : kindBehindColon? f kind other = kindBehindColon? f kind rest := by
  cases rest with
  | nil => rw [List.head?_eq_none_iff.mp alike]
  | cons c more =>
      cases other with
      | nil => cases alike
      | cons d others =>
          cases alike
          cases kind <;> rfl

theorem scanNameRest_colon (f : TextForm) (start : List Char) (kind : NameKind) (rest : List Char) :
    scanNameRest f start kind (':' :: rest) =
      match kindBehindColon? f kind rest with
      | none => stop .unclosedToken start
      | some next => do
        let (more, whole, behind) ← scanNameRest f start next rest
        return (':' :: more, whole, behind) := by
  have noName : f.isNameChar ':' = false := by
    cases f <;> rfl
  rw [scanNameRest, noName, if_pos rfl]
  cases kind <;> cases rest <;> rfl

theorem exists_piece_of_scanNameRest {f : TextForm} {start : List Char} {kind : NameKind}
    {t more behind : List Char} {whole : Option NameKind}
    (h : scanNameRest f start kind t = .ok (more, whole, behind)) :
    ∃ piece, t = piece ++ behind ∧ ∀ place other, other.head? = behind.head? →
      scanNameRest f place kind (piece ++ other) = .ok (more, whole, other) := by
  induction t generalizing kind more with
  | nil =>
      cases h
      refine ⟨[], rfl, fun place other alike => ?_⟩
      rw [List.head?_eq_none_iff.mp alike]
      rfl
  | cons c rest ih =>
      by_cases isColon : c = ':'
      · subst isColon
        rw [scanNameRest_colon] at h
        split at h
        · exact absurd h stop_ne_ok
        · next next told =>
            rcases exists_of_bind_eq_ok h with ⟨⟨others, whole', behind'⟩, scanned, h⟩
            cases h
            rcases ih scanned with ⟨piece, rfl, again⟩
            refine ⟨':' :: piece, rfl, fun place other alike => ?_⟩
            have sameHead : (piece ++ other).head? = (piece ++ behind).head? := by
              rw [List.head?_append, List.head?_append, alike]
            rw [List.cons_append, scanNameRest_colon, kindBehindColon?_of_head? sameHead, told]
            exact bind_of_eq_ok (again place other alike) _
      · rw [scanNameRest] at h
        split at h
        · next inName =>
            rcases exists_of_bind_eq_ok h with ⟨⟨others, whole', behind'⟩, scanned, h⟩
            cases h
            rcases ih scanned with ⟨piece, rfl, again⟩
            refine ⟨c :: piece, rfl, fun place other alike => ?_⟩
            rw [List.cons_append, scanNameRest, if_pos inName]
            exact bind_of_eq_ok (again place other alike) _
        · next outside =>
            split at h
            · next delimited =>
                cases h
                refine ⟨[], rfl, fun place other alike => ?_⟩
                cases other with
                | nil => cases alike
                | cons d others =>
                    cases alike
                    have delimits : isDelimited ['>', ')', ',', '|', '[', '%'] (c :: others) = true :=
                      delimited
                    rw [List.nil_append, scanNameRest, if_neg outside, if_neg isColon,
                      if_pos delimits]
            · next notDelimited =>
                split at h
                · next isSign =>
                    cases h
                    refine ⟨[c], rfl, fun place other _ => ?_⟩
                    have goesOn : ¬ isDelimited ['>', ')', ',', '|', '[', '%'] (c :: other) = true :=
                      notDelimited
                    rw [List.singleton_append, scanNameRest, if_neg outside, if_neg isColon,
                      if_neg goesOn, if_pos isSign]
                · exact absurd h refused_ne_ok

/-- A word is scanned alike wherever the same character follows it. -/
theorem exists_piece_of_scanWord {f : TextForm} {t behind : List Char} {token : Token}
    (h : scanWord f t = .ok (token, behind)) :
    ∃ c piece, t = c :: piece ++ behind ∧ (f.isNameChar c || c = ':') = true ∧ token.IsPlain ∧
      ∀ other, other.head? = behind.head? →
        scanWord f (c :: piece ++ other) = .ok (token, other) := by
  cases t with
  | nil => exact absurd h stop_ne_ok
  | cons c rest =>
      rw [scanWord] at h
      split at h
      · next begins =>
          rcases exists_of_bind_eq_ok h with ⟨⟨more, whole, behind'⟩, scanned, h⟩
          cases h
          rcases exists_piece_of_scanNameRest scanned with ⟨piece, rfl, again⟩
          have isPlain : (nameOf (c :: more) whole).IsPlain := by
            rcases whole with _ | (_ | _ | _) <;> trivial
          refine ⟨c, piece, rfl, begins, isPlain, fun other alike => ?_⟩
          rw [List.cons_append, scanWord, if_pos begins]
          exact bind_of_eq_ok (again _ other alike) _
      · exact absurd h refused_ne_ok

/-! ## Literals and references -/

theorem exists_piece_of_scanLiteral {start : List Char} {quote : Char} {t content behind : List Char}
    (h : scanLiteral start quote t = .ok (content, behind)) :
    t = content ++ quote :: behind ∧ ∀ place other, other.head? = behind.head? →
      scanLiteral place quote (content ++ quote :: other) = .ok (content, other) := by
  induction t generalizing content with
  | nil => exact absurd h stop_ne_ok
  | cons c rest ih =>
      rw [scanLiteral] at h
      split at h
      · next isQuote =>
          subst isQuote
          split at h
          · next delimited =>
              cases h
              refine ⟨rfl, fun place other alike => ?_⟩
              rw [← isDelimited_of_head? alike] at delimited
              rw [List.nil_append, scanLiteral, if_pos rfl, if_pos delimited]
          · exact absurd h stop_ne_ok
      · next notQuote =>
          split at h
          · next fits =>
              rcases exists_of_bind_eq_ok h with ⟨⟨more, behind'⟩, scanned, h⟩
              cases h
              rcases ih scanned with ⟨rfl, again⟩
              refine ⟨rfl, fun place other alike => ?_⟩
              rw [List.cons_append, scanLiteral, if_neg notQuote, if_pos fits]
              exact bind_of_eq_ok (again place other alike) _
          · exact absurd h refused_ne_ok

theorem exists_piece_of_scanPercent {f : TextForm} {start t behind : List Char} {token : Token}
    (h : scanPercent f start t = .ok (token, behind)) :
    ∃ piece, t = piece ++ behind ∧ token.IsPlain ∧ ∀ place other, other.head? = behind.head? →
      scanPercent f place (piece ++ other) = .ok (token, other) := by
  cases t with
  | nil => exact absurd h stop_ne_ok
  | cons c rest =>
      rw [scanPercent] at h
      split at h
      · next isSign =>
          cases h
          refine ⟨[], rfl, trivial, fun place other alike => ?_⟩
          cases other with
          | nil => cases alike
          | cons d more =>
              cases alike
              rw [List.nil_append, scanPercent, if_pos isSign]
      · next notSign =>
          rcases exists_of_bind_eq_ok h with ⟨⟨name, found⟩, scanned, h⟩
          have whole : c :: rest = name ++ found := eq_append_of_scanName scanned
          dsimp only at h
          split at h
          · cases h
            refine ⟨name ++ [';'], by rw [whole, List.append_assoc, List.singleton_append], trivial,
              fun place other _ => ?_⟩
            have named := scanName_of_head? scanned place (';' :: other) rfl
            rcases exists_cons_of_scanName scanned with ⟨d, more, rfl, -⟩
            cases (List.cons.inj whole).1
            rw [List.append_assoc, List.singleton_append]
            rw [List.cons_append] at named ⊢
            rw [scanPercent, if_neg notSign]
            exact bind_of_eq_ok named _
          · exact absurd h unexpected_ne_ok

theorem exists_piece_of_scanHashName {f : TextForm} {start t behind : List Char} {token : Token}
    (h : scanHashName f start t = .ok (token, behind)) :
    ∃ piece, t = piece ++ behind ∧ token.IsPlain ∧ ∀ place other, other.head? = behind.head? →
      scanHashName f place (piece ++ other) = .ok (token, other) := by
  rcases exists_of_bind_eq_ok h with ⟨⟨name, found⟩, scanned, h⟩
  dsimp only at h
  split at h
  · next delimited =>
      cases h
      refine ⟨name, eq_append_of_scanName scanned, trivial, fun place other alike => ?_⟩
      refine (bind_of_eq_ok (scanName_of_head? scanned place other alike) _).trans ?_
      rw [← isDelimited_of_head? alike] at delimited
      dsimp only
      rw [if_pos delimited]
      rfl
  · exact absurd h stop_ne_ok

/-! ## Declarations -/

/-- The token of a keyword, by what follows it. -/
def keywordToken (start keyword : List Char) : List Char → Except Stop (Token × List Char)
  | ['%'] => stop .unclosedToken start
  | '%' :: d :: more =>
    if isSpace d || d = '%' then stop .invalidToken ('%' :: d :: more)
    else .ok (.declarationOpen keyword, '%' :: d :: more)
  | d :: more =>
    if isSpace d then .ok (.declarationOpen keyword, d :: more) else stop .invalidToken (d :: more)
  | [] => stop .unclosedToken start

theorem scanDeclarationOpen_keyword {f : TextForm} {c : Char} {rest : List Char}
    (notComment : c = '-' → False) (notConditional : c = '[' → False)
    (begins : f.isKeywordChar c = true) (start : List Char) :
    scanDeclarationOpen f start (c :: rest) =
      keywordToken start (c :: rest.takeWhile f.isKeywordChar) (rest.dropWhile f.isKeywordChar) := by
  rw [scanDeclarationOpen.eq_4 _ _ _ _ notComment notConditional, if_pos begins]
  rfl

/-- No more than two characters behind a keyword matter. -/
theorem keywordToken_of_goesOnLike {start keyword t behind : List Char} {token : Token}
    (h : keywordToken start keyword t = .ok (token, behind)) :
    token = .declarationOpen keyword ∧ behind = t ∧ ∀ place other, GoesOnLike t other →
      keywordToken place keyword other = .ok (token, other) := by
  unfold keywordToken at h
  split at h
  · exact absurd h stop_ne_ok
  · next d more =>
      split at h
      · exact absurd h stop_ne_ok
      · next named =>
          cases h
          refine ⟨rfl, rfl, fun place other alike => ?_⟩
          rcases alike.exists_cons with ⟨others, rfl, next⟩
          rcases (next (by decide)).exists_cons with ⟨last, rfl, -⟩
          exact if_neg named
  · next d more _ _ =>
      split at h
      · next space =>
          cases h
          refine ⟨rfl, rfl, fun place other alike => ?_⟩
          rcases alike.exists_cons with ⟨others, rfl, -⟩
          simp only [isSpace, Bool.or_eq_true, beq_iff_eq] at space
          rcases space with ((rfl | rfl) | rfl) | rfl <;> rfl
      · exact absurd h stop_ne_ok
  · exact absurd h stop_ne_ok

theorem exists_piece_of_scanDeclarationOpen {f : TextForm} {start t behind : List Char} {token : Token}
    (h : scanDeclarationOpen f start t = .ok (token, behind)) :
    ∃ piece, t = piece ++ behind ∧ (token = .comment → IsClosed piece) ∧
      ∀ place other, GoesOnLike behind other ∨ token = .comment →
        scanDeclarationOpen f place (piece ++ other) = .ok (token, other) := by
  have whole := h
  unfold scanDeclarationOpen at h
  split at h
  · exact absurd h stop_ne_ok
  · rcases exists_of_bind_eq_ok h with ⟨behind', scanned, h⟩
    cases h
    rcases takes_scanCommentOpening scanned with ⟨piece, closed, rfl, takes⟩
    exact ⟨'-' :: piece, rfl, fun _ => closed.cons _, fun place other _ =>
      bind_of_eq_ok (takes place other) _⟩
  · cases h
    exact ⟨['['], rfl, nofun, fun _ _ _ => rfl⟩
  · next c rest notComment notConditional =>
      split at h
      · next begins =>
          rw [scanDeclarationOpen_keyword notComment notConditional begins] at whole
          rcases keywordToken_of_goesOnLike whole with ⟨rfl, left, again⟩
          refine ⟨c :: rest.takeWhile f.isKeywordChar, ?_, nofun, fun place other alike => ?_⟩
          · rw [left, List.cons_append, List.takeWhile_append_dropWhile]
          · replace alike := alike.resolve_right nofun
            rw [left] at alike
            -- What ends the keyword stands at the front of what is left.
            have parts := takeWhile_append_of_head? alike.head?_eq
            rw [List.cons_append, scanDeclarationOpen_keyword notComment notConditional begins, parts.1,
              parts.2]
            exact again place other alike
      · exact absurd h stop_ne_ok

/-- What a declaration opens with is no white space, no instruction and not the root element. -/
theorem ne_of_scanDeclarationOpen {f : TextForm} {start t behind : List Char} {token : Token}
    (h : scanDeclarationOpen f start t = .ok (token, behind)) :
    token ≠ .space ∧ token ≠ .instruction ∧ token ≠ .root := by
  have whole := h
  unfold scanDeclarationOpen at h
  split at h
  · exact absurd h stop_ne_ok
  · rcases exists_of_bind_eq_ok h with ⟨found, -, h⟩
    cases h
    exact ⟨nofun, nofun, nofun⟩
  · cases h
    exact ⟨nofun, nofun, nofun⟩
  · next notComment notConditional =>
      split at h
      · next begins =>
          rw [scanDeclarationOpen_keyword notComment notConditional begins] at whole
          rw [(keywordToken_of_goesOnLike whole).1]
          exact ⟨nofun, nofun, nofun⟩
      · exact absurd h stop_ne_ok

/-! ## Tokens -/

theorem ne_space_of_scanBracket {f : TextForm} {start t behind : List Char} {token : Token}
    (h : scanBracket f start t = .ok (token, behind)) : token ≠ .space := by
  unfold scanBracket at h
  split at h
  · exact absurd h stop_ne_ok
  · exact (ne_of_scanDeclarationOpen h).1
  · rcases exists_of_bind_eq_ok h with ⟨⟨i, found⟩, -, h⟩
    cases i with
    | declaration =>
        cases h
        exact nofun
    | processing =>
        cases h
        exact nofun
  · split at h
    · cases h
      exact nofun
    · exact absurd h stop_ne_ok

theorem exists_piece_of_scanBracket {f : TextForm} {start t behind : List Char} {token : Token}
    (h : scanBracket f start t = .ok (token, behind)) (notRoot : token ≠ .root) :
    ∃ piece, t = piece ++ behind ∧ (token.IsAside → IsClosed piece) ∧
      ∀ place other, GoesOnLike behind other ∨ token.IsAside → ∃ token', token.IsLike token' ∧
        scanBracket f place (piece ++ other) = .ok (token', other) := by
  unfold scanBracket at h
  split at h
  · exact absurd h stop_ne_ok
  · have noInstruction := (ne_of_scanDeclarationOpen h).2.1
    rcases exists_piece_of_scanDeclarationOpen h with ⟨piece, rfl, closed, again⟩
    refine ⟨'!' :: piece, rfl, fun aside => ?_, fun place other alike => ?_⟩
    · exact (closed (aside.resolve_right noInstruction)).cons _
    · have goesOn := alike.imp_right (·.resolve_right noInstruction)
      exact ⟨token, .same token, again place other goesOn⟩
  · rcases exists_of_bind_eq_ok h with ⟨⟨i, behind'⟩, scanned, h⟩
    rcases takes_scanInstruction scanned with ⟨target, body, piece, closed, rfl, rfl, takes⟩
    by_cases isXml : target = ['x', 'm', 'l']
    · rw [instructionOf, if_pos isXml] at h
      cases h
      refine ⟨'?' :: piece, rfl, fun _ => closed.cons _, fun place other _ => ?_⟩
      refine ⟨_, .xmlDeclaration body _ ('?' :: '>' :: other), ?_⟩
      refine (bind_of_eq_ok (takes place other) _).trans ?_
      rw [instructionOf, if_pos isXml]
      rfl
    · rw [instructionOf, if_neg isXml] at h
      cases h
      refine ⟨'?' :: piece, rfl, fun _ => closed.cons _, fun place other _ => ⟨_, .same _, ?_⟩⟩
      refine (bind_of_eq_ok (takes place other) _).trans ?_
      rw [instructionOf, if_neg isXml]
      rfl
  · split at h
    · cases h
      exact absurd rfl notRoot
    · exact absurd h stop_ne_ok

/-- A closing parenthesis is scanned alike before the same character. -/
theorem exists_piece_of_scanCloseParen {t behind : List Char} {token : Token}
    (h : scanCloseParen t = .ok (token, behind)) :
    ∃ piece, t = piece ++ behind ∧ token.IsPlain ∧
      ∀ other, other.head? = behind.head? → scanCloseParen (piece ++ other) = .ok (token, other) := by
  unfold scanCloseParen at h
  split at h
  · cases h
    exact ⟨['*'], rfl, trivial, fun _ _ => rfl⟩
  · cases h
    exact ⟨['?'], rfl, trivial, fun _ _ => rfl⟩
  · cases h
    exact ⟨['+'], rfl, trivial, fun _ _ => rfl⟩
  · next noStar noMark noPlus =>
      split at h
      · next delimited =>
          cases h
          refine ⟨[], rfl, trivial, fun other alike => ?_⟩
          rw [← isDelimited_of_head? alike] at delimited
          have delimits : ∀ c ∈ ['*', '?', '+'], ∀ more, other ≠ c :: more := by
            rintro c sign more rfl
            simp only [List.mem_cons, List.not_mem_nil, or_false] at sign
            rcases sign with rfl | rfl | rfl <;> cases delimited
          rw [List.nil_append, scanCloseParen.eq_4, if_pos delimited]
          · exact fun more => delimits '*' (by simp) more
          · exact fun more => delimits '?' (by simp) more
          · exact fun more => delimits '+' (by simp) more
      · exact absurd h stop_ne_ok

/-- The characters that begin tokens other than words. -/
def marks : List Char :=
  ['"', '\'', '<', '%', '#', ',', '[', ']', '(', ')', '|', '>', ' ', '\t', '\n', '\r']

theorem all_marks (f : TextForm) : marks.all (fun d => !(f.isNameChar d || d = ':')) = true := by
  rcases f with _ | (_ | _) | _ <;> rfl

/-- What begins a word begins nothing else. -/
theorem scanToken_of_isNameChar {f : TextForm} {c : Char} (begins : (f.isNameChar c || c = ':') = true)
    (rest : List Char) : scanToken f (c :: rest) = scanWord f (c :: rest) := by
  have noMark : ∀ d ∈ marks, c ≠ d := by
    rintro d isMark rfl
    have unnamed := List.all_eq_true.mp (all_marks f) c isMark
    rw [begins] at unnamed
    cases unnamed
  have notSpace : isSpace c = false := by
    simp only [isSpace, Bool.or_eq_false_iff, beq_eq_false_iff_ne]
    exact ⟨⟨⟨noMark _ (by simp [marks]), noMark _ (by simp [marks])⟩, noMark _ (by simp [marks])⟩,
      noMark _ (by simp [marks])⟩
  conv => lhs; unfold scanToken
  split
  case h_15 same =>
    cases same
    rw [notSpace]
    rfl
  case h_16 same => cases same
  all_goals
    next same => exact absurd (List.cons.inj same).1 (noMark _ (by simp [marks]))

/-- A token is scanned alike of a piece wherever the text goes on alike behind it, and one that has its
end in itself whatever follows it. -/
def IsScannedOf (f : TextForm) (token : Token) (piece behind : List Char) : Prop :=
  (token.IsAside → IsClosed piece) ∧
    ∀ other, GoesOnLike behind other ∨ token.IsAside → ∃ token', token.IsLike token' ∧
      scanToken f (piece ++ other) = .ok (token', other)

section IsScannedOf

variable {f : TextForm} {token : Token} {piece behind : List Char}

/-- Most tokens have no end in themselves and are the same wherever they are scanned. -/
theorem isScannedOf_of_not_isAside (noAside : ¬ token.IsAside)
    (again : ∀ other, GoesOnLike behind other → scanToken f (piece ++ other) = .ok (token, other)) :
    IsScannedOf f token piece behind :=
  ⟨fun aside => absurd aside noAside, fun other alike =>
    ⟨_, .same _, again other (alike.resolve_right noAside)⟩⟩

/-- A literal is scanned between quotes of one kind. -/
theorem exists_piece_of_literal {quote : Char} {rest : List Char}
    (scans : ∀ t, scanToken f (quote :: t) = (do
      let (content, behind) ← scanLiteral (quote :: t) quote t
      return (.literal content (quote :: behind), behind)))
    (h : scanToken f (quote :: rest) = .ok (token, behind)) :
    ∃ piece, piece ≠ [] ∧ quote :: rest = piece ++ behind ∧ IsScannedOf f token piece behind := by
  rw [scans] at h
  rcases exists_of_bind_eq_ok h with ⟨⟨content, behind'⟩, scanned, h⟩
  cases h
  rcases exists_piece_of_scanLiteral scanned with ⟨rfl, again⟩
  refine ⟨quote :: content ++ [quote], by simp, by simp, nofun, fun other alike => ?_⟩
  refine ⟨_, .literal content _ (quote :: other), ?_⟩
  rw [List.append_assoc, List.singleton_append, List.cons_append, scans]
  exact bind_of_eq_ok (again _ other (alike.resolve_right nofun).head?_eq) _

/-- A closing bracket stands alone unless it is the first of those that close a section. -/
theorem isScannedOf_closeBracket (notConditional : ∀ rest, behind ≠ ']' :: '>' :: rest)
    (notLast : behind ≠ [']']) : IsScannedOf f .closeBracket [']'] behind := by
  refine isScannedOf_of_not_isAside nofun fun other alike => ?_
  rw [List.singleton_append, scanToken.eq_10]
  · rintro more rfl
    rcases alike.symm.exists_cons with ⟨second, rfl, next⟩
    rcases (next (by decide)).exists_cons with ⟨third, rfl, -⟩
    exact notConditional third rfl
  · rintro rfl
    rcases alike.symm.exists_cons with ⟨second, rfl, next⟩
    rw [(next (by decide)).eq_nil] at notLast
    exact notLast rfl

/-- White space is scanned up to its end. -/
theorem isScannedOf_space {c : Char} (space : isSpace c = true) (rest : List Char) :
    IsScannedOf f .space (c :: rest.takeWhile isSpace) (skipSpaces rest) := by
  refine isScannedOf_of_not_isAside nofun fun other alike => ?_
  rw [List.cons_append, scanToken_space f space, skipSpaces,
    (takeWhile_append_of_head? alike.head?_eq).2]

end IsScannedOf

theorem exists_piece_of_scanToken {f : TextForm} {t behind : List Char} {token : Token}
    (h : scanToken f t = .ok (token, behind)) (notRoot : token ≠ .root) :
    ∃ piece, piece ≠ [] ∧ t = piece ++ behind ∧ IsScannedOf f token piece behind := by
  have whole := h
  unfold scanToken at h
  split at h
  · exact exists_piece_of_literal (fun _ => rfl) whole
  · exact exists_piece_of_literal (fun _ => rfl) whole
  · rcases exists_piece_of_scanBracket h notRoot with ⟨piece, rfl, closed, again⟩
    exact ⟨'<' :: piece, by simp, rfl, fun aside => (closed aside).cons _, fun other => again _ other⟩
  · rcases exists_piece_of_scanPercent h with ⟨piece, rfl, isPlain, again⟩
    exact ⟨'%' :: piece, by simp, rfl,
      isScannedOf_of_not_isAside isPlain.not_isAside fun other alike => again _ other alike.head?_eq⟩
  · rcases exists_piece_of_scanHashName h with ⟨piece, rfl, isPlain, again⟩
    exact ⟨'#' :: piece, by simp, rfl,
      isScannedOf_of_not_isAside isPlain.not_isAside fun other alike => again _ other alike.head?_eq⟩
  · cases h
    exact ⟨[','], by simp, rfl, isScannedOf_of_not_isAside nofun fun _ _ => rfl⟩
  · cases h
    exact ⟨['['], by simp, rfl, isScannedOf_of_not_isAside nofun fun _ _ => rfl⟩
  · cases h
    exact ⟨[']', ']', '>'], by simp, rfl, isScannedOf_of_not_isAside nofun fun _ _ => rfl⟩
  · exact absurd h stop_ne_ok
  · next rest notConditional notLast =>
      cases h
      exact ⟨[']'], by simp, rfl, isScannedOf_closeBracket notConditional notLast⟩
  · cases h
    exact ⟨['('], by simp, rfl, isScannedOf_of_not_isAside nofun fun _ _ => rfl⟩
  · rcases exists_piece_of_scanCloseParen h with ⟨piece, rfl, isPlain, again⟩
    exact ⟨')' :: piece, by simp, rfl,
      isScannedOf_of_not_isAside isPlain.not_isAside fun other alike => again other alike.head?_eq⟩
  · cases h
    exact ⟨['|'], by simp, rfl, isScannedOf_of_not_isAside nofun fun _ _ => rfl⟩
  · cases h
    exact ⟨['>'], by simp, rfl, isScannedOf_of_not_isAside nofun fun _ _ => rfl⟩
  · next c rest _ _ _ _ _ _ _ _ _ _ _ _ _ _ =>
      split at h
      · next space =>
          cases h
          exact ⟨c :: rest.takeWhile isSpace, by simp,
            congrArg (c :: ·) List.takeWhile_append_dropWhile.symm, isScannedOf_space space rest⟩
      · next notSpace =>
          rcases exists_piece_of_scanWord h with ⟨d, piece, same, begins, isPlain, again⟩
          cases same
          refine ⟨c :: piece, by simp, rfl,
            isScannedOf_of_not_isAside isPlain.not_isAside fun other alike => ?_⟩
          rw [List.cons_append, scanToken_of_isNameChar begins]
          exact again other alike.head?_eq
  · exact absurd h stop_ne_ok

/-- What begins a token: white space, an opening bracket, or something else, which makes the token
plain. -/
theorem scanToken_cases {f : TextForm} {t behind : List Char} {token : Token}
    (h : scanToken f t = .ok (token, behind)) :
    token.IsPlain ∨ (token = .space ∧ ∃ c rest, isSpace c = true ∧ t = c :: rest ∧
      behind = skipSpaces rest) ∨ token ≠ .space ∧ ∃ rest, t = '<' :: rest := by
  unfold scanToken at h
  split at h
  case h_3 rest => exact Or.inr (Or.inr ⟨ne_space_of_scanBracket h, rest, rfl⟩)
  case h_1 | h_2 =>
    rcases exists_of_bind_eq_ok h with ⟨result, -, h⟩
    cases h
    exact Or.inl trivial
  case h_4 =>
    rcases exists_piece_of_scanPercent h with ⟨-, -, isPlain, -⟩
    exact Or.inl isPlain
  case h_5 =>
    rcases exists_piece_of_scanHashName h with ⟨-, -, isPlain, -⟩
    exact Or.inl isPlain
  case h_9 => exact absurd h stop_ne_ok
  case h_12 =>
    rcases exists_piece_of_scanCloseParen h with ⟨-, -, isPlain, -⟩
    exact Or.inl isPlain
  case h_15 c rest _ _ _ _ _ _ _ _ _ _ _ _ _ _ =>
    split at h
    · next space =>
        cases h
        exact Or.inr (Or.inl ⟨rfl, c, rest, space, rfl, rfl⟩)
    · rcases exists_piece_of_scanWord h with ⟨-, -, -, -, isPlain, -⟩
      exact Or.inl isPlain
  case h_16 => exact absurd h stop_ne_ok
  all_goals
    cases h
    exact Or.inl trivial

/-- What begins the root element is told by the character behind the bracket. -/
theorem exists_cons_of_scanToken_root {f : TextForm} {t behind : List Char}
    (h : scanToken f t = .ok (.root, behind)) :
    (∃ rest, t = '<' :: rest) ∧ ∀ other, GoesOnLike t other → scanToken f other = .ok (.root, other) := by
  rcases scanToken_cases h with isPlain | ⟨⟨⟩, -⟩ | ⟨-, rest, rfl⟩
  · exact absurd isPlain id
  · refine ⟨⟨rest, rfl⟩, fun other alike => ?_⟩
    change scanBracket f _ rest = _ at h
    unfold scanBracket at h
    split at h
    · cases h
    · exact absurd rfl (ne_of_scanDeclarationOpen h).2.2
    · rcases exists_of_bind_eq_ok h with ⟨⟨i, found⟩, -, h⟩
      cases i <;> cases h
    · next c more notMark notQuestion =>
        split at h
        · next begins =>
            rcases alike.exists_cons with ⟨others, rfl, next⟩
            rcases (next (by decide)).exists_cons with ⟨last, rfl, -⟩
            change scanBracket f _ (c :: last) = _
            rw [scanBracket.eq_4 _ _ _ _ notMark notQuestion, if_pos begins]
        · cases h

end Prolog
end Xml
end DocumentGateway
