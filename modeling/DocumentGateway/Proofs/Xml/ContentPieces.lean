import DocumentGateway.Proofs.Xml.TagPieces
import DocumentGateway.Proofs.Xml.WrittenTag

namespace DocumentGateway
namespace Xml

/-!
# Pieces of content

A run of text has no end in itself.  Whether it ends is told by what follows, and so it is scanned
alike where the text goes on in the same way up to a closing bracket, which is further than any run
or line end is looked for.
-/

/-! ## Texts that go on alike -/

/-- One text goes on as another does, throughout or up to a closing bracket. -/
inductive GoesOnLike : List Char → List Char → Prop
  | same (t : List Char) : GoesOnLike t t
  | upToClose (front behind other : List Char) :
      GoesOnLike (front ++ '>' :: behind) (front ++ '>' :: other)

namespace GoesOnLike

variable {t other : List Char}

theorem append (h : GoesOnLike t other) (front : List Char) :
    GoesOnLike (front ++ t) (front ++ other) := by
  cases h with
  | same t => exact .same _
  | upToClose inner behind other =>
      rw [← List.append_assoc, ← List.append_assoc]
      exact .upToClose _ behind other

/-- Behind a piece that is closed nothing needs to be alike. -/
theorem of_isClosed {piece : List Char} (closed : IsClosed piece) (behind other : List Char) :
    GoesOnLike (piece ++ behind) (piece ++ other) := by
  rcases closed with ⟨front, rfl⟩
  rw [List.append_assoc, List.append_assoc]
  exact .upToClose front behind other

theorem symm (h : GoesOnLike t other) : GoesOnLike other t := by
  cases h with
  | same t => exact .same t
  | upToClose front behind other => exact .upToClose front other behind

theorem eq_nil (h : GoesOnLike [] other) : other = [] := by
  generalize same : [] = t at h
  cases h with
  | same => rfl
  | upToClose front behind other => exact absurd same.symm (by simp)

theorem exists_cons {c : Char} (h : GoesOnLike (c :: t) other) :
    ∃ rest, other = c :: rest ∧ (c ≠ '>' → GoesOnLike t rest) := by
  generalize same : c :: t = whole at h
  cases h with
  | same whole => exact ⟨t, same.symm, fun _ => .same t⟩
  | upToClose front behind other =>
      cases front with
      | nil =>
          cases same
          exact ⟨other, rfl, fun different => absurd rfl different⟩
      | cons d front =>
          cases same
          exact ⟨front ++ '>' :: other, rfl, fun _ => .upToClose front behind other⟩

theorem head?_eq (h : GoesOnLike t other) : other.head? = t.head? := by
  cases t with
  | nil => rw [h.eq_nil]
  | cons c rest =>
      rcases h.exists_cons with ⟨more, rfl, -⟩
      rfl

theorem ne_nil (h : GoesOnLike t other) (filled : t ≠ []) : other ≠ [] := by
  rintro rfl
  exact filled h.symm.eq_nil

theorem ne_cons (h : GoesOnLike t other) {c : Char} (differs : ∀ rest, t ≠ c :: rest) :
    ∀ rest, other ≠ c :: rest := by
  rintro rest rfl
  rcases h.symm.exists_cons with ⟨more, same, -⟩
  exact differs more same

end GoesOnLike

/-- A bracket before this may be one of those that end a section of character data. -/
def MayEndSection (rest : List Char) : Prop :=
  rest = [] ∨ rest = [']'] ∨ ∃ more, rest = ']' :: '>' :: more

theorem MayEndSection.of_goesOnLike {rest other : List Char} (h : MayEndSection rest)
    (alike : GoesOnLike rest other) : MayEndSection other := by
  rcases h with rfl | rfl | ⟨more, rfl⟩
  · exact Or.inl alike.eq_nil
  · rcases alike.exists_cons with ⟨tail, rfl, next⟩
    rw [(next (by decide)).eq_nil]
    exact Or.inr (Or.inl rfl)
  · rcases alike.exists_cons with ⟨tail, rfl, next⟩
    rcases (next (by decide)).exists_cons with ⟨last, rfl, -⟩
    exact Or.inr (Or.inr ⟨last, rfl⟩)

/-! ## Sections of character data -/

theorem eq_append_of_dropWord {start word t behind : List Char}
    (h : scanCdataOpening.dropWord start word t = .ok behind) : t = word ++ behind := by
  fun_induction scanCdataOpening.dropWord start word t with
  | case1 => exact Except.ok.inj h
  | case2 word d rest ih =>
      rw [ih h]
      rfl
  | case3 => exact absurd h stop_ne_ok
  | case4 => exact absurd h stop_ne_ok

theorem dropWord_append (start word behind : List Char) :
    scanCdataOpening.dropWord start word (word ++ behind) = .ok behind := by
  induction word with
  | nil => rfl
  | cons c word ih =>
      rw [List.cons_append, scanCdataOpening.dropWord, if_pos rfl]
      exact ih

theorem takes_scanCdataOpening {f : TextForm} {start t behind : List Char}
    (h : scanCdataOpening f start t = .ok behind) :
    t = "CDATA[".toList ++ behind ∧
      ∀ place other, scanCdataOpening f place ("CDATA[".toList ++ other) = .ok other := by
  unfold scanCdataOpening at h
  split at h
  · exact absurd h stop_ne_ok
  · refine ⟨eq_append_of_dropWord h, fun place other => ?_⟩
    have octets : f.octets (("CDATA[".toList ++ other).take 6) = 6 * f.unit := by
      cases f <;> rfl
    rw [scanCdataOpening, octets, if_neg (Nat.lt_irrefl _)]
    exact dropWord_append place _ other

/-- The characters of a section of character data that are one run of text. -/
def isInsideSection (f : TextForm) (c : Char) : Bool :=
  isXmlChar c && c != ']' && !f.endsLine c

/-- How a section goes on that neither ends nor has a line feed in front. -/
theorem scanCdataPiece_cons {f : TextForm} {c : Char} {rest : List Char} (notFeed : c ≠ '\n')
    (goesOn : c = ']' → ¬ MayEndSection rest) :
    scanCdataPiece f (c :: rest) =
      if f.isReturn c then
        match rest with
        | [] => stop .openCdata [c]
        | '\n' :: behind => .ok (.lineEnd, behind)
        | behind => .ok (.lineEnd, behind)
      else if isXmlChar c then
        .ok (.text (c :: rest.takeWhile (isInsideSection f)), rest.dropWhile (isInsideSection f))
      else refused (c :: rest) (c :: rest) := by
  conv => lhs; unfold scanCdataPiece
  split
  · next same => cases same
  · next same =>
      cases same
      exact absurd (Or.inr (Or.inr ⟨_, rfl⟩)) (goesOn rfl)
  · next same =>
      cases same
      exact absurd (Or.inl rfl) (goesOn rfl)
  · next same =>
      cases same
      exact absurd (Or.inr (Or.inl rfl)) (goesOn rfl)
  · next same =>
      cases same
      exact absurd rfl notFeed
  · next same =>
      cases same
      rfl

/-- A carriage return that ends a line is no bracket. -/
theorem goesOn_of_isReturn {f : TextForm} {c : Char} {rest : List Char} (isReturn : f.isReturn c = true) :
    c = ']' → ¬ MayEndSection rest := by
  rintro rfl
  cases f <;> cases isReturn

/-- A return alone ends a line. -/
theorem scanCdataPiece_return {f : TextForm} {c : Char} {rest : List Char}
    (isReturn : f.isReturn c = true) (notFeed : c ≠ '\n') (filled : rest ≠ [])
    (notPair : ∀ more, rest ≠ '\n' :: more) :
    scanCdataPiece f (c :: rest) = .ok (.lineEnd, rest) := by
  rw [scanCdataPiece_cons notFeed (goesOn_of_isReturn isReturn), if_pos isReturn]
  split
  · exact absurd rfl filled
  · next more => exact absurd rfl (notPair more)
  · rfl

/-- A run of text in a section is scanned alike wherever the section goes on alike behind it. -/
theorem scanCdataPiece_run {f : TextForm} {c : Char} {rest other : List Char} (notFeed : c ≠ '\n')
    (notReturn : ¬ f.isReturn c = true) (fits : isXmlChar c = true)
    (goesOn : c = ']' → ¬ MayEndSection rest)
    (alike : GoesOnLike (rest.dropWhile (isInsideSection f)) other) :
    scanCdataPiece f (c :: (rest.takeWhile (isInsideSection f) ++ other)) =
      .ok (.text (c :: rest.takeWhile (isInsideSection f)), other) := by
  have parts := takeWhile_append_of_head? alike.head?_eq
  have bracket : c = ']' → ¬ MayEndSection (rest.takeWhile (isInsideSection f) ++ other) := by
    intro isBracket may
    have before := may.of_goesOnLike (alike.symm.append (rest.takeWhile (isInsideSection f)))
    rw [List.takeWhile_append_dropWhile] at before
    exact goesOn isBracket before
  rw [scanCdataPiece_cons notFeed bracket, if_neg notReturn, if_pos fits, parts.1, parts.2]

theorem exists_piece_of_scanCdataPiece {f : TextForm} {t behind : List Char} {piece : CdataPiece}
    (h : scanCdataPiece f t = .ok (piece, behind)) :
    ∃ front, front ≠ [] ∧ t = front ++ behind ∧ (piece = .close → IsClosed front) ∧
      ∀ other, GoesOnLike behind other ∨ piece = .close →
        scanCdataPiece f (front ++ other) = .ok (piece, other) := by
  unfold scanCdataPiece at h
  split at h
  · exact absurd h stop_ne_ok
  · cases h
    exact ⟨[']', ']', '>'], by simp, rfl, fun _ => ⟨[']', ']'], rfl⟩, fun _ _ => rfl⟩
  · exact absurd h stop_ne_ok
  · exact absurd h stop_ne_ok
  · cases h
    exact ⟨['\n'], by simp, rfl, by rintro ⟨⟩, fun _ _ => rfl⟩
  · next c rest notClose notBracket notBrackets notFeed =>
      have goesOn : c = ']' → ¬ MayEndSection rest := by
        rintro rfl (rfl | rfl | ⟨more, rfl⟩)
        · exact notBracket rfl rfl
        · exact notBrackets rfl rfl
        · exact notClose more rfl rfl
      split at h
      · next isReturn =>
          split at h
          · exact absurd h stop_ne_ok
          · cases h
            refine ⟨[c, '\n'], by simp, rfl, by rintro ⟨⟩, fun other _ => ?_⟩
            rw [List.cons_append, scanCdataPiece_cons notFeed (goesOn_of_isReturn isReturn), if_pos isReturn]
            rfl
          · next filled notPair =>
              cases h
              refine ⟨[c], by simp, rfl, by rintro ⟨⟩, fun other alike => ?_⟩
              replace alike := alike.resolve_right (by rintro ⟨⟩)
              exact scanCdataPiece_return isReturn notFeed (alike.ne_nil filled) (alike.ne_cons notPair)
      · next notReturn =>
          split at h
          · next fits =>
              cases h
              refine ⟨c :: rest.takeWhile (isInsideSection f), by simp,
                congrArg (c :: ·) List.takeWhile_append_dropWhile.symm, by rintro ⟨⟩, fun other alike => ?_⟩
              exact scanCdataPiece_run notFeed notReturn fits goesOn
                (alike.resolve_right (by rintro ⟨⟩))
          · exact absurd h refused_ne_ok

/-! ## Runs of text -/

/-- Whether a character may not be in a run of text, whatever stands behind it. -/
def endsRun (f : TextForm) (c : Char) : Bool :=
  c = '<' || c = '&' || f.endsLine c || !isXmlChar c

theorem runLength_of_goesOn {f : TextForm} {c : Char} {rest : List Char}
    (goesOn : c = ']' → ¬ MayEndSection rest) :
    runLength f (c :: rest) = if endsRun f c then 0 else runLength f rest + 1 := by
  rw [runLength.eq_5]
  · rfl
  · rintro behind rfl rfl
    exact goesOn rfl (Or.inr (Or.inr ⟨behind, rfl⟩))
  · rintro rfl rfl
    exact goesOn rfl (Or.inl rfl)
  · rintro rfl rfl
    exact goesOn rfl (Or.inr (Or.inl rfl))

theorem runLength_of_mayEndSection {f : TextForm} {rest : List Char} (h : MayEndSection rest) :
    runLength f (']' :: rest) = 0 := by
  rcases h with rfl | rfl | ⟨more, rfl⟩ <;> rfl

/-- A run has as many characters wherever the text goes on alike behind it. -/
theorem runLength_append_of_goesOnLike {f : TextForm} {run behind other : List Char}
    (h : runLength f (run ++ behind) = run.length) (alike : GoesOnLike behind other) :
    runLength f (run ++ other) = run.length := by
  induction run with
  | nil =>
      cases behind with
      | nil =>
          rw [alike.eq_nil]
          rfl
      | cons c rest =>
          rcases alike.exists_cons with ⟨more, rfl, next⟩
          by_cases ends : c = ']' ∧ MayEndSection more
          · rcases ends with ⟨rfl, may⟩
            exact runLength_of_mayEndSection may
          · have goesOn : c = ']' → ¬ MayEndSection rest := by
              rintro rfl may
              exact ends ⟨rfl, may.of_goesOnLike (next (by decide))⟩
            rw [not_and] at ends
            rw [List.nil_append, runLength_of_goesOn goesOn] at h
            rw [List.nil_append, runLength_of_goesOn ends]
            split at h
            · next stops => rw [if_pos stops]; rfl
            · exact absurd h (Nat.succ_ne_zero _)
  | cons c run ih =>
      by_cases ends : c = ']' ∧ MayEndSection (run ++ behind)
      · rcases ends with ⟨rfl, may⟩
        rw [List.cons_append, runLength_of_mayEndSection may] at h
        cases h
      · rw [not_and] at ends
        have goesOn : c = ']' → ¬ MayEndSection (run ++ other) := fun isBracket may =>
          ends isBracket (may.of_goesOnLike (alike.symm.append run))
        rw [List.cons_append, runLength_of_goesOn ends] at h
        rw [List.cons_append, runLength_of_goesOn goesOn]
        split at h
        · cases h
        · next goes =>
            rw [if_neg goes, ih (Nat.succ.inj h)]
            rfl

theorem runLength_le (f : TextForm) (t : List Char) : runLength f t ≤ t.length := by
  fun_induction runLength f t with
  | case1 => exact Nat.le_refl 0
  | case2 => exact Nat.zero_le _
  | case3 => exact Nat.zero_le _
  | case4 => exact Nat.zero_le _
  | case5 => exact Nat.zero_le _
  | case6 c rest _ _ _ _ ih => exact Nat.succ_le_succ ih

theorem exists_run_of_scanRun {f : TextForm} {t run behind : List Char}
    (h : scanRun f t = .ok (run, behind)) :
    t = run ++ behind ∧ runLength f t = run.length ∧
      ∀ other, GoesOnLike behind other → scanRun f (run ++ other) = .ok (run, other) := by
  unfold scanRun at h
  split at h
  · exact absurd h stop_ne_ok
  · next notClose =>
      cases h
      have whole : t = t.take (runLength f t) ++ t.drop (runLength f t) :=
        (List.take_append_drop _ _).symm
      have size : runLength f t = (t.take (runLength f t)).length := by
        rw [List.length_take, Nat.min_eq_left (runLength_le f t)]
      refine ⟨whole, size, fun other alike => ?_⟩
      have sizeAgain : runLength f (t.take (runLength f t) ++ other) = (t.take (runLength f t)).length :=
        runLength_append_of_goesOnLike (whole ▸ size) alike
      unfold scanRun
      rw [sizeAgain, List.drop_left, List.take_left]
      split
      · next more =>
          rcases alike.symm.exists_cons with ⟨second, same, next⟩
          rcases (next (by decide)).exists_cons with ⟨third, rfl, after⟩
          rcases (after (by decide)).exists_cons with ⟨fourth, rfl, -⟩
          exact absurd same (notClose fourth)
      · rfl

/-! ## Tokens -/

/-- Pieces of content that say the same. -/
inductive Token.IsLike : Token → Token → Prop
  | same (token : Token) : IsLike token token
  | startTag {tag other : StartTag} (h : tag.IsLike other) : IsLike (.startTag tag) (.startTag other)
  | endTag (name place other : List Char) : IsLike (.endTag name place) (.endTag name other)

/-- What a bracket opens is scanned alike whatever follows it. -/
theorem exists_piece_of_scanBracketed {f : TextForm} {start t behind : List Char} {token : Token}
    (h : scanBracketed f start t = .ok (token, behind)) :
    ∃ piece, (IsClosed piece ∨ token = .cdataOpen) ∧ t = piece ++ behind ∧
      ∀ place other, ∃ token', token.IsLike token' ∧
        scanBracketed f place (piece ++ other) = .ok (token', other) := by
  unfold scanBracketed at h
  split at h
  · exact absurd h stop_ne_ok
  · rcases exists_of_bind_eq_ok h with ⟨⟨name, behind'⟩, scanned, h⟩
    cases h
    rcases takes_scanEndTag scanned with ⟨piece, closed, rfl, takes⟩
    refine ⟨'/' :: piece, Or.inl (closed.cons _), rfl, fun place other => ?_⟩
    exact ⟨_, .endTag name _ (piece ++ other), bind_of_eq_ok (takes place other) _⟩
  · rcases exists_of_bind_eq_ok h with ⟨behind', scanned, h⟩
    cases h
    rcases takes_scanCommentOpening scanned with ⟨piece, closed, rfl, takes⟩
    refine ⟨'!' :: '-' :: piece, Or.inl ((closed.cons _).cons _), rfl, fun place other => ?_⟩
    exact ⟨_, .same _, bind_of_eq_ok (takes place other) _⟩
  · rcases exists_of_bind_eq_ok h with ⟨behind', scanned, h⟩
    cases h
    rcases takes_scanCdataOpening scanned with ⟨rfl, takes⟩
    refine ⟨'!' :: '[' :: "CDATA[".toList, Or.inr rfl, rfl, fun place other => ?_⟩
    exact ⟨_, .same _, bind_of_eq_ok (takes place other) _⟩
  · exact absurd h unexpected_ne_ok
  · rcases exists_of_bind_eq_ok h with ⟨⟨instruction, behind'⟩, scanned, h⟩
    rcases takes_scanInstruction scanned with ⟨target, body, piece, closed, rfl, rfl, takes⟩
    dsimp only [instructionOf] at h
    split at h
    · exact absurd h stop_ne_ok
    · next isProcessing =>
        cases h
        refine ⟨'?' :: piece, Or.inl (closed.cons _), rfl, fun place other => ?_⟩
        refine ⟨_, .same _, (bind_of_eq_ok (takes place other) _).trans ?_⟩
        have notXml : ¬ target = ['x', 'm', 'l'] := by
          intro isXml
          rw [if_pos isXml] at isProcessing
          cases isProcessing
        rw [instructionOf, if_neg notXml]
        rfl
  · rcases exists_of_bind_eq_ok h with ⟨⟨tag, behind'⟩, scanned, h⟩
    cases h
    rcases exists_piece_of_scanStartTag scanned with
      ⟨piece, closed, rfl, ⟨c, rest, rfl, begins⟩, again⟩
    refine ⟨c :: rest, Or.inl closed, rfl, fun place other => ?_⟩
    rcases again place other with ⟨tag', alike, tagged⟩
    refine ⟨_, .startTag alike, ?_⟩
    rw [List.cons_append, scanBracketed_of_isNameChar f begins]
    exact bind_of_eq_ok tagged _

/-- How a token is scanned that is neither marked up nor the end of all text. -/
theorem scanToken_cons {f : TextForm} {c : Char} {rest : List Char} (notOpen : c ≠ '<')
    (notReference : c ≠ '&') (notFeed : c ≠ '\n') (goesOn : c = ']' → ¬ MayEndSection rest) :
    scanToken f (c :: rest) =
      if f.isReturn c then
        match rest with
        | [] => .ok (.lastReturn, [])
        | '\n' :: behind => .ok (.lineEnd, behind)
        | behind => .ok (.lineEnd, behind)
      else if isXmlChar c then do
        let (run, behind) ← scanRun f (c :: rest)
        return (.text run, behind)
      else refused (c :: rest) (c :: rest) := by
  conv => lhs; unfold scanToken
  split
  · next same => cases same
  · next same => exact absurd (List.cons.inj same).1 notOpen
  · next same => exact absurd (List.cons.inj same).1 notReference
  · next same =>
      cases same
      exact absurd (Or.inl rfl) (goesOn rfl)
  · next same =>
      cases same
      exact absurd (Or.inr (Or.inl rfl)) (goesOn rfl)
  · next same => exact absurd (List.cons.inj same).1 notFeed
  · next same =>
      cases same
      rfl

/-- A run of text is scanned alike wherever the text goes on alike behind it. -/
theorem exists_run_of_scanRun_cons {f : TextForm} {c : Char} {rest run behind : List Char}
    (notOpen : c ≠ '<') (notReference : c ≠ '&') (notFeed : c ≠ '\n') (notReturn : ¬ f.isReturn c = true)
    (fits : isXmlChar c = true) (goesOn : c = ']' → ¬ MayEndSection rest)
    (scanned : scanRun f (c :: rest) = .ok (run, behind)) :
    ∃ more, run = c :: more ∧ c :: rest = run ++ behind ∧
      ∀ other, GoesOnLike behind other → scanToken f (run ++ other) = .ok (.text run, other) := by
  have inside : endsRun f c = false := by
    simp only [endsRun, TextForm.endsLine, Bool.or_eq_false_iff, decide_eq_false_iff_not,
      beq_eq_false_iff_ne, Bool.not_eq_false']
    exact ⟨⟨⟨notOpen, notReference⟩, notFeed, Bool.eq_false_iff.mpr notReturn⟩, fits⟩
  rcases exists_run_of_scanRun scanned with ⟨whole, size, again⟩
  rw [runLength_of_goesOn goesOn, inside] at size
  cases run with
  | nil => cases size
  | cons d more =>
      cases whole
      refine ⟨more, rfl, rfl, fun other alike => ?_⟩
      have runAgain := again other alike
      have goesOnAgain : c = ']' → ¬ MayEndSection (more ++ other) := fun isBracket may =>
        goesOn isBracket (may.of_goesOnLike (alike.symm.append more))
      rw [List.cons_append] at runAgain ⊢
      rw [scanToken_cons notOpen notReference notFeed goesOnAgain, if_neg notReturn, if_pos fits]
      exact bind_of_eq_ok runAgain _

/-- A return alone ends a line. -/
theorem scanToken_return_alone {f : TextForm} {c : Char} {rest : List Char}
    (isReturn : f.isReturn c = true) (notOpen : c ≠ '<') (notReference : c ≠ '&') (notFeed : c ≠ '\n')
    (filled : rest ≠ []) (notPair : ∀ more, rest ≠ '\n' :: more) :
    scanToken f (c :: rest) = .ok (.lineEnd, rest) := by
  rw [scanToken_cons notOpen notReference notFeed (goesOn_of_isReturn isReturn), if_pos isReturn]
  split
  · exact absurd rfl filled
  · next more => exact absurd rfl (notPair more)
  · rfl

/-- A token is scanned alike of a piece wherever the text goes on alike behind it, and one that is
marked up whatever follows it. -/
def IsScannedOf (f : TextForm) (token : Token) (piece behind : List Char) : Prop :=
  ((∃ body, piece = '<' :: body) → IsClosed piece ∨ token = .cdataOpen) ∧
    ∀ other, (GoesOnLike behind other ∨ ∃ body, piece = '<' :: body) → ∃ token',
      token.IsLike token' ∧ scanToken f (piece ++ other) = .ok (token', other)

section IsScannedOf

variable {f : TextForm} {token : Token} {c : Char} {piece rest behind : List Char}

/-- What is not marked up is the same wherever it is scanned. -/
theorem isScannedOf_of_ne (notOpen : c ≠ '<')
    (again : ∀ other, GoesOnLike behind other → scanToken f (c :: piece ++ other) = .ok (token, other)) :
    IsScannedOf f token (c :: piece) behind := by
  have unmarked : ¬ ∃ body, c :: piece = '<' :: body := by
    rintro ⟨body, same⟩
    exact notOpen (List.cons.inj same).1
  exact ⟨fun marked => absurd marked unmarked, fun other alike =>
    ⟨_, .same _, again other (alike.resolve_right unmarked)⟩⟩

/-- A return ends a line with the line feed behind it or alone, unless the text ends with it. -/
theorem exists_piece_of_return (isReturn : f.isReturn c = true) (notOpen : c ≠ '<')
    (notReference : c ≠ '&') (notFeed : c ≠ '\n') (h : scanToken f (c :: rest) = .ok (token, behind)) :
    ∃ piece, piece ≠ [] ∧ c :: rest = piece ++ behind ∧ IsScannedOf f token piece behind := by
  have scans : ∀ others, scanToken f (c :: others) = match others with
      | [] => .ok (.lastReturn, [])
      | '\n' :: behind => .ok (.lineEnd, behind)
      | behind => .ok (.lineEnd, behind) := fun others => by
    rw [scanToken_cons notOpen notReference notFeed (goesOn_of_isReturn isReturn), if_pos isReturn]
  rw [scans] at h
  split at h
  · cases h
    refine ⟨[c], by simp, rfl, isScannedOf_of_ne notOpen fun other alike => ?_⟩
    rw [alike.eq_nil, List.append_nil, scans]
  · cases h
    exact ⟨[c, '\n'], by simp, rfl, isScannedOf_of_ne notOpen fun other _ => scans _⟩
  · next filled notPair =>
      cases h
      refine ⟨[c], by simp, rfl, isScannedOf_of_ne notOpen fun other alike => ?_⟩
      exact scanToken_return_alone isReturn notOpen notReference notFeed (alike.ne_nil filled)
        (alike.ne_cons notPair)

end IsScannedOf

theorem exists_piece_of_scanToken {f : TextForm} {t behind : List Char} {token : Token}
    (h : scanToken f t = .ok (token, behind)) :
    ∃ piece, piece ≠ [] ∧ t = piece ++ behind ∧ IsScannedOf f token piece behind := by
  have given := h
  unfold scanToken at h
  split at h
  · exact absurd h stop_ne_ok
  · rcases exists_piece_of_scanBracketed h with ⟨piece, closed, rfl, again⟩
    refine ⟨'<' :: piece, by simp, rfl, fun _ => closed.imp_left (·.cons _), fun other _ => ?_⟩
    exact again _ other
  · rcases exists_of_bind_eq_ok h with ⟨⟨r, behind'⟩, scanned, h⟩
    cases h
    rcases takes_scanReference scanned with ⟨piece, rfl, -, takes⟩
    refine ⟨'&' :: piece, by simp, rfl, isScannedOf_of_ne (by decide) fun other _ => ?_⟩
    exact bind_of_eq_ok (takes _ other) _
  · cases h
    refine ⟨[']'], by simp, rfl, isScannedOf_of_ne (by decide) fun other alike => ?_⟩
    rw [alike.eq_nil]
    rfl
  · cases h
    refine ⟨[']', ']'], by simp, rfl, isScannedOf_of_ne (by decide) fun other alike => ?_⟩
    rw [alike.eq_nil]
    rfl
  · cases h
    exact ⟨['\n'], by simp, rfl, isScannedOf_of_ne (by decide) fun other _ => rfl⟩
  · next c rest notOpen notReference notBracket notBrackets notFeed =>
      split at h
      · next isReturn => exact exists_piece_of_return isReturn notOpen notReference notFeed given
      · next notReturn =>
          split at h
          · next fits =>
              rcases exists_of_bind_eq_ok h with ⟨⟨run, behind'⟩, scanned, h⟩
              cases h
              have goesOn : c = ']' → ¬ MayEndSection rest := by
                rintro rfl (rfl | rfl | ⟨more, rfl⟩)
                · exact notBracket rfl rfl
                · exact notBrackets rfl rfl
                · exact stop_ne_ok scanned
              rcases exists_run_of_scanRun_cons notOpen notReference notFeed notReturn fits goesOn scanned with
                ⟨more, rfl, whole, again⟩
              exact ⟨c :: more, by simp, whole, isScannedOf_of_ne notOpen again⟩
          · exact absurd h refused_ne_ok

end Xml
end DocumentGateway
