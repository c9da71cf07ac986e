import DocumentGateway.Proofs.Xml.ElementPieces
import DocumentGateway.Proofs.Xml.PrologPieces

namespace DocumentGateway
namespace Xml
namespace Prolog

/-!
# The prolog of a text that is cut

No step of the grammar depends on the place of its token or on what stands behind a literal, but for
the places of faults.  What precedes the root element is therefore read alike of every text that
begins with it and goes on alike, and so is what follows the root element up to white space at the
end.
-/

open Reading Tally

/-! ## Steps that keep no tally -/

/-- Whatever the one computation gives, the other one gives too. -/
def GivesToo (x y : Except Stop α) : Prop :=
  ∀ a, x = .ok a → y = .ok a

theorem givesToo_same (x : Except Stop α) : GivesToo x x :=
  fun _ => id

theorem givesToo_stop {cause : Cause} {place : List Char} {y : Except Stop α} :
    GivesToo (stop cause place) y :=
  fun _ same => absurd same stop_ne_ok

theorem misplaced_ne_ok {place : List Char} {token : Token} {a : α} :
    misplaced place token ≠ .ok a := by
  unfold misplaced
  split
  · exact stop_ne_ok
  · exact stop_ne_ok
  · exact stop_ne_ok

namespace GivesToo

theorem ite {c : Prop} [Decidable c] {ifTrue ifFalse otherTrue otherFalse : Except Stop α}
    (hTrue : GivesToo ifTrue otherTrue) (hFalse : GivesToo ifFalse otherFalse) :
    GivesToo (if c then ifTrue else ifFalse) (if c then otherTrue else otherFalse) := by
  split
  · exact hTrue
  · exact hFalse

theorem bind {x y : Except Stop α} (h : GivesToo x y) (next : α → Except Stop β) :
    GivesToo (x >>= next) (y >>= next) := by
  intro b same
  rcases exists_of_bind_eq_ok same with ⟨a, first, later⟩
  exact (bind_of_eq_ok (h a first) next).trans later

end GivesToo

theorem givesToo_checkPublicId (content following other : List Char) :
    GivesToo (checkPublicId content following) (checkPublicId content other) := by
  unfold checkPublicId
  split
  · exact givesToo_same _
  · exact givesToo_stop

theorem givesToo_entityValue (f : TextForm) (following other : List Char) (budget : Nat) (t : List Char) :
    GivesToo (entityValue f following budget t) (entityValue f other budget t) := by
  fun_induction entityValue f following budget t with
  | case1 => exact givesToo_same _
  | case2 budget =>
      cases budget with
      | zero => exact givesToo_same _
      | succ => exact givesToo_same _
  | case3 | case7 =>
      rintro value ⟨⟩
  | case5 | case8 | case9 | case10 => exact givesToo_stop
  | case4 budget rest number behind scanned c found ih =>
      rw [entityValue, scanned]
      dsimp only
      rw [found]
      exact ih.bind _
  | case6 budget rest name behind scanned ih =>
      rw [entityValue, scanned]
      exact ih.bind _
  | case11 budget rest ih =>
      rw [entityValue]
      exact ih.bind _
  | case12 budget c rest _ _ _ ih =>
      rw [entityValue]
      · exact ih.bind _
      all_goals assumption

theorem givesToo_readEntityValue (d : Declarations) (f : TextForm) (name? : Option (List Char))
    (content following other : List Char) :
    GivesToo (readEntityValue d f name? content following) (readEntityValue d f name? content other) := by
  unfold readEntityValue
  exact .ite ((givesToo_entityValue f following other _ content).bind _) (givesToo_same _)

theorem givesToo_joinGroup (connector : Token) (place otherPlace : List Char)
    (connectors : List (Option Token)) :
    GivesToo (joinGroup connector place connectors) (joinGroup connector otherPlace connectors) := by
  cases connectors with
  | nil => exact givesToo_stop
  | cons inner outer => exact .ite (givesToo_same _) givesToo_stop

theorem givesToo_readXmlDeclaration (body closing other : List Char) :
    GivesToo (readXmlDeclaration body closing) (readXmlDeclaration body other) := by
  intro standsAlone same
  unfold readXmlDeclaration at same ⊢
  rw [eq_ok_of_mapError_eq_ok same]
  rfl

variable {d : Declarations} {f : TextForm} {place : List Char} {expecting : Expecting}
  {token token' : Token} {result : Expecting × Declarations}

/-- A step of which the token only says what stands in it. -/
theorem stepDoctype_of_isLike (h : stepDoctype d place expecting token = .ok result)
    (alike : token.IsLike token') (otherPlace : List Char) :
    stepDoctype d otherPlace expecting token' = .ok result := by
  unfold stepDoctype at h
  split at h
  case h_5 =>
    cases alike
    exact GivesToo.ite (givesToo_same _) (.ite (givesToo_same _) givesToo_stop) _ h
  case h_6 =>
    cases alike with
    | same => exact (givesToo_checkPublicId _ _ _).bind _ _ h
    | literal => exact (givesToo_checkPublicId _ _ _).bind _ _ h
  case h_7 =>
    cases alike with
    | same => exact h
    | literal => exact h
  case h_11 =>
    cases alike
    split at h
    · next found =>
        rw [stepDoctype, found]
        exact h
    · exact absurd h stop_ne_ok
  case h_17 => exact absurd h misplaced_ne_ok
  all_goals
    cases alike
    exact h

theorem stepEntity_of_isLike (h : stepEntity d f place expecting token = .ok result)
    (alike : token.IsLike token') (otherPlace : List Char) :
    stepEntity d f otherPlace expecting token' = .ok result := by
  unfold stepEntity at h
  split at h
  case h_4 | h_12 =>
    cases alike
    exact GivesToo.ite (givesToo_same _) (.ite (givesToo_same _) givesToo_stop) _ h
  case h_5 =>
    cases alike with
    | same => exact (givesToo_readEntityValue _ _ _ _ _ _).bind _ _ h
    | literal => exact (givesToo_readEntityValue _ _ _ _ _ _).bind _ _ h
  case h_6 | h_13 =>
    cases alike with
    | same => exact (givesToo_checkPublicId _ _ _).bind _ _ h
    | literal => exact (givesToo_checkPublicId _ _ _).bind _ _ h
  case h_7 | h_14 | h_15 =>
    cases alike with
    | same => exact h
    | literal => exact h
  case h_9 =>
    cases alike
    exact GivesToo.ite (givesToo_same _) givesToo_stop _ h
  case h_17 => exact absurd h misplaced_ne_ok
  all_goals
    cases alike
    exact h

theorem stepContent_of_isLike (h : stepContent d place expecting token = .ok result)
    (alike : token.IsLike token') (otherPlace : List Char) :
    stepContent d otherPlace expecting token' = .ok result := by
  unfold stepContent at h
  split at h
  case h_3 | h_5 =>
    cases alike
    exact GivesToo.ite (givesToo_same _) givesToo_stop _ h
  case h_24 | h_25 =>
    cases alike
    exact (givesToo_joinGroup _ _ _ _).bind _ _ h
  case h_26 => exact absurd h misplaced_ne_ok
  all_goals
    cases alike
    exact h

/-- A declaration may still come where nothing precedes, and everything else comes anyway. -/
def Expecting.IsAdmittedBy (expecting other : Expecting) : Prop :=
  other = expecting ∨ expecting = .doctypeOrRoot ∧ other = .anything

theorem Expecting.IsAdmittedBy.area {other : Expecting} (h : expecting.IsAdmittedBy other) :
    other.area = expecting.area := by
  rcases h with rfl | ⟨rfl, rfl⟩
  · rfl
  · rfl

theorem stepOutside_of_isLike (h : stepOutside d place expecting token = .ok result)
    (alike : token.IsLike token') {other : Expecting} (admits : expecting.IsAdmittedBy other)
    (otherPlace : List Char) : stepOutside d otherPlace other token' = .ok result := by
  have sameNext : (if other = .rootOnly then Expecting.rootOnly else .doctypeOrRoot) =
      if expecting = .rootOnly then Expecting.rootOnly else .doctypeOrRoot := by
    rcases admits with rfl | ⟨rfl, rfl⟩
    · rfl
    · rfl
  unfold stepOutside at h ⊢
  dsimp only at h ⊢
  rw [sameNext]
  split at h
  case h_4 =>
    by_cases isFirst : expecting = .anything
    · have otherFirst : other = .anything := by
        rcases admits with rfl | ⟨-, rfl⟩
        · exact isFirst
        · rfl
      rw [if_neg (not_not.mpr isFirst)] at h
      cases alike with
      | same =>
          dsimp only
          rw [if_neg (not_not.mpr otherFirst)]
          exact (givesToo_readXmlDeclaration _ _ _).bind _ _ h
      | xmlDeclaration =>
          dsimp only
          rw [if_neg (not_not.mpr otherFirst)]
          exact (givesToo_readXmlDeclaration _ _ _).bind _ _ h
    · rw [if_pos isFirst] at h
      cases h
  case h_5 =>
    cases alike
    split at h
    · next expected =>
        have otherToo : other ≠ .rootOnly := by
          rcases admits with rfl | ⟨-, rfl⟩
          · exact expected.1
          · decide
        dsimp only
        rw [if_pos ⟨otherToo, expected.2⟩]
        exact h
    · exact absurd h stop_ne_ok
  case h_6 => exact absurd h misplaced_ne_ok
  all_goals
    cases alike
    exact h

/-! ## Steps that keep a tally -/

variable {cut? : Option Nat}

theorem follows_readDefault (d : Declarations) (f : TextForm) (place otherPlace : List Char)
    (rule : AttributeRule) (content following otherFollowing : List Char) :
    Follows cut? (readDefault d f place rule content following)
      (readDefault d f otherPlace rule content otherFollowing) := by
  unfold readDefault
  refine .ite (fun _ => ?_) fun _ => follows_pure d
  exact (follows_attributeValue d f _ place otherPlace [] _ _ _ content).bind fun _ => follows_pure _

theorem follows_stepAttribute (alike : token.IsLike token') (otherPlace : List Char) :
    Follows cut? (stepAttribute d f place expecting token)
      (stepAttribute d f otherPlace expecting token') := by
  have defaulted : ∀ (rule : AttributeRule) content following otherFollowing, Follows cut?
      (do
        return (Expecting.attributeName rule.elementName,
          ← readDefault d f place rule content following))
      (do
        return (Expecting.attributeName rule.elementName,
          ← readDefault d f otherPlace rule content otherFollowing)) :=
    fun rule content following otherFollowing =>
      (follows_readDefault d f place otherPlace rule content following otherFollowing).bind
        fun _ => follows_pure _
  have typed : ∀ elementName attributeName spelling, Follows cut?
      (stepAttribute d f place (.attributeType elementName attributeName) (.name spelling))
      (stepAttribute d f otherPlace (.attributeType elementName attributeName) (.name spelling)) := by
    intro elementName attributeName spelling
    rw [stepAttribute, stepAttribute]
    cases afterType? ⟨elementName, attributeName, true, none⟩ spelling with
    | some next => exact follows_pure _
    | none => exact follows_stop
  intro tally otherTally result after alikeTally h
  unfold stepAttribute at h
  split at h
  case h_6 =>
    cases alike
    exact typed _ _ _ _ _ _ _ alikeTally h
  case h_14 =>
    cases alike
    exact Follows.ite (fun _ => follows_pure _) (fun _ => .ite (fun _ => follows_pure _) fun _ =>
      follows_stop) _ _ _ _ alikeTally h
  case h_15 | h_16 =>
    cases alike with
    | same => exact defaulted _ _ _ _ _ _ _ _ alikeTally h
    | literal => exact defaulted _ _ _ _ _ _ _ _ alikeTally h
  case h_17 => exact absurd (eq_of_liftM_eq_ok h).1 misplaced_ne_ok
  all_goals
    cases alike
    exact follows_pure _ _ _ _ _ alikeTally h

/-- Tokens that are alike make the same step, wherever they stand. -/
theorem follows_step (alike : token.IsLike token') {other : Expecting}
    (admits : expecting.IsAdmittedBy other) (otherPlace : List Char) :
    Follows cut? (step d f place expecting token) (step d f otherPlace other token') := by
  by_cases outside : expecting.area = .outside
  · rw [step_outside outside, step_outside (admits.area.trans outside)]
    exact follows_liftM fun _ h => stepOutside_of_isLike h alike admits otherPlace
  · have same : other = expecting := by
      rcases admits with rfl | ⟨rfl, -⟩
      · rfl
      · exact absurd rfl outside
    subst same
    by_cases space : token = .space
    · subst space
      cases alike
      rw [step.eq_2 _ _ _ _ outside, step.eq_2 _ _ _ _ outside]
      exact follows_pure _
    · have space' : token' ≠ .space := by
        rintro rfl
        cases alike
        exact space rfl
      cases area : other.area with
      | outside => exact absurd area outside
      | doctype =>
          rw [step.eq_3 _ _ _ _ _ area space, step.eq_3 _ _ _ _ _ area space']
          exact follows_liftM fun _ h => stepDoctype_of_isLike h alike otherPlace
      | entity =>
          rw [step.eq_4 _ _ _ _ _ area space, step.eq_4 _ _ _ _ _ area space']
          exact follows_liftM fun _ h => stepEntity_of_isLike h alike otherPlace
      | attributes =>
          rw [step.eq_5 _ _ _ _ _ area space, step.eq_5 _ _ _ _ _ area space']
          exact follows_stepAttribute alike otherPlace
      | content =>
          rw [step.eq_6 _ _ _ _ _ area space, step.eq_6 _ _ _ _ _ area space']
          exact follows_liftM fun _ h => stepContent_of_isLike h alike otherPlace

/-- Inside of declarations the root element does not begin. -/
theorem step_root_ne_ok (isRoot : token = .root) (inside : expecting.area ≠ .outside)
    {tally after : Tally} : step d f place expecting token tally ≠ .ok (result, after) := by
  intro h
  have visible : token ≠ .space := by
    rw [isRoot]
    exact nofun
  cases area : expecting.area with
  | outside => exact inside area
  | doctype =>
      rw [step.eq_3 _ _ _ _ _ area visible] at h
      replace h := (eq_of_liftM_eq_ok h).1
      unfold stepDoctype at h
      split at h
      case h_17 => exact misplaced_ne_ok h
      all_goals contradiction
  | entity =>
      rw [step.eq_4 _ _ _ _ _ area visible] at h
      replace h := (eq_of_liftM_eq_ok h).1
      unfold stepEntity at h
      split at h
      case h_17 => exact misplaced_ne_ok h
      all_goals contradiction
  | attributes =>
      rw [step.eq_5 _ _ _ _ _ area visible] at h
      unfold stepAttribute at h
      split at h
      case h_17 => exact misplaced_ne_ok (eq_of_liftM_eq_ok h).1
      all_goals contradiction
  | content =>
      rw [step.eq_6 _ _ _ _ _ area visible] at h
      replace h := (eq_of_liftM_eq_ok h).1
      unfold stepContent at h
      split at h
      case h_26 => exact misplaced_ne_ok h
      all_goals contradiction

/-! ## Up to the root element -/

/-- What precedes the root element is read alike of every text that begins with it and goes on alike
from the root element on. -/
theorem exists_piece_of_readFrom (cut? : Option Nat) {f : TextForm} {budget : Nat}
    {taken? : Option Stop} {expecting : Expecting} {d declared : Declarations} {t root : List Char}
    {tally after : Tally}
    (h : readFrom f budget taken? expecting d t tally = .ok ((declared, root), after)) :
    ∃ piece, t = piece ++ root ∧ (∃ rest, root = '<' :: rest) ∧
      ∀ {other budget taken? root' otherTally}, expecting.IsAdmittedBy other →
        GoesOnLike root root' → CutsOff cut? f [] root root' → piece.length < budget →
        AreLike cut? tally otherTally →
        EndsLike cut? (declared, root') after
          (readFrom f budget taken? other d (piece ++ root') otherTally) := by
  induction budget generalizing taken? expecting d t tally with
  | zero => cases h
  | succ budget ih =>
      cases t with
      | nil => cases h
      | cons c rest =>
          rw [readFrom.eq_3 _ _ _ _ _ _ (List.cons_ne_nil c rest)] at h
          rcases exists_between_of_bind_eq_ok h with ⟨⟨token, behind⟩, start, scanned, left⟩
          rcases eq_of_liftM_eq_ok scanned with ⟨scan, rfl⟩
          clear h scanned
          dsimp only at left
          split at left
          · next isRoot =>
              cases left
              rw [isRoot.1] at scan
              rcases exists_cons_of_scanToken_root scan with ⟨opens, again⟩
              refine ⟨[], rfl, opens, ?_⟩
              intro other enough last? root' otherTally admits goesOn _ hEnough alike
              rcases Nat.exists_eq_add_one_of_ne_zero (by omega : enough ≠ 0) with ⟨less, rfl⟩
              rcases goesOn.exists_cons with ⟨others, rfl, -⟩
              rw [List.nil_append, readFrom.eq_3 _ _ _ _ _ _ (List.cons_ne_nil c others),
                bind_liftM_of_eq_ok (again _ goesOn)]
              dsimp only
              rw [if_pos ⟨rfl, admits.area.trans isRoot.2⟩]
              exact .alike alike
          · next noRoot =>
              rcases exists_between_of_bind_eq_ok left with ⟨_, counted, tolerated, left⟩
              rcases exists_between_of_bind_eq_ok left with ⟨⟨next, known⟩, between, stepped, left⟩
              have notRoot : token ≠ .root := by
                intro isRoot
                exact step_root_ne_ok isRoot (fun outside => noRoot ⟨isRoot, outside⟩) stepped
              rcases exists_piece_of_scanToken scan notRoot with ⟨front, filled, whole, -, scanAgain⟩
              rcases ih left with ⟨piece, rfl, opens, again⟩
              refine ⟨front ++ piece, by rw [whole, List.append_assoc], opens, ?_⟩
              intro other enough last? root' otherTally admits goesOn cuts hEnough alike
              rcases Nat.exists_eq_add_one_of_ne_zero (by omega : enough ≠ 0) with ⟨less, rfl⟩
              rw [List.length_append] at hEnough
              have positive := List.length_pos_of_ne_nil filled
              rcases scanAgain (piece ++ root') (Or.inl (goesOn.append piece)) with
                ⟨token', likeToken, scanned⟩
              have noRootAgain : ¬ (token' = .root ∧ other.area = .outside) := by
                rintro ⟨rfl, -⟩
                cases likeToken
                exact notRoot rfl
              rw [List.append_assoc, readFrom.eq_3 _ _ _ _ _ _ (by simp [filled]),
                bind_liftM_of_eq_ok scanned]
              dsimp only
              rw [if_neg noRootAgain]
              refine (follows_upTo (cuts.append piece) _ _ _ _ _ _ alike tolerated).bind
                fun _ alikeCounted => ?_
              refine (follows_step likeToken admits _ _ _ _ _ alikeCounted stepped).bind
                fun _ alikeBetween => ?_
              exact again (Or.inl rfl) goesOn cuts (by omega) alikeBetween

theorem stepOutside_ne_ok (isPlain : token.IsPlain) : stepOutside d place expecting token ≠ .ok result := by
  intro h
  unfold stepOutside at h
  dsimp only at h
  split at h
  case h_6 => exact misplaced_ne_ok h
  all_goals exact isPlain

/-- Outside of declarations nothing is read but white space and what an opening bracket begins. -/
theorem exists_cons_of_readFrom {budget : Nat} {taken? : Option Stop} {t root : List Char}
    {declared : Declarations} {tally after : Tally} (outside : expecting.area = .outside)
    (visible : ∀ c rest, t = c :: rest → isSpace c = false)
    (h : readFrom f budget taken? expecting d t tally = .ok ((declared, root), after)) :
    ∃ rest, t = '<' :: rest := by
  cases budget with
  | zero => cases h
  | succ budget =>
      cases t with
      | nil => cases h
      | cons c rest =>
          rw [readFrom.eq_3 _ _ _ _ _ _ (List.cons_ne_nil c rest)] at h
          rcases exists_between_of_bind_eq_ok h with ⟨⟨token, behind⟩, start, scanned, left⟩
          rcases eq_of_liftM_eq_ok scanned with ⟨scan, rfl⟩
          rcases scanToken_cases scan with isPlain | ⟨rfl, d, more, space, same, -⟩ | ⟨-, opens⟩
          · dsimp only at left
            split at left
            · next isRoot =>
                rw [isRoot.1] at isPlain
                exact absurd isPlain id
            · rcases exists_between_of_bind_eq_ok left with ⟨_, counted, -, left⟩
              rcases exists_between_of_bind_eq_ok left with ⟨next, between, stepped, -⟩
              rw [step_outside outside] at stepped
              exact absurd (eq_of_liftM_eq_ok stepped).1 (stepOutside_ne_ok isPlain)
          · rw [visible d more same] at space
            cases space
          · exact opens

/-- White space before everything is read first. -/
theorem of_readFrom_space {budget : Nat} {taken? : Option Stop} {c : Char} {rest : List Char}
    {tally : Tally} {result : (Declarations × List Char) × Tally} (space : isSpace c = true)
    (h : readFrom f budget taken? .anything d (c :: rest) tally = .ok result) :
    ∃ budget taken? between,
      readFrom f budget taken? .doctypeOrRoot d (skipSpaces rest) between = .ok result := by
  rcases result with ⟨found, after⟩
  cases budget with
  | zero => cases h
  | succ budget =>
      rw [readFrom.eq_3 _ _ _ _ _ _ (List.cons_ne_nil c rest),
        bind_liftM_of_eq_ok (scanToken_space f space rest)] at h
      rcases exists_between_of_bind_eq_ok h with ⟨_, counted, -, left⟩
      exact ⟨_, _, _, left⟩

/-- A text that is read from an opening bracket on is read alike as the whole of a document. -/
theorem exists_piece_of_readFrom_visible (cut? : Option Nat) {budget : Nat} {taken? : Option Stop}
    {t root : List Char} {declared : Declarations} {tally after : Tally}
    (admits : expecting.IsAdmittedBy .anything) (visible : ∀ c rest, t = c :: rest → isSpace c = false)
    (h : readFrom f budget taken? expecting (.empty false) t tally =
      .ok ((declared, root), after)) :
    ∃ piece, t = piece ++ root ∧ (∃ rest, root = '<' :: rest) ∧ (∃ rest, t = '<' :: rest) ∧
      ∀ {root' otherTally}, GoesOnLike root root' → CutsOff cut? f [] root root' →
        AreLike cut? tally otherTally →
        EndsLike cut? (declared, root') after (read f (piece ++ root') otherTally) := by
  rcases exists_cons_of_readFrom admits.area.symm visible h with ⟨rest, opens⟩
  rcases exists_piece_of_readFrom cut? h with ⟨piece, whole, rootOpens, again⟩
  refine ⟨piece, whole, rootOpens, ⟨rest, opens⟩, ?_⟩
  intro root' otherTally goesOn cuts alike
  have goesOnAll := goesOn.append piece
  rw [← whole, opens] at goesOnAll
  rcases goesOnAll.exists_cons with ⟨others, same, -⟩
  have readAgain : read f (piece ++ root') =
      readFrom f ((piece ++ root').length + 1) none .anything (.empty false) (piece ++ root') := by
    rw [same]
    rfl
  rw [readAgain]
  exact again admits goesOn cuts (by rw [List.length_append]; omega) alike

/-- What precedes the root element is read alike without the white space before it.  A byte order
mark or an opening bracket is what it begins with then. -/
theorem exists_piece_of_read {cut? : Option Nat} {f : TextForm} {blanks t root : List Char}
    {declared : Declarations} {tally after : Tally} (spaces : ∀ c ∈ blanks, isSpace c = true)
    (visible : ∀ c rest, t = c :: rest → isSpace c = false) (unknown : blanks ≠ [] → cut? = none)
    (h : read f (blanks ++ t) tally = .ok ((declared, root), after)) :
    ∃ piece, t = piece ++ root ∧ (∃ rest, root = '<' :: rest) ∧
      (∃ rest, t = '<' :: rest ∨ t = '\uFEFF' :: rest) ∧
      ∀ {root' otherTally}, GoesOnLike root root' → CutsOff cut? f [] root root' →
        AreLike cut? tally otherTally →
        EndsLike cut? (declared, root') after (read f (piece ++ root') otherTally) := by
  cases blanks with
  | nil =>
      rw [List.nil_append] at h
      unfold read at h
      split at h
      · next rest =>
          rcases exists_piece_of_readFrom cut? h with ⟨piece, rfl, rootOpens, again⟩
          refine ⟨'\uFEFF' :: piece, rfl, rootOpens, ⟨_, Or.inr rfl⟩, ?_⟩
          intro root' otherTally goesOn cuts alike
          exact again (Or.inl rfl) goesOn cuts (by simp; omega) alike
      · rcases exists_piece_of_readFrom_visible cut? (Or.inl rfl) visible h with
          ⟨piece, whole, rootOpens, ⟨rest, opens⟩, again⟩
        exact ⟨piece, whole, rootOpens, ⟨rest, Or.inl opens⟩, again⟩
  | cons b blanks =>
      rcases List.forall_mem_cons.mp spaces with ⟨space, others⟩
      have unmarked : read f (b :: blanks ++ t) =
          readFrom f ((b :: blanks ++ t).length + 1) none .anything (.empty false)
            (b :: blanks ++ t) := by
        unfold read
        split
        · next same =>
            cases same
            cases space
        · rfl
      have skipped : skipSpaces (blanks ++ t) = t := by
        cases t with
        | nil =>
            rw [skipSpaces, List.dropWhile_append_of_pos others]
            rfl
        | cons c rest => exact skipSpaces_append others (visible c rest rfl) rest
      rw [unmarked, List.cons_append] at h
      rcases of_readFrom_space space h with ⟨budget, last?, between, h⟩
      rw [skipped] at h
      have nothingKnown : cut? = none := unknown (List.cons_ne_nil b blanks)
      subst nothingKnown
      rcases exists_piece_of_readFrom_visible none (Or.inr ⟨rfl, rfl⟩) visible h with
        ⟨piece, whole, rootOpens, ⟨rest, opens⟩, again⟩
      refine ⟨piece, whole, rootOpens, ⟨rest, Or.inl opens⟩, fun goesOn cuts _ => ?_⟩
      exact again goesOn cuts (by rintro cut ⟨⟩)

/-! ## Behind the root element -/

theorem readEpilog_of_scanToken {t behind : List Char} (filled : t ≠ [])
    (scan : scanToken f t = .ok (token, behind)) (passes : token = .space ∨ token.IsAside) (budget : Nat) :
    readEpilog f (budget + 1) t = (tolerate t (·.upTo f behind) >>= fun _ =>
      readEpilog f budget behind) := by
  rw [readEpilog.eq_3 _ _ _ filled, bind_liftM_of_eq_ok scan]
  rcases passes with rfl | rfl | rfl
  · rfl
  · rfl
  · rfl

theorem of_readEpilog {budget : Nat} {t : List Char} (filled : t ≠ []) {tally after : Tally}
    (h : readEpilog f (budget + 1) t tally = .ok ((), after)) :
    ∃ token behind between, scanToken f t = .ok (token, behind) ∧ (token = .space ∨ token.IsAside) ∧
      tolerate t (·.upTo f behind) tally = .ok ((), between) ∧
      readEpilog f budget behind between = .ok ((), after) := by
  rw [readEpilog.eq_3 _ _ _ filled] at h
  rcases exists_between_of_bind_eq_ok h with ⟨⟨token, behind⟩, start, scanned, left⟩
  rcases eq_of_liftM_eq_ok scanned with ⟨scan, rfl⟩
  dsimp only at left
  split at left
  · rcases exists_between_of_bind_eq_ok left with ⟨_, between, counted, left⟩
    exact ⟨_, _, _, scan, Or.inl rfl, counted, left⟩
  · rcases exists_between_of_bind_eq_ok left with ⟨_, between, counted, left⟩
    exact ⟨_, _, _, scan, Or.inr (Or.inl rfl), counted, left⟩
  · rcases exists_between_of_bind_eq_ok left with ⟨_, between, counted, left⟩
    exact ⟨_, _, _, scan, Or.inr (Or.inr rfl), counted, left⟩
  · split at left
    · rcases exists_between_of_bind_eq_ok left with ⟨_, between, -, left⟩
      cases left
    · cases left

/-- What follows the root element is read alike of a piece, without the white space at its end.  A
comment or an instruction ends the piece, if there is anything left of it. -/
structure ReadsEpilog (f : TextForm) (tally : Tally) (t piece spaces : List Char) (later : Tally) :
    Prop where
  whole : t = piece ++ spaces
  blank : ∀ c ∈ spaces, isSpace c = true
  closed : IsClosed piece ∨ piece = []
  ends : ∀ {cut? budget otherTally}, CutsOff cut? f [] spaces [] → piece.length < budget →
    AreLike cut? tally otherTally → EndsLike cut? () later (readEpilog f budget piece otherTally)

/-- Of white space alone nothing is left. -/
theorem readsEpilog_of_blank (noLeftover : f.hasLeftover = false) {tally : Tally} {t : List Char}
    (blank : ∀ c ∈ t, isSpace c = true) : ReadsEpilog f tally t [] t tally where
  whole := rfl
  blank := blank
  closed := Or.inr rfl
  ends := by
    intro cut? budget otherTally _ positive alike
    rw [readEpilog.eq_2 _ _ (Nat.ne_of_gt positive), noLeftover]
    exact .alike alike

/-- A token is read again before a piece, unless it is white space and nothing is left behind it. -/
theorem ReadsEpilog.behindToken {tally between later : Tally} {token : Token}
    {front behind piece spaces : List Char} (h : ReadsEpilog f between behind piece spaces later)
    (filled : front ≠ []) (scanned : IsScannedOf f token front behind)
    (passes : token = .space ∨ token.IsAside) (kept : token.IsAside ∨ piece ≠ [])
    (counted : tolerate (front ++ behind) (·.upTo f behind) tally = .ok ((), between)) :
    ReadsEpilog f tally (front ++ behind) (front ++ piece) spaces later where
  whole := by rw [h.whole, List.append_assoc]
  blank := h.blank
  closed := by
    rcases h.closed with closed | rfl
    · exact Or.inl (closed.append front)
    · rw [List.append_nil]
      exact Or.inl (scanned.1 (kept.resolve_right (absurd rfl)))
  ends := by
    intro cut? enough otherTally cuts hEnough alike
    rw [List.length_append] at hEnough
    have positive := List.length_pos_of_ne_nil filled
    rcases Nat.exists_eq_add_one_of_ne_zero (by omega : enough ≠ 0) with ⟨less, rfl⟩
    have goesOn : GoesOnLike behind piece ∨ token.IsAside := by
      rcases h.closed with closed | rfl
      · have goesOn := GoesOnLike.of_isClosed closed spaces []
        rw [List.append_nil, ← h.whole] at goesOn
        exact Or.inl goesOn
      · exact Or.inr (kept.resolve_right (absurd rfl))
    rcases scanned.2 piece goesOn with ⟨token', likeToken, again⟩
    rw [likeToken.eq_of_passes passes] at again
    have cutsBehind : CutsOff cut? f [] behind piece := by
      have cutsEnd := cuts.append piece
      rw [List.append_nil, ← h.whole] at cutsEnd
      exact cutsEnd
    rw [readEpilog_of_scanToken (by simp [filled]) again passes]
    exact (follows_upTo cutsBehind _ _ _ _ _ _ alike counted).bind fun _ alikeBetween =>
      h.ends cuts (by omega) alikeBetween

/-- White space that is scanned before white space. -/
theorem isSpace_of_mem_of_scanToken_space {t behind : List Char}
    (scan : scanToken f t = .ok (.space, behind)) (blank : ∀ c ∈ behind, isSpace c = true) :
    ∀ c ∈ t, isSpace c = true := by
  rcases scanToken_cases scan with isPlain | ⟨-, d, more, space, rfl, skipped⟩ | ⟨noSpace, -⟩
  · exact absurd isPlain id
  · rcases exists_spaces more with ⟨front, blankFront, parts⟩
    rw [parts, ← skipped]
    refine List.forall_mem_cons.mpr ⟨space, fun c member => ?_⟩
    exact (List.mem_append.mp member).elim (blankFront c) (blank c)
  · exact absurd rfl noSpace

/-- By induction on the budget: white space that nothing is left behind is cut off with what follows
it, and every other token is read again. -/
theorem exists_piece_of_readEpilog {f : TextForm} {budget : Nat} {t : List Char}
    {tally after : Tally} (enough : t.length < budget)
    (h : readEpilog f budget t tally = .ok ((), after)) :
    f.hasLeftover = false ∧ ∃ piece spaces later, ReadsEpilog f tally t piece spaces later := by
  induction budget generalizing t tally with
  | zero => exact absurd enough (Nat.not_lt_zero _)
  | succ budget ih =>
      cases t with
      | nil =>
          rw [readEpilog.eq_2 _ _ (Nat.succ_ne_zero budget)] at h
          split at h
          · cases h
          · next leftover =>
              have noLeftover := Bool.eq_false_iff.mpr leftover
              exact ⟨noLeftover, [], [], tally, readsEpilog_of_blank noLeftover nofun⟩
      | cons c rest =>
          rcases of_readEpilog (List.cons_ne_nil c rest) h with
            ⟨token, behind, between, scan, passes, counted, left⟩
          have notRoot : token ≠ .root := by
            rintro rfl
            rcases passes with ⟨⟨⟩⟩ | ⟨⟨⟩⟩ | ⟨⟨⟩⟩
          rcases exists_piece_of_scanToken scan notRoot with ⟨front, filled, whole, scanned⟩
          have positive := List.length_pos_of_ne_nil filled
          rw [whole, List.length_append] at enough
          rcases ih (by omega) left with ⟨noLeftover, piece, spaces, later, reads⟩
          refine ⟨noLeftover, ?_⟩
          by_cases trailing : token = .space ∧ piece = []
          · rcases trailing with ⟨rfl, rfl⟩
            have blank : ∀ c ∈ behind, isSpace c = true := reads.whole ▸ reads.blank
            exact ⟨[], _, tally,
              readsEpilog_of_blank noLeftover (isSpace_of_mem_of_scanToken_space scan blank)⟩
          · have kept : token.IsAside ∨ piece ≠ [] :=
              or_iff_not_imp_right.mpr fun none => passes.resolve_left fun space =>
                trailing ⟨space, not_not.mp none⟩
            rw [whole] at counted ⊢
            exact ⟨_, spaces, later, reads.behindToken filled scanned passes kept counted⟩

end Prolog
end Xml
end DocumentGateway
