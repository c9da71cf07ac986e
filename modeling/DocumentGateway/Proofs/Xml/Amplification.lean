import DocumentGateway.Proofs.Xml.TrimmedDocument

namespace DocumentGateway
namespace Xml

/-!
# Entities that stand for too much

A document is made whose element refers to one entity again and again.  How often it may do so depends
on the size of the document alone, so that it may do so more often the more white space there is in
front of it.
-/

open Reading Tally

/-! ## Tallies without default values -/

namespace Tally

/-- A tally of a document of some size, of which nothing was counted twice and so much was read
indirectly. -/
structure IsAt (whole indirect : Nat) (tally : Tally) : Prop where
  whole : tally.whole = whole
  again : tally.again = 0
  indirect : tally.indirect = indirect

variable {whole indirect : Nat} {tally : Tally}

theorem isAt_start (whole : Nat) : (Tally.start whole).IsAt whole 0 :=
  ⟨rfl, rfl, rfl⟩

theorem IsAt.upTo (h : tally.IsAt whole indirect) (f : TextForm) (behind : List Char) :
    (tally.upTo f behind).IsAt whole indirect :=
  ⟨h.whole, h.again, h.indirect⟩

theorem IsAt.withIndirect (h : tally.IsAt whole indirect) (octets : Nat) :
    (tally.withIndirect octets).IsAt whole (indirect + octets) :=
  ⟨h.whole, h.again, congrArg (· + octets) h.indirect⟩

theorem IsAt.direct_upTo (h : tally.IsAt whole indirect) (f : TextForm) (behind : List Char) :
    (tally.upTo f behind).direct.get = whole - f.octets behind := by
  change tally.whole - f.octets behind + tally.again = _
  rw [h.whole, h.again, Nat.add_zero]

theorem IsAt.isTolerable (h : tally.IsAt whole indirect) (le : indirect ≤ tally.direct.get) :
    tally.isTolerable = true :=
  isTolerable_of_indirect_le (h.indirect ▸ le)

/-- What is tolerated is little, or is not much more than what was read directly.  Both sizes are
rounded for the comparison, so that one may count twice and the other half. -/
theorem lt_or_le_of_isTolerable (h : tally.IsAt whole indirect) (tolerable : tally.isTolerable = true) :
    indirect < freeOctets ∨ indirect ≤ 404 * tally.direct.get := by
  simp only [isTolerable, h.indirect, isInProportion, factor, Bool.or_eq_true, decide_eq_true_eq,
    Nat.pow_eq] at tolerable
  have ofSum := (rounded_bounds (tally.direct.get + indirect)).1
  have ofDirect := (rounded_bounds tally.direct.get).2
  omega

end Tally

namespace Reading

/-- What is given at the end of a reading is known behind it. -/
theorem movedTo_bind_pure (place : List Char) (reading : Reading Unit) (a : α) (next : α → Reading β) :
    (movedTo place (reading >>= fun _ => pure a) >>= next) = (movedTo place reading >>= fun _ => next a) := by
  funext tally
  change Except.bind (Except.mapError _ (Except.bind (reading tally) _)) _ =
    Except.bind (Except.mapError _ (reading tally)) _
  cases reading tally with
  | error s => rfl
  | ok result => rfl

theorem movedTo_of_eq_ok {reading : Reading α} {tally : Tally} {result : α × Tally}
    (h : reading tally = .ok result) (place : List Char) : movedTo place reading tally = .ok result := by
  rw [movedTo, h]
  rfl

end Reading

/-! ## Tokens that lead to the root element -/

namespace Prolog

/-- Tokens at the front of a text lead from what may come next to the root element.  Nothing is
counted for them but that they were read. -/
inductive LeadsToRoot (f : TextForm) (known : Declarations) (root : List Char) :
    Expecting → Declarations → List Char → Prop
  | root {expecting : Expecting} {behind : List Char} (scan : scanToken f root = .ok (.root, behind))
      (outside : expecting.area = .outside) : LeadsToRoot f known root expecting known root
  | token (token : Token) {expecting next : Expecting} {d declared : Declarations}
      {t behind : List Char} (scan : scanToken f t = .ok (token, behind)) (notRoot : token ≠ .root)
      (stepped : step d f t expecting token = pure (next, declared))
      (later : LeadsToRoot f known root next declared behind) : LeadsToRoot f known root expecting d t

variable {f : TextForm} {known d : Declarations} {root t : List Char} {expecting : Expecting}

theorem exists_readFrom (h : LeadsToRoot f known root expecting d t) {whole : Nat} {budget : Nat}
    (taken? : Option Stop) {tally : Tally} (enough : t.length < budget)
    (isAt : tally.IsAt whole 0) :
    ∃ after, readFrom f budget taken? expecting d t tally = .ok ((known, root), after) ∧
      after.IsAt whole 0 := by
  induction h generalizing budget taken? tally with
  | @root expecting behind scan outside =>
      rcases Nat.exists_eq_add_one_of_ne_zero (Nat.ne_of_gt (Nat.zero_lt_of_lt enough)) with ⟨less, rfl⟩
      have filled : root ≠ [] := by
        rintro rfl
        cases scan
      refine ⟨tally, ?_, isAt⟩
      rw [readFrom.eq_3 _ _ _ _ _ _ filled, bind_liftM_of_eq_ok scan]
      dsimp only
      rw [if_pos ⟨rfl, outside⟩]
      rfl
  | @token token expecting next d declared t behind scan notRoot stepped later ih =>
      rcases Nat.exists_eq_add_one_of_ne_zero (Nat.ne_of_gt (Nat.zero_lt_of_lt enough)) with ⟨less, rfl⟩
      rcases exists_piece_of_scanToken scan notRoot with ⟨front, filled, rfl, -, -⟩
      have positive := List.length_pos_of_ne_nil filled
      rw [List.length_append] at enough
      have counted := isAt.upTo f behind
      have tolerable := counted.isTolerable (Nat.zero_le _)
      have shorter : behind.length < less := by omega
      rcases ih _ shorter counted with ⟨after, read, isAtAfter⟩
      refine ⟨after, ?_, isAtAfter⟩
      rw [readFrom.eq_3 _ _ _ _ _ _ (by simp [filled]), bind_liftM_of_eq_ok scan]
      dsimp only
      rw [if_neg fun isRoot => notRoot isRoot.1, stepped]
      exact (bind_of_eq_ok (tolerate_of_isTolerable tolerable) _).trans read

end Prolog

/-! ## The document -/

namespace Amplified

/-- The text of the entity. -/
def text (size : Nat) : List Char :=
  List.replicate size 'x'

/-- The entity is all that is declared. -/
def declarations (size : Nat) : Declarations :=
  (Declarations.empty false).withEntity ['a'] (.internal (text size))

/-- References to the entity. -/
def references : Nat → List Char
  | 0 => []
  | count + 1 => '&' :: 'a' :: ';' :: references count

/-- The name of the element. -/
def name : List Char :=
  "error-response".toList

/-- The start tag of the element. -/
def opening : List Char :=
  "<error-response>".toList

/-- The end tag of the element. -/
def ending : List Char :=
  "</error-response>".toList

/-- The element with the references in it. -/
def root (count : Nat) : List Char :=
  opening ++ (references count ++ ending)

/-- What precedes the text of the entity in its declaration. -/
def declaring : List Char :=
  "<!DOCTYPE r [<!ENTITY a \"".toList

/-- What ends the declaration. -/
def declared : List Char :=
  "\">]>".toList

/-- The declaration of the entity, and the element behind it. -/
def document (size count : Nat) : List Char :=
  declaring ++ (text size ++ (declared ++ root count))

variable (size count : Nat)

/-! ### What precedes the element -/

theorem scanLiteral_text (start rest : List Char) :
    Prolog.scanLiteral start '"' (text size ++ '"' :: '>' :: rest) = .ok (text size, '>' :: rest) := by
  induction size with
  | zero => rfl
  | succ size ih =>
      rw [text, List.replicate_succ, List.cons_append]
      exact bind_of_eq_ok ih _

theorem entityValue_text (following : List Char) {budget : Nat} (enough : size ≤ budget) :
    entityValue .narrow following budget (text size) = .ok (text size) := by
  induction size generalizing budget with
  | zero => cases budget <;> rfl
  | succ size ih =>
      rcases Nat.exists_eq_add_one_of_ne_zero (Nat.ne_of_gt (Nat.zero_lt_of_lt enough)) with ⟨less, rfl⟩
      exact bind_of_eq_ok (ih (Nat.le_of_succ_le_succ enough)) _

theorem leadsToRoot_document {expecting : Prolog.Expecting}
    (atFront : expecting = .anything ∨ expecting = .doctypeOrRoot) :
    Prolog.LeadsToRoot .narrow (declarations size) (root count) expecting (.empty false)
      (document size count) := by
  have stepped : ∀ place following, Prolog.step (.empty false) .narrow place
      (.entityDefinition (some ['a'])) (.literal (text size) following) =
        pure (.declarationEnd, declarations size) := by
    intro place following
    have value : Prolog.readEntityValue (.empty false) .narrow (some ['a']) (text size) following =
        .ok (declarations size) :=
      bind_of_eq_ok (entityValue_text size following (by simp [text])) _
    exact congrArg liftM (bind_of_eq_ok value _)
  have begun : ∀ place, Prolog.step (.empty false) .narrow place expecting
      (.declarationOpen "DOCTYPE".toList) = pure (.doctypeName, .empty false) := by
    intro place
    rcases atFront with rfl | rfl
    · rfl
    · rfl
  refine .token (.declarationOpen "DOCTYPE".toList) rfl (by rintro ⟨⟩) (begun _) ?_
  refine .token .space rfl (by rintro ⟨⟩) rfl ?_
  refine .token (.name ['r']) rfl (by rintro ⟨⟩) rfl ?_
  refine .token .space rfl (by rintro ⟨⟩) rfl ?_
  refine .token .openBracket rfl (by rintro ⟨⟩) rfl ?_
  refine .token (.declarationOpen "ENTITY".toList) rfl (by rintro ⟨⟩) rfl ?_
  refine .token .space rfl (by rintro ⟨⟩) rfl ?_
  refine .token (.name ['a']) rfl (by rintro ⟨⟩) rfl ?_
  refine .token .space rfl (by rintro ⟨⟩) rfl ?_
  refine .token (.literal (text size) _) (bind_of_eq_ok (scanLiteral_text size _ _) _)
    (by rintro ⟨⟩) (stepped _ _) ?_
  refine .token .close rfl (by rintro ⟨⟩) rfl ?_
  refine .token .closeBracket rfl (by rintro ⟨⟩) rfl ?_
  refine .token .close rfl (by rintro ⟨⟩) rfl ?_
  exact .root rfl rfl

/-! ### What is in the element -/

theorem octets_text (f : TextForm) (narrow : f.isWide = false) : f.octets (text size) = size := by
  induction size with
  | zero => rfl
  | succ size ih =>
      have one : f.charOctets 'x' = 1 := by
        rw [TextForm.charOctets, narrow]
        rfl
      change f.octets ('x' :: text size) = _
      rw [TextForm.octets_cons, one, ih, Nat.add_comm]

theorem runLength_text : runLength .entity (text size) = size := by
  induction size with
  | zero => rfl
  | succ size ih =>
      have counted : runLength .entity ('x' :: text size) = runLength .entity (text size) + 1 := by
        cases size with
        | zero => rfl
        | succ size => rfl
      exact counted.trans (congrArg (· + 1) ih)

theorem scanToken_text : scanToken .entity (text (size + 1)) = .ok (.text (text (size + 1)), []) := by
  have whole : (text (size + 1)).length = size + 1 := List.length_replicate
  have scanned : scanRun .entity (text (size + 1)) = .ok (text (size + 1), []) := by
    rw [scanRun, runLength_text, List.drop_of_length_le (Nat.le_of_eq whole),
      List.take_of_length_le (Nat.le_of_eq whole)]
  cases size with
  | zero => rfl
  | succ size => exact bind_of_eq_ok scanned _

theorem readContent_text {d : Declarations} {name : List Char} {scope : Scope} (budget : Nat) :
    readContent d (budget + 2) .entity [name] none scope (text (size + 1)) =
      (tolerate (text (size + 1)) (·.withIndirect (size + 1)) >>= fun _ =>
        pure (⟨text (size + 1), []⟩, [])) := by
  have counted : countToken .entity [name] (text (size + 1)) (.text (text (size + 1))) [] =
      tolerate (text (size + 1)) (·.withIndirect (size + 1)) := by
    change tolerate _ (·.withIndirect (TextForm.octets .entity (text (size + 1)))) = _
    rw [octets_text _ _ rfl]
  have ended : readOn d .entity [name] none scope (·.behindText (text (size + 1))) (budget + 1)
      (text (size + 1)) [] = pure (⟨text (size + 1) ++ [], []⟩, []) := rfl
  rw [resumes_text d .entity [name] none scope _ (scanToken_text size) (by rintro ⟨⟩), counted, ended,
    List.append_nil]

section Element

variable {size} {scope : Scope} {budget whole indirect : Nat} {tally after : Tally} {rest : List Char}
  {result : Content × List Char}

/-- The reference is counted directly, the text of the entity indirectly. -/
theorem readContent_reference (enclosing : Option (List Char)) :
    readContent (declarations (size + 1)) (budget + 3) .narrow [] enclosing scope
      ('&' :: 'a' :: ';' :: rest) = (do
        tolerate ('&' :: 'a' :: ';' :: rest) (·.upTo .narrow rest)
        Reading.movedTo ('&' :: 'a' :: ';' :: rest)
          (tolerate (text (size + 1)) (·.withIndirect (size + 1)))
        readOn (declarations (size + 1)) .narrow [] enclosing scope
          (Content.append ⟨text (size + 1), []⟩) (budget + 2) ('&' :: 'a' :: ';' :: rest) rest) := by
  have scanned : scanToken .narrow ('&' :: 'a' :: ';' :: rest) = .ok (.reference (.entity ['a']), rest) :=
    rfl
  have replaced : replacementText (declarations (size + 1)) [] ('&' :: 'a' :: ';' :: rest) ['a'] =
      .ok (text (size + 1)) := rfl
  rw [resumes_entity _ .narrow [] enclosing scope rfl scanned (by rintro ⟨⟩)]
  dsimp only
  rw [bind_liftM_of_eq_ok replaced, readContent_text, movedTo_bind_pure]
  rfl

theorem readContent_ending {d : Declarations} :
    readContent d (budget + 1) .narrow [] (some name) scope ending =
      (tolerate ending (·.upTo .narrow []) >>= fun _ => pure (.empty, [])) :=
  resumes_endTag d .narrow [] scope name "error-response>".toList rfl (by rintro ⟨⟩)

/-- References are read while no more is read indirectly than directly. -/
theorem exists_readContent_references {count : Nat} (enough : count + 3 ≤ budget)
    (isAt : tally.IsAt whole indirect)
    (covered : indirect + count * (size + 1) +
      TextForm.narrow.octets (references count ++ ending) ≤ whole) :
    ∃ c after, readContent (declarations (size + 1)) budget .narrow [] (some name) scope
      (references count ++ ending) tally = .ok ((c, []), after) := by
  induction count generalizing budget tally indirect with
  | zero =>
      rcases Nat.exists_eq_add_one_of_ne_zero (by omega : budget ≠ 0) with ⟨less, rfl⟩
      have covers : indirect ≤ (tally.upTo .narrow []).direct.get := by
        rw [isAt.direct_upTo]
        change indirect ≤ whole
        omega
      have tolerable := (isAt.upTo .narrow []).isTolerable covers
      refine ⟨.empty, tally.upTo .narrow [], ?_⟩
      rw [references, List.nil_append, readContent_ending]
      exact bind_of_eq_ok (tolerate_of_isTolerable tolerable) _
  | succ count ih =>
      rcases Nat.exists_eq_add_of_le' (by omega : 3 ≤ budget) with ⟨less, rfl⟩
      rw [references, Nat.succ_mul] at covered
      simp only [List.cons_append, TextForm.octets_cons] at covered
      have reached := isAt.upTo .narrow (references count ++ ending)
      have replaced := reached.withIndirect (size + 1)
      have covers : indirect + (size + 1) ≤
          (tally.upTo .narrow (references count ++ ending)).direct.get := by
        rw [isAt.direct_upTo]
        omega
      have tolerable := reached.isTolerable (Nat.le_trans (Nat.le_add_right _ _) covers)
      have tolerableText := replaced.isTolerable covers
      rcases ih (by omega : count + 3 ≤ less + 2) replaced (by omega) with ⟨c, after, read⟩
      refine ⟨Content.append ⟨text (size + 1), []⟩ c, after, ?_⟩
      rw [references, List.cons_append, List.cons_append, List.cons_append, readContent_reference]
      refine (bind_of_eq_ok (tolerate_of_isTolerable tolerable) _).trans ?_
      refine (bind_of_eq_ok (movedTo_of_eq_ok (tolerate_of_isTolerable tolerableText) _) _).trans ?_
      exact bind_of_eq_ok read _

/-- When references have been read, so many times the text was, and that was tolerable. -/
theorem isAt_of_readContent_references {count : Nat} (enough : count + 3 ≤ budget)
    (isAt : tally.IsAt whole indirect)
    (h : readContent (declarations (size + 1)) budget .narrow [] (some name) scope
      (references count ++ ending) tally = .ok (result, after)) :
    after.IsAt whole (indirect + count * (size + 1)) ∧ after.isTolerable = true ∧
      after.direct.get = whole := by
  induction count generalizing budget tally indirect result with
  | zero =>
      rcases Nat.exists_eq_add_one_of_ne_zero (by omega : budget ≠ 0) with ⟨less, rfl⟩
      rw [references, List.nil_append, readContent_ending] at h
      rcases exists_between_of_bind_eq_ok h with ⟨_, between, counted, given⟩
      cases given
      rcases of_tolerate_eq_ok counted with ⟨rfl, tolerable⟩
      rw [Nat.zero_mul, Nat.add_zero]
      exact ⟨isAt.upTo _ _, tolerable, isAt.direct_upTo _ _⟩
  | succ count ih =>
      rcases Nat.exists_eq_add_of_le' (by omega : 3 ≤ budget) with ⟨less, rfl⟩
      rw [references, List.cons_append, List.cons_append, List.cons_append, readContent_reference] at h
      rcases exists_between_of_bind_eq_ok h with ⟨_, reached, counted, replacing⟩
      rcases exists_between_of_bind_eq_ok replacing with ⟨_, replaced, moved, reading⟩
      rcases exists_between_of_bind_eq_ok reading with ⟨inner, last, read, given⟩
      cases given
      rcases of_tolerate_eq_ok counted with ⟨rfl, -⟩
      rcases of_tolerate_eq_ok (eq_ok_of_mapError_eq_ok moved) with ⟨rfl, -⟩
      have isAtLast := ih (by omega : count + 3 ≤ less + 2) ((isAt.upTo _ _).withIndirect (size + 1)) read
      rw [Nat.succ_mul, Nat.add_comm (count * (size + 1)), ← Nat.add_assoc]
      exact isAtLast

/-- What the start tag says. -/
def tag : StartTag :=
  ⟨name, [], false⟩

theorem readElement_tag (place behind : List Char) :
    readElement (declarations (size + 1)) (budget + 1) .narrow [] Scope.outermost place tag behind = (do
      let (content, following) ← readContent (declarations (size + 1)) budget .narrow []
        (some name) Scope.outermost behind
      return (content.toElement name [], following)) := by
  have isOpened : openElement (declarations (size + 1)) .narrow [] Scope.outermost place tag =
      pure ⟨name, [], Scope.outermost⟩ := rfl
  rw [readElement, isOpened]
  rfl

/-- There are steps enough for all references. -/
theorem exists_readingBudget (count : Nat) (d : Declarations) :
    ∃ budget, readingBudget d (root count) = budget + 1 ∧ count + 3 ≤ budget := by
  have some : count ≤ (references count).length := by
    induction count with
    | zero => exact Nat.zero_le _
    | succ count ih =>
        rw [references, List.length_cons]
        simp only [List.length_cons]
        omega
  have long : count + 2 ≤ (root count).length := by
    have named : 2 ≤ opening.length := by decide
    rw [root, List.length_append, List.length_append]
    omega
  refine ⟨2 * ((root count).length + d.entitySize) + 1, rfl, ?_⟩
  omega

theorem scanToken_root (count : Nat) :
    scanToken .narrow (root count) = .ok (.startTag tag, references count ++ ending) := rfl

theorem exists_readRoot {count : Nat} (isAt : tally.IsAt whole 0)
    (covered : count * (size + 1) + TextForm.narrow.octets (root count) ≤ whole) :
    ∃ e after, readRoot (declarations (size + 1)) .narrow (root count) tally = .ok (e, after) ∧
      e.localName = name := by
  rcases exists_readingBudget count (declarations (size + 1)) with ⟨budget, steps, enough⟩
  rw [root, TextForm.octets_append] at covered
  have tolerable := (isAt.upTo .narrow (references count ++ ending)).isTolerable (Nat.zero_le _)
  have coveredInside : 0 + count * (size + 1) + TextForm.narrow.octets (references count ++ ending) ≤
      whole := by omega
  rcases exists_readContent_references enough (isAt.upTo _ _) coveredInside with ⟨c, after, read⟩
  have element : readElement (declarations (size + 1)) (budget + 1) .narrow [] Scope.outermost (root count)
      tag (references count ++ ending) (tally.upTo .narrow (references count ++ ending)) =
        .ok ((c.toElement name [], []), after) := by
    rw [readElement_tag]
    exact bind_of_eq_ok read _
  refine ⟨c.toElement name [], after, ?_, rfl⟩
  rw [readRoot_of_scanToken (scanToken_root count), steps]
  refine (bind_of_eq_ok (tolerate_of_isTolerable tolerable) _).trans ?_
  exact bind_of_eq_ok element _

/-- An element is not read if its references stand for much more than the document. -/
theorem lt_or_le_of_readRoot {count : Nat} {e : Element} (isAt : tally.IsAt whole 0)
    (h : readRoot (declarations (size + 1)) .narrow (root count) tally = .ok (e, after)) :
    count * (size + 1) < freeOctets ∨ count * (size + 1) ≤ 404 * whole := by
  rcases exists_readingBudget count (declarations (size + 1)) with ⟨budget, steps, enough⟩
  rw [readRoot_of_scanToken (scanToken_root count), steps, readElement_tag] at h
  rcases exists_between_of_bind_eq_ok h with ⟨_, begun, counted, left⟩
  rcases of_tolerate_eq_ok counted with ⟨rfl, -⟩
  rcases exists_between_of_bind_eq_ok left with ⟨_, inner, inside, -⟩
  rcases exists_between_of_bind_eq_ok inside with ⟨_, last, read, given⟩
  cases given
  rcases isAt_of_readContent_references enough (isAt.upTo _ _) read with
    ⟨isAtLast, tolerable, direct⟩
  rw [Nat.zero_add] at isAtLast
  rw [← direct]
  exact lt_or_le_of_isTolerable isAtLast tolerable

end Element

/-! ### The whole document -/

/-- The document, with line feeds in front of it. -/
def behindFeeds (feeds size count : Nat) : List Char :=
  List.replicate feeds '\n' ++ document size count

theorem leadsToRoot_behindFeeds (feeds : Nat) :
    Prolog.LeadsToRoot .narrow (declarations size) (root count) .anything (.empty false)
      (behindFeeds feeds size count) := by
  cases feeds with
  | zero => exact leadsToRoot_document size count (Or.inl rfl)
  | succ feeds =>
      have blank : ∀ c ∈ List.replicate feeds '\n', isSpace c = true := by
        intro c member
        rw [List.eq_of_mem_replicate member]
        rfl
      have skipped : skipSpaces (behindFeeds feeds size count) = document size count :=
        skipSpaces_append blank (by rfl) _
      refine .token .space (Prolog.scanToken_space .narrow (by rfl) _) (by rintro ⟨⟩) rfl ?_
      change Prolog.LeadsToRoot _ _ _ _ _ (skipSpaces (behindFeeds feeds size count))
      rw [skipped]
      exact leadsToRoot_document size count (Or.inr rfl)

/-- What precedes the element is read, whatever the document is that it stands in. -/
theorem exists_prolog (feeds whole : Nat) :
    ∃ between, Prolog.read .narrow (behindFeeds feeds size count) (.start whole) =
      .ok ((declarations size, root count), between) ∧ between.IsAt whole 0 := by
  have unmarked : Prolog.read .narrow (behindFeeds feeds size count) =
      Prolog.readFrom .narrow ((behindFeeds feeds size count).length + 1) none .anything (.empty false)
        (behindFeeds feeds size count) := by
    cases feeds with
    | zero => rfl
    | succ feeds => rfl
  rw [unmarked]
  exact Prolog.exists_readFrom (leadsToRoot_behindFeeds size count feeds) none (Nat.lt_succ_self _)
    (isAt_start whole)

variable {size count}

/-- With line feeds enough in front of it the document is read. -/
theorem exists_readChars {feeds : Nat} (covered : count * (size + 1) ≤ feeds) :
    ∃ e, readChars .narrow (behindFeeds feeds (size + 1) count) = .ok e ∧ e.localName = name := by
  rcases exists_prolog (size + 1) count feeds (TextForm.narrow.octets (behindFeeds feeds (size + 1) count))
    with ⟨between, prolog, isAt⟩
  have room : count * (size + 1) + TextForm.narrow.octets (root count) ≤
      TextForm.narrow.octets (behindFeeds feeds (size + 1) count) := by
    have feedOctets := length_le_octets (List.replicate feeds '\n')
    rw [List.length_replicate] at feedOctets
    simp only [behindFeeds, document, TextForm.octets_append]
    omega
  rcases exists_readRoot isAt room with ⟨e, after, read, named⟩
  refine ⟨e, ?_, named⟩
  have ended : readDocument .narrow (behindFeeds feeds (size + 1) count)
      (.start (TextForm.narrow.octets (behindFeeds feeds (size + 1) count))) = .ok (e, after) := by
    rw [readDocument_eq]
    exact (bind_of_eq_ok prolog _).trans read
  rw [readChars, StateT.run, ended]

theorem octets_references (count : Nat) : TextForm.narrow.octets (references count) = 3 * count := by
  induction count with
  | zero => rfl
  | succ count ih =>
      rw [references, TextForm.octets_cons, TextForm.octets_cons, TextForm.octets_cons, ih]
      change 1 + (1 + (1 + 3 * count)) = _
      omega

theorem octets_document (size count : Nat) :
    TextForm.narrow.octets (document size count) = size + 3 * count + 62 := by
  have fromFront : TextForm.narrow.octets declaring = 25 := rfl
  have closed : TextForm.narrow.octets declared = 4 := rfl
  have begun : TextForm.narrow.octets opening = 16 := rfl
  have ended : TextForm.narrow.octets ending = 17 := rfl
  simp only [document, root, TextForm.octets_append, octets_text size .narrow rfl, octets_references,
    fromFront, closed, begun, ended]
  omega

/-- By itself the document is not read when its references stand for much more than it has octets. -/
theorem not_readChars (large : freeOctets ≤ count * (size + 1))
    (excessive : 404 * (size + 3 * count + 63) < count * (size + 1)) (e : Element) :
    readChars .narrow (document (size + 1) count) ≠ .ok e := by
  intro accepted
  rcases exists_prolog (size + 1) count 0 (TextForm.narrow.octets (document (size + 1) count)) with
    ⟨between, prolog, isAt⟩
  unfold readChars at accepted
  split at accepted
  · next found after ended =>
      rw [StateT.run, readDocument_eq] at ended
      have left := (bind_of_eq_ok prolog _).symm.trans ended
      rcases lt_or_le_of_readRoot isAt left with few | little
      · exact absurd large (Nat.not_le_of_lt few)
      · rw [octets_document] at little
        omega
  · cases accepted

/-! ### The text of the document -/

/-- Whether a character stands for itself, wherever it is in a text. -/
def isPlain (c : Char) : Bool :=
  c != '\x00' && c != cutChar

theorem read_of_isPlain {chars : List Char} (plain : ∀ c ∈ chars, isPlain c = true) :
    read (Text.ofChars chars) = readChars .narrow chars := by
  have noZero : '\x00' ∉ chars := fun member => absurd (plain _ member) (by decide)
  have notCut : cutChar ∉ chars := fun member => absurd (plain _ member) (by decide)
  rw [read_ofChars, readScalars, octetOrder?_of_forall_ne noZero, map_uncut notCut]

theorem isPlain_of_mem_behindFeeds (feeds size count : Nat) :
    ∀ c ∈ behindFeeds feeds size count, isPlain c = true := by
  have fromFront : declaring.all isPlain = true := rfl
  have closed : declared.all isPlain = true := rfl
  have begun : opening.all isPlain = true := rfl
  have ended : ending.all isPlain = true := rfl
  have inside : (references count).all isPlain = true := by
    induction count with
    | zero => rfl
    | succ count ih => exact ih
  have filled : (text size).all isPlain = true := by
    rw [List.all_eq_true]
    intro c member
    rw [List.eq_of_mem_replicate member]
    rfl
  have leading : (List.replicate feeds '\n').all isPlain = true := by
    rw [List.all_eq_true]
    intro c member
    rw [List.eq_of_mem_replicate member]
    rfl
  rw [← List.all_eq_true]
  simp only [behindFeeds, document, root, List.all_append, leading, fromFront, filled, closed, begun, inside,
    ended, Bool.and_self]

/-- What precedes the document is blank, and the document is trimmed. -/
theorem trim_behindFeeds (feeds size count : Nat) :
    (Text.ofChars (behindFeeds feeds size count)).trim = Text.ofChars (document size count) := by
  have blank : ∀ p ∈ Text.ofChars (List.replicate feeds '\n'), p.isBlank = true := by
    intro p member
    rcases List.mem_map.mp member with ⟨c, among, rfl⟩
    rw [List.eq_of_mem_replicate among]
    rfl
  have notCut : cutChar ∉ document size count := fun member =>
    absurd (isPlain_of_mem_behindFeeds 0 size count cutChar member) (by decide)
  have closedEnding : IsClosed ending := ⟨"</error-response".toList, rfl⟩
  have closed : IsClosed (document size count) :=
    ((((closedEnding.append (references count)).append opening).append declared).append (text size)).append
      declaring
  have isCore : IsCore [] ((document size count).map uncut) [] := by
    rw [map_uncut notCut]
    exact ⟨by simp, ⟨_, Or.inl rfl⟩, closed, by simp⟩
  have filled : Text.ofChars (document size count) ≠ [] := by
    rintro ⟨⟩
  have nothing : ∀ p ∈ ([] : Text), p.isBlank = true := by simp
  have trimmed := (Text.trim_append blank filled isCore.isTrimmed nothing).1
  rw [List.append_nil] at trimmed
  rw [behindFeeds, Text.ofChars_append]
  exact trimmed

/-- A document may be read only because of the line feeds in front of it. -/
theorem read_behindFeeds {feeds size count : Nat} (covered : count * (size + 1) ≤ feeds)
    (large : freeOctets ≤ count * (size + 1))
    (excessive : 404 * (size + 3 * count + 63) < count * (size + 1)) :
    (∃ e, read (Text.ofChars (behindFeeds feeds (size + 1) count)) = .ok e ∧ e.localName = name) ∧
      ∀ e, read (Text.ofChars (behindFeeds feeds (size + 1) count)).trim ≠ .ok e := by
  constructor
  · rw [read_of_isPlain (isPlain_of_mem_behindFeeds feeds (size + 1) count)]
    exact exists_readChars covered
  · have plain : ∀ c ∈ document (size + 1) count, isPlain c = true :=
      isPlain_of_mem_behindFeeds 0 (size + 1) count
    rw [trim_behindFeeds, read_of_isPlain plain]
    exact not_readChars large excessive

end Amplified
end Xml
end DocumentGateway
