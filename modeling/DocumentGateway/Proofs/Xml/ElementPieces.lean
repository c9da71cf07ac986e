import DocumentGateway.Proofs.Xml.ReadAlike
import Mathlib.Algebra.Order.BigOperators.Group.List

namespace DocumentGateway
namespace Xml

/-!
# Pieces that are elements

An element is a piece of its text.  Of every text that begins with the piece it is read alike,
whatever follows it, when the budget suffices for the piece and for the texts of all entities.
-/

open Reading Tally

/-! ## Budgets -/

namespace Declarations

/-- The number of characters in a declared text, and one more. -/
def sizeOf (e : Entity) : Nat :=
  match e with
  | .internal replacement => replacement.length + 1
  | _ => 1

/-- The size of a declared text that is not being read. -/
def sizeIfUnopened (opened : List (List Char)) (declared : List Char × Entity) : Nat :=
  if opened.contains declared.1 then 0 else sizeOf declared.2

/-- The sizes of the declared texts that are not being read. -/
def sizeUnopened (d : Declarations) (opened : List (List Char)) : Nat :=
  (d.entities.map (sizeIfUnopened opened)).sum

theorem sizeUnopened_nil (d : Declarations) : d.sizeUnopened [] = d.entitySize := by
  have summed : ∀ (entities : List (List Char × Entity)) (n : Nat),
      entities.foldl (fun size declared => size + sizeOf declared.2) n =
        n + (entities.map (sizeIfUnopened [])).sum := by
    intro entities
    induction entities with
    | nil => exact fun n => rfl
    | cons first rest ih =>
        intro n
        rw [List.foldl_cons, ih, List.map_cons, List.sum_cons, Nat.add_assoc]
        rfl
  exact ((summed d.entities 0).trans (Nat.zero_add _)).symm

theorem sizeIfUnopened_cons_le (opened : List (List Char)) (name : List Char)
    (declared : List Char × Entity) :
    sizeIfUnopened (name :: opened) declared ≤ sizeIfUnopened opened declared := by
  unfold sizeIfUnopened
  split
  · exact Nat.zero_le _
  · next notOpened =>
      rw [List.contains_cons, Bool.or_eq_true, not_or] at notOpened
      rw [if_neg notOpened.2]

/-- While the text of an entity is read, less is left to be opened. -/
theorem sizeUnopened_cons {d : Declarations} {opened : List (List Char)} {name : List Char}
    {e : Entity} (found : d.entity? name = some e) (unopened : opened.contains name = false) :
    sizeOf e + d.sizeUnopened (name :: opened) ≤ d.sizeUnopened opened := by
  rw [entity?, Option.map_eq_some_iff] at found
  rcases found with ⟨declared, found, rfl⟩
  unfold sizeUnopened
  generalize d.entities = entities at found
  induction entities with
  | nil => cases found
  | cons first rest ih =>
      rw [List.map_cons, List.sum_cons, List.map_cons, List.sum_cons]
      rw [List.find?_cons] at found
      split at found
      · next isFirst =>
          cases found
          have same : declared.1 = name := of_decide_eq_true isFirst
          have own : sizeIfUnopened opened declared = sizeOf declared.2 := by
            rw [sizeIfUnopened, same, unopened]
            rfl
          have none : sizeIfUnopened (name :: opened) declared = 0 := by
            rw [sizeIfUnopened, same, List.contains_cons, beq_self_eq_true, Bool.true_or, if_pos rfl]
          have later := List.sum_le_sum (l := rest) fun declared _ =>
            sizeIfUnopened_cons_le opened name declared
          omega
      · have one := sizeIfUnopened_cons_le opened name first
        have later := ih found
        omega

end Declarations

/-! ## Counting pieces -/

section Counting

variable {cut? : Option Nat} {f : TextForm} {opened : List (List Char)} {behind other : List Char}

/-- So many octets are cut off the end of the document.  The text of an entity is not cut. -/
def CutsOff (cut? : Option Nat) (f : TextForm) (opened : List (List Char))
    (behind other : List Char) : Prop :=
  ∀ cut ∈ cut?, opened = [] → f.octets behind = f.octets other + cut

theorem CutsOff.append (h : CutsOff cut? f opened behind other) (piece : List Char) :
    CutsOff cut? f opened (piece ++ behind) (piece ++ other) := by
  intro cut known isDocument
  rw [TextForm.octets_append, TextForm.octets_append, h cut known isDocument, Nat.add_assoc]

theorem octetsBefore_append (f : TextForm) (piece behind : List Char) :
    f.octetsBefore (piece ++ behind) behind = f.octets piece := by
  rw [TextForm.octetsBefore, List.length_append, Nat.add_sub_cancel, List.take_left]

theorem follows_upTo (h : CutsOff cut? f [] behind other) (place otherPlace : List Char) :
    Follows cut? (tolerate place (·.upTo f behind)) (tolerate otherPlace (·.upTo f other)) :=
  follows_tolerate place otherPlace fun known alike => alike.upTo (h _ known rfl)

/-- A piece counts as much wherever it stands. -/
theorem follows_countToken (h : CutsOff cut? f opened behind other) (piece : List Char)
    {token token' : Token} (alike : token.IsLike token') :
    Follows cut? (countToken f opened (piece ++ behind) token behind)
      (countToken f opened (piece ++ other) token' other) := by
  unfold countToken
  by_cases isDocument : opened = []
  · subst isDocument
    exact follows_upTo h _ _
  · have inside : ¬ opened.isEmpty = true := fun empty => isDocument (List.isEmpty_iff.mp empty)
    rw [if_neg inside, if_neg inside, octetsBefore_append, octetsBefore_append]
    cases alike with
    | same => exact follows_count _ _ _ _
    | startTag => exact follows_count _ _ _ _
    | endTag => exact follows_count _ _ _ _

end Counting

/-! ## What is read of a piece -/

/-- What was read of a text is read of every text that begins with a piece of it.  Unless the piece
has its end in itself, the texts have to be the same. -/
structure ReadsPiece (cut? : Option Nat) (d : Declarations) (f : TextForm)
    (opened : List (List Char)) (isClosing : Prop) (more : Nat) (tally : Tally) (t : List Char)
    (a : α) (following : List Char) (after : Tally)
    (again : (budget : Nat) → (place t : List Char) → Reading (α × List Char))
    (piece : List Char) : Prop where
  whole : t = piece ++ following
  ends : ∀ (place : List Char) {budget other otherTally}, (¬ isClosing → other = following) →
    CutsOff cut? f opened following other →
    2 * (piece.length + d.sizeUnopened opened) + more ≤ budget →
    AreLike cut? tally otherTally →
    EndsLike cut? (a, other) after (again budget place (piece ++ other) otherTally)

namespace ReadsPiece

variable {cut? : Option Nat} {d : Declarations} {f : TextForm} {opened : List (List Char)}
  {isClosing : Prop} {more : Nat} {tally after : Tally} {t following : List Char} {a : α}
  {again : (budget : Nat) → (place t : List Char) → Reading (α × List Char)} {piece : List Char}

theorem map (h : ReadsPiece cut? d f opened isClosing more tally t a following after again piece)
    (g : α → β) :
    ReadsPiece cut? d f opened isClosing more tally t (g a) following after
      (fun budget place t => do
        let result ← again budget place t
        return (g result.1, result.2)) piece where
  whole := h.whole
  ends place _ _ _ same cuts enough alike :=
    (h.ends place same cuts enough alike).bind fun _ later => .alike later

theorem mono (h : ReadsPiece cut? d f opened isClosing more tally t a following after again piece)
    {greater : Nat} (le : more ≤ greater) :
    ReadsPiece cut? d f opened isClosing greater tally t a following after again piece where
  whole := h.whole
  ends place _ _ _ same cuts enough alike := h.ends place same cuts (by omega) alike

/-- What is read first and is no part of the text is read alike as well. -/
theorem behind {before : Tally} {first : Reading Unit} (same : Follows cut? first first)
    (counted : first before = .ok ((), tally))
    (h : ReadsPiece cut? d f opened isClosing more tally t a following after again piece) :
    ReadsPiece cut? d f opened isClosing more before t a following after
      (fun budget place t => first >>= fun _ => again budget place t) piece where
  whole := h.whole
  ends place _ _ _ sameEnd cuts enough alike :=
    (same _ _ _ _ alike counted).bind fun _ alikeBetween =>
      h.ends place sameEnd cuts enough alikeBetween

end ReadsPiece

/-! ## Sections of character data -/

theorem readCdata_of_scanCdataPiece {f : TextForm} {opened : List (List Char)} {t behind : List Char}
    {part : CdataPiece} (h : scanCdataPiece f t = .ok (part, behind)) (budget : Nat) :
    readCdata f opened (budget + 1) t = (do
      countToken f opened t .cdataOpen behind
      match part with
      | .close => return ([], behind)
      | .lineEnd =>
        let (more, following) ← readCdata f opened budget behind
        return ('\n' :: more, following)
      | .text run =>
        let (more, following) ← readCdata f opened budget behind
        return (run ++ more, following)) := by
  rw [readCdata, bind_liftM_of_eq_ok h]
  dsimp only
  unfold countToken
  split <;> rfl

/-- A section is read again of a piece of the text, up to its end. -/
structure ReadsCdata (cut? : Option Nat) (f : TextForm) (opened : List (List Char)) (tally : Tally)
    (t text following : List Char) (after : Tally) (piece : List Char) : Prop where
  closed : IsClosed piece
  whole : t = piece ++ following
  ends : ∀ {budget other otherTally}, CutsOff cut? f opened following other →
    piece.length ≤ budget → AreLike cut? tally otherTally →
    EndsLike cut? (text, other) after (readCdata f opened budget (piece ++ other) otherTally)

section Sections

variable {cut? : Option Nat} {f : TextForm} {opened : List (List Char)}
  {front behind text following piece : List Char} {tally between after : Tally}

theorem readsCdata_close (scan : scanCdataPiece f (front ++ behind) = .ok (.close, behind))
    (counted : countToken f opened (front ++ behind) .cdataOpen behind tally = .ok ((), after)) :
    ∃ piece, ReadsCdata cut? f opened tally (front ++ behind) [] behind after piece := by
  rcases exists_piece_of_scanCdataPiece scan with ⟨front', filled, same, closes, scanAgain⟩
  cases List.append_cancel_right same
  refine ⟨front, closes rfl, rfl, ?_⟩
  intro enough other otherTally cuts hEnough alike
  have positive := List.length_pos_of_ne_nil filled
  rcases Nat.exists_eq_add_one_of_ne_zero (by omega : enough ≠ 0) with ⟨less, rfl⟩
  rw [readCdata_of_scanCdataPiece (scanAgain other (Or.inr rfl))]
  exact (follows_countToken cuts front (.same .cdataOpen) _ _ _ _ alike counted).bind
    fun _ alikeLater => .alike alikeLater

/-- Text of a section stands before what is read of the section behind it. -/
theorem ReadsCdata.behindText {part : CdataPiece} {run : List Char}
    (h : ReadsCdata cut? f opened between behind text following after piece)
    (scan : scanCdataPiece f (front ++ behind) = .ok (part, behind))
    (kind : part = .text run ∨ (part = .lineEnd ∧ run = ['\n']))
    (counted : countToken f opened (front ++ behind) .cdataOpen behind tally = .ok ((), between)) :
    ReadsCdata cut? f opened tally (front ++ behind) (run ++ text) following after
      (front ++ piece) where
  closed := h.closed.append front
  whole := by rw [h.whole, List.append_assoc]
  ends := by
    intro enough other otherTally cuts hEnough alike
    rcases exists_piece_of_scanCdataPiece scan with ⟨front', filled, same, -, scanAgain⟩
    cases List.append_cancel_right same
    have positive := List.length_pos_of_ne_nil filled
    rw [List.length_append] at hEnough
    rcases Nat.exists_eq_add_one_of_ne_zero (by omega : enough ≠ 0) with ⟨less, rfl⟩
    have goesOn : GoesOnLike behind (piece ++ other) := h.whole ▸ .of_isClosed h.closed _ _
    have cutsBehind : CutsOff cut? f opened behind (piece ++ other) := h.whole ▸ cuts.append piece
    rw [List.append_assoc, readCdata_of_scanCdataPiece (scanAgain _ (Or.inl goesOn))]
    refine (follows_countToken cutsBehind front (.same .cdataOpen) _ _ _ _ alike counted).bind
      fun tallyBetween alikeBetween => ?_
    have rest : EndsLike cut? (run ++ text, other) after
        ((readCdata f opened less (piece ++ other) >>= fun result =>
          pure (run ++ result.1, result.2)) tallyBetween) :=
      (h.ends cuts (by omega) alikeBetween).bind fun _ alikeLater => .alike alikeLater
    rcases kind with rfl | ⟨rfl, rfl⟩
    · exact rest
    · exact rest

end Sections

/-- A section is read alike up to its end, by induction on the budget. -/
theorem exists_piece_of_readCdata (cut? : Option Nat) {f : TextForm} {opened : List (List Char)}
    {budget : Nat} {t text following : List Char} {tally after : Tally}
    (h : readCdata f opened budget t tally = .ok ((text, following), after)) :
    ∃ piece, ReadsCdata cut? f opened tally t text following after piece := by
  induction budget generalizing t text tally with
  | zero => cases h
  | succ budget ih =>
      cases scan : scanCdataPiece f t with
      | error s =>
          rw [readCdata, scan] at h
          cases h
      | ok result =>
          rcases result with ⟨part, behind⟩
          rw [readCdata_of_scanCdataPiece scan] at h
          rcases exists_between_of_bind_eq_ok h with ⟨_, between, counted, left⟩
          rcases exists_piece_of_scanCdataPiece scan with ⟨front, -, rfl, -, -⟩
          cases part with
          | close =>
              cases left
              exact readsCdata_close scan counted
          | lineEnd =>
              rcases exists_between_of_bind_eq_ok left with ⟨⟨more, _⟩, later, read, given⟩
              cases given
              rcases ih read with ⟨piece, reads⟩
              exact ⟨_, reads.behindText scan (Or.inr ⟨rfl, rfl⟩) counted⟩
          | text run =>
              rcases exists_between_of_bind_eq_ok left with ⟨⟨more, _⟩, later, read, given⟩
              cases given
              rcases ih read with ⟨piece, reads⟩
              exact ⟨_, reads.behindText scan (Or.inl rfl) counted⟩

/-! ## Content -/

section Content

variable {cut? : Option Nat} {d : Declarations} {f : TextForm} {opened : List (List Char)}
  {enclosing : Option (List Char)} {scope : Scope} {tally after : Tally} {t following : List Char}
  {c : Content}

/-- Behind a token content is read on in a certain way. -/
def Resumes (d : Declarations) (f : TextForm) (opened : List (List Char))
    (enclosing : Option (List Char)) (scope : Scope) (token : Token)
    (resume : (budget : Nat) → (place t : List Char) → Reading (Content × List Char)) : Prop :=
  ∀ {budget place behind}, scanToken f place = .ok (token, behind) → place ≠ [] →
    readContent d (budget + 1) f opened enclosing scope place =
      (countToken f opened place token behind >>= fun _ => resume budget place behind)

/-- What is read of a token and of a piece behind it is read again wherever both are found, if the
piece is. -/
theorem ReadsPiece.token {isClosing : Prop} {between : Tally} {token : Token}
    {behind piece : List Char} (scan : scanToken f t = .ok (token, behind))
    (counted : countToken f opened t token behind tally = .ok ((), between))
    (later : ∀ token', token.IsLike token' → ∃ resume,
      Resumes d f opened enclosing scope token' resume ∧
        ReadsPiece cut? d f opened isClosing 2 between behind c following after resume piece)
    (closed : isClosing → IsClosed piece ∨ ∃ body, t = '<' :: body) :
    ∃ front, ReadsPiece cut? d f opened isClosing 1 tally t c following after
        (fun budget _ t => readContent d budget f opened enclosing scope t) (front ++ piece) ∧
      ((∃ body, t = '<' :: body) → IsClosed front ∨ token = .cdataOpen) := by
  have whole : behind = piece ++ following := by
    rcases later token (.same token) with ⟨resume, -, reads⟩
    exact reads.whole
  rcases exists_piece_of_scanToken scan with ⟨front, filled, rfl, closes, scanAgain⟩
  rcases List.exists_cons_of_ne_nil filled with ⟨first, rest, rfl⟩
  have marked : (∃ body, first :: rest ++ behind = '<' :: body) → ∃ body, first :: rest = '<' :: body := by
    rintro ⟨body, same⟩
    exact ⟨rest, congrArg (· :: rest) (List.cons.inj same).1⟩
  refine ⟨first :: rest, ⟨by rw [whole, List.append_assoc], ?_⟩, fun body => closes (marked body)⟩
  intro place budget other otherTally same cuts enough alike
  have goesOn : GoesOnLike behind (piece ++ other) ∨ ∃ body, first :: rest = '<' :: body := by
    by_cases isClosing
    · next closing =>
        rcases closed closing with isClosed | body
        · exact Or.inl (whole ▸ .of_isClosed isClosed following other)
        · exact Or.inr (marked body)
    · next inside =>
        rw [same inside, ← whole]
        exact Or.inl (.same behind)
  rw [List.length_append, List.length_cons] at enough
  rcases Nat.exists_eq_add_one_of_ne_zero (by omega : budget ≠ 0) with ⟨less, rfl⟩
  rcases scanAgain (piece ++ other) goesOn with ⟨token', likeToken, scanned⟩
  rcases later token' likeToken with ⟨resume, resumes, reads⟩
  rw [List.append_assoc, resumes scanned (by simp)]
  rw [whole] at counted
  refine (follows_countToken (cuts.append piece) (first :: rest) likeToken _ _ _ _ alike counted).bind
    fun _ alikeBetween => ?_
  exact reads.ends _ same cuts (by omega) alikeBetween

/-- What was read of some content is read again of a piece of the text.  In an element the piece is
closed. -/
def ReadsContent (cut? : Option Nat) (d : Declarations) (f : TextForm) (opened : List (List Char))
    (enclosing : Option (List Char)) (scope : Scope) (tally : Tally) (t : List Char) (c : Content)
    (following : List Char) (after : Tally) : Prop :=
  ∃ piece, ReadsPiece cut? d f opened (enclosing ≠ none) 1 tally t c following after
      (fun budget _ t => readContent d budget f opened enclosing scope t) piece ∧
    (enclosing ≠ none → IsClosed piece)

/-- The same where no other token is like the first one. -/
theorem readsContent_of_only {between : Tally} {token : Token} {behind piece : List Char}
    {resume : (budget : Nat) → (place t : List Char) → Reading (Content × List Char)}
    (scan : scanToken f t = .ok (token, behind))
    (only : ∀ token', token.IsLike token' → token' = token)
    (counted : countToken f opened t token behind tally = .ok ((), between))
    (resumes : Resumes d f opened enclosing scope token resume)
    (reads : ReadsPiece cut? d f opened (enclosing ≠ none) 2 between behind c following after resume
      piece)
    (closed : enclosing ≠ none → IsClosed piece) :
    ReadsContent cut? d f opened enclosing scope tally t c following after := by
  have later : ∀ token', token.IsLike token' → ∃ resume,
      Resumes d f opened enclosing scope token' resume ∧
        ReadsPiece cut? d f opened (enclosing ≠ none) 2 between behind c following after resume
          piece := by
    intro token' likeToken
    rw [only token' likeToken]
    exact ⟨resume, resumes, reads⟩
  rcases ReadsPiece.token scan counted later fun inside => Or.inl (closed inside) with
    ⟨front, readsAll, -⟩
  exact ⟨front ++ piece, readsAll, fun inside => (closed inside).append front⟩

/-! ## Behind a token -/

section

variable (d f opened enclosing scope)

/-- Content is read on, and something is put before it. -/
def readOn (before : Content → Content) (budget : Nat) (_ t : List Char) :
    Reading (Content × List Char) := do
  let (content, following) ← readContent d budget f opened enclosing scope t
  return (before content, following)

variable {d f opened enclosing scope} in
theorem ReadsPiece.readOn {isClosing : Prop} {piece : List Char}
    (h : ReadsPiece cut? d f opened isClosing 1 tally t c following after
      (fun budget _ t => readContent d budget f opened enclosing scope t) piece)
    (before : Content → Content) :
    ReadsPiece cut? d f opened isClosing 2 tally t (before c) following after
      (readOn d f opened enclosing scope before) piece :=
  (h.map before).mono (by omega)

theorem resumes_text (run : List Char) :
    Resumes d f opened enclosing scope (.text run)
      (readOn d f opened enclosing scope (·.behindText run)) := by
  intro budget place behind scanned filled
  rw [readContent.eq_3 _ _ _ _ _ _ _ filled, bind_liftM_of_eq_ok scanned]
  rfl

theorem resumes_lineEnd :
    Resumes d f opened enclosing scope .lineEnd
      (readOn d f opened enclosing scope (·.behindText ['\n'])) := by
  intro budget place behind scanned filled
  rw [readContent.eq_3 _ _ _ _ _ _ _ filled, bind_liftM_of_eq_ok scanned]
  rfl

theorem resumes_lastReturn :
    Resumes d f opened none scope .lastReturn fun _ _ _ => return (⟨['\n'], []⟩, []) := by
  intro budget place behind scanned filled
  rw [readContent.eq_3 _ _ _ _ _ _ _ filled, bind_liftM_of_eq_ok scanned]
  rfl

theorem resumes_lastBrackets (run : List Char) :
    Resumes d f opened none scope (.lastBrackets run) fun _ _ _ => return (⟨run, []⟩, []) := by
  intro budget place behind scanned filled
  rw [readContent.eq_3 _ _ _ _ _ _ _ filled, bind_liftM_of_eq_ok scanned]
  rfl

theorem resumes_cdataOpen :
    Resumes d f opened enclosing scope .cdataOpen (fun budget place t => do
      let (text, afterSection) ← readCdata f opened (t.length + 1) t
      readOn d f opened enclosing scope (·.behindText text) budget place afterSection) := by
  intro budget place behind scanned filled
  rw [readContent.eq_3 _ _ _ _ _ _ _ filled, bind_liftM_of_eq_ok scanned]
  rfl

theorem resumes_nothing :
    Resumes d f opened enclosing scope .nothing fun budget _ t =>
      readContent d budget f opened enclosing scope t := by
  intro budget place behind scanned filled
  rw [readContent.eq_3 _ _ _ _ _ _ _ filled, bind_liftM_of_eq_ok scanned]

theorem resumes_character {number : Nat} {char : Char} (found : characterOf? number = some char) :
    Resumes d f opened enclosing scope (.reference (.character number))
      (readOn d f opened enclosing scope (·.behindText [char])) := by
  intro budget place behind scanned filled
  rw [readContent.eq_3 _ _ _ _ _ _ _ filled, bind_liftM_of_eq_ok scanned]
  dsimp only
  rw [found]
  rfl

theorem resumes_predefined {name : List Char} {char : Char} (found : predefined? name = some char) :
    Resumes d f opened enclosing scope (.reference (.entity name)) (fun budget place t => do
      countPredefined
      readOn d f opened enclosing scope (·.behindText [char]) budget place t) := by
  intro budget place behind scanned filled
  rw [readContent.eq_3 _ _ _ _ _ _ _ filled, bind_liftM_of_eq_ok scanned]
  dsimp only
  rw [found]
  rfl

theorem resumes_entity {name : List Char} (found : predefined? name = none) :
    Resumes d f opened enclosing scope (.reference (.entity name)) (fun budget place t => do
      let replacement ← replacementText d opened place name
      let (inner, _) ←
        Reading.movedTo place (readContent d budget .entity (name :: opened) none scope replacement)
      readOn d f opened enclosing scope inner.append budget place t) := by
  intro budget place behind scanned filled
  rw [readContent.eq_3 _ _ _ _ _ _ _ filled, bind_liftM_of_eq_ok scanned]
  dsimp only
  rw [found]
  rfl

theorem resumes_startTag (tag : StartTag) :
    Resumes d f opened enclosing scope (.startTag tag) (fun budget place t => do
      let (element, afterElement) ← readElement d budget f opened scope place tag t
      readOn d f opened enclosing scope (·.behindChild element) budget place afterElement) := by
  intro budget place behind scanned filled
  rw [readContent.eq_3 _ _ _ _ _ _ _ filled, bind_liftM_of_eq_ok scanned]
  rfl

theorem resumes_endTag (name place : List Char) :
    Resumes d f opened (some name) scope (.endTag name place) fun _ _ t => return (.empty, t) := by
  intro budget other behind scanned filled
  rw [readContent.eq_3 _ _ _ _ _ _ _ filled, bind_liftM_of_eq_ok scanned]
  dsimp only
  rw [if_pos rfl]

end

theorem of_readContent_nil {budget : Nat}
    (h : readContent d budget f opened enclosing scope [] tally = .ok ((c, following), after)) :
    enclosing = none ∧ following = [] ∧ after = tally ∧ ∀ enough otherTally,
      readContent d (enough + 1) f opened none scope [] otherTally = .ok ((c, []), otherTally) := by
  cases budget with
  | zero => cases h
  | succ budget =>
      rw [readContent.eq_2 _ _ _ _ _ _ (Nat.succ_ne_zero budget)] at h
      cases leftover : f.hasLeftover with
      | true =>
          rw [leftover] at h
          cases h
      | false =>
          rw [leftover] at h
          cases enclosing with
          | some name => cases h
          | none =>
              cases h
              refine ⟨rfl, rfl, rfl, fun enough otherTally => ?_⟩
              rw [readContent.eq_2 _ _ _ _ _ _ (Nat.succ_ne_zero enough), leftover]
              rfl

/-- The end of a text is not inside of an element. -/
theorem eq_none_of_endOfText {place : List Char} {result : Unit}
    (h : endOfText opened place enclosing = .ok result) : enclosing = none := by
  cases enclosing with
  | none => rfl
  | some name => cases h

theorem replacementText_eq_ok {place name replacement : List Char}
    (h : replacementText d opened place name = .ok replacement) :
    (∀ otherPlace, replacementText d opened otherPlace name = .ok replacement) ∧
      d.entity? name = some (.internal replacement) ∧ opened.contains name = false := by
  unfold replacementText at h
  split at h
  · split at h
    · cases h
    · cases h
  · next e found =>
      split at h
      · cases h
      · next notOpened =>
          split at h
          · cases h
          · cases h
          · cases h
            refine ⟨fun otherPlace => ?_, found, Bool.eq_false_iff.mpr notOpened⟩
            rw [replacementText, found]
            dsimp only
            rw [if_neg notOpened]

/-- Only a bracket begins a tag. -/
theorem exists_cons_of_scanToken {token : Token} {behind : List Char}
    (scan : scanToken f t = .ok (token, behind))
    (isTag : (∃ tag, token = .startTag tag) ∨ ∃ name place, token = .endTag name place) :
    ∃ body, t = '<' :: body := by
  unfold scanToken at scan
  split at scan
  · exact absurd scan stop_ne_ok
  · exact ⟨_, rfl⟩
  · rcases exists_of_bind_eq_ok scan with ⟨result, -, scan⟩
    cases scan
    rcases isTag with ⟨tag, ⟨⟩⟩ | ⟨name, place, ⟨⟩⟩
  · cases scan
    rcases isTag with ⟨tag, ⟨⟩⟩ | ⟨name, place, ⟨⟩⟩
  · cases scan
    rcases isTag with ⟨tag, ⟨⟩⟩ | ⟨name, place, ⟨⟩⟩
  · cases scan
    rcases isTag with ⟨tag, ⟨⟩⟩ | ⟨name, place, ⟨⟩⟩
  · split at scan
    · split at scan
      · cases scan
        rcases isTag with ⟨tag, ⟨⟩⟩ | ⟨name, place, ⟨⟩⟩
      · cases scan
        rcases isTag with ⟨tag, ⟨⟩⟩ | ⟨name, place, ⟨⟩⟩
      · cases scan
        rcases isTag with ⟨tag, ⟨⟩⟩ | ⟨name, place, ⟨⟩⟩
    · split at scan
      · rcases exists_of_bind_eq_ok scan with ⟨result, -, scan⟩
        cases scan
        rcases isTag with ⟨tag, ⟨⟩⟩ | ⟨name, place, ⟨⟩⟩
      · exact absurd scan refused_ne_ok

end Content

/-- What was read of an element behind its tag is read again of a piece of the text, behind every tag
that says the same.  Behind the tag of an empty element nothing is read. -/
def ReadsElement (cut? : Option Nat) (d : Declarations) (f : TextForm) (opened : List (List Char))
    (scope : Scope) (tag : StartTag) (tally : Tally) (behind : List Char) (e : Element)
    (following : List Char) (after : Tally) : Prop :=
  ∃ piece, (∀ tag' : StartTag, tag.IsLike tag' →
      ReadsPiece cut? d f opened True 2 tally behind e following after
        (fun budget place t => readElement d budget f opened scope place tag' t) piece) ∧
    (IsClosed piece ∨ piece = [])

/-- With a budget, content is read alike of its pieces. -/
def ReadsContents (cut? : Option Nat) (d : Declarations) (budget : Nat) : Prop :=
  ∀ {f opened enclosing scope t tally c following after},
    readContent d budget f opened enclosing scope t tally = .ok ((c, following), after) →
    ReadsContent cut? d f opened enclosing scope tally t c following after

/-- With a budget, elements are read alike of their pieces. -/
def ReadsElements (cut? : Option Nat) (d : Declarations) (budget : Nat) : Prop :=
  ∀ {f opened scope place tag behind tally e following after},
    readElement d budget f opened scope place tag behind tally = .ok ((e, following), after) →
    ReadsElement cut? d f opened scope tag tally behind e following after

/-! ## What one token adds -/

section Steps

variable {cut? : Option Nat} {d : Declarations} {f : TextForm} {opened : List (List Char)}
  {enclosing : Option (List Char)} {scope : Scope} {tally between inner after : Tally}
  {t behind following : List Char} {c : Content} {token : Token}

/-- Content is read on behind a token, and something is put before it. -/
theorem readsContent_of_readOn {budget : Nat} {before : Content → Content}
    (ihContent : ReadsContents cut? d budget) (scan : scanToken f t = .ok (token, behind))
    (only : ∀ token', token.IsLike token' → token' = token)
    (counted : countToken f opened t token behind tally = .ok ((), between))
    (resumes : Resumes d f opened enclosing scope token (readOn d f opened enclosing scope before))
    (left : readOn d f opened enclosing scope before budget t behind between =
      .ok ((c, following), after)) :
    ReadsContent cut? d f opened enclosing scope tally t c following after := by
  rcases exists_between_of_bind_eq_ok left with ⟨⟨content, _⟩, later, read, given⟩
  cases given
  rcases ihContent read with ⟨piece, reads, closed⟩
  exact readsContent_of_only scan only counted resumes (reads.readOn before) closed

/-- A token that is only found at the end of the text of an entity. -/
theorem readsContent_of_last {place : List Char} {last : Content}
    (scan : scanToken f t = .ok (token, behind))
    (only : ∀ token', token.IsLike token' → token' = token)
    (counted : countToken f opened t token behind tally = .ok ((), between))
    (resumes : Resumes d f opened none scope token fun _ _ _ => return (last, []))
    (left : (do endOfText opened place enclosing; return (last, []) : Reading (Content × List Char))
      between = .ok ((c, following), after)) :
    ReadsContent cut? d f opened enclosing scope tally t c following after := by
  rcases exists_between_of_bind_eq_ok left with ⟨_, later, ending, given⟩
  rcases eq_of_liftM_eq_ok ending with ⟨ended, rfl⟩
  cases eq_none_of_endOfText ended
  cases given
  refine readsContent_of_only scan only counted resumes
    ⟨(List.append_nil behind).symm, fun _ _ _ _ same _ _ alike => ?_⟩ (absurd rfl)
  rw [same (absurd rfl)]
  exact .alike alike

/-- A section of character data, and content behind it. -/
theorem readsContent_cdata {budget : Nat} {text afterSection : List Char}
    (scan : scanToken f t = .ok (.cdataOpen, behind))
    (counted : countToken f opened t .cdataOpen behind tally = .ok ((), between))
    (read : readCdata f opened budget behind between = .ok ((text, afterSection), inner))
    (rest : ReadsContent cut? d f opened enclosing scope inner afterSection c following after) :
    ReadsContent cut? d f opened enclosing scope tally t (c.behindText text) following after := by
  rcases exists_piece_of_readCdata cut? read with ⟨front, closedFront, rfl, sectionAgain⟩
  rcases rest with ⟨piece, reads, closed⟩
  refine readsContent_of_only scan (by rintro _ ⟨⟩; rfl) counted
    (resumes_cdataOpen d f opened enclosing scope)
    (?_ : ReadsPiece cut? d f opened _ 2 between _ _ _ _ _ (front ++ piece))
    fun inside => (closed inside).append front
  refine ⟨by rw [reads.whole, List.append_assoc], ?_⟩
  intro place enough other otherTally same cuts hEnough alike
  rw [List.length_append] at hEnough
  have cutsInside := cuts.append piece
  rw [← reads.whole] at cutsInside
  have long : front.length ≤ (front ++ (piece ++ other)).length + 1 := by
    rw [List.length_append]
    omega
  rw [List.append_assoc]
  refine (sectionAgain cutsInside long alike).bind fun _ alikeInner => ?_
  exact (reads.readOn (·.behindText text)).ends place same cuts (by omega) alikeInner

/-- A predefined character, and content behind it. -/
theorem readsContent_predefined {name : List Char} {char : Char}
    (scan : scanToken f t = .ok (.reference (.entity name), behind))
    (counted : countToken f opened t (.reference (.entity name)) behind tally = .ok ((), between))
    (found : predefined? name = some char) (countedChar : countPredefined between = .ok ((), inner))
    (rest : ReadsContent cut? d f opened enclosing scope inner behind c following after) :
    ReadsContent cut? d f opened enclosing scope tally t (c.behindText [char]) following after := by
  rcases rest with ⟨piece, reads, closed⟩
  exact readsContent_of_only scan (by rintro _ ⟨⟩; rfl) counted
    (resumes_predefined d f opened enclosing scope found)
    ((reads.readOn (·.behindText [char])).behind follows_countPredefined countedChar) closed

/-- The text of an entity, and content behind the reference to it.  No more than that text is opened
while it is read. -/
theorem readsContent_entity {name replacement innerFollowing : List Char} {innerContent : Content}
    (scan : scanToken f t = .ok (.reference (.entity name), behind))
    (counted : countToken f opened t (.reference (.entity name)) behind tally = .ok ((), between))
    (found : predefined? name = none)
    (replaced : replacementText d opened t name = .ok replacement)
    (insideText : ReadsContent cut? d .entity (name :: opened) none scope between replacement
      innerContent innerFollowing inner)
    (rest : ReadsContent cut? d f opened enclosing scope inner behind c following after) :
    ReadsContent cut? d f opened enclosing scope tally t (innerContent.append c) following after := by
  rcases rest with ⟨piece, reads, closed⟩
  rcases insideText with ⟨innerPiece, readsInner, -⟩
  rcases replacementText_eq_ok replaced with ⟨replacedAgain, declared, unopened⟩
  refine readsContent_of_only scan (by rintro _ ⟨⟩; rfl) counted
    (resumes_entity d f opened enclosing scope found) ⟨reads.whole, ?_⟩ closed
  intro place enough other otherTally same cuts hEnough alike
  dsimp only
  rw [bind_liftM_of_eq_ok (replacedAgain place)]
  have smaller := Declarations.sizeUnopened_cons declared unopened
  have size : replacement.length = innerPiece.length + innerFollowing.length := by
    rw [readsInner.whole, List.length_append]
  have innerEnds : EndsLike cut? (innerContent, innerFollowing) inner
      (readContent d enough .entity (name :: opened) none scope replacement otherTally) := by
    rw [readsInner.whole]
    refine readsInner.ends place (fun _ => rfl) (by rintro cut known ⟨⟩) ?_ alike
    rw [Declarations.sizeOf] at smaller
    omega
  refine (innerEnds.movedTo place).bind fun _ alikeInner => ?_
  exact (reads.readOn innerContent.append).ends place same cuts hEnough alikeInner

/-- An element, and content behind it. -/
theorem readsContent_child {tag : StartTag} {e : Element} {afterElement : List Char}
    (scan : scanToken f t = .ok (.startTag tag, behind))
    (counted : countToken f opened t (.startTag tag) behind tally = .ok ((), between))
    (child : ReadsElement cut? d f opened scope tag between behind e afterElement inner)
    (rest : ReadsContent cut? d f opened enclosing scope inner afterElement c following after) :
    ReadsContent cut? d f opened enclosing scope tally t (c.behindChild e) following after := by
  rcases child with ⟨front, readsInside, -⟩
  rcases rest with ⟨piece, reads, closed⟩
  have asTag : ∀ tag' : StartTag, tag.IsLike tag' → ∃ resume,
      Resumes d f opened enclosing scope (.startTag tag') resume ∧
        ReadsPiece cut? d f opened (enclosing ≠ none) 2 between behind (c.behindChild e) following
          after resume (front ++ piece) := by
    intro tag' likeTag
    refine ⟨_, resumes_startTag d f opened enclosing scope tag', ?_, ?_⟩
    · rw [(readsInside tag' likeTag).whole, reads.whole, List.append_assoc]
    · intro place enough other otherTally same cuts hEnough alike
      rw [List.length_append] at hEnough
      rw [List.append_assoc]
      have cutsInside := cuts.append piece
      rw [← reads.whole] at cutsInside
      refine ((readsInside tag' likeTag).ends place (fun no => absurd trivial no) cutsInside
        (by omega) alike).bind fun _ alikeInner => ?_
      exact (reads.readOn (·.behindChild e)).ends place same cuts (by omega) alikeInner
  have resumed : ∀ token', (Token.startTag tag).IsLike token' → ∃ resume,
      Resumes d f opened enclosing scope token' resume ∧
        ReadsPiece cut? d f opened (enclosing ≠ none) 2 between behind (c.behindChild e) following
          after resume (front ++ piece) := by
    intro token' likeToken
    cases likeToken with
    | same => exact asTag tag ⟨rfl, rfl, rfl⟩
    | startTag likeTag => exact asTag _ likeTag
  rcases ReadsPiece.token scan counted resumed fun inside =>
    Or.inr (exists_cons_of_scanToken scan (Or.inl ⟨tag, rfl⟩)) with ⟨first, readsAll, -⟩
  exact ⟨_, readsAll, fun inside => ((closed inside).append front).append first⟩

/-- The end tag of the enclosing element. -/
theorem readsContent_endTag {name place : List Char}
    (scan : scanToken f t = .ok (.endTag name place, following))
    (counted : countToken f opened t (.endTag name place) following tally = .ok ((), after)) :
    ReadsContent cut? d f opened (some name) scope tally t .empty following after := by
  have resumed : ∀ token', (Token.endTag name place).IsLike token' → ∃ resume,
      Resumes d f opened (some name) scope token' resume ∧
        ReadsPiece cut? d f opened (some name ≠ none) 2 after following .empty following after
          resume [] := by
    intro token' likeToken
    cases likeToken with
    | same =>
        exact ⟨_, resumes_endTag d f opened scope name place, rfl,
          fun _ _ _ _ _ _ _ alike => .alike alike⟩
    | endTag _ _ other =>
        exact ⟨_, resumes_endTag d f opened scope name other, rfl,
          fun _ _ _ _ _ _ _ alike => .alike alike⟩
  have isOpen := exists_cons_of_scanToken scan (Or.inr ⟨name, place, rfl⟩)
  rcases ReadsPiece.token scan counted resumed fun _ => Or.inr isOpen with ⟨front, readsAll, closes⟩
  refine ⟨_, readsAll, fun _ => ?_⟩
  rw [List.append_nil]
  exact (closes isOpen).resolve_right (by rintro ⟨⟩)

/-- The end of a text that is read. -/
theorem readsContent_nil {budget : Nat}
    (h : readContent d budget f opened enclosing scope [] tally = .ok ((c, following), after)) :
    ReadsContent cut? d f opened enclosing scope tally [] c following after := by
  rcases of_readContent_nil h with ⟨rfl, rfl, rfl, again⟩
  refine ⟨[], ⟨rfl, ?_⟩, fun inside => absurd rfl inside⟩
  intro place enough other otherTally same cuts hEnough alike
  rcases Nat.exists_eq_add_one_of_ne_zero (by omega : enough ≠ 0) with ⟨less, rfl⟩
  rw [same (absurd rfl)]
  exact again less otherTally ▸ .alike alike

/-- Of an empty element only the tag is read. -/
theorem readsElement_of_isEmpty {place : List Char} {tag : StartTag} {e : OpenedElement}
    (isEmpty : tag.isEmpty = true)
    (isOpened : openElement d f opened scope place tag tally = .ok (e, after)) :
    ReadsElement cut? d f opened scope tag tally behind
      (Content.empty.toElement e.tag e.attributes) behind after := by
  refine ⟨[], fun tag' likeTag => ⟨rfl, ?_⟩, Or.inr rfl⟩
  intro otherPlace enough other otherTally _ cuts hEnough alike
  rcases Nat.exists_eq_add_one_of_ne_zero (by omega : enough ≠ 0) with ⟨less, rfl⟩
  rw [readElement]
  refine (follows_openElement d f opened scope place otherPlace likeTag _ _ _ _ alike
    isOpened).bind fun _ alikeBetween => ?_
  rw [likeTag.isEmpty, if_pos isEmpty]
  exact .alike alikeBetween

/-- Every other element has content. -/
theorem readsElement_of_content {place : List Char} {tag : StartTag} {e : OpenedElement}
    (filled : ¬ tag.isEmpty = true)
    (isOpened : openElement d f opened scope place tag tally = .ok (e, between))
    (inside : ReadsContent cut? d f opened (some tag.name) e.scope between behind c following after) :
    ReadsElement cut? d f opened scope tag tally behind (c.toElement e.tag e.attributes) following
      after := by
  rcases inside with ⟨piece, reads, closed⟩
  refine ⟨piece, fun tag' likeTag => ⟨reads.whole, ?_⟩, Or.inl (closed (by simp))⟩
  intro otherPlace enough other otherTally _ cuts hEnough alike
  rcases Nat.exists_eq_add_one_of_ne_zero (by omega : enough ≠ 0) with ⟨less, rfl⟩
  rw [readElement]
  refine (follows_openElement d f opened scope place otherPlace likeTag _ _ _ _ alike
    isOpened).bind fun _ alikeBetween => ?_
  rw [likeTag.isEmpty, if_neg filled, likeTag.name]
  exact (reads.ends otherPlace (fun no => absurd (by simp) no) cuts (by omega)
    alikeBetween).bind fun _ alikeLater => .alike alikeLater

end Steps

section Budget

variable {cut? : Option Nat} {d : Declarations} {budget : Nat}

/-- What is behind a token is looked at first, for a run of text ends where it does only if what
follows the run goes on alike. -/
theorem readsContents_succ (ihContent : ReadsContents cut? d budget)
    (ihElement : ReadsElements cut? d budget) : ReadsContents cut? d (budget + 1) := by
  intro f opened enclosing scope t tally c following after h
  by_cases filled : t = []
  · subst filled
    exact readsContent_nil h
  rw [readContent.eq_3 _ _ _ _ _ _ _ filled] at h
  rcases exists_between_of_bind_eq_ok h with ⟨⟨token, behind⟩, start, scanned, counting⟩
  rcases eq_of_liftM_eq_ok scanned with ⟨scan, rfl⟩
  rcases exists_between_of_bind_eq_ok counting with ⟨_, between, counted, left⟩
  clear h scanned counting
  cases token with
  | text run =>
      exact readsContent_of_readOn ihContent scan (by rintro _ ⟨⟩; rfl) counted
        (resumes_text d f opened enclosing scope run) left
  | lineEnd =>
      exact readsContent_of_readOn ihContent scan (by rintro _ ⟨⟩; rfl) counted
        (resumes_lineEnd d f opened enclosing scope) left
  | lastReturn =>
      exact readsContent_of_last scan (by rintro _ ⟨⟩; rfl) counted
        (resumes_lastReturn d f opened scope) left
  | lastBrackets run =>
      exact readsContent_of_last scan (by rintro _ ⟨⟩; rfl) counted
        (resumes_lastBrackets d f opened scope run) left
  | cdataOpen =>
      rcases exists_between_of_bind_eq_ok left with ⟨⟨text, afterSection⟩, inner, section', left⟩
      rcases exists_between_of_bind_eq_ok left with ⟨⟨content, _⟩, later, read, given⟩
      cases given
      exact readsContent_cdata scan counted section' (ihContent read)
  | nothing =>
      rcases ihContent left with ⟨piece, reads, closed⟩
      exact readsContent_of_only scan (by rintro _ ⟨⟩; rfl) counted
        (resumes_nothing d f opened enclosing scope) (reads.mono (by omega)) closed
  | reference r =>
      cases r with
      | character number =>
          dsimp only at left
          cases found : characterOf? number with
          | none =>
              rw [found] at left
              cases left
          | some char =>
              rw [found] at left
              exact readsContent_of_readOn ihContent scan (by rintro _ ⟨⟩; rfl) counted
                (resumes_character d f opened enclosing scope found) left
      | entity name =>
          dsimp only at left
          cases found : predefined? name with
          | some char =>
              rw [found] at left
              rcases exists_between_of_bind_eq_ok left with ⟨_, inner, countedChar, left⟩
              rcases exists_between_of_bind_eq_ok left with ⟨⟨content, _⟩, later, read, given⟩
              cases given
              exact readsContent_predefined scan counted found countedChar (ihContent read)
          | none =>
              rw [found] at left
              rcases exists_between_of_bind_eq_ok left with ⟨replacement, _, given, opening⟩
              rcases eq_of_liftM_eq_ok given with ⟨replaced, rfl⟩
              rcases exists_between_of_bind_eq_ok opening with
                ⟨⟨innerContent, _⟩, inner, moved, behindText⟩
              rcases exists_between_of_bind_eq_ok behindText with ⟨⟨content, _⟩, later, read, given⟩
              cases given
              exact readsContent_entity scan counted found replaced
                (ihContent (eq_ok_of_mapError_eq_ok moved)) (ihContent read)
  | startTag tag =>
      rcases exists_between_of_bind_eq_ok left with ⟨⟨element, _⟩, inner, inside, left⟩
      rcases exists_between_of_bind_eq_ok left with ⟨⟨content, _⟩, later, read, given⟩
      cases given
      exact readsContent_child scan counted (ihElement inside) (ihContent read)
  | endTag name place =>
      cases enclosing with
      | none => cases left
      | some expected =>
          dsimp only at left
          split at left
          · next same =>
              cases left
              subst same
              exact readsContent_endTag scan counted
          · cases left

theorem readsElements_succ (ihContent : ReadsContents cut? d budget) :
    ReadsElements cut? d (budget + 1) := by
  intro f opened scope place tag behind tally e following after h
  rw [readElement] at h
  rcases exists_between_of_bind_eq_ok h with ⟨element, between, isOpened, left⟩
  split at left
  · next isEmpty =>
      cases left
      exact readsElement_of_isEmpty isEmpty isOpened
  · next filled =>
      rcases exists_between_of_bind_eq_ok left with ⟨⟨content, _⟩, later, read, given⟩
      cases given
      exact readsElement_of_content filled isOpened (ihContent read)

end Budget

/-- Content and elements are read alike of their pieces, by induction on the budget that both of them
share. -/
theorem readsContent_and_readsElement {cut? : Option Nat} {d : Declarations} (budget : Nat) :
    ReadsContents cut? d budget ∧ ReadsElements cut? d budget := by
  induction budget with
  | zero => exact ⟨fun h => absurd h (by rintro ⟨⟩), fun h => absurd h (by rintro ⟨⟩)⟩
  | succ budget ih => exact ⟨readsContents_succ ih.1 ih.2, readsElements_succ ih.1⟩

end Xml
end DocumentGateway
