import DocumentGateway.Proofs.Xml.LineEnds
import DocumentGateway.Proofs.Xml.WrittenValue

namespace DocumentGateway
namespace Xml

/-!
# Reading written text

Between tags every line end is read as a line feed, be it a carriage return, a line feed or both in a
row.  Nothing else is changed: all other characters of a text are read back as they were before they
were escaped.
-/

/-! ## Pieces of text -/

/-- Whether a character between tags is in a run of text. -/
def isInsideText (c : Char) : Bool :=
  isXmlChar c && c != '&' && c != '<' && c != '>' && c != '\n' && c != '\r'

theorem escapeChar_cases (c : Char) :
    (escapeChar c = [c] ∧ c ≠ '&' ∧ c ≠ '<' ∧ c ≠ '>') ∨
      ∃ body, escapeChar c = '&' :: body ∧ IsReferenceTo c body := by
  unfold escapeChar
  split
  · exact Or.inr ⟨_, rfl, isReferenceTo_name "amp".toList (by decide) (by decide) (by decide)⟩
  · exact Or.inr ⟨_, rfl, isReferenceTo_name "lt".toList (by decide) (by decide) (by decide)⟩
  · exact Or.inr ⟨_, rfl, isReferenceTo_name "gt".toList (by decide) (by decide) (by decide)⟩
  · next notAnd notLess notMore => exact Or.inl ⟨rfl, notAnd, notLess, notMore⟩

/-- A character between tags is written in a run of text, as a line end or as a reference. -/
theorem isInsideText_or {c : Char} (fits : isXmlChar c = true) :
    isInsideText c = true ∨ c = '\n' ∨ c = '\r' ∨
      ∃ body, escapeChar c = '&' :: body ∧ IsReferenceTo c body := by
  rcases escapeChar_cases c with ⟨-, notAnd, notLess, notMore⟩ | reference
  · by_cases isFeed : c = '\n'
    · exact Or.inr (Or.inl isFeed)
    · by_cases isReturn : c = '\r'
      · exact Or.inr (Or.inr (Or.inl isReturn))
      · exact Or.inl (by simp [isInsideText, fits, notAnd, notLess, notMore, isFeed, isReturn])
  · exact Or.inr (Or.inr (Or.inr reference))

theorem properties_of_isInsideText {c : Char} (inside : isInsideText c = true) :
    isXmlChar c = true ∧ c ≠ '&' ∧ c ≠ '<' ∧ c ≠ '>' ∧ c ≠ '\n' ∧ c ≠ '\r' := by
  simp only [isInsideText, Bool.and_eq_true, bne_iff_ne] at inside
  rcases inside with ⟨⟨⟨⟨⟨fits, notAnd⟩, notLess⟩, notMore⟩, notFeed⟩, notReturn⟩
  exact ⟨fits, notAnd, notLess, notMore, notFeed, notReturn⟩

/-- What stands behind a run of text as it is written. -/
def EndsRun (rest : List Char) : Prop :=
  ∃ c more, rest = c :: more ∧ (c = '&' ∨ c = '<' ∨ c = '\n' ∨ c = '\r')

/-- The text does not end with a run, nor with a bracket behind one. -/
theorem EndsRun.append_ne {rest : List Char} (ends : EndsRun rest) (run : List Char) :
    run ++ rest ≠ [] ∧ run ++ rest ≠ [']'] := by
  rcases ends with ⟨c, more, rfl, kind⟩
  refine ⟨by simp, fun same => ?_⟩
  cases run with
  | nil =>
      cases same
      exact absurd kind (by decide)
  | cons d others =>
      have nonempty : others ++ c :: more ≠ [] := by simp
      exact nonempty (List.cons.inj same).2

/-- Brackets in a run do not end it, since no closing bracket of a section comes behind them. -/
theorem runLength_append {run rest : List Char} (inside : ∀ c ∈ run, isInsideText c = true)
    (ends : EndsRun rest) : runLength .narrow (run ++ rest) = run.length := by
  induction run with
  | nil =>
      rcases ends with ⟨c, more, rfl, kind⟩
      have notBracket : c ≠ ']' := by
        rintro rfl
        exact absurd kind (by decide)
      rw [List.nil_append, runLength.eq_5 _ _ _ (fun _ same => absurd same notBracket)
        (fun same => absurd same notBracket) (fun same => absurd same notBracket), List.length_nil]
      apply if_pos
      rcases kind with rfl | rfl | rfl | rfl
      · rfl
      · rfl
      · rfl
      · rfl
  | cons c more ih =>
      rw [List.forall_mem_cons] at inside
      rcases properties_of_isInsideText inside.1 with
        ⟨fits, notAnd, notLess, notMore, notFeed, notReturn⟩
      have later := ih inside.2
      have notLast := ends.append_ne more
      rcases ends with ⟨d, others, rfl, kind⟩
      have goesOn : ¬ (c = '<' || c = '&' || TextForm.narrow.endsLine c || !isXmlChar c) = true := by
        simp [notLess, notAnd, TextForm.endsLine, TextForm.isReturn, notFeed, notReturn, fits]
      have notClose : ∀ tail, more ++ d :: others ≠ ']' :: '>' :: tail := by
        intro tail same
        cases more with
        | nil =>
            cases same
            exact absurd kind (by decide)
        | cons e rest =>
            cases rest with
            | nil =>
                cases same
                exact absurd kind (by decide)
            | cons e' rest =>
                cases same
                exact absurd (inside.2 '>' (by simp)) (by decide)
      rw [List.cons_append, runLength.eq_5 _ _ _ (fun tail _ => notClose tail) (fun _ => notLast.1)
        (fun _ => notLast.2), if_neg goesOn, later, List.length_cons]

/-- A run of text is taken off the front of what is written. -/
theorem scanToken_run {c : Char} {run rest : List Char}
    (inside : ∀ d ∈ c :: run, isInsideText d = true) (ends : EndsRun rest) :
    scanToken .narrow (c :: run ++ rest) = .ok (.text (c :: run), rest) := by
  have size := runLength_append inside ends
  rcases properties_of_isInsideText (inside c List.mem_cons_self) with
    ⟨fits, notAnd, notLess, -, notFeed, notReturn⟩
  have notLast := ends.append_ne run
  have scanned : scanRun .narrow (c :: run ++ rest) = .ok (c :: run, rest) := by
    rw [scanRun, size, List.drop_left, List.take_left]
    split
    · rcases ends with ⟨d, more, same, kind⟩
      cases same
      exact absurd kind (by decide)
    · rfl
  rw [List.cons_append] at scanned ⊢
  unfold scanToken
  split
  · next same => cases same
  · next same => exact absurd (List.cons.inj same).1 notLess
  · next same => exact absurd (List.cons.inj same).1 notAnd
  · next same => exact absurd (List.cons.inj same).2 notLast.1
  · next same => exact absurd (List.cons.inj same).2 notLast.2
  · next same => exact absurd (List.cons.inj same).1 notFeed
  · next same =>
      rcases List.cons.inj same with ⟨rfl, rfl⟩
      have notEnd : ¬ TextForm.narrow.isReturn c = true := by simp [TextForm.isReturn, notReturn]
      rw [if_neg notEnd, if_pos fits]
      exact bind_of_eq_ok scanned _

theorem scanToken_lineFeed (rest : List Char) :
    scanToken .narrow ('\n' :: rest) = .ok (.lineEnd, rest) := rfl

theorem scanToken_returnLineFeed (rest : List Char) :
    scanToken .narrow ('\r' :: '\n' :: rest) = .ok (.lineEnd, rest) := rfl

/-- A carriage return that no line feed follows ends a line by itself. -/
theorem scanToken_return {c : Char} (different : c ≠ '\n') (rest : List Char) :
    scanToken .narrow ('\r' :: c :: rest) = .ok (.lineEnd, c :: rest) := by
  unfold scanToken
  split
  · next same => cases same
  · next same => exact absurd (List.cons.inj same).1 (by decide)
  · next same => exact absurd (List.cons.inj same).1 (by decide)
  · next same => cases same
  · next same => exact absurd (List.cons.inj same).1 (by decide)
  · next same => exact absurd (List.cons.inj same).1 (by decide)
  · next same =>
      rcases List.cons.inj same with ⟨rfl, rfl⟩
      rw [if_pos (by rfl)]
      split
      · next empty => cases empty
      · next feed => exact absurd (List.cons.inj feed).1 different
      · rfl

theorem scanToken_reference {r : Reference} {t behind : List Char}
    (scanned : scanReference .narrow ('&' :: t) t = .ok (r, behind)) :
    scanToken .narrow ('&' :: t) = .ok (.reference r, behind) :=
  bind_of_eq_ok scanned _

/-! ## Content -/

namespace Tally

/-- What was read indirectly, together with what is still to be read, is no more than the
document. -/
def Covers (t : List Char) (tally : Tally) : Prop :=
  tally.indirect + TextForm.narrow.octets t ≤ tally.whole

/-- Reading may go on behind whatever was read. -/
theorem Covers.isTolerable_upTo {behind : List Char} {tally : Tally} (h : tally.Covers behind) :
    (tally.upTo .narrow behind).isTolerable = true := by
  apply isTolerable_of_indirect_le
  change tally.indirect ≤ tally.whole - TextForm.narrow.octets behind + tally.again
  unfold Covers at h
  omega

end Tally

/-- A piece of the document is counted, wherever reading has come to. -/
theorem countToken_of_covers {place behind : List Char} {token : Token} {tally : Tally}
    (h : tally.Covers behind) :
    countToken .narrow [] place token behind tally = .ok ((), tally.upTo .narrow behind) :=
  tolerate_of_isTolerable h.isTolerable_upTo

/-- A text is read as some content of the element that it stands in, and what follows that content
is left, provided that there are as many steps as characters. -/
def ReadsAs (scope : Scope) (name t : List Char) (c : Content) (following : List Char) : Prop :=
  ∀ budget tally, t.length ≤ budget → tally.Covers t →
    ∃ after, readContent (.empty false) budget .narrow [] (some name) scope t tally =
      .ok ((c, following), after) ∧ after.Covers following

/-- What a piece of content stands for, and how many octets of it are read indirectly. -/
inductive Token.Means : Token → List Char → Nat → Prop
  | text {run : List Char} : Means (.text run) run 0
  | lineEnd : Means .lineEnd ['\n'] 0
  | character {number : Nat} {c : Char} (h : characterOf? number = some c) :
      Means (.reference (.character number)) [c] 0
  | entity {name : List Char} {c : Char} (h : predefined? name = some c) :
      Means (.reference (.entity name)) [c] 1

theorem Token.Means.references_le {token : Token} {inner : List Char} {references : Nat}
    (means : token.Means inner references) : references ≤ 1 := by
  cases means with
  | text => exact Nat.zero_le 1
  | lineEnd => exact Nat.zero_le 1
  | character h => exact Nat.zero_le 1
  | entity h => exact Nat.le_refl 1

/-- A text stands for some characters, piece by piece up to what follows it. -/
inductive StandsFor (following : List Char) : List Char → List Char → Prop
  | nil : StandsFor following following []
  | piece {token : Token} {front behind inner more : List Char} {references : Nat}
      (nonempty : front ≠ []) (means : token.Means inner references)
      (scanned : scanToken .narrow (front ++ behind) = .ok (token, behind))
      (later : StandsFor following behind more) :
      StandsFor following (front ++ behind) (inner ++ more)

section Content

variable {scope : Scope} {name : List Char} {c : Content} {following : List Char}

/-- Every character takes up an octet at least. -/
theorem length_le_octets (t : List Char) : t.length ≤ TextForm.narrow.octets t := by
  induction t with
  | nil => exact Nat.zero_le _
  | cons c rest ih =>
      have positive : 1 ≤ TextForm.narrow.charOctets c := Char.utf8Size_pos c
      rw [List.length_cons, TextForm.octets_cons]
      omega

/-- What a piece stands for comes before the content behind it. -/
theorem ReadsAs.piece {token : Token} {front behind inner : List Char} {references : Nat}
    (nonempty : front ≠ []) (means : token.Means inner references)
    (scanned : scanToken .narrow (front ++ behind) = .ok (token, behind))
    (later : ReadsAs scope name behind c following) :
    ReadsAs scope name (front ++ behind) (c.behindText inner) following := by
  intro budget tally enough covers
  have some := List.length_pos_iff.mpr nonempty
  have octets := length_le_octets front
  have few := means.references_le
  rw [List.length_append] at enough
  rw [Tally.Covers, TextForm.octets_append] at covers
  have filled : front ++ behind ≠ [] := fun empty => nonempty (List.append_eq_nil_iff.mp empty).1
  cases budget with
  | zero => omega
  | succ budget =>
      have coversBehind : tally.Covers behind := by
        unfold Tally.Covers
        omega
      have coversNext : ((tally.upTo .narrow behind).withIndirect references).Covers behind := by
        change tally.indirect + references + TextForm.narrow.octets behind ≤ tally.whole
        omega
      rcases later budget _ (by omega) coversNext with ⟨after, read, coversAfter⟩
      have joined := Reading.bind_of_eq_ok read fun result =>
        pure (result.1.behindText inner, result.2)
      refine ⟨after, ?_, coversAfter⟩
      rw [readContent.eq_3 _ _ _ _ _ _ _ filled]
      refine (Reading.bind_of_eq_ok (Reading.liftM_of_eq_ok scanned tally) _).trans ?_
      refine (Reading.bind_of_eq_ok (countToken_of_covers coversBehind) _).trans ?_
      cases means with
      | text => exact joined
      | lineEnd => exact joined
      | character h =>
          dsimp only
          rw [h]
          exact joined
      | entity h =>
          dsimp only
          rw [h]
          exact joined

theorem behindText_behindText (c : Content) (front back : List Char) :
    (c.behindText back).behindText front = c.behindText (front ++ back) := by
  rw [Content.behindText, Content.behindText, Content.behindText, List.append_assoc]

/-- What a text stands for comes before the content behind it. -/
theorem ReadsAs.text {t behind inner : List Char} (h : StandsFor behind t inner)
    (later : ReadsAs scope name behind c following) :
    ReadsAs scope name t (c.behindText inner) following := by
  induction h with
  | nil => exact later
  | piece nonempty means scanned _ ih =>
      rw [← behindText_behindText]
      exact ih.piece nonempty means scanned

end Content

/-! ## What escaped text stands for -/

theorem escapeChar_of_isInsideText {c : Char} (inside : isInsideText c = true) :
    escapeChar c = [c] := by
  rcases properties_of_isInsideText inside with ⟨-, notAnd, notLess, notMore, -, -⟩
  unfold escapeChar
  split
  · exact absurd rfl notAnd
  · exact absurd rfl notLess
  · exact absurd rfl notMore
  · rfl

theorem flatMap_escapeChar_run {run : List Char}
    (h : ∀ c ∈ run, isInsideText c = true) : run.flatMap escapeChar = run := by
  induction run with
  | nil => rfl
  | cons c rest ih =>
      rw [List.forall_mem_cons] at h
      rw [List.flatMap_cons, escapeChar_of_isInsideText h.1, ih h.2, List.singleton_append]

/-- A run of text ends where something else is written, or before the next tag. -/
theorem endsRun_flatMap {rest : List Char} (chars : AreXmlChars rest)
    (ends : ∀ c more, rest = c :: more → isInsideText c = false) (more : List Char) :
    EndsRun (rest.flatMap escapeChar ++ '<' :: more) := by
  cases rest with
  | nil => exact ⟨'<', more, rfl, by decide⟩
  | cons c others =>
      have outside := ends c others rfl
      rw [List.flatMap_cons, List.append_assoc]
      rcases isInsideText_or (chars c List.mem_cons_self) with
        inside | rfl | rfl | ⟨body, same, -⟩
      · exact absurd inside (Bool.eq_false_iff.mp outside)
      · exact ⟨'\n', _, rfl, by decide⟩
      · exact ⟨'\r', _, rfl, by decide⟩
      · rw [same]
        exact ⟨'&', _, rfl, by decide⟩

/-- A line feed is written only for a line feed. -/
theorem exists_cons_of_noLineFeed {rest : List Char} (ends : ∀ others, rest ≠ '\n' :: others)
    (more : List Char) :
    ∃ e others, rest.flatMap escapeChar ++ '<' :: more = e :: others ∧ e ≠ '\n' := by
  cases rest with
  | nil => exact ⟨'<', more, rfl, by decide⟩
  | cons c others =>
      have notFeed : c ≠ '\n' := fun same => ends others (same ▸ rfl)
      rw [List.flatMap_cons]
      rcases escapeChar_cases c with ⟨same, -⟩ | ⟨body, same, -⟩
      · rw [same]
        exact ⟨c, _, rfl, notFeed⟩
      · rw [same]
        exact ⟨'&', _, rfl, by decide⟩

/-- The text before a tag stands for itself, with its line ends made line feeds. -/
def StandsForItself (more t : List Char) : Prop :=
  StandsFor ('<' :: more) (t.flatMap escapeChar ++ '<' :: more) (lineFeeds t)

section StandsForItself

variable {more rest : List Char}

/-- A run of text is read up to its end at once. -/
theorem standsForItself_run {d : Char} {run : List Char}
    (inside : ∀ c ∈ d :: run, isInsideText c = true) (chars : AreXmlChars rest)
    (ends : ∀ c others, rest = c :: others → isInsideText c = false)
    (later : StandsForItself more rest) : StandsForItself more (d :: run ++ rest) := by
  have noReturn : '\r' ∉ d :: run := fun member => absurd (inside _ member) (by decide)
  have scanned := scanToken_run inside (endsRun_flatMap chars ends more)
  rw [StandsForItself, List.flatMap_append, flatMap_escapeChar_run inside, List.append_assoc,
    lineFeeds_append noReturn]
  exact .piece (List.cons_ne_nil d run) .text scanned later

theorem standsForItself_lineFeed (later : StandsForItself more rest) :
    StandsForItself more ('\n' :: rest) := by
  have kept : lineFeeds ('\n' :: rest) = ['\n'] ++ lineFeeds rest := by
    rw [← lineFeeds_append (by decide), List.singleton_append]
  have nonempty : ['\n'] ≠ [] := List.cons_ne_nil _ _
  have written : ('\n' :: rest).flatMap escapeChar ++ '<' :: more =
      ['\n'] ++ (rest.flatMap escapeChar ++ '<' :: more) := rfl
  rw [StandsForItself, kept, written]
  exact .piece nonempty .lineEnd (scanToken_lineFeed _) later

theorem standsForItself_returnLineFeed (later : StandsForItself more rest) :
    StandsForItself more ('\r' :: '\n' :: rest) := by
  have nonempty : ['\r', '\n'] ≠ [] := List.cons_ne_nil _ _
  exact .piece nonempty .lineEnd (scanToken_returnLineFeed _) later

theorem standsForItself_return (ends : ∀ others, rest ≠ '\n' :: others)
    (later : StandsForItself more rest) : StandsForItself more ('\r' :: rest) := by
  rcases exists_cons_of_noLineFeed ends more with ⟨e, others, cons, notFeed⟩
  have kept : lineFeeds ('\r' :: rest) = ['\n'] ++ lineFeeds rest := by
    rw [lineFeeds.eq_3 _ _ fun others _ same => ends others same, if_pos rfl, List.singleton_append]
  have nonempty : ['\r'] ≠ [] := List.cons_ne_nil _ _
  have scanned : scanToken .narrow (['\r'] ++ (rest.flatMap escapeChar ++ '<' :: more)) =
      .ok (.lineEnd, rest.flatMap escapeChar ++ '<' :: more) := by
    rw [cons]
    exact scanToken_return notFeed others
  have written : ('\r' :: rest).flatMap escapeChar ++ '<' :: more =
      ['\r'] ++ (rest.flatMap escapeChar ++ '<' :: more) := rfl
  rw [StandsForItself, kept, written]
  exact .piece nonempty .lineEnd scanned later

/-- What is written as a reference is not a return. -/
theorem standsForItself_reference {c : Char} {body : List Char} (same : escapeChar c = '&' :: body)
    (reference : IsReferenceTo c body) (later : StandsForItself more rest) :
    StandsForItself more (c :: rest) := by
  rcases reference.scanned with ⟨r, means, scans⟩
  have scanned := scanToken_reference (scans ('&' :: (body ++ (rest.flatMap escapeChar ++
    '<' :: more))) (rest.flatMap escapeChar ++ '<' :: more))
  have notReturn : '\r' ∉ [c] := by
    rw [List.mem_singleton]
    rintro rfl
    exact absurd (List.cons.inj same).1 (by decide)
  have kept : lineFeeds (c :: rest) = [c] ++ lineFeeds rest := by
    rw [← lineFeeds_append notReturn, List.singleton_append]
  rw [StandsForItself, List.flatMap_cons, same, List.append_assoc, kept]
  cases means with
  | character h => exact .piece (List.cons_ne_nil '&' body) (.character h) scanned later
  | entity h => exact .piece (List.cons_ne_nil '&' body) (.entity h) scanned later

end StandsForItself

/-- Every text stands for itself, by induction on its length: a run and a return with its line feed
are more than one character. -/
theorem standsFor_flatMap_escapeChar {t : List Char} (chars : AreXmlChars t) (more : List Char) :
    StandsForItself more t := by
  induction size : t.length using Nat.strongRecOn generalizing t with
  | ind n ih =>
      cases t with
      | nil => exact .nil
      | cons d rest =>
          rw [List.length_cons] at size
          have charsRest := chars.tail
          have later := ih rest.length (by omega) charsRest rfl
          rcases isInsideText_or (chars d List.mem_cons_self) with
            inside | rfl | rfl | ⟨body, same, reference⟩
          · rcases exists_run isInsideText rest with ⟨run, behind, rfl, insideRun, ends⟩
            have charsBehind := charsRest.of_subset (List.subset_append_right run behind)
            have laterBehind := ih behind.length (by rw [← size, List.length_append]; omega)
              charsBehind rfl
            exact standsForItself_run (List.forall_mem_cons.mpr ⟨inside, insideRun⟩) charsBehind ends
              laterBehind
          · exact standsForItself_lineFeed later
          · by_cases both : ∃ others, rest = '\n' :: others
            · rcases both with ⟨others, rfl⟩
              rw [List.length_cons] at size
              exact standsForItself_returnLineFeed (ih others.length (by omega) charsRest.tail rfl)
            · exact standsForItself_return (fun others same => both ⟨others, same⟩) later
          · exact standsForItself_reference same reference later

end Xml
end DocumentGateway
