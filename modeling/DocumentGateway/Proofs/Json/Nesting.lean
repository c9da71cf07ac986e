import DocumentGateway.Proofs.Json.ReadGrammar

namespace DocumentGateway
namespace Json

/-!
# How deeply texts are nested

The nesting of a text is how many of its brackets and braces are open at most, those in strings
apart.  It can be told of every text, whether that is JSON or not, and it says when there is room for
reading: a text that is read is nested no more deeply than there is room for, and one with which
reading runs out of room is nested more deeply.
-/

/-! ## Open brackets -/

/-- Where a code point stands: outside of strings, inside of one, or inside of one behind a
backslash. -/
inductive Standing where
  | outside
  | inside
  | escaped

/-- How many brackets and braces are open at most in a text that follows some open ones. -/
def deepest (opened : Nat) : Standing → Text → Nat
  | _, [] => opened
  | .escaped, _ :: rest => deepest opened .inside rest
  | .inside, p :: rest =>
    if p = .scalar '"' then deepest opened .outside rest
    else if p = .scalar '\\' then deepest opened .escaped rest
    else deepest opened .inside rest
  | .outside, p :: rest =>
    if p = .scalar '"' then deepest opened .inside rest
    else if p = .scalar '[' ∨ p = .scalar '\x7b' then deepest (opened + 1) .outside rest
    else if p = .scalar ']' ∨ p = .scalar '\x7d' then
      max opened (deepest (opened - 1) .outside rest)
    else deepest opened .outside rest

/-- How many brackets and braces are open at most in a text. -/
def nesting (t : Text) : Nat :=
  deepest 0 .outside t

/-- Whether a code point opens or closes something where it stands outside of strings. -/
def isMark (p : CodePoint) : Bool :=
  p == .scalar '"' || p == .scalar '[' || p == .scalar '\x7b' || p == .scalar ']' ||
    p == .scalar '\x7d'

theorem le_deepest (opened : Nat) (standing : Standing) (t : Text) :
    opened ≤ deepest opened standing t := by
  induction t generalizing opened standing with
  | nil => exact Nat.le_of_eq (deepest.eq_1 ..).symm
  | cons p rest ih =>
      cases standing with
      | escaped => exact ih opened .inside
      | inside =>
          rw [deepest]
          split
          · exact ih opened .outside
          · split <;> exact ih opened _
      | outside =>
          rw [deepest]
          split
          · exact ih opened .inside
          · split
            · exact (Nat.le_succ opened).trans (ih (opened + 1) .outside)
            · split
              · exact Nat.le_max_left _ _
              · exact ih opened .outside

/-- What opens and closes nothing does not count. -/
theorem deepest_append {front : Text} (plain : ∀ p ∈ front, isMark p = false) (opened : Nat)
    (rest : Text) : deepest opened .outside (front ++ rest) = deepest opened .outside rest := by
  induction front with
  | nil => rfl
  | cons p front ih =>
      rw [List.forall_mem_cons] at plain
      have unlike := plain.1
      simp only [isMark, Bool.or_eq_false_iff, beq_eq_false_iff_ne] at unlike
      rw [List.cons_append, deepest, if_neg unlike.1.1.1.1,
        if_neg (not_or_intro unlike.1.1.1.2 unlike.1.1.2), if_neg (not_or_intro unlike.1.2 unlike.2),
        ih plain.2]

theorem isMark_of_isSpace {p : CodePoint} (space : isSpace p = true) : isMark p = false := by
  simp only [isSpace, Bool.or_eq_true, beq_iff_eq] at space
  rcases space with ((rfl | rfl) | rfl) | rfl <;> rfl

theorem deepest_skipSpace (opened : Nat) (t : Text) :
    deepest opened .outside (skipSpace t) = deepest opened .outside t := by
  rcases exists_skipSpace t with ⟨blanks, blank, split⟩
  have plain : ∀ p ∈ blanks, isMark p = false := fun p member =>
    isMark_of_isSpace (areSpaces_iff.mp blank p member)
  conv => rhs; rw [split, deepest_append plain]

/-! ## Numbers and words -/

theorem isMark_of_isAsciiDigit {c : Char} (digit : isAsciiDigit c = true) :
    isMark (.scalar c) = false := by
  by_contra mark
  rw [Bool.not_eq_false] at mark
  simp only [isMark, Bool.or_eq_true, beq_iff_eq, CodePoint.scalar.injEq] at mark
  rcases mark with (((rfl | rfl) | rfl) | rfl) | rfl <;> cases digit

theorem isMark_of_mem_digits {row : List Char} (ascii : ∀ c ∈ row, isAsciiDigit c = true) :
    ∀ p ∈ Text.ofChars row, isMark p = false := by
  intro p member
  rcases List.mem_map.mp member with ⟨c, among, rfl⟩
  exact isMark_of_isAsciiDigit (ascii c among)

theorem isMark_signed {t : Text} (plain : ∀ p ∈ t, isMark p = false) (negative : Bool) :
    ∀ p ∈ signed negative t, isMark p = false := by
  cases negative with
  | false => exact plain
  | true => exact List.forall_mem_cons.mpr ⟨rfl, plain⟩

theorem isMark_of_denotesNumber {t : Text} {v : Value} (h : DenotesNumber t v) :
    ∀ p ∈ t, isMark p = false := by
  cases h with
  | integer negative isWhole _ => exact isMark_signed (isMark_of_mem_digits isWhole.1) negative
  | fraction negative isWhole some _ =>
      refine isMark_signed (List.forall_mem_append.mpr ⟨isMark_of_mem_digits isWhole.1, ?_⟩) negative
      exact List.forall_mem_cons.mpr ⟨rfl, isMark_of_mem_digits some.2⟩
  | exponent negative isWhole isFraction isExponent _ =>
      refine isMark_signed (List.forall_mem_append.mpr ⟨isMark_of_mem_digits isWhole.1,
        List.forall_mem_append.mpr ⟨?_, ?_⟩⟩) negative
      · cases isFraction with
        | none => exact fun _ member => absurd member List.not_mem_nil
        | digits some => exact List.forall_mem_cons.mpr ⟨rfl, isMark_of_mem_digits some.2⟩
      · cases isExponent with
        | intro isLetter signs some =>
            refine List.forall_mem_cons.mpr ⟨by rcases isLetter with rfl | rfl <;> rfl, ?_⟩
            refine List.forall_mem_append.mpr ⟨?_, isMark_of_mem_digits some.2⟩
            cases signs with
            | none => exact fun _ member => absurd member List.not_mem_nil
            | plus => exact List.forall_mem_singleton.mpr rfl
            | minus => exact List.forall_mem_singleton.mpr rfl

/-- Words and numbers do not count. -/
theorem deepest_of_scanPlain {t behind : Text} {v : Value} (h : scanPlain t = .ok (v, behind))
    (opened : Nat) : deepest opened .outside t = deepest opened .outside behind := by
  unfold scanPlain at h
  split at h
  · next found isWord =>
      cases h
      rcases List.exists_of_findSome?_eq_some isWord with ⟨word, listed, same⟩
      rcases Option.map_eq_some_iff.mp same with ⟨rest, dropped, pair⟩
      cases pair
      rw [eq_append_of_dropWord? dropped]
      have plain : ∀ word ∈ words, ∀ p ∈ Text.ofString word.1, isMark p = false := by decide
      exact deepest_append (plain word listed) opened behind
  · rcases exists_denotesNumber_of_scanNumber h with ⟨front, rfl, denotes⟩
    exact deepest_append (isMark_of_denotesNumber denotes) opened behind

/-! ## Strings -/

theorem deepest_of_isPiece {t : Text} {piece : Piece} (h : IsPiece t piece) (opened : Nat)
    (rest : Text) : deepest opened .inside (t ++ rest) = deepest opened .inside rest := by
  cases h with
  | @plain p noQuote noEscape _ =>
      rw [List.singleton_append, deepest, if_neg noQuote, if_neg noEscape]
  | short _ => rfl
  | @unit a b c d i j k l first second third fourth n _ =>
      have inside : ∀ {e : Char} {n : Nat} (t : Text), hexDigit? e = some n →
          deepest opened .inside (.scalar e :: t) = deepest opened .inside t := by
        intro e n t isDigit
        have noQuote : CodePoint.scalar e ≠ .scalar '"' := by
          rintro ⟨⟩
          cases isDigit
        have noEscape : CodePoint.scalar e ≠ .scalar '\\' := by
          rintro ⟨⟩
          cases isDigit
        rw [deepest, if_neg noQuote, if_neg noEscape]
      change deepest opened .inside (.scalar a :: .scalar b :: .scalar c :: .scalar d :: rest) = _
      rw [inside _ first, inside _ second, inside _ third, inside _ fourth]

/-- A string does not count, whatever is in it. -/
theorem deepest_of_denotesString {t content : Text} (h : DenotesString t content) (opened : Nat)
    (rest : Text) : deepest opened .outside (t ++ rest) = deepest opened .outside rest := by
  rcases h with ⟨texts, pieces, rfl, arePieces, -⟩
  change deepest opened .inside (texts.flatten ++ [.scalar '"'] ++ rest) = _
  induction arePieces with
  | nil => rfl
  | cons isPiece _ ih =>
      rw [List.flatten_cons, List.append_assoc, List.append_assoc, deepest_of_isPiece isPiece,
        ← List.append_assoc, ih]

theorem deepest_of_scanString {opening t behind content : Text}
    (h : scanString opening t = .ok (content, behind)) (opened : Nat) :
    deepest opened .outside (.scalar '"' :: t) = deepest opened .outside behind := by
  rcases exists_denotesString_of_scanString h with ⟨front, split, denotes⟩
  rw [split, deepest_of_denotesString denotes]

/-! ## Running out of room -/

/-- What is read in two steps does not fail in a way in which neither step fails. -/
theorem bind_ne_error {found : Except ε α} {next : α → Except ε β} {stop : ε}
    (apart : found ≠ .error stop) (following : ∀ a, next a ≠ .error stop) :
    (found >>= next) ≠ .error stop := by
  cases found with
  | error other =>
      rintro ⟨⟩
      exact apart rfl
  | ok a => exact following a

theorem scanPieces_ne_tooDeep (opening t : Text) (container : Container) :
    scanPieces opening t ≠ .error (.tooDeep container) := by
  -- Reading goes on behind a piece or fails for what stands there.
  fun_induction scanPieces opening t with
  | case4 _ _ _ _ _ _ _ _ _ ih => exact bind_ne_error ih fun _ => by rintro ⟨⟩
  | case7 _ _ _ _ _ _ ih => exact bind_ne_error ih fun _ => by rintro ⟨⟩
  | case10 _ _ _ _ _ ih => exact bind_ne_error ih fun _ => by rintro ⟨⟩
  | _ => rintro ⟨⟩

theorem scanString_ne_tooDeep (opening t : Text) (container : Container) :
    scanString opening t ≠ .error (.tooDeep container) :=
  bind_ne_error (scanPieces_ne_tooDeep opening t container) fun _ => by rintro ⟨⟩

theorem scanPlain_ne_tooDeep (t : Text) (container : Container) :
    scanPlain t ≠ .error (.tooDeep container) := by
  unfold scanPlain scanNumber scanBehindWhole
  dsimp only
  repeat' split
  all_goals rintro ⟨⟩

/-- What reading in some room says about the nesting of what it begins with.  It goes on behind
brackets that are closed, and those that were open there bound what is read; where room runs out,
more than all that room is nested. -/
structure Measures (room opened closed : Nat) (t : Text) (found : Except Stop (α × Text)) :
    Prop where
  within : ∀ a behind, found = .ok (a, behind) →
    deepest opened .outside t ≤ max (opened + room) (deepest closed .outside behind) ∧
      deepest closed .outside behind ≤ deepest opened .outside t
  beyond : ∀ container, found = .error (.tooDeep container) →
    opened + room < deepest opened .outside t

namespace Measures

variable {room opened closed : Nat} {t : Text}

theorem ok {a : α} {behind : Text}
    (upper : deepest opened .outside t ≤ max (opened + room) (deepest closed .outside behind))
    (lower : deepest closed .outside behind ≤ deepest opened .outside t) :
    Measures room opened closed t (.ok (a, behind)) where
  within := by
    rintro _ _ ⟨⟩
    exact ⟨upper, lower⟩
  beyond := nofun

/-- What does not count is left out. -/
theorem of_eq {found : Except Stop (α × Text)} {s : Text}
    (same : deepest opened .outside t = deepest opened .outside s)
    (h : Measures room opened closed s found) : Measures room opened closed t found where
  within := same ▸ h.within
  beyond := same ▸ h.beyond

/-- What is read without brackets takes no room. -/
theorem of_plain {found : Except Stop (α × Text)}
    (same : ∀ a behind, found = .ok (a, behind) →
      deepest opened .outside t = deepest opened .outside behind)
    (apart : ∀ container, found ≠ .error (.tooDeep container)) :
    Measures room opened opened t found where
  within := by
    intro a behind isFound
    rw [same a behind isFound]
    exact ⟨Nat.le_max_right _ _, Nat.le_refl _⟩
  beyond := fun container failed => absurd failed (apart container)

theorem error {stop : Stop} (apart : ∀ container, stop ≠ .tooDeep container) :
    Measures room opened closed t (.error stop : Except Stop (α × Text)) where
  within := nofun
  beyond := by
    rintro container ⟨⟩
    exact absurd rfl (apart container)

/-- What is read in two steps, first with all brackets closed again that it opens. -/
theorem bind {found : Except Stop (α × Text)} {next : α × Text → Except Stop (β × Text)}
    (first : Measures room opened opened t found)
    (following : ∀ a behind, found = .ok (a, behind) →
      Measures room opened closed behind (next (a, behind))) :
    Measures room opened closed t (found >>= next) := by
  cases isFound : found with
  | error stop =>
      refine ⟨nofun, ?_⟩
      rintro container ⟨⟩
      exact first.beyond container isFound
  | ok pair =>
      obtain ⟨a, behind⟩ := pair
      have bounds := first.within a behind isFound
      have more := following a behind isFound
      refine ⟨fun b rest isNext => ?_, fun container isNext => ?_⟩
      · have others := more.within b rest isNext
        omega
      · have others := more.beyond container isNext
        omega

/-- What is made of what is read does not matter. -/
theorem map {found : Except Stop (α × Text)} (h : Measures room opened closed t found) (f : α → β) :
    Measures room opened closed t (do let (a, behind) ← found; return (f a, behind)) := by
  cases isFound : found with
  | error stop =>
      refine ⟨nofun, ?_⟩
      rintro container ⟨⟩
      exact h.beyond container isFound
  | ok pair =>
      obtain ⟨a, behind⟩ := pair
      have bounds := h.within a behind isFound
      exact .ok bounds.1 bounds.2

/-- A bracket that stands in front takes one level of the room. -/
theorem enclosed {found : Except Stop (α × Text)} {s : Text}
    (same : deepest opened .outside t = deepest (opened + 1) .outside s)
    (h : Measures room (opened + 1) opened s found) : Measures (room + 1) opened opened t found where
  within := by
    intro a behind isFound
    have bounds := h.within a behind isFound
    omega
  beyond := by
    intro container isFound
    have exceeded := h.beyond container isFound
    omega

end Measures

theorem measures_scanString (room opened : Nat) (opening t : Text) :
    Measures room opened opened (.scalar '"' :: t) (scanString opening t) :=
  .of_plain (fun _ _ found => deepest_of_scanString found opened) (scanString_ne_tooDeep opening t)

theorem measures_scanPlain (room opened : Nat) (t : Text) :
    Measures room opened opened t (scanPlain t) :=
  .of_plain (fun _ _ found => deepest_of_scanPlain found opened) (scanPlain_ne_tooDeep t)

theorem measures_here (room opened closed : Nat) (t : Text) (cause : Cause) (remaining : Text) :
    Measures room opened closed t (.error (.here cause remaining) : Except Stop (α × Text)) :=
  .error fun _ => nofun

/-- There is no room for what a bracket opens. -/
theorem measures_tooDeep {opened : Nat} {t rest : Text}
    (same : deepest opened .outside t = deepest (opened + 1) .outside rest) (container : Container) :
    Measures 0 opened opened t (.error (.tooDeep container) : Except Stop (α × Text)) where
  within := nofun
  beyond := by
    intro _ _
    rw [same]
    exact le_deepest (opened + 1) .outside rest

/-- A bracket that closes the last open one. -/
theorem measures_closed {room opened : Nat} {t behind : Text} {a : α}
    (same : deepest (opened + 1) .outside t = max (opened + 1) (deepest opened .outside behind)) :
    Measures room (opened + 1) opened t (.ok (a, behind)) :=
  .ok (by omega) (by omega)

/-- What a budget of nested reading says about the nesting of values. -/
def MeasuresValues (budget : Nat) : Prop :=
  ∀ (room opened : Nat) (t : Text), Measures room opened opened t (scanValue room budget t)

/-- What a budget of nested reading says about the nesting of the items of an open list, which is
closed behind them. -/
def MeasuresItems (budget : Nat) : Prop :=
  ∀ (room opened : Nat) (t : Text), Measures room (opened + 1) opened t (scanItems room budget t)

def MeasuresMembers (budget : Nat) : Prop :=
  ∀ (room opened : Nat) (t : Text), Measures room (opened + 1) opened t (scanMembers room budget t)

theorem measuresValues_succ {budget : Nat} (items : MeasuresItems budget)
    (members : MeasuresMembers budget) : MeasuresValues (budget + 1) := by
  intro room opened t
  rw [scanValue.eq_def]
  dsimp only
  split
  · exact (measures_scanString room opened _ _).map Value.text
  · exact measures_tooDeep rfl .list
  · next rest room =>
      -- The spaces behind the bracket do not count.
      refine .enclosed (s := skipSpace rest) (deepest_skipSpace (opened + 1) rest).symm ?_
      split
      · next behind found =>
          rw [found]
          exact measures_closed rfl
      · exact (items room opened _).map Value.list
  · exact measures_tooDeep rfl .record
  · next rest room =>
      refine .enclosed (s := skipSpace rest) (deepest_skipSpace (opened + 1) rest).symm ?_
      split
      · next behind found =>
          rw [found]
          exact measures_closed rfl
      · exact (members room opened _).map fun pairs => Value.record (OrderedPairs.ofPairs pairs)
  · exact measures_scanPlain room opened t

theorem measuresItems_succ {budget : Nat} (value : MeasuresValues budget)
    (items : MeasuresItems budget) : MeasuresItems (budget + 1) := by
  intro room opened t
  rw [scanItems]
  refine (value room (opened + 1) t).bind fun item afterItem _ => ?_
  refine .of_eq (deepest_skipSpace (opened + 1) afterItem).symm ?_
  dsimp only
  split
  · next behind found =>
      rw [found]
      exact measures_closed rfl
  · next rest found =>
      rw [found]
      refine .of_eq (s := skipSpace rest) (deepest_skipSpace (opened + 1) rest).symm ?_
      exact (items room opened _).map (item :: ·)
  · exact measures_here ..

theorem measuresMembers_succ {budget : Nat} (value : MeasuresValues budget)
    (members : MeasuresMembers budget) : MeasuresMembers (budget + 1) := by
  intro room opened t
  rw [scanMembers.eq_def]
  dsimp only
  split
  · next rest =>
      refine (measures_scanString room (opened + 1) _ rest).bind fun name afterName _ => ?_
      refine .of_eq (deepest_skipSpace (opened + 1) afterName).symm ?_
      dsimp only
      split
      · next afterColon colon =>
          rw [colon]
          refine .of_eq (s := skipSpace afterColon)
            (deepest_skipSpace (opened + 1) afterColon).symm ?_
          refine (value room (opened + 1) _).bind fun first afterValue _ => ?_
          refine .of_eq (deepest_skipSpace (opened + 1) afterValue).symm ?_
          dsimp only
          split
          · next behind found =>
              rw [found]
              exact measures_closed rfl
          · next more found =>
              rw [found]
              refine .of_eq (s := skipSpace more) (deepest_skipSpace (opened + 1) more).symm ?_
              exact (members room opened _).map ((Key.text name, first) :: ·)
          · exact measures_here ..
      · exact measures_here ..
  · exact measures_here ..

theorem measures_scan (budget : Nat) :
    MeasuresValues budget ∧ MeasuresItems budget ∧ MeasuresMembers budget := by
  induction budget with
  | zero =>
      refine ⟨?_, ?_, ?_⟩ <;> intro room opened t
      · rw [scanValue]
        exact measures_here ..
      · rw [scanItems]
        exact measures_here ..
      · rw [scanMembers]
        exact measures_here ..
  | succ budget ih =>
      rcases ih with ⟨value, items, members⟩
      exact ⟨measuresValues_succ items members, measuresItems_succ value items,
        measuresMembers_succ value members⟩

/-! ## Whole texts -/

variable [Limits]

/-- A text that is not nested too deeply if it is there. -/
def IsShallow (text : Except Fault Text) : Prop :=
  ∀ t, text = .ok t → nesting t ≤ Limits.values t

/-- A text that is read is nested no more deeply than there is room for. -/
theorem nesting_le_of_read {t : Text} {v : Value} (h : read t = .ok v) : nesting t ≤ Limits.values t := by
  have scanned := eq_ok_of_mapError_eq_ok h
  unfold scanDocument at scanned
  split at scanned
  · cases scanned
  · rcases exists_of_bind_eq_ok scanned with ⟨⟨first, behind⟩, read, scanned⟩
    have bounds := ((measures_scan _).1 (Limits.values t) 0 (skipSpace t)).within first behind read
    have front := deepest_skipSpace 0 t
    have back := deepest_skipSpace 0 behind
    dsimp only at scanned
    split at scanned
    · next filled =>
        rw [filled, deepest] at back
        rw [nesting]
        omega
    · cases scanned

theorem isShallow_of_read {text : Except Fault Text} {t : Text} (isText : text = .ok t) {v : Value}
    (found : read t = .ok v) : IsShallow text := by
  intro s same
  obtain rfl : t = s := Except.ok.inj (isText.symm.trans same)
  exact nesting_le_of_read found

/-- A text with which reading runs out of room is nested more deeply than there is room for. -/
theorem lt_nesting_of_read {t : Text} {container : Container}
    (h : read t = .error (.tooDeep container)) : Limits.values t < nesting t := by
  have scanned : scanDocument (Limits.values t) t = .error (.tooDeep container) := by
    rw [read] at h
    cases failed : scanDocument (Limits.values t) t with
    | ok v =>
        rw [failed] at h
        cases h
    | error stop =>
        rw [failed] at h
        cases stop <;> cases h
        rfl
  unfold scanDocument at scanned
  split at scanned
  · cases scanned
  · have measures := (measures_scan (2 * t.length + 2)).1 (Limits.values t) 0 (skipSpace t)
    cases found : scanValue (Limits.values t) (2 * t.length + 2) (skipSpace t) with
    | error stop =>
        rw [found] at scanned measures
        cases scanned
        have exceeded := measures.beyond container rfl
        rw [deepest_skipSpace, Nat.zero_add] at exceeded
        exact exceeded
    | ok pair =>
        rw [bind_of_eq_ok found] at scanned
        dsimp only at scanned
        split at scanned <;> cases scanned

end Json
end DocumentGateway
