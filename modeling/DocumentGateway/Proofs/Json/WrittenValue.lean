import DocumentGateway.Proofs.Json.ReadValue
import DocumentGateway.Proofs.Json.WrittenNumber
import DocumentGateway.Proofs.Json.WrittenText

namespace DocumentGateway

/-!
# Reading written values

Whatever is written of a plain value is read back, in any layout that keeps the texts in it.
Reading is shown with more text behind the value, which may be anything that does not go on with a
number; then members of lists and records can be read one after the other.  The number of code
points written is enough as a budget of nested reading.  The room may be too small for the depth of
the value, and reading then runs out of it.
-/

/-! ## Records with different names -/

namespace OrderedPairs

/-- Pairs with different names are kept as they are written. -/
theorem ofPairs_of_areNames (pairs : Record) (h : AreNames (pairs.map (·.1))) :
    ofPairs pairs = pairs := by
  rcases h with ⟨names, keys, distinct⟩
  refine ofPairs_of_pairwise pairs ?_
  rw [OrderedPairs.keys, keys, List.pairwise_map]
  refine List.Pairwise.imp (fun differs => ?_) distinct
  rw [Key.text_beq_text]
  exact decide_eq_false differs

end OrderedPairs

namespace Json

/-! ## Spaces -/

theorem skipSpace_append {blanks : Text} (blank : ∀ p ∈ blanks, isSpace p = true) (t : Text) :
    skipSpace (blanks ++ t) = skipSpace t :=
  List.dropWhile_append_of_pos blank

theorem skipSpace_cons {p : CodePoint} (h : isSpace p = false) (t : Text) :
    skipSpace (p :: t) = p :: t :=
  List.dropWhile_cons_of_neg (Bool.eq_false_iff.mp h)

theorem Layout.isSpace_of_mem_lineBreak (l : Layout) (depth : Nat) :
    ∀ p ∈ l.lineBreak depth, isSpace p = true := by
  intro p member
  unfold Layout.lineBreak at member
  split at member
  · rw [Text.ofChars_cons, List.mem_cons] at member
    rcases member with newline | blank
    · rw [newline]
      rfl
    · rcases List.mem_map.mp blank with ⟨c, space, same⟩
      rw [← same, List.eq_of_mem_replicate space]
      rfl
  · exact absurd member List.not_mem_nil

/-- A separator is a comma and spaces. -/
theorem Layout.separator_eq (l : Layout) (depth : Nat) :
    ∃ gap, l.separator depth = .scalar ',' :: gap ∧ ∀ p ∈ gap, isSpace p = true := by
  unfold Layout.separator
  split
  · exact ⟨l.lineBreak depth, rfl, l.isSpace_of_mem_lineBreak depth⟩
  · refine ⟨[.scalar ' '], rfl, ?_⟩
    intro p member
    rw [List.mem_singleton.mp member]
    rfl

/-! ## Values that are written without brackets or quotes -/

theorem dropWord?_cons_of_ne {c d : Char} (h : c ≠ d) (word : List Char) (t : Text) :
    dropWord? (c :: word) (.scalar d :: t) = none :=
  if_neg h

theorem exists_cons_of_beginsWithDigit {t : Text} (h : beginsWithDigit t = true) :
    ∃ c rest, t = .scalar c :: rest ∧ isAsciiDigit c = true := by
  cases t with
  | nil => exact Bool.noConfusion h
  | cons p rest =>
      cases p with
      | surrogate offset => exact Bool.noConfusion h
      | scalar c => exact ⟨c, rest, rfl, h⟩

theorem takeWhole_of_beginsWithDigit_eq_false {t : Text} (h : beginsWithDigit t = false) :
    takeWhole t = ([], t) := by
  have noZero : ∀ rest, t ≠ .scalar '0' :: rest := by
    rintro rest rfl
    exact Bool.noConfusion h
  unfold takeWhole
  split
  · next rest => exact absurd rfl (noZero rest)
  · exact takeDigits_append (fun _ member => absurd member List.not_mem_nil) h

/-- A number begins with a digit behind an optional minus. -/
theorem exists_signed_of_scanNumber {t : Text} {found : Value × Text}
    (h : scanNumber t = .ok found) :
    ∃ negative c rest, t = signed negative (.scalar c :: rest) ∧ isAsciiDigit c = true := by
  have minus : t = signed (takeMinus t).1 (takeMinus t).2 := by
    unfold takeMinus
    split <;> rfl
  have digit : beginsWithDigit (takeMinus t).2 = true := by
    by_contra noDigit
    rw [scanNumber] at h
    simp only [takeWhole_of_beginsWithDigit_eq_false (Bool.eq_false_iff.mpr noDigit)] at h
    exact absurd h (by simp)
  rcases exists_cons_of_beginsWithDigit digit with ⟨c, rest, behind, isDigit⟩
  exact ⟨(takeMinus t).1, c, rest, behind ▸ minus, isDigit⟩

/-- A number is no word. -/
theorem scanPlain_of_scanNumber {t : Text} {found : Value × Text} (h : scanNumber t = .ok found) :
    scanPlain t = .ok found := by
  rcases exists_signed_of_scanNumber h with ⟨negative, c, rest, front, digit⟩
  have differs : ∀ d : Char, isAsciiDigit d = false → d ≠ c := by
    intro d noDigit same
    rw [same, digit] at noDigit
    exact Bool.noConfusion noDigit
  have noWord : (words.findSome? fun word => (dropWord? word.1.toList t).map (word.2, ·)) = none := by
    rw [List.findSome?_eq_none_iff]
    intro word member
    rw [Option.map_eq_none_iff, front]
    simp only [words, List.mem_cons, List.not_mem_nil, or_false] at member
    cases negative with
    | false =>
        have initial : ∃ d tail, word.1.toList = d :: tail ∧ isAsciiDigit d = false := by
          rcases member with rfl | rfl | rfl | rfl | rfl | rfl <;> exact ⟨_, _, rfl, rfl⟩
        rcases initial with ⟨d, tail, spelled, noDigit⟩
        rw [spelled]
        exact dropWord?_cons_of_ne (differs d noDigit) tail rest
    | true =>
        have initial : ∃ d e tail, word.1.toList = d :: e :: tail ∧
            (d ≠ '-' ∨ isAsciiDigit e = false) := by
          rcases member with rfl | rfl | rfl | rfl | rfl | rfl <;>
            exact ⟨_, _, _, rfl, by decide⟩
        rcases initial with ⟨d, e, tail, spelled, other⟩
        rw [spelled, signed, if_pos rfl]
        by_cases sign : d = '-'
        · have noDigit := other.resolve_left (not_not_intro sign)
          rw [dropWord?, if_pos sign]
          exact dropWord?_cons_of_ne (differs e noDigit) tail rest
        · exact dropWord?_cons_of_ne sign _ _
  rw [scanPlain, noWord]
  exact h

/-! ## Room for reading -/

/-- What is found is what is expected, or else reading ran out of room, which is too small then for
some depth. -/
def GivesWithin (depth room : Nat) (found : Except Stop α) (expected : α) : Prop :=
  found = .ok expected ∨ room < depth ∧ ∃ container, found = .error (.tooDeep container)

namespace GivesWithin

variable {depth room : Nat} {found : Except Stop α} {expected : α}

theorem ok (depth room : Nat) (a : α) : GivesWithin depth room (.ok a) a :=
  Or.inl rfl

theorem eq_ok (h : GivesWithin depth room found expected) (fits : depth ≤ room) :
    found = .ok expected :=
  h.resolve_right fun small => Nat.not_lt_of_le fits small.1

theorem mono {deeper : Nat} (le : depth ≤ deeper) (h : GivesWithin depth room found expected) :
    GivesWithin deeper room found expected :=
  h.imp_right fun small => ⟨Nat.lt_of_lt_of_le small.1 le, small.2⟩

/-- What is one level deeper needs one level more. -/
theorem succ (h : GivesWithin depth room found expected) :
    GivesWithin (depth + 1) (room + 1) found expected :=
  h.imp_right fun small => ⟨Nat.succ_lt_succ small.1, small.2⟩

theorem bind {next : α → Except Stop β} {result : β} (h : GivesWithin depth room found expected)
    (following : GivesWithin depth room (next expected) result) :
    GivesWithin depth room (found >>= next) result := by
  rcases h with rfl | ⟨small, container, rfl⟩
  · exact following
  · exact Or.inr ⟨small, container, rfl⟩

end GivesWithin

/-! ## Texts that spell a value -/

/-- A text spells a value of some depth when the value is read off the front of it where there is
room for that depth, whatever follows that does not go on with a number, and when it begins with no
space, no closing bracket and no byte order mark. -/
structure Spells (depth : Nat) (t : Text) (v : Value) : Prop where
  front : ∃ p rest, t = p :: rest ∧ isSpace p = false ∧ p ≠ .scalar ']' ∧ p ≠ .scalar '\uFEFF'
  read : ∀ (room budget : Nat) (rest : Text), t.length ≤ budget → continuesNumber rest = false →
    GivesWithin depth room (scanValue room budget (t ++ rest)) (v, rest)

namespace Spells

variable {depth : Nat}

theorem mono {deeper : Nat} (le : depth ≤ deeper) {t : Text} {v : Value} (h : Spells depth t v) :
    Spells deeper t v :=
  ⟨h.front, fun room budget rest enough ends => (h.read room budget rest enough ends).mono le⟩

theorem skipSpace_append {t : Text} {v : Value} (h : Spells depth t v) (rest : Text) :
    skipSpace (t ++ rest) = t ++ rest := by
  rcases h.front with ⟨p, tail, cons, noSpace, -⟩
  rw [cons, List.cons_append]
  exact skipSpace_cons noSpace _

/-- What is read as a word or a number spells its value. -/
theorem of_scanPlain {t : Text} {v : Value}
    (front : ∃ p rest, t = p :: rest ∧ isSpace p = false ∧ p ≠ .scalar ']' ∧
      p ≠ .scalar '\uFEFF' ∧ p ≠ .scalar '[' ∧ p ≠ .scalar '\x7b' ∧ p ≠ .scalar '"')
    (read : ∀ rest, continuesNumber rest = false → scanPlain (t ++ rest) = .ok (v, rest)) :
    Spells depth t v := by
  rcases front with ⟨p, tail, cons, noSpace, noEnd, noMark, noList, noRecord, noQuote⟩
  refine ⟨⟨p, tail, cons, noSpace, noEnd, noMark⟩, ?_⟩
  intro room budget rest enough ends
  rw [cons, List.length_cons] at enough
  obtain ⟨more, same⟩ : ∃ more, budget = more + 1 := ⟨budget - 1, by omega⟩
  have plain := read rest ends
  rw [cons, List.cons_append] at plain ⊢
  rw [same, scanValue.eq_def]
  dsimp only
  split
  · next quote => exact absurd (List.cons.inj quote).1 noQuote
  · next bracket => exact absurd (List.cons.inj bracket).1 noList
  · next bracket => exact absurd (List.cons.inj bracket).1 noList
  · next brace => exact absurd (List.cons.inj brace).1 noRecord
  · next brace => exact absurd (List.cons.inj brace).1 noRecord
  · exact Or.inl plain

theorem of_scanNumber {t : Text} {v : Value}
    (read : ∀ rest, continuesNumber rest = false → scanNumber (t ++ rest) = .ok (v, rest)) :
    Spells depth t v := by
  have alone := read [] rfl
  rw [List.append_nil] at alone
  rcases exists_signed_of_scanNumber alone with ⟨negative, c, rest, front, digit⟩
  refine of_scanPlain ?_ fun rest ends => scanPlain_of_scanNumber (read rest ends)
  cases negative with
  | true => exact ⟨.scalar '-', .scalar c :: rest, front, by decide⟩
  | false =>
      refine ⟨.scalar c, rest, front, ?_⟩
      have differs : ∀ d : Char, isAsciiDigit d = false → CodePoint.scalar c ≠ .scalar d := by
        intro d noDigit same
        rw [CodePoint.scalar.inj same, noDigit] at digit
        exact Bool.noConfusion digit
      refine ⟨?_, differs _ rfl, differs _ rfl, differs _ rfl, differs _ rfl, differs _ rfl⟩
      simp only [isSpace, Bool.or_eq_false_iff, beq_eq_false_iff_ne]
      exact ⟨⟨⟨differs _ rfl, differs _ rfl⟩, differs _ rfl⟩, differs _ rfl⟩

theorem null : Spells depth (Text.ofString "null") .null :=
  of_scanPlain ⟨_, _, rfl, by decide⟩ fun _ _ => rfl

theorem bool (b : Bool) : Spells depth (Text.ofString (if b then "true" else "false")) (.bool b) := by
  cases b with
  | true => exact of_scanPlain ⟨_, _, rfl, by decide⟩ fun _ _ => rfl
  | false => exact of_scanPlain ⟨_, _, rfl, by decide⟩ fun _ _ => rfl

theorem float (x : Binary64) : Spells depth (writeFloat x) (.float x) := by
  cases x with
  | nan => exact of_scanPlain ⟨_, _, rfl, by decide⟩ fun _ _ => rfl
  | infinite negative =>
      cases negative with
      | true => exact of_scanPlain ⟨_, _, rfl, by decide⟩ fun _ _ => rfl
      | false => exact of_scanPlain ⟨_, _, rfl, by decide⟩ fun _ _ => rfl
  | finite negative rank => exact of_scanNumber fun _ ends => scanNumber_finite negative rank ends

theorem int {i : Int} (short : digitCount i.natAbs ≤ digitLimit) :
    Spells depth (Text.ofChars (integerDigits i)) (.int i) :=
  of_scanNumber fun _ ends => scanNumber_integerDigits short ends

theorem text {ascii : Bool} {t : Text} (joined : ascii = true → IsJoined t) :
    Spells depth (writeText ascii t) (.text t) := by
  refine ⟨⟨.scalar '"', _, rfl, by decide⟩, ?_⟩
  intro room budget rest enough ends
  rw [writeText, List.cons_append, List.length_cons] at enough
  obtain ⟨more, same⟩ : ∃ more, budget = more + 1 := ⟨budget - 1, by omega⟩
  rw [same, writeText, List.cons_append, List.cons_append, List.append_assoc, List.singleton_append,
    scanValue.eq_def]
  simp only [scanString_writeText ascii _ t rest joined]
  exact .ok depth room _

end Spells

/-! ## Members between brackets -/

theorem continuesNumber_append {blanks rest : Text} (blank : ∀ p ∈ blanks, isSpace p = true)
    (ends : continuesNumber rest = false) : continuesNumber (blanks ++ rest) = false := by
  match blanks, blank with
  | [], _ => exact ends
  | .surrogate _ :: _, _ => rfl
  | .scalar c :: more, blank =>
      have space := blank (.scalar c) List.mem_cons_self
      simp only [isSpace, Bool.or_eq_true, beq_iff_eq, CodePoint.scalar.injEq] at space
      rcases space with ((rfl | rfl) | rfl) | rfl <;> rfl

/-- A way of reading members of some depth one after the other, up to a closing character, where
`Spelled` says which texts spell which members. -/
structure ReadsMembers (depth : Nat)
    (scan : (room budget : Nat) → Text → Except Stop (List α × Text))
    (Spelled : Text → α → Prop) (closer : Char) : Prop where
  front : ∀ {t member}, Spelled t member →
    ∃ p rest, t = p :: rest ∧ isSpace p = false ∧ p ≠ .scalar closer
  last : ∀ {t member} (_ : Spelled t member) {room budget : Nat} {after behind : Text},
    t.length ≤ budget → continuesNumber after = false →
      skipSpace after = .scalar closer :: behind →
        GivesWithin depth room (scan room (budget + 1) (t ++ after)) ([member], behind)
  next : ∀ {t member} (_ : Spelled t member) {room budget : Nat} {after more behind : Text}
    {members : List α}, t.length ≤ budget → continuesNumber after = false →
      skipSpace after = .scalar ',' :: more →
        GivesWithin depth room (scan room budget (skipSpace more)) (members, behind) →
          GivesWithin depth room (scan room (budget + 1) (t ++ after)) (member :: members, behind)

/-- A text that spells a member, with spaces around it. -/
def AmongSpaces (Spelled : Text → α → Prop) (t : Text) (member : α) : Prop :=
  ∃ before text after, t = before ++ (text ++ after) ∧ (∀ p ∈ before, isSpace p = true) ∧
    (∀ p ∈ after, isSpace p = true) ∧ Spelled text member

/-- Texts with commas between them, in brackets. -/
def enclosed (opener closer : Char) (texts : List Text) : Text :=
  .scalar opener :: (List.intercalate [.scalar ','] texts ++ [.scalar closer])

section

variable {depth : Nat} {scan : (room budget : Nat) → Text → Except Stop (List α × Text)}
  {Spelled : Text → α → Prop} {closer : Char}

theorem ReadsMembers.exists_skipSpace (reads : ReadsMembers depth scan Spelled closer)
    {texts : List Text} {members : List α} (spelled : List.Forall₂ (AmongSpaces Spelled) texts members)
    (nonempty : texts ≠ []) (rest : Text) :
    ∃ p inside, skipSpace (List.intercalate [.scalar ','] texts ++ rest) = p :: inside ∧
      p ≠ .scalar closer := by
  cases spelled with
  | nil => exact absurd rfl nonempty
  | @cons t member texts members first others =>
      rcases first with ⟨before, text, after, rfl, blank, -, spelled⟩
      rcases reads.front spelled with ⟨p, tail, rfl, noSpace, noEnd⟩
      have front : ∃ more, List.intercalate [.scalar ','] ((before ++ (p :: tail ++ after)) :: texts) ++
          rest = before ++ p :: more := by
        cases texts with
        | nil =>
            refine ⟨tail ++ after ++ rest, ?_⟩
            rw [List.intercalate_singleton, List.append_assoc, List.cons_append, List.cons_append]
        | cons other texts =>
            refine ⟨tail ++ after ++ ([.scalar ','] ++ List.intercalate [.scalar ','] (other :: texts) ++
              rest), ?_⟩
            rw [List.intercalate_cons_cons]
            simp only [List.append_assoc, List.cons_append]
      rcases front with ⟨more, front⟩
      exact ⟨p, more, by rw [front, skipSpace_append blank, skipSpace_cons noSpace], noEnd⟩

/-- Members with commas between them are read up to the closing character, whatever spaces there
are. -/
theorem ReadsMembers.among (reads : ReadsMembers depth scan Spelled closer)
    (closes : isSpace (.scalar closer) = false)
    (ends : ∀ rest, continuesNumber (.scalar closer :: rest) = false) {texts : List Text}
    {members : List α} (spelled : List.Forall₂ (AmongSpaces Spelled) texts members)
    (nonempty : texts ≠ []) (room budget : Nat) (rest : Text)
    (enough : (List.intercalate [.scalar ','] texts).length < budget) :
    GivesWithin depth room
      (scan room budget (skipSpace (List.intercalate [.scalar ','] texts ++ .scalar closer :: rest)))
      (members, rest) := by
  induction spelled generalizing budget with
  | nil => exact absurd rfl nonempty
  | @cons t member texts members first others ih =>
      obtain ⟨fuel, rfl⟩ : ∃ fuel, budget = fuel + 1 := ⟨budget - 1, by omega⟩
      rcases first with ⟨before, text, after, rfl, blankBefore, blankAfter, spelled⟩
      have skipped : ∀ t, skipSpace (before ++ (text ++ t)) = text ++ t := by
        intro t
        rcases reads.front spelled with ⟨p, tail, rfl, noSpace, -⟩
        rw [skipSpace_append blankBefore, List.cons_append, skipSpace_cons noSpace]
      cases others with
      | nil =>
          rw [List.intercalate_singleton] at enough ⊢
          simp only [List.length_append] at enough
          rw [List.append_assoc, List.append_assoc, skipped]
          refine reads.last spelled (by omega) (continuesNumber_append blankAfter (ends rest)) ?_
          rw [skipSpace_append blankAfter, skipSpace_cons closes]
      | @cons t' member' texts members second others =>
          have tail := ih (List.cons_ne_nil _ _) fuel
          rw [List.intercalate_cons_cons] at enough ⊢
          simp only [List.length_append, List.length_cons] at enough
          generalize List.intercalate [.scalar ','] (t' :: texts) = written at *
          simp only [List.append_assoc, List.singleton_append] at enough ⊢
          rw [skipped]
          refine reads.next spelled (by omega) (continuesNumber_append blankAfter rfl) ?_
            (tail (by omega))
          rw [skipSpace_append blankAfter]
          exact skipSpace_cons rfl _

/-- What is inside of brackets is read as the members that stand there. -/
theorem ReadsMembers.enclosed (reads : ReadsMembers depth scan Spelled closer)
    (closes : isSpace (.scalar closer) = false)
    (ends : ∀ rest, continuesNumber (.scalar closer :: rest) = false) (opener : Char)
    {texts : List Text} {members : List α}
    (spelled : List.Forall₂ (AmongSpaces Spelled) texts members) (nonempty : texts ≠ [])
    (room : Nat) {budget : Nat} (enough : (Json.enclosed opener closer texts).length ≤ budget)
    (rest : Text) :
    ∃ fuel t p inside, budget = fuel + 1 ∧
      Json.enclosed opener closer texts ++ rest = .scalar opener :: t ∧
      skipSpace t = p :: inside ∧ p ≠ .scalar closer ∧
      GivesWithin depth room (scan room fuel (p :: inside)) (members, rest) := by
  rw [Json.enclosed, List.length_cons, List.length_append, List.length_singleton] at enough
  rcases reads.exists_skipSpace spelled nonempty (.scalar closer :: rest) with
    ⟨p, inside, found, noEnd⟩
  have read := reads.among closes ends spelled nonempty room (budget - 1) rest (by omega)
  refine ⟨budget - 1, _, p, inside, by omega, ?_, found, noEnd, found ▸ read⟩
  rw [Json.enclosed, List.cons_append, List.append_assoc, List.singleton_append]

end

/-- Members with separators between them are members among spaces, with commas between them. -/
theorem exists_amongSpaces {Spelled : Text → α → Prop} {front gap closing : Text}
    (blankFront : ∀ p ∈ front, isSpace p = true) (blankGap : ∀ p ∈ gap, isSpace p = true)
    (blankClosing : ∀ p ∈ closing, isSpace p = true) {texts : List Text} {members : List α}
    (spelled : List.Forall₂ Spelled texts members) (nonempty : texts ≠ []) :
    ∃ spaced, List.Forall₂ (AmongSpaces Spelled) spaced members ∧ spaced ≠ [] ∧
      front ++ (List.intercalate (.scalar ',' :: gap) texts ++ closing) =
        List.intercalate [.scalar ','] spaced := by
  induction spelled generalizing front with
  | nil => exact absurd rfl nonempty
  | @cons t member texts members first others ih =>
      cases others with
      | nil =>
          refine ⟨[front ++ (t ++ closing)],
            .cons ⟨front, t, closing, rfl, blankFront, blankClosing, first⟩ .nil,
            List.cons_ne_nil _ _, ?_⟩
          rw [List.intercalate_singleton, List.intercalate_singleton]
      | @cons t' member' texts members second others =>
          rcases ih blankGap (List.cons_ne_nil _ _) with ⟨spaced, among, some, same⟩
          have here : AmongSpaces Spelled (front ++ (t ++ [])) member :=
            ⟨front, t, [], rfl, blankFront, fun _ member => absurd member List.not_mem_nil, first⟩
          refine ⟨(front ++ (t ++ [])) :: spaced, .cons here among, List.cons_ne_nil _ _, ?_⟩
          rw [List.intercalate_cons_cons, List.intercalate_cons_of_ne_nil some, ← same]
          simp only [List.append_assoc, List.cons_append, List.nil_append]

theorem readsMembers_scanItems (depth : Nat) : ReadsMembers depth scanItems (Spells depth) ']' where
  front := by
    intro t item spells
    rcases spells.front with ⟨p, rest, cons, noSpace, noEnd, -⟩
    exact ⟨p, rest, cons, noSpace, noEnd⟩
  last := by
    intro t item spells room budget after behind enough ends found
    rw [scanItems]
    refine (spells.read room budget after enough ends).bind ?_
    simp only [found]
    exact .ok depth room _
  next := by
    intro t item spells room budget after more behind items enough ends found others
    rw [scanItems]
    refine (spells.read room budget after enough ends).bind ?_
    simp only [found]
    exact others.bind (.ok depth room _)

/-- A text spells a member of a record: the name, a colon and the value. -/
def SpellsMember (depth : Nat) (t : Text) (member : Key × Value) : Prop :=
  ∃ ascii name s, t = writeText ascii name ++ .scalar ':' :: .scalar ' ' :: s ∧
    (ascii = true → IsJoined name) ∧ member.1 = .text name ∧ Spells depth s member.2

/-- The name of a member and its value are read one after the other. -/
theorem SpellsMember.exists_scanned {depth : Nat} {t : Text} {key : Key} {value : Value}
    (h : SpellsMember depth t (key, value)) (room : Nat) {budget : Nat} {after : Text}
    (enough : t.length ≤ budget) (ends : continuesNumber after = false) :
    ∃ name inside afterColon, key = .text name ∧ t ++ after = .scalar '"' :: inside ∧
      scanString (.scalar '"' :: inside) inside = .ok (name, .scalar ':' :: afterColon) ∧
      GivesWithin depth room (scanValue room budget (skipSpace afterColon)) (value, after) := by
  rcases h with ⟨ascii, name, s, rfl, joined, isName, spells⟩
  have read := spells.read room budget after (by simp at enough; omega) ends
  have afterColon : skipSpace (.scalar ' ' :: (s ++ after)) = s ++ after :=
    spells.skipSpace_append after
  refine ⟨name, name.flatMap (writeCodePoint ascii) ++ .scalar '"' :: .scalar ':' ::
    .scalar ' ' :: (s ++ after), .scalar ' ' :: (s ++ after), isName, ?_, ?_, ?_⟩
  · simp only [writeText, List.append_assoc, List.cons_append, List.nil_append]
  · exact scanString_writeText ascii _ name _ joined
  · rw [afterColon]
    exact read

theorem scanMembers_last {depth room budget : Nat}
    {inside name afterName afterColon after behind : Text} {value : Value}
    (named : scanString (.scalar '"' :: inside) inside = .ok (name, afterName))
    (colon : skipSpace afterName = .scalar ':' :: afterColon)
    (read : GivesWithin depth room (scanValue room budget (skipSpace afterColon)) (value, after))
    (found : skipSpace after = .scalar '\x7d' :: behind) :
    GivesWithin depth room (scanMembers room (budget + 1) (.scalar '"' :: inside))
      ([(.text name, value)], behind) := by
  rw [scanMembers, bind_of_eq_ok named]
  simp only [colon]
  refine read.bind ?_
  simp only [found]
  exact .ok depth room _

theorem scanMembers_next {depth room budget : Nat}
    {inside name afterName afterColon after more behind : Text} {value : Value}
    {members : List (Key × Value)}
    (named : scanString (.scalar '"' :: inside) inside = .ok (name, afterName))
    (colon : skipSpace afterName = .scalar ':' :: afterColon)
    (read : GivesWithin depth room (scanValue room budget (skipSpace afterColon)) (value, after))
    (found : skipSpace after = .scalar ',' :: more)
    (others : GivesWithin depth room (scanMembers room budget (skipSpace more)) (members, behind)) :
    GivesWithin depth room (scanMembers room (budget + 1) (.scalar '"' :: inside))
      ((.text name, value) :: members, behind) := by
  rw [scanMembers, bind_of_eq_ok named]
  simp only [colon]
  refine read.bind ?_
  simp only [found]
  exact others.bind (.ok depth room _)

theorem readsMembers_scanMembers (depth : Nat) :
    ReadsMembers depth scanMembers (SpellsMember depth) '\x7d' where
  front := by
    rintro t member ⟨ascii, name, s, rfl, -⟩
    exact ⟨.scalar '"', _, rfl, by decide⟩
  last := by
    rintro t ⟨key, value⟩ spelled room budget after behind enough ends found
    rcases spelled.exists_scanned room enough ends with
      ⟨name, inside, afterColon, rfl, begins, named, read⟩
    rw [begins]
    exact scanMembers_last named rfl read found
  next := by
    rintro t ⟨key, value⟩ spelled room budget after more behind members enough ends found others
    rcases spelled.exists_scanned room enough ends with
      ⟨name, inside, afterColon, rfl, begins, named, read⟩
    rw [begins]
    exact scanMembers_next named rfl read found others

/-! ## Lists and records -/

theorem scanValue_list {depth room budget : Nat} {t inside behind : Text} {p : CodePoint}
    {items : List Value} (found : skipSpace t = p :: inside) (open_ : p ≠ .scalar ']')
    (read : GivesWithin depth room (scanItems room budget (p :: inside)) (items, behind)) :
    GivesWithin (depth + 1) (room + 1) (scanValue (room + 1) (budget + 1) (.scalar '[' :: t))
      (.list items, behind) := by
  rw [scanValue.eq_def]
  simp only [found]
  split
  · next closed => exact absurd (List.cons.inj closed).1 open_
  · refine (read.bind ?_).succ
    exact .ok depth room _

theorem scanValue_record {depth room budget : Nat} {t inside behind : Text} {p : CodePoint}
    {members : List (Key × Value)} (found : skipSpace t = p :: inside)
    (open_ : p ≠ .scalar '\x7d')
    (read : GivesWithin depth room (scanMembers room budget (p :: inside)) (members, behind)) :
    GivesWithin (depth + 1) (room + 1) (scanValue (room + 1) (budget + 1) (.scalar '\x7b' :: t))
      (.record (OrderedPairs.ofPairs members), behind) := by
  rw [scanValue.eq_def]
  simp only [found]
  split
  · next closed => exact absurd (List.cons.inj closed).1 open_
  · refine (read.bind ?_).succ
    exact .ok depth room _

/-- No list is read without room for it. -/
theorem scanValue_list_zero (depth budget : Nat) (t : Text) (found : Value × Text) :
    GivesWithin (depth + 1) 0 (scanValue 0 (budget + 1) (.scalar '[' :: t)) found :=
  Or.inr ⟨Nat.succ_pos depth, .list, by rw [scanValue]⟩

/-- No record is read without room for it. -/
theorem scanValue_record_zero (depth budget : Nat) (t : Text) (found : Value × Text) :
    GivesWithin (depth + 1) 0 (scanValue 0 (budget + 1) (.scalar '\x7b' :: t)) found :=
  Or.inr ⟨Nat.succ_pos depth, .record, by rw [scanValue]⟩

/-- What is written between brackets are members among spaces. -/
theorem exists_bracketed_eq_enclosed {Spelled : Text → α → Prop} (l : Layout) (depth : Nat)
    (opener closer : Char) {texts : List Text} {members : List α}
    (spelled : List.Forall₂ Spelled texts members) (nonempty : texts ≠ []) :
    ∃ spaced, List.Forall₂ (AmongSpaces Spelled) spaced members ∧ spaced ≠ [] ∧
      bracketed l depth opener closer texts = enclosed opener closer spaced := by
  rcases l.separator_eq (depth + 1) with ⟨gap, separator, blankGap⟩
  rcases exists_amongSpaces (l.isSpace_of_mem_lineBreak (depth + 1)) blankGap
    (l.isSpace_of_mem_lineBreak depth) spelled nonempty with ⟨spaced, among, some, same⟩
  refine ⟨spaced, among, some, ?_⟩
  rw [enclosed, ← same, ← separator]
  match texts, nonempty with
  | _ :: _, _ => simp only [bracketed, List.append_assoc, List.cons_append]

theorem skipSpace_closed {blanks : Text} (blank : ∀ p ∈ blanks, isSpace p = true) (closer : Char)
    (closes : isSpace (.scalar closer) = false) (rest : Text) :
    skipSpace (List.intercalate [.scalar ','] [blanks] ++ [.scalar closer] ++ rest) =
      .scalar closer :: rest := by
  rw [List.intercalate_singleton, List.append_assoc, skipSpace_append blank, List.singleton_append,
    skipSpace_cons closes]

namespace Spells

theorem of_emptyList {blanks : Text} (blank : ∀ p ∈ blanks, isSpace p = true) :
    Spells 1 (enclosed '[' ']' [blanks]) (.list []) := by
  refine ⟨⟨.scalar '[', _, rfl, by decide⟩, ?_⟩
  intro room budget rest enough _
  match room, budget, enough with
  | 0, fuel + 1, _ => exact scanValue_list_zero 0 fuel _ _
  | room + 1, fuel + 1, _ =>
      rw [enclosed, List.cons_append, scanValue.eq_def]
      simp only [skipSpace_closed blank ']' rfl rest]
      exact .ok 1 _ _

theorem of_emptyRecord {blanks : Text} (blank : ∀ p ∈ blanks, isSpace p = true) :
    Spells 1 (enclosed '\x7b' '\x7d' [blanks]) (.record []) := by
  refine ⟨⟨.scalar '\x7b', _, rfl, by decide⟩, ?_⟩
  intro room budget rest enough _
  match room, budget, enough with
  | 0, fuel + 1, _ => exact scanValue_record_zero 0 fuel _ _
  | room + 1, fuel + 1, _ =>
      rw [enclosed, List.cons_append, scanValue.eq_def]
      simp only [skipSpace_closed blank '\x7d' rfl rest]
      exact .ok 1 _ _

theorem of_items {texts : List Text} {values : List Value}
    (spelled : List.Forall₂ (AmongSpaces (Spells depth)) texts values) (nonempty : texts ≠ []) :
    Spells (depth + 1) (enclosed '[' ']' texts) (.list values) := by
  refine ⟨⟨.scalar '[', _, rfl, by decide⟩, ?_⟩
  intro room budget rest enough _
  obtain ⟨fuel, t, p, inside, rfl, form, found, noEnd, read⟩ := (readsMembers_scanItems depth).enclosed
    rfl (fun _ => rfl) '[' spelled nonempty (room - 1) enough rest
  rw [form]
  cases room with
  | zero => exact scanValue_list_zero depth fuel t _
  | succ room => exact scanValue_list found noEnd read

theorem of_members {Spelled : Text → Key × Value → Prop}
    (reads : ReadsMembers depth scanMembers Spelled '\x7d') {texts : List Text}
    {members : List (Key × Value)} (spelled : List.Forall₂ (AmongSpaces Spelled) texts members)
    (nonempty : texts ≠ []) :
    Spells (depth + 1) (enclosed '\x7b' '\x7d' texts) (.record (OrderedPairs.ofPairs members)) := by
  refine ⟨⟨.scalar '\x7b', _, rfl, by decide⟩, ?_⟩
  intro room budget rest enough _
  obtain ⟨fuel, t, p, inside, rfl, form, found, noEnd, read⟩ :=
    reads.enclosed rfl (fun _ => rfl) '\x7b' spelled nonempty (room - 1) enough rest
  rw [form]
  cases room with
  | zero => exact scanValue_record_zero depth fuel t _
  | succ room => exact scanValue_record found noEnd read

theorem list (l : Layout) (indent : Nat) {texts : List Text} {items : List Value}
    (spelled : List.Forall₂ (Spells depth) texts items) :
    Spells (depth + 1) (bracketed l indent '[' ']' texts) (.list items) := by
  by_cases nonempty : texts = []
  · subst nonempty
    cases spelled
    exact (of_emptyList fun _ member => absurd member List.not_mem_nil).mono (Nat.le_add_left 1 depth)
  · rcases exists_bracketed_eq_enclosed l indent '[' ']' spelled nonempty with
      ⟨spaced, among, some, form⟩
    rw [form]
    exact of_items among some

theorem record (l : Layout) (indent : Nat) {texts : List Text} {fields : List (Key × Value)}
    (names : AreNames (fields.map (·.1))) (spelled : List.Forall₂ (SpellsMember depth) texts fields) :
    Spells (depth + 1) (bracketed l indent '\x7b' '\x7d' texts) (.record fields) := by
  by_cases nonempty : texts = []
  · subst nonempty
    cases spelled
    exact (of_emptyRecord fun _ member => absurd member List.not_mem_nil).mono
      (Nat.le_add_left 1 depth)
  · rcases exists_bracketed_eq_enclosed l indent '\x7b' '\x7d' spelled nonempty with
      ⟨spaced, among, some, form⟩
    have read := of_members (readsMembers_scanMembers depth) among some
    rw [OrderedPairs.ofPairs_of_areNames fields names] at read
    rw [form]
    exact read

end Spells

/-! ## Values -/

theorem keys_readBackFields (fields : List (Key × Value)) :
    (Value.readBackFields fields).map (·.1) = fields.map (·.1) := by
  rw [Value.readBackFields_eq_map, List.map_map]
  rfl

/-- A layout keeps a text unless it writes the two halves of a surrogate pair by number. -/
def Layout.Keeps (l : Layout) (t : Text) : Prop :=
  l.ascii = true → IsJoined t

mutual

/-- What is written of a plain value spells what is to be read back of it, if the layout keeps the
texts in the value. -/
theorem spells_writeAt (l : Layout) (indent : Nat) :
    (v : Value) → v.IsPlain → (∀ s ∈ v.texts, l.Keeps s) →
      ∀ {t}, writeAt l indent v = .ok t → Spells v.depth t v.readBack
  | .null, _, _, t, h => by
    rw [writeAt] at h
    exact Except.ok.inj h ▸ Spells.null
  | .bool b, _, _, t, h => by
    rw [writeAt] at h
    exact Except.ok.inj h ▸ Spells.bool b
  | .int i, short, _, t, h => by
    rw [writeAt, writeInt, if_neg (Nat.not_lt_of_le short)] at h
    exact Except.ok.inj h ▸ Spells.int short
  | .float x, _, _, t, h => by
    rw [writeAt] at h
    exact Except.ok.inj h ▸ Spells.float x
  | .ownNan _, _, _, t, h => by
    rw [writeAt] at h
    exact Except.ok.inj h ▸ Spells.float .nan
  | .text content, _, keeps, t, h => by
    rw [writeAt] at h
    exact Except.ok.inj h ▸ Spells.text (keeps content List.mem_cons_self)
  | .list items, plain, keeps, t, h => by
    rw [writeAt_list] at h
    rcases exists_of_map_eq_ok h with ⟨texts, written, rfl⟩
    exact Spells.list l indent (spells_writeItems l indent items plain keeps (Nat.le_refl _) written)
  | .tuple items, plain, keeps, t, h => by
    rw [writeAt_tuple, writeAt_list] at h
    rcases exists_of_map_eq_ok h with ⟨texts, written, rfl⟩
    exact Spells.list l indent (spells_writeItems l indent items plain keeps (Nat.le_refl _) written)
  | .mapping entries, plain, keeps, t, h => by
    rw [writeAt_mapping] at h
    rcases exists_of_map_eq_ok h with ⟨texts, written, rfl⟩
    refine Spells.record l indent ?_
      (spells_writeFields l indent entries plain.1 plain.2 keeps (Nat.le_refl _) written)
    rw [keys_readBackFields]
    exact plain.1
  | .record fields, plain, keeps, t, h => by
    rw [writeAt_record] at h
    cases hidden : itemsField? fields with
    | some value =>
        rw [hidden] at h
        exact absurd h (by simp)
    | none =>
        rw [hidden] at h
        simp only [writeAt_mapping] at h
        rcases exists_of_map_eq_ok h with ⟨texts, written, rfl⟩
        refine Spells.record l indent ?_
          (spells_writeFields l indent fields plain.1 plain.2 keeps (Nat.le_refl _) written)
        rw [keys_readBackFields]
        exact plain.1

theorem spells_writeItems (l : Layout) (indent : Nat) :
    (items : List Value) → Value.ArePlain items → (∀ s ∈ Value.textsOfAll items, l.Keeps s) →
      ∀ {depth}, Value.depthOfAll items ≤ depth → ∀ {texts}, writeItems l indent items = .ok texts →
        List.Forall₂ (Spells depth) texts (Value.readBackAll items)
  | [], _, _, _, _, texts, h => by
    rw [writeItems] at h
    exact Except.ok.inj h ▸ List.Forall₂.nil
  | item :: rest, plain, keeps, depth, fits, texts, h => by
    rw [writeItems_cons] at h
    rcases exists_of_bind_eq_ok h with ⟨t, first, h⟩
    rcases exists_of_map_eq_ok h with ⟨others, following, rfl⟩
    rw [Value.textsOfAll, List.forall_mem_append] at keeps
    rw [Value.depthOfAll, Nat.max_le] at fits
    exact .cons ((spells_writeAt l (indent + 1) item plain.1 keeps.1 first).mono fits.1)
      (spells_writeItems l indent rest plain.2 keeps.2 fits.2 following)

theorem spells_writeFields (l : Layout) (indent : Nat) :
    (fields : List (Key × Value)) → AreNames (fields.map (·.1)) → Value.HavePlainValues fields →
      (∀ s ∈ Value.textsOfFields fields, l.Keeps s) →
        ∀ {depth}, Value.depthOfFields fields ≤ depth →
          ∀ {texts}, writeFields l indent fields = .ok texts →
            List.Forall₂ (SpellsMember depth) texts (Value.readBackFields fields)
  | [], _, _, _, _, _, texts, h => by
    rw [writeFields] at h
    exact Except.ok.inj h ▸ List.Forall₂.nil
  | (key, value) :: rest, names, plain, keeps, depth, fits, texts, h => by
    rcases names.of_cons with ⟨name, isName, otherNames, -⟩
    obtain rfl : key = .text name := isName
    rw [writeFields_cons] at h
    rcases exists_of_bind_eq_ok h with ⟨t, first, h⟩
    rcases exists_of_map_eq_ok h with ⟨others, following, rfl⟩
    rw [Value.textsOfFields, List.forall_mem_append, List.forall_mem_append,
      List.forall_mem_singleton] at keeps
    rw [Value.depthOfFields, Nat.max_le] at fits
    exact .cons
      ⟨l.ascii, name, t, rfl, keeps.1.1, rfl,
        (spells_writeAt l (indent + 1) value plain.1 keeps.1.2 first).mono fits.1⟩
      (spells_writeFields l indent rest otherNames plain.2 keeps.2 fits.2 following)

end

/-- A plain value that is written is read back, if the layout keeps the texts in it and there is
room for its depth. -/
theorem read_write [Limits] {l : Layout} {v : Value} (keeps : ∀ s ∈ v.texts, l.Keeps s)
    (plain : v.IsPlain) (fits : v.depth ≤ Limits.commonValues) {t : Text} (written : write l v = .ok t) :
    read t = .ok v.readBack := by
  have spells := spells_writeAt l 0 v plain keeps written
  have room := fits.trans (Limits.commonValues_le t)
  have scanned := (spells.read (Limits.values t) (2 * t.length + 2) [] (by omega) rfl).eq_ok room
  rcases spells.front with ⟨p, rest, cons, noSpace, -, noMark⟩
  rw [List.append_nil] at scanned
  exact read_of_scanValue (cons ▸ rfl) noSpace noMark scanned

/-- Without the restriction to ASCII every text is kept. -/
theorem Layout.keeps_of_ascii_eq_false {l : Layout} (h : l.ascii = false) (t : Text) : l.Keeps t := by
  intro restricted
  rw [h] at restricted
  cases restricted

end Json
end DocumentGateway
