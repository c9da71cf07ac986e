import DocumentGateway.Proofs.Json.Nesting

namespace DocumentGateway

/-!
# What is denoted is read

A text that denotes a value spells it: the value is read off the front of the text, whatever follows
that does not go on with a number, unless there is too little room for reading it.  This is shown along
the grammar, with a budget of nested reading that the length of the text bounds.  Together with what is
read being denoted, and with what the nesting of a text says about the room for it, it says which texts
are read as which values, which are refused, and with which of them reading runs out of room.
-/

namespace Json

/-! ## Numbers -/

theorem not_beginsWithDigit_of_isExponent {scale : Text} {exponent : Int}
    (h : IsExponent scale exponent) (rest : Text) : beginsWithDigit (scale ++ rest) = false := by
  cases h with
  | intro isLetter => rcases isLetter with rfl | rfl <;> rfl

theorem takeSign_append {sign : Text} {negative : Bool} (h : IsSign sign negative) {t : Text}
    (digit : beginsWithDigit t = true) : Numeral.takeSign (sign ++ t) = (negative, t) := by
  cases h with
  | none =>
      rcases exists_cons_of_beginsWithDigit digit with ⟨c, rest, rfl, isDigit⟩
      rw [List.nil_append]
      -- The text begins with a digit, which is not taken for a sign.
      unfold Numeral.takeSign
      split
      · next same =>
          cases same
          cases isDigit
      · next same =>
          cases same
          cases isDigit
      · rfl
  | plus => rfl
  | minus => rfl

theorem takeExponent?_of_isExponent {scale : Text} {exponent : Int} (h : IsExponent scale exponent)
    {rest : Text} (ends : beginsWithDigit rest = false) :
    Numeral.takeExponent? (scale ++ rest) = some (exponent, rest) := by
  cases h with
  | @intro letter isLetter sign negative signs row some =>
      have taken := takeDigits_append some.2 ends
      rcases List.exists_cons_of_ne_nil some.1 with ⟨d, more, rfl⟩
      have digit : beginsWithDigit (Text.ofChars (d :: more) ++ rest) = true :=
        some.2 d List.mem_cons_self
      have signed := takeSign_append signs digit
      rw [List.cons_append, List.append_assoc, Numeral.takeExponent?]
      simp only [isLetter, Bool.or_eq_true, decide_eq_true_eq, if_true, signed, taken]
      rfl

theorem takeFraction_of_isFraction {point : Text} {fraction : List Char}
    (h : IsFraction point fraction) {scale : Text} {exponent : Int} (behind : IsExponent scale exponent)
    (rest : Text) : takeFraction (point ++ (scale ++ rest)) = (fraction, scale ++ rest) := by
  cases h with
  | none =>
      cases behind with
      | intro isLetter => rcases isLetter with rfl | rfl <;> rfl
  | digits some =>
      exact takeFraction_append some.1 some.2 (not_beginsWithDigit_of_isExponent behind rest)

theorem beginsWithDigit_of_isFraction {point : Text} {fraction : List Char}
    (h : IsFraction point fraction) {t : Text} (ends : beginsWithDigit t = false) :
    beginsWithDigit (point ++ t) = false := by
  cases h with
  | none => exact ends
  | digits _ => rfl

theorem Spells.of_denotesNumber {t : Text} {v : Value} (h : DenotesNumber t v) : Spells 0 t v := by
  refine Spells.of_scanNumber fun rest ends => ?_
  have noDigit := beginsWithDigit_of_continuesNumber ends
  cases h with
  | integer negative isWhole short =>
      rw [← signed_append, scanNumber_signed negative isWhole noDigit, scanBehindWhole]
      simp only [takeFraction_of_ends ends, takeExponent?_of_ends ends,
        if_neg (Nat.not_lt_of_le short)]
      rfl
  | fraction negative isWhole some rounds =>
      rw [Decimal.roundsTo_iff.mp rounds, ← signed_append]
      have spelled := spellsFloat_fraction isWhole some.1 some.2 negative rest ends
      simp only [Text.ofChars_append, Text.ofChars_cons, numeral_toBinary64, Int.zero_sub] at spelled
      exact spelled
  | @exponent negative whole fraction isWhole point isFraction scale exponent isExponent x rounds =>
      have noScale := not_beginsWithDigit_of_isExponent isExponent rest
      rw [Decimal.roundsTo_iff.mp rounds, ← signed_append, List.append_assoc, List.append_assoc,
        scanNumber_signed negative isWhole (beginsWithDigit_of_isFraction isFraction noScale),
        scanBehindWhole, takeFraction_of_isFraction isFraction isExponent]
      simp only [takeExponent?_of_isExponent isExponent noDigit, numeral_toBinary64]

/-! ## Strings -/

theorem shortEscape?_of_mem {letter c : Char} (stands : (letter, c) ∈ shortEscapes) :
    letter ≠ 'u' ∧ shortEscape? (.scalar letter) = some c := by
  simp only [shortEscapes, List.mem_cons, List.not_mem_nil, or_false, Prod.mk.injEq] at stands
  rcases stands with ⟨rfl, rfl⟩ | ⟨rfl, rfl⟩ | ⟨rfl, rfl⟩ | ⟨rfl, rfl⟩ | ⟨rfl, rfl⟩ | ⟨rfl, rfl⟩ |
    ⟨rfl, rfl⟩ | ⟨rfl, rfl⟩ <;> exact ⟨by decide, rfl⟩

/-- The text of a piece is read as the piece when there is something behind it. -/
theorem scanPieces_of_isPiece (opening : Text) {t : Text} {piece : Piece} (h : IsPiece t piece)
    {tail : Text} (more : tail ≠ []) :
    scanPieces opening (t ++ tail) = withPieces [piece] (scanPieces opening tail) := by
  cases h with
  | plain noQuote noEscape printable =>
      exact scanPieces_plain opening noQuote noEscape (Nat.not_lt_of_le printable) tail
  | short stands =>
      rcases shortEscape?_of_mem stands with ⟨unlike, named⟩
      exact scanPieces_shortEscape opening unlike named tail
  | @unit a b c d i j k l first second third fourth n value =>
      have read : fourDigits? (.scalar a) (.scalar b) (.scalar c) (.scalar d) = some n := by
        simp only [fourDigits?, CodePoint.char?, Option.bind_some, first, second, third, fourth, bind,
          pure]
        rw [← value]
        exact congrArg some (Fin.ofNat_val_eq_self n)
      exact scanPieces_unit opening read more

theorem scanPieces_flatten (opening : Text) {texts : List Text} {pieces : List Piece}
    (h : List.Forall₂ IsPiece texts pieces) (rest : Text) :
    scanPieces opening (texts.flatten ++ .scalar '"' :: rest) = .ok (pieces, rest) := by
  induction h with
  | nil =>
      rw [List.flatten_nil, List.nil_append, scanPieces.eq_def]
      rfl
  | @cons t piece texts pieces isPiece _ ih =>
      have more : texts.flatten ++ .scalar '"' :: rest ≠ [] :=
        List.append_ne_nil_of_right_ne_nil _ (List.cons_ne_nil _ _)
      rw [List.flatten_cons, List.append_assoc, scanPieces_of_isPiece opening isPiece more, ih]
      rfl

theorem DenotesString.exists_scanned {t content : Text} (h : DenotesString t content) :
    ∃ inside, t = .scalar '"' :: inside ∧
      ∀ opening rest, scanString opening (inside ++ rest) = .ok (content, rest) := by
  rcases h with ⟨texts, pieces, rfl, arePieces, joins⟩
  refine ⟨_, rfl, fun opening rest => ?_⟩
  rw [List.append_assoc, List.singleton_append, scanString, scanPieces_flatten opening arePieces]
  exact congrArg (fun joined => Except.ok (joined, rest)) (joins_iff.mp joins)

theorem Spells.of_denotesString {t content : Text} (h : DenotesString t content) :
    Spells 0 t (.text content) := by
  rcases h.exists_scanned with ⟨inside, rfl, scanned⟩
  refine ⟨⟨.scalar '"', inside, rfl, by decide⟩, ?_⟩
  intro room budget rest enough _
  rw [List.length_cons] at enough
  obtain ⟨fuel, rfl⟩ : ∃ fuel, budget = fuel + 1 := ⟨budget - 1, by omega⟩
  rw [List.cons_append, scanValue.eq_def]
  simp only [scanned]
  exact .ok 0 room _

/-! ## Values -/

/-- A text spells a member of a record: its name, a colon and its value, with spaces between. -/
def SpellsNamed (depth : Nat) (t : Text) (member : Key × Value) : Prop :=
  ∃ named name gap blanks s, t = named ++ (gap ++ .scalar ':' :: (blanks ++ s)) ∧
    AreSpaces gap ∧ AreSpaces blanks ∧ DenotesString named name ∧ member.1 = .text name ∧
    Spells depth s member.2

/-- The name of a member and its value are read one after the other. -/
theorem SpellsNamed.exists_scanned {depth : Nat} {t : Text} {key : Key} {value : Value}
    (h : SpellsNamed depth t (key, value)) (room : Nat) {budget : Nat} {after : Text}
    (enough : t.length ≤ budget) (ends : continuesNumber after = false) :
    ∃ name inside afterName afterColon, key = .text name ∧ t ++ after = .scalar '"' :: inside ∧
      scanString (.scalar '"' :: inside) inside = .ok (name, afterName) ∧
      skipSpace afterName = .scalar ':' :: afterColon ∧
      GivesWithin depth room (scanValue room budget (skipSpace afterColon)) (value, after) := by
  rcases h with ⟨named, name, gap, blanks, s, rfl, blankGap, blank, denotes, isName, spells⟩
  have read := spells.read room budget after (by simp at enough; omega) ends
  rcases denotes.exists_scanned with ⟨inside, rfl, scanned⟩
  refine ⟨name, inside ++ (gap ++ .scalar ':' :: (blanks ++ (s ++ after))), _, blanks ++ (s ++ after),
    isName, ?_, scanned _ _, ?_, ?_⟩
  · simp only [List.append_assoc, List.cons_append]
  · rw [skipSpace_append (areSpaces_iff.mp blankGap)]
    exact skipSpace_cons rfl _
  · rw [skipSpace_append (areSpaces_iff.mp blank), spells.skipSpace_append]
    exact read

theorem readsMembers_spellsNamed (depth : Nat) :
    ReadsMembers depth scanMembers (SpellsNamed depth) '\x7d' where
  front := by
    rintro t member ⟨named, name, gap, blanks, s, rfl, -, -, denotes, -⟩
    rcases denotes.exists_scanned with ⟨inside, rfl, -⟩
    exact ⟨.scalar '"', _, rfl, by decide⟩
  last := by
    rintro t ⟨key, value⟩ spelled room budget after behind enough ends found
    rcases spelled.exists_scanned room enough ends with
      ⟨name, inside, afterName, afterColon, rfl, begins, named, colon, read⟩
    rw [begins]
    exact scanMembers_last named colon read found
  next := by
    rintro t ⟨key, value⟩ spelled room budget after more behind members enough ends found others
    rcases spelled.exists_scanned room enough ends with
      ⟨name, inside, afterName, afterColon, rfl, begins, named, colon, read⟩
    rw [begins]
    exact scanMembers_next named colon read found others

theorem Item.amongSpaces {depth : Nat} {item : Item} (spaced : item.IsSpaced)
    (spells : Spells depth item.text item.value) :
    AmongSpaces (Spells depth) item.written item.value :=
  ⟨item.before, item.text, item.after, rfl, areSpaces_iff.mp spaced.1, areSpaces_iff.mp spaced.2,
    spells⟩

theorem Member.amongSpaces {depth : Nat} {member : Member} (spaced : member.IsSpaced)
    (name : DenotesString member.text member.name)
    (spells : Spells depth member.item.text member.item.value) :
    AmongSpaces (SpellsNamed depth) member.written (.text member.name, member.item.value) := by
  rcases spaced with ⟨before, gap, blank, after⟩
  refine ⟨member.before, member.text ++ (member.after ++ .scalar ':' ::
    (member.item.before ++ member.item.text)), member.item.after, ?_, areSpaces_iff.mp before,
    areSpaces_iff.mp after, member.text, member.name, member.after, member.item.before, member.item.text, rfl, gap, blank,
    name, rfl, spells⟩
  simp only [Member.written, Item.written, List.append_assoc, List.cons_append]

/-- Parts that are spelled at some depth each are spelled at a common one. -/
theorem Spells.exists_common {parts : List α} {text : α → Text} {value : α → Value}
    (h : ∀ part ∈ parts, ∃ depth, Spells depth (text part) (value part)) :
    ∃ depth, ∀ part ∈ parts, Spells depth (text part) (value part) := by
  induction parts with
  | nil => exact ⟨0, fun part member => absurd member List.not_mem_nil⟩
  | cons part rest ih =>
      rcases List.forall_mem_cons.mp h with ⟨⟨first, spells⟩, others⟩
      rcases ih others with ⟨depth, following⟩
      refine ⟨max first depth, List.forall_mem_cons.mpr ⟨spells.mono (Nat.le_max_left _ _), ?_⟩⟩
      exact fun other member => (following other member).mono (Nat.le_max_right _ _)

/-- A text that denotes a value spells it at some depth. -/
theorem Spells.of_denotes {t : Text} {v : Value} (h : Denotes t v) : ∃ depth, Spells depth t v := by
  induction h with
  | null => exact ⟨0, .null⟩
  | bool b => exact ⟨0, .bool b⟩
  | nan => exact ⟨0, .float .nan⟩
  | infinite negative =>
      cases negative with
      | false => exact ⟨0, .float (.infinite false)⟩
      | true => exact ⟨0, .float (.infinite true)⟩
  | number number => exact ⟨0, .of_denotesNumber number⟩
  | string string => exact ⟨0, .of_denotesString string⟩
  | emptyList blank => exact ⟨1, .of_emptyList (areSpaces_iff.mp blank)⟩
  | @list items some spaced _ ih =>
      rcases Spells.exists_common ih with ⟨depth, spells⟩
      refine ⟨depth + 1, .of_items ?_ (mt List.map_eq_nil_iff.mp some)⟩
      rw [List.forall₂_map_left_iff, List.forall₂_map_right_iff, List.forall₂_same]
      exact fun item member => item.amongSpaces (spaced item member) (spells item member)
  | emptyRecord blank => exact ⟨1, .of_emptyRecord (areSpaces_iff.mp blank)⟩
  | @record members some spaced names _ fields collapses ih =>
      rcases Spells.exists_common ih with ⟨depth, spells⟩
      -- The reader collapses the members that it has read, so it is enough that it reads these.
      rw [collapses_iff.mp collapses, namedPairs, List.map_map]
      refine ⟨depth + 1, .of_members (readsMembers_spellsNamed depth) ?_
        (mt List.map_eq_nil_iff.mp some)⟩
      rw [List.forall₂_map_left_iff, List.forall₂_map_right_iff, List.forall₂_same]
      exact fun member among => member.amongSpaces (spaced member among) (names member among)
        (spells member among)

/-! ## Lists in lists -/

/-- Lists one in another, the innermost of them empty. -/
def listsInLists : Nat → Text
  | 0 => enclosed '[' ']' [[]]
  | n + 1 => enclosed '[' ']' [listsInLists n]

theorem exists_ofChars_listsInLists (n : Nat) : ∃ chars, listsInLists n = Text.ofChars chars := by
  induction n with
  | zero => exact ⟨['[', ']'], rfl⟩
  | succ n ih =>
      rcases ih with ⟨chars, same⟩
      refine ⟨'[' :: (chars ++ [']']), ?_⟩
      rw [listsInLists, enclosed, List.intercalate_singleton, same, Text.ofChars_cons,
        Text.ofChars_append]
      rfl

theorem exists_denotes_listsInLists (n : Nat) : ∃ items, Denotes (listsInLists n) (.list items) := by
  induction n with
  | zero => exact ⟨[], .emptyList fun _ member => absurd member List.not_mem_nil⟩
  | succ n ih =>
      rcases ih with ⟨items, denotes⟩
      have spaced : AreSpaces [] := fun _ member => absurd member List.not_mem_nil
      generalize isItem : Item.mk [] (listsInLists n) [] (.list items) = item
      have valid : item.IsSpaced ∧ Denotes item.text item.value := isItem ▸ ⟨⟨spaced, spaced⟩, denotes⟩
      have written : item.written = listsInLists n := isItem ▸ List.append_nil _
      have whole : Denotes (enclosed '[' ']' ([item].map (·.written))) (.list ([item].map (·.value))) :=
        .list (List.cons_ne_nil _ _) (List.forall_mem_singleton.mpr valid.1)
          (List.forall_mem_singleton.mpr valid.2)
      rw [List.map_singleton, List.map_singleton, written] at whole
      exact ⟨_, whole⟩

theorem deepest_listsInLists (n opened : Nat) (rest : Text) :
    deepest opened .outside (listsInLists n ++ rest) =
      max (opened + n + 1) (deepest opened .outside rest) := by
  induction n generalizing opened rest with
  | zero => rfl
  | succ n ih =>
      have form : listsInLists (n + 1) ++ rest =
          .scalar '[' :: (listsInLists n ++ .scalar ']' :: rest) := by
        rw [listsInLists, enclosed, List.intercalate_singleton, List.cons_append, List.append_assoc,
          List.singleton_append]
      have closed : deepest (opened + 1) .outside (.scalar ']' :: rest) =
          max (opened + 1) (deepest opened .outside rest) := rfl
      rw [form]
      change deepest (opened + 1) .outside (listsInLists n ++ .scalar ']' :: rest) = _
      rw [ih, closed]
      omega

/-- Documents of the grammar are nested as deeply as one likes. -/
theorem exists_denotesDocument (n : Nat) :
    ∃ items, DenotesDocument (listsInLists n) (.list items) ∧ nesting (listsInLists n) = n + 1 := by
  rcases exists_denotes_listsInLists n with ⟨items, denotes⟩
  have measured := deepest_listsInLists n 0 []
  rw [List.append_nil, deepest] at measured
  refine ⟨items, ⟨[], listsInLists n, [], (List.append_nil _).symm, ?_, ?_, denotes⟩, ?_⟩
  · exact fun _ member => absurd member List.not_mem_nil
  · exact fun _ member => absurd member List.not_mem_nil
  · rw [nesting, measured]
    omega

/-! ## Documents -/

section

variable [Limits]

/-- A value with spaces around it is read, or else reading runs out of room. -/
theorem read_of_denotesDocument {t : Text} {v : Value} (h : DenotesDocument t v) :
    read t = .ok v ∨ ∃ container, read t = .error (.tooDeep container) := by
  rcases h with ⟨before, text, after, rfl, blankBefore, blankAfter, denotes⟩
  rcases Spells.of_denotes denotes with ⟨depth, spells⟩
  have blankEnd := areSpaces_iff.mp blankAfter
  -- The byte order mark is no space, and no value begins with it.
  have unmarked : (before ++ (text ++ after)).head? ≠ some (.scalar '\uFEFF') := by
    intro mark
    cases before with
    | nil =>
        rcases spells.front with ⟨p, rest, rfl, -, -, noMark⟩
        exact noMark (Option.some.inj mark)
    | cons p rest =>
        have space := areSpaces_iff.mp blankBefore p List.mem_cons_self
        rw [Option.some.inj mark] at space
        cases space
  have ends : continuesNumber after = false := by
    rw [← List.append_nil after]
    exact continuesNumber_append blankEnd rfl
  have enough : text.length ≤ 2 * (before ++ (text ++ after)).length + 2 := by
    simp only [List.length_append]
    omega
  have filled : skipSpace after = [] := List.dropWhile_eq_nil_iff.mpr blankEnd
  rw [read, scanDocument, if_neg unmarked, skipSpace_append (areSpaces_iff.mp blankBefore),
    spells.skipSpace_append]
  rcases spells.read (Limits.values (before ++ (text ++ after))) _ after enough ends with
    found | ⟨-, container, tired⟩
  · refine Or.inl ?_
    simp only [found, bind, Except.bind, filled]
    rfl
  · refine Or.inr ⟨container, ?_⟩
    rw [tired]
    rfl

/-- The texts that are read are the documents of the grammar that are not nested too deeply. -/
theorem read_eq_ok_iff {t : Text} {v : Value} :
    read t = .ok v ↔ DenotesDocument t v ∧ nesting t ≤ Limits.values t := by
  constructor
  · exact fun found => ⟨denotesDocument_of_read found, nesting_le_of_read found⟩
  · rintro ⟨denotes, shallow⟩
    rcases read_of_denotesDocument denotes with found | ⟨container, tired⟩
    · exact found
    · exact absurd (lt_nesting_of_read tired) (Nat.not_lt_of_le shallow)

/-- A text that is not nested too deeply is either read or malformed. -/
theorem read_of_nesting_le {t : Text} (shallow : nesting t ≤ Limits.values t) :
    (∃ v, read t = .ok v) ∨ ∃ fault, read t = .error (.malformed fault) := by
  cases found : read t with
  | ok v => exact Or.inl ⟨v, rfl⟩
  | error refusal =>
      cases refusal with
      | malformed fault => exact Or.inr ⟨fault, rfl⟩
      | tooDeep container => exact absurd (lt_nesting_of_read found) (Nat.not_lt_of_le shallow)

/-- With a document of the grammar that is nested too deeply, reading runs out of room. -/
theorem exists_read_eq_tooDeep {t : Text} {v : Value} (denotes : DenotesDocument t v)
    (deep : Limits.values t < nesting t) : ∃ container, read t = .error (.tooDeep container) :=
  (read_of_denotesDocument denotes).resolve_left fun found =>
    Nat.not_lt_of_le (nesting_le_of_read found) deep

/-- A text is accepted exactly when it is a document of the grammar that is not nested too deeply,
and what is returned is the value that it denotes.  Of the texts that are not nested too deeply every
other one is refused as malformed; a document that is nested too deeply is not read to its end. -/
theorem result_parse_iff_denotesDocument (t : Text) :
    (∀ v, (parse t).result = .ok v ↔ DenotesDocument t v ∧ nesting t ≤ Limits.values t) ∧
      (nesting t ≤ Limits.values t →
        ((∃ fault, (parse t).result = .error (.format (.json fault))) ↔
          ¬ ∃ v, DenotesDocument t v)) ∧
      (Limits.values t < nesting t → (∃ v, DenotesDocument t v) →
        ∃ container, (parse t).result = .error (.tooDeep container)) := by
  refine ⟨fun v => result_parse_eq_ok_iff.trans read_eq_ok_iff, fun shallow => ?_, ?_⟩
  · rw [result_parse]
    rcases read_of_nesting_le shallow with ⟨v, found⟩ | ⟨fault, refused⟩
    · rw [found]
      refine iff_of_false (fun ⟨_, failed⟩ => nomatch failed) (not_not_intro ⟨v, ?_⟩)
      exact denotesDocument_of_read found
    · rw [refused]
      refine iff_of_true ⟨fault, rfl⟩ fun ⟨v, denotes⟩ => ?_
      rw [read_eq_ok_iff.mpr ⟨denotes, shallow⟩] at refused
      cases refused
  · rintro deep ⟨v, denotes⟩
    rcases exists_read_eq_tooDeep denotes deep with ⟨container, tired⟩
    exact ⟨container, by rw [result_parse, tired]; rfl⟩

/-- There is no item behind the last comma. -/
example : (scanDocument 1 (Text.ofString "[1, 2, ]")).isOk = false := by decide +kernel

end

section

open scoped Limits

/-- A list with nothing but a space in it. -/
def spacedList : Text :=
  Text.ofString "[ ]"

theorem result_parse_spacedList :
    nesting spacedList ≤ Limits.values spacedList ∧ (parse spacedList).result = .ok (.list []) := by
  have shallow : nesting spacedList ≤ Limits.values spacedList := by decide
  have denotes : DenotesDocument spacedList (.list []) :=
    ⟨[], spacedList, [], rfl, fun _ member => absurd member List.not_mem_nil,
      fun _ member => absurd member List.not_mem_nil,
      .emptyList (List.forall_mem_singleton.mpr (Or.inl rfl))⟩
  exact ⟨shallow, ((result_parse_iff_denotesDocument spacedList).1 (.list [])).mpr ⟨denotes, shallow⟩⟩

end

end Json
end DocumentGateway
