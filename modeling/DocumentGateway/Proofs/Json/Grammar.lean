import DocumentGateway.Proofs.Json.WrittenValue
import DocumentGateway.Proofs.Number.Rounding
import DocumentGateway.Proofs.Response.Classification
import DocumentGateway.Proofs.Text.Decoding

namespace DocumentGateway

/-!
# The grammar of JSON

Which texts are JSON, and which value each of them denotes, is said here without a reader: a value
is denoted by whatever is put together from the texts of its parts.  The grammar is that of RFC 8259
with words for the three numbers that are not finite.

A string is denoted in two steps.  Its text is made of pieces, which are code points that stand for
themselves, short escapes and code units spelled by number; and the pieces then join to the content,
where a high unit and a low one right behind it are one character.  A number without fraction and
exponent is an integer, and any other one is rounded correctly.  The members of a record give it
their names in the order in which each of them first occurs, with the value it has last.
-/

/-! ## Records by their names -/

namespace OrderedPairs

theorem get?_eq_none_of_not_mem {pairs : Record} {name : Text} (names : AreNames pairs.keys)
    (absent : Key.text name ∉ pairs.keys) : pairs.get? (.text name) = none := by
  rw [get?, Option.map_eq_none_iff, List.find?_eq_none]
  intro pair member
  have differs := AreNames.beq_eq_false (names.append absent) (List.mem_map_of_mem member)
  rw [differs]
  exact Bool.false_ne_true

/-- Records with the same names in the same order are told apart by what is found in them. -/
theorem eq_of_areNames {pairs others : Record} (names : AreNames pairs.keys)
    (keys : pairs.keys = others.keys)
    (values : ∀ name, pairs.get? (.text name) = others.get? (.text name)) : pairs = others := by
  induction pairs generalizing others with
  | nil => exact (List.map_eq_nil_iff.mp keys.symm).symm
  | cons pair rest ih =>
      match others, keys with
      | other :: others, keys =>
          rcases pair with ⟨key, value⟩
          rcases other with ⟨otherKey, otherValue⟩
          obtain ⟨rfl, following⟩ : key = otherKey ∧
              OrderedPairs.keys rest = OrderedPairs.keys others := List.cons.inj keys
          rcases AreNames.of_cons names with ⟨name, rfl, distinct, fresh⟩
          have found : ∀ sought, (if name = sought then some value else get? rest (.text sought)) =
              if name = sought then some otherValue else get? others (.text sought) := by
            intro sought
            have same := values sought
            simp only [get?_cons, Key.text_beq_text, decide_eq_true_eq] at same
            exact same
          have first := found name
          rw [if_pos rfl, if_pos rfl] at first
          have alike : rest = others := ih distinct following fun sought => by
            by_cases here : name = sought
            · -- The first name stands in neither of the two rests.
              subst here
              have absent : Key.text name ∉ OrderedPairs.keys others := following ▸ fresh
              rw [get?_eq_none_of_not_mem distinct fresh,
                get?_eq_none_of_not_mem (following ▸ distinct) absent]
            · have later := found sought
              rw [if_neg here, if_neg here] at later
              exact later
          rw [Option.some.inj first, alike]

end OrderedPairs

namespace Json

/-! ## Spaces -/

/-- Optional spaces. -/
def AreSpaces (t : Text) : Prop :=
  ∀ p ∈ t, p = .scalar ' ' ∨ p = .scalar '\t' ∨ p = .scalar '\n' ∨ p = .scalar '\r'

/-! ## Numbers -/

/-- At least one digit. -/
def AreDigits (row : List Char) : Prop :=
  row ≠ [] ∧ ∀ c ∈ row, isAsciiDigit c = true

/-- The text of an optional fraction, by its digits. -/
inductive IsFraction : Text → List Char → Prop where
  | none : IsFraction [] []
  | digits {row : List Char} (some : AreDigits row) :
      IsFraction (.scalar '.' :: Text.ofChars row) row

/-- The text of an optional sign, which is negative when it is a minus. -/
inductive IsSign : Text → Bool → Prop where
  | none : IsSign [] false
  | plus : IsSign [.scalar '+'] false
  | minus : IsSign [.scalar '-'] true

/-- The integer of a sign and a size. -/
def withSign (negative : Bool) (size : Nat) : Int :=
  if negative then -size else size

/-- The text of an exponent. -/
inductive IsExponent : Text → Int → Prop where
  | intro {letter : Char} (isLetter : letter = 'e' ∨ letter = 'E') {sign : Text} {negative : Bool}
      (signs : IsSign sign negative) {row : List Char} (some : AreDigits row) :
      IsExponent (.scalar letter :: (sign ++ Text.ofChars row)) (withSign negative (digitsValue row))

/-- The text of a number.  The digits of an integer are limited, those of other numbers are not. -/
inductive DenotesNumber : Text → Value → Prop where
  | integer (negative : Bool) {whole : List Char} (isWhole : IsWholePart whole)
      (short : whole.length ≤ digitLimit) :
      DenotesNumber (signed negative (Text.ofChars whole))
        (.int (withSign negative (digitsValue whole)))
  | fraction (negative : Bool) {whole fraction : List Char} (isWhole : IsWholePart whole)
      (some : AreDigits fraction) {x : Binary64}
      (rounds : Decimal.RoundsTo ⟨negative, digitsValue (whole ++ fraction), -fraction.length⟩ x) :
      DenotesNumber (signed negative (Text.ofChars whole ++ .scalar '.' :: Text.ofChars fraction))
        (.float x)
  | exponent (negative : Bool) {whole fraction : List Char} (isWhole : IsWholePart whole)
      {point : Text} (isFraction : IsFraction point fraction) {scale : Text} {exponent : Int}
      (isExponent : IsExponent scale exponent) {x : Binary64}
      (rounds : Decimal.RoundsTo
        ⟨negative, digitsValue (whole ++ fraction), exponent - fraction.length⟩ x) :
      DenotesNumber (signed negative (Text.ofChars whole ++ (point ++ scale))) (.float x)

/-! ## Strings -/

/-- The short escapes, by the letter behind the backslash, and what they stand for. -/
def shortEscapes : List (Char × Char) := [
  ('"', '"'), ('\\', '\\'), ('/', '/'), ('b', '\x08'), ('f', '\x0c'), ('n', '\n'), ('r', '\r'),
  ('t', '\t')]

/-- The text of a piece. -/
inductive IsPiece : Text → Piece → Prop where
  | plain {p : CodePoint} (noQuote : p ≠ .scalar '"') (noEscape : p ≠ .scalar '\\')
      (printable : 0x20 ≤ p.code) : IsPiece [p] (.plain p)
  | short {letter c : Char} (stands : (letter, c) ∈ shortEscapes) :
      IsPiece [.scalar '\\', .scalar letter] (.plain (.scalar c))
  | unit {a b c d : Char} {i j k l : Nat} (first : hexDigit? a = some i)
      (second : hexDigit? b = some j) (third : hexDigit? c = some k) (fourth : hexDigit? d = some l)
      {n : Fin 65536} (value : n.val = 4096 * i + 256 * j + 16 * k + l) :
      IsPiece [.scalar '\\', .scalar 'u', .scalar a, .scalar b, .scalar c, .scalar d] (.unit n)

/-- The text that pieces join to.  A code unit stands alone unless it is high and the piece behind
it is a low one. -/
inductive Joins : List Piece → Text → Prop where
  | nil : Joins [] []
  | plain (p : CodePoint) {rest : List Piece} {t : Text} (joins : Joins rest t) :
      Joins (.plain p :: rest) (p :: t)
  | pair {high low : Fin 65536} (isHigh : isHighUnit high = true) (isLow : isLowUnit low = true)
      {p : CodePoint} (code : p.code = 0x10000 + 0x400 * (high.val - 0xD800) + (low.val - 0xDC00))
      {rest : List Piece} {t : Text} (joins : Joins rest t) :
      Joins (.unit high :: .unit low :: rest) (p :: t)
  | alone {n : Fin 65536} {p : CodePoint} (code : p.code = n.val) {rest : List Piece} {t : Text}
      (apart : ∀ low more, rest = .unit low :: more →
        ¬ (isHighUnit n = true ∧ isLowUnit low = true))
      (joins : Joins rest t) : Joins (.unit n :: rest) (p :: t)

/-- The text of a string, with its quotes. -/
def DenotesString (t content : Text) : Prop :=
  ∃ texts pieces, t = .scalar '"' :: (texts.flatten ++ [.scalar '"']) ∧
    List.Forall₂ IsPiece texts pieces ∧ Joins pieces content

/-! ## Records -/

/-- The record that members make of their names and values. -/
structure Collapses (members : List (Text × Value)) (fields : Record) : Prop where
  keys : fields.keys = (members.map (·.1)).eraseDups.map Key.text
  last : ∀ name, fields.get? (.text name) = OrderedPairs.lastNamed members name

/-! ## Values -/

/-- A value among others, with the spaces around it. -/
structure Item where
  before : Text
  text : Text
  after : Text
  value : Value

/-- A member of a record: a name with the spaces around it, and the value behind the colon. -/
structure Member where
  before : Text
  text : Text
  after : Text
  name : Text
  item : Item

def Item.written (item : Item) : Text :=
  item.before ++ (item.text ++ item.after)

def Item.IsSpaced (item : Item) : Prop :=
  AreSpaces item.before ∧ AreSpaces item.after

def Member.written (member : Member) : Text :=
  member.before ++ (member.text ++ (member.after ++ .scalar ':' :: member.item.written))

def Member.IsSpaced (member : Member) : Prop :=
  AreSpaces member.before ∧ AreSpaces member.after ∧ member.item.IsSpaced

/-- The text of a value. -/
inductive Denotes : Text → Value → Prop where
  | null : Denotes (Text.ofString "null") .null
  | bool (b : Bool) : Denotes (Text.ofString (if b then "true" else "false")) (.bool b)
  | nan : Denotes (Text.ofString "NaN") (.float .nan)
  | infinite (negative : Bool) :
      Denotes (signed negative (Text.ofString "Infinity")) (.float (.infinite negative))
  | number {t : Text} {v : Value} (number : DenotesNumber t v) : Denotes t v
  | string {t content : Text} (string : DenotesString t content) : Denotes t (.text content)
  | emptyList {blanks : Text} (blank : AreSpaces blanks) :
      Denotes (enclosed '[' ']' [blanks]) (.list [])
  | list {items : List Item} (some : items ≠ []) (spaced : ∀ item ∈ items, item.IsSpaced)
      (values : ∀ item ∈ items, Denotes item.text item.value) :
      Denotes (enclosed '[' ']' (items.map (·.written))) (.list (items.map (·.value)))
  | emptyRecord {blanks : Text} (blank : AreSpaces blanks) :
      Denotes (enclosed '\x7b' '\x7d' [blanks]) (.record [])
  | record {members : List Member} (some : members ≠ [])
      (spaced : ∀ member ∈ members, member.IsSpaced)
      (names : ∀ member ∈ members, DenotesString member.text member.name)
      (values : ∀ member ∈ members, Denotes member.item.text member.item.value) {fields : Record}
      (collapses : Collapses (members.map fun member => (member.name, member.item.value)) fields) :
      Denotes (enclosed '\x7b' '\x7d' (members.map (·.written))) (.record fields)

/-- The text of a document: a value with optional spaces around it. -/
def DenotesDocument (t : Text) (v : Value) : Prop :=
  ∃ before text after, t = before ++ (text ++ after) ∧ AreSpaces before ∧ AreSpaces after ∧
    Denotes text v

/-! ## What is joined and collapsed -/

theorem areSpaces_iff {t : Text} : AreSpaces t ↔ ∀ p ∈ t, isSpace p = true := by
  simp only [AreSpaces, isSpace, Bool.or_eq_true, beq_iff_eq, or_assoc]

theorem code_injective : Function.Injective CodePoint.code := by
  intro p q same
  cases p with
  | scalar c =>
      have outside := Utf8.toNat_lt c
      cases q with
      | scalar d => exact congrArg CodePoint.scalar (Char.toNat_inj.mp same)
      | surrogate offset =>
          have bound := offset.isLt
          rw [CodePoint.code, CodePoint.code] at same
          omega
  | surrogate offset =>
      have bound := offset.isLt
      cases q with
      | scalar d =>
          have outside := Utf8.toNat_lt d
          rw [CodePoint.code, CodePoint.code] at same
          omega
      | surrogate other =>
          rw [CodePoint.code, CodePoint.code] at same
          exact congrArg CodePoint.surrogate (Fin.ext (by omega))

theorem code_unitAlone (n : Fin 65536) : (unitAlone n).code = n.val := by
  have bound := n.isLt
  unfold unitAlone
  split
  · change 0xD800 + (n.val - 0xD800) = n.val
    omega
  · exact Utf8.toNat_ofNat (by omega)

theorem code_unitPair {high low : Fin 65536} (isHigh : isHighUnit high = true)
    (isLow : isLowUnit low = true) :
    (CodePoint.scalar (unitPair high low)).code =
      0x10000 + 0x400 * (high.val - 0xD800) + (low.val - 0xDC00) := by
  simp only [isHighUnit, isLowUnit, Bool.and_eq_true, decide_eq_true_eq] at isHigh isLow
  rw [Nat.mul_comm 0x400]
  exact Utf8.toNat_ofNat (by omega)

/-- Pieces join to one text. -/
theorem joins_iff {pieces : List Piece} {t : Text} : Joins pieces t ↔ joinPieces pieces = t := by
  constructor
  · intro joins
    induction joins with
    | nil => rfl
    | plain p _ ih => rw [joinPieces, ih]
    | pair isHigh isLow code _ ih =>
        rw [joinPieces, isHigh, isLow, Bool.true_and, if_pos rfl, ih]
        rw [← code_unitPair isHigh isLow] at code
        rw [code_injective code]
    | @alone n p code rest t apart _ ih =>
        rw [← code_unitAlone n] at code
        rw [joinPieces_unit apart, ih, code_injective code]
  · rintro rfl
    induction pieces using joinPieces.induct with
    | case1 => exact .nil
    | case2 p rest ih => exact .plain p ih
    | case3 high low rest paired ih =>
        rw [joinPieces, if_pos paired]
        rw [Bool.and_eq_true] at paired
        exact .pair paired.1 paired.2 (code_unitPair paired.1 paired.2) ih
    | case4 high low rest apart ih =>
        rw [joinPieces, if_neg apart]
        rw [Bool.and_eq_true] at apart
        refine .alone (code_unitAlone high) ?_ ih
        rintro other more same
        cases same
        exact apart
    | case5 n rest noUnit ih =>
        have apart : ∀ low more, rest = .unit low :: more →
            ¬ (isHighUnit n = true ∧ isLowUnit low = true) := fun low more same =>
          absurd same (noUnit low more)
        rw [joinPieces_unit apart]
        exact .alone (code_unitAlone n) apart ih

/-- Members with their names as keys. -/
def namedPairs (members : List (Text × Value)) : List (Key × Value) :=
  members.map fun member => (.text member.1, member.2)

theorem lastNamed_namedPairs (members : List (Text × Value)) (name : Text) :
    OrderedPairs.lastNamed (namedPairs members) (.text name) =
      OrderedPairs.lastNamed members name := by
  have alike : ∀ member : Text × Value,
      (Key.text member.1 == Key.text name) = (member.1 == name) := fun member =>
    (Key.text_beq_text member.1 name).trans (beq_eq_decide member.1 name).symm
  rw [OrderedPairs.lastNamed, OrderedPairs.lastNamed, namedPairs, ← List.map_reverse, List.find?_map,
    Option.map_map]
  simp only [Function.comp_def, alike]

theorem keys_ofPairs_namedPairs (members : List (Text × Value)) :
    (OrderedPairs.ofPairs (namedPairs members)).keys =
      (members.map (·.1)).eraseDups.map Key.text := by
  induction members using List.reverseRecOn with
  | nil => rfl
  | append_singleton members member ih =>
      have held : (OrderedPairs.ofPairs (namedPairs members)).holds (.text member.1) = true ↔
          member.1 ∈ members.map (·.1) := by
        rw [← OrderedPairs.any_keys, ih, List.any_map, List.any_eq_true]
        simp only [Function.comp_def, Key.text_beq_text, decide_eq_true_eq, List.mem_eraseDups,
          exists_eq_right]
      have split : namedPairs (members ++ [member]) =
          namedPairs members ++ [(.text member.1, member.2)] := List.map_append
      rw [split, OrderedPairs.ofPairs_append_singleton, OrderedPairs.keys_put, ih, List.map_append,
        List.eraseDups_append, List.map_append]
      by_cases present : member.1 ∈ members.map (·.1)
      · rw [if_pos (held.mpr present)]
        simp [List.removeAll, present]
      · rw [if_neg (mt held.mp present)]
        simp [List.removeAll, List.eraseDups_cons, present]

theorem collapses_ofPairs (members : List (Text × Value)) :
    Collapses members (OrderedPairs.ofPairs (namedPairs members)) where
  keys := keys_ofPairs_namedPairs members
  last name := by rw [OrderedPairs.get?_ofPairs, lastNamed_namedPairs]

/-- Members make one record. -/
theorem collapses_iff {members : List (Text × Value)} {fields : Record} :
    Collapses members fields ↔ fields = OrderedPairs.ofPairs (namedPairs members) := by
  constructor
  · intro collapses
    have read := collapses_ofPairs members
    have texts : ∀ pair ∈ namedPairs members, ∃ name, pair.1 = .text name := by
      intro pair member
      rcases List.mem_map.mp member with ⟨named, -, rfl⟩
      exact ⟨named.1, rfl⟩
    have none : AreNames (OrderedPairs.keys ([] : Record)) := AreNames.nil
    have names := (OrderedPairs.areNames_putAll none texts).1
    refine (OrderedPairs.eq_of_areNames names (read.keys.trans collapses.keys.symm) ?_).symm
    exact fun name => (read.last name).trans (collapses.last name).symm
  · rintro rfl
    exact collapses_ofPairs members

end Json
end DocumentGateway
