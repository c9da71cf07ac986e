import DocumentGateway.Proofs.Json.Grammar
import Mathlib.Data.List.TakeWhile

namespace DocumentGateway

/-!
# What is read is denoted

Whatever a reader takes off the front of a text is the text of what it gives back.  For each reader
the text is split at the place where the reader stopped, and what stands before that place is put
together as the grammar says.
-/

namespace Json

/-! ## Numbers -/

theorem eq_append_of_takeDigits {t rest : Text} {digits : List Char}
    (h : Numeral.takeDigits t = (digits, rest)) : t = Text.ofChars digits ++ rest := by
  induction t generalizing digits with
  | nil =>
      cases h
      rfl
  | cons p tail ih =>
      cases p with
      | surrogate offset =>
          cases h
          rfl
      | scalar c =>
          rw [Numeral.takeDigits] at h
          split at h
          · cases h
            exact congrArg (List.cons _) (ih rfl)
          · cases h
            rfl

theorem ascii_of_takeDigits {t rest : Text} {digits : List Char}
    (h : Numeral.takeDigits t = (digits, rest)) : ∀ c ∈ digits, isAsciiDigit c = true := by
  have ascii := isAsciiDigit_of_takeDigits (t := t)
  rw [h] at ascii
  exact ascii

theorem exists_isFraction_of_takeFraction {t behind : Text} {fraction : List Char}
    (h : takeFraction t = (fraction, behind)) :
    ∃ point, t = point ++ behind ∧ IsFraction point fraction := by
  unfold takeFraction at h
  split at h
  · next rest =>
      cases taken : Numeral.takeDigits rest with
      | mk digits afterDigits =>
          rw [taken] at h
          cases digits with
          | nil =>
              cases h
              exact ⟨[], rfl, .none⟩
          | cons d digits =>
              cases h
              have some : AreDigits (d :: digits) := ⟨List.cons_ne_nil d digits, ascii_of_takeDigits taken⟩
              exact ⟨_, congrArg (List.cons _) (eq_append_of_takeDigits taken), .digits some⟩
  · cases h
    exact ⟨[], rfl, .none⟩

theorem exists_isSign_of_takeSign {t rest : Text} {negative : Bool}
    (h : Numeral.takeSign t = (negative, rest)) :
    ∃ sign, t = sign ++ rest ∧ IsSign sign negative := by
  unfold Numeral.takeSign at h
  split at h
  · cases h
    exact ⟨_, rfl, .minus⟩
  · cases h
    exact ⟨_, rfl, .plus⟩
  · cases h
    exact ⟨[], rfl, .none⟩

theorem exists_isExponent_of_takeExponent? {t behind : Text} {exponent : Int}
    (h : Numeral.takeExponent? t = some (exponent, behind)) :
    ∃ scale, t = scale ++ behind ∧ IsExponent scale exponent := by
  unfold Numeral.takeExponent? at h
  split at h
  · next letter rest =>
      split at h
      · next isLetter =>
          rw [Bool.or_eq_true, decide_eq_true_eq, decide_eq_true_eq] at isLetter
          cases signed : Numeral.takeSign rest with
          | mk negative unsigned =>
              rcases exists_isSign_of_takeSign signed with ⟨sign, split, signs⟩
              cases taken : Numeral.takeDigits unsigned with
              | mk digits afterDigits =>
                  simp only [signed, taken] at h
                  cases digits with
                  | nil => cases h
                  | cons d digits =>
                      cases h
                      have some : AreDigits (d :: digits) :=
                        ⟨List.cons_ne_nil d digits, ascii_of_takeDigits taken⟩
                      refine ⟨_, ?_, .intro isLetter signs some⟩
                      rw [split, eq_append_of_takeDigits taken, List.cons_append, List.append_assoc]
      · cases h
  · cases h

theorem eq_signed_of_takeMinus {t rest : Text} {negative : Bool}
    (h : takeMinus t = (negative, rest)) : t = signed negative rest := by
  unfold takeMinus at h
  split at h <;> cases h <;> rfl

theorem signed_append (negative : Bool) (front back : Text) :
    signed negative (front ++ back) = signed negative front ++ back := by
  cases negative <;> rfl

theorem eq_append_of_takeWhole {t rest : Text} {whole : List Char}
    (h : takeWhole t = (whole, rest)) (some : whole ≠ []) :
    t = Text.ofChars whole ++ rest ∧ IsWholePart whole := by
  unfold takeWhole at h
  split at h
  · cases h
    exact ⟨rfl, isWholePart_zero⟩
  · next noZero =>
      have split := eq_append_of_takeDigits h
      refine ⟨split, ascii_of_takeDigits h, Or.inr ?_⟩
      cases whole with
      | nil => exact absurd rfl some
      | cons d digits =>
          refine ⟨d, digits, rfl, ?_⟩
          rintro rfl
          exact noZero _ split

theorem exists_denotesNumber_of_scanBehindWhole {negative : Bool} {whole : List Char}
    {afterWhole behind : Text} {v : Value} (isWhole : IsWholePart whole)
    (h : scanBehindWhole negative whole afterWhole = .ok (v, behind)) :
    ∃ front, afterWhole = front ++ behind ∧
      DenotesNumber (signed negative (Text.ofChars whole ++ front)) v := by
  unfold scanBehindWhole at h
  cases taken : takeFraction afterWhole with
  | mk fraction afterFraction =>
      rcases exists_isFraction_of_takeFraction taken with ⟨point, split, isFraction⟩
      rw [taken] at h
      dsimp only at h
      split at h
      · next exponent afterExponent scaled =>
          cases h
          rcases exists_isExponent_of_takeExponent? scaled with ⟨scale, splitScale, isExponent⟩
          refine ⟨point ++ scale, by rw [split, splitScale, List.append_assoc], ?_⟩
          exact .exponent negative isWhole isFraction isExponent (Decimal.roundsTo_iff.mpr rfl)
      · split at h
        · cases h
        · next inLimit =>
            cases h
            cases isFraction with
            | digits some => exact absurd rfl some.1
            | none =>
                refine ⟨[], split, ?_⟩
                rw [List.append_nil]
                exact .integer negative isWhole (Nat.le_of_not_lt inLimit)
      · next someFraction =>
          cases h
          cases isFraction with
          | none => exact absurd rfl someFraction
          | digits some =>
              refine ⟨_, split, .fraction negative isWhole some (Decimal.roundsTo_iff.mpr ?_)⟩
              rw [numeral_toBinary64, Int.zero_sub]

theorem exists_denotesNumber_of_scanNumber {t behind : Text} {v : Value}
    (h : scanNumber t = .ok (v, behind)) : ∃ front, t = front ++ behind ∧ DenotesNumber front v := by
  unfold scanNumber at h
  cases minus : takeMinus t with
  | mk negative unsigned =>
      cases taken : takeWhole unsigned with
      | mk whole afterWhole =>
          simp only [minus, taken] at h
          cases whole with
          | nil => cases h
          | cons d digits =>
              rcases eq_append_of_takeWhole taken (List.cons_ne_nil d digits) with ⟨split, isWhole⟩
              rcases exists_denotesNumber_of_scanBehindWhole isWhole h with ⟨front, rfl, denotes⟩
              refine ⟨_, ?_, denotes⟩
              rw [eq_signed_of_takeMinus minus, split, ← List.append_assoc, signed_append]

/-! ## Words -/

theorem eq_append_of_dropWord? {word : List Char} {t rest : Text}
    (h : dropWord? word t = some rest) : t = Text.ofChars word ++ rest := by
  induction word generalizing t with
  | nil => exact Option.some.inj h
  | cons c word ih =>
      match t, h with
      | .scalar d :: tail, h =>
          rw [dropWord?] at h
          split at h
          · next same => rw [ih h, same, Text.ofChars_cons, List.cons_append]
          · cases h

theorem denotes_of_mem_words {word : String × Value} (listed : word ∈ words) :
    Denotes (Text.ofString word.1) word.2 := by
  simp only [words, List.mem_cons, List.not_mem_nil, or_false] at listed
  rcases listed with rfl | rfl | rfl | rfl | rfl | rfl
  · exact .null
  · exact .bool true
  · exact .bool false
  · exact .nan
  · exact .infinite false
  · exact .infinite true

theorem exists_denotes_of_scanPlain {t behind : Text} {v : Value}
    (h : scanPlain t = .ok (v, behind)) : ∃ front, t = front ++ behind ∧ Denotes front v := by
  unfold scanPlain at h
  split at h
  · next found isWord =>
      cases h
      rcases List.exists_of_findSome?_eq_some isWord with ⟨word, listed, same⟩
      rcases Option.map_eq_some_iff.mp same with ⟨rest, dropped, pair⟩
      cases pair
      exact ⟨_, eq_append_of_dropWord? dropped, denotes_of_mem_words listed⟩
  · rcases exists_denotesNumber_of_scanNumber h with ⟨front, split, denotes⟩
    exact ⟨front, split, .number denotes⟩

/-! ## Strings -/

theorem hexDigit?_lt {c : Char} {n : Nat} (h : hexDigit? c = some n) : n < 16 := by
  unfold hexDigit? at h
  simp only [Bool.and_eq_true, decide_eq_true_eq, Char.le_def, UInt32.le_iff_toNat_le] at h
  have toNat : c.toNat = c.val.toNat := rfl
  split at h
  · next bounds =>
      have upper : c.val.toNat ≤ 57 := bounds.2
      cases h
      omega
  · split at h
    · next bounds =>
        have upper : c.val.toNat ≤ 102 := bounds.2
        cases h
        omega
    · split at h
      · next bounds =>
          have upper : c.val.toNat ≤ 70 := bounds.2
          cases h
          omega
      · cases h

theorem exists_mem_shortEscapes {p : CodePoint} {c : Char} (h : shortEscape? p = some c) :
    ∃ letter, p = .scalar letter ∧ (letter, c) ∈ shortEscapes := by
  unfold shortEscape? at h
  split at h <;> cases h <;> exact ⟨_, rfl, by decide⟩

theorem exists_hexDigit {p : CodePoint} {n : Nat} (h : p.char?.bind hexDigit? = some n) :
    ∃ c, p = .scalar c ∧ hexDigit? c = some n := by
  cases p with
  | scalar c => exact ⟨c, rfl, h⟩
  | surrogate offset => cases h

theorem isPiece_of_fourDigits? {a b c d : CodePoint} {n : Fin 65536}
    (h : fourDigits? a b c d = some n) :
    IsPiece [.scalar '\\', .scalar 'u', a, b, c, d] (.unit n) := by
  rcases Option.bind_eq_some_iff.mp h with ⟨i, first, h⟩
  rcases Option.bind_eq_some_iff.mp h with ⟨j, second, h⟩
  rcases Option.bind_eq_some_iff.mp h with ⟨k, third, h⟩
  rcases Option.bind_eq_some_iff.mp h with ⟨l, fourth, h⟩
  cases Option.some.inj h
  rcases exists_hexDigit first with ⟨a, rfl, first⟩
  rcases exists_hexDigit second with ⟨b, rfl, second⟩
  rcases exists_hexDigit third with ⟨c, rfl, third⟩
  rcases exists_hexDigit fourth with ⟨d, rfl, fourth⟩
  have bounds := And.intro (hexDigit?_lt first) (And.intro (hexDigit?_lt second)
    (And.intro (hexDigit?_lt third) (hexDigit?_lt fourth)))
  exact .unit first second third fourth (Nat.mod_eq_of_lt (by omega))

/-- A text up to a closing quote is made of pieces. -/
def AreClosedPieces (t behind : Text) (pieces : List Piece) : Prop :=
  ∃ texts, t = texts.flatten ++ .scalar '"' :: behind ∧ List.Forall₂ IsPiece texts pieces

theorem AreClosedPieces.of_withPieces {opening front tail behind : Text} {piece : Piece}
    {pieces : List Piece} (isPiece : IsPiece front piece)
    (following : ∀ {pieces}, scanPieces opening tail = .ok (pieces, behind) →
      AreClosedPieces tail behind pieces)
    (h : withPieces [piece] (scanPieces opening tail) = .ok (pieces, behind)) :
    AreClosedPieces (front ++ tail) behind pieces := by
  rcases exists_of_map_eq_ok h with ⟨found, scanned, same⟩
  cases same
  rcases following scanned with ⟨texts, split, arePieces⟩
  refine ⟨front :: texts, ?_, .cons isPiece arePieces⟩
  rw [split, List.flatten_cons, List.append_assoc]

theorem areClosedPieces_of_scanPieces {opening t behind : Text} {pieces : List Piece}
    (h : scanPieces opening t = .ok (pieces, behind)) : AreClosedPieces t behind pieces := by
  -- Reading either goes on behind one piece or has failed; only the quote ends it.
  induction t using scanPieces.induct generalizing pieces with
  | case1 => cases h
  | case2 rest =>
      rw [scanPieces.eq_def] at h
      cases h
      exact ⟨[], rfl, .nil⟩
  | case3 => cases h
  | case4 a b c d tail n some value _ ih =>
      rw [scanPieces_unit opening value (List.isEmpty_eq_false_iff.mp some)] at h
      exact .of_withPieces (isPiece_of_fourDigits? value) ih h
  | case5 a b c d tail invalid =>
      rw [scanPieces.eq_def] at h
      simp only [CodePoint.scalar.injEq, Char.reduceEq, if_false, if_true] at h
      cases h
  | case6 more short =>
      rw [scanPieces.eq_def] at h
      simp only [CodePoint.scalar.injEq, Char.reduceEq, if_false, if_true] at h
      cases h
  | case7 e more noUnit c named _ ih =>
      rcases exists_mem_shortEscapes named with ⟨letter, rfl, stands⟩
      have unlike : letter ≠ 'u' := fun same => noUnit (congrArg _ same)
      rw [scanPieces_shortEscape opening unlike named] at h
      exact .of_withPieces (.short stands) ih h
  | case8 e more noUnit unnamed =>
      rw [scanPieces.eq_def] at h
      simp only [CodePoint.scalar.injEq, Char.reduceEq, if_false, if_true, noUnit, unnamed] at h
      cases h
  | case9 p rest noQuote noEscape control =>
      rw [scanPieces.eq_def] at h
      simp only [noQuote, noEscape, control, if_false, if_true] at h
      cases h
  | case10 p rest noQuote noEscape printable ih =>
      rw [scanPieces_plain opening noQuote noEscape printable] at h
      exact .of_withPieces (.plain noQuote noEscape (Nat.le_of_not_lt printable)) ih h

theorem exists_denotesString_of_scanString {opening t behind content : Text}
    (h : scanString opening t = .ok (content, behind)) :
    ∃ front, .scalar '"' :: t = front ++ behind ∧ DenotesString front content := by
  rcases exists_of_bind_eq_ok h with ⟨⟨pieces, rest⟩, scanned, same⟩
  cases same
  rcases areClosedPieces_of_scanPieces scanned with ⟨texts, split, arePieces⟩
  refine ⟨_, ?_, texts, pieces, rfl, arePieces, joins_iff.mpr rfl⟩
  rw [split, List.cons_append, List.append_assoc, List.singleton_append]

/-! ## Values -/

theorem exists_skipSpace (t : Text) : ∃ blanks, AreSpaces blanks ∧ t = blanks ++ skipSpace t :=
  ⟨t.takeWhile isSpace, areSpaces_iff.mpr fun _ => List.mem_takeWhile_imp,
    List.takeWhile_append_dropWhile.symm⟩

/-- Parts with commas between them, up to a closing character. -/
structure AreClosed (written : α → Text) (Valid : α → Prop) (closer : Char) (t behind : Text)
    (parts : List α) : Prop where
  some : parts ≠ []
  valid : ∀ part ∈ parts, Valid part
  split : t = List.intercalate [.scalar ','] (parts.map written) ++ .scalar closer :: behind

namespace AreClosed

variable {written : α → Text} {Valid : α → Prop} {closer : Char}

theorem last {part : α} (valid : Valid part) (behind : Text) :
    AreClosed written Valid closer (written part ++ .scalar closer :: behind) behind [part] where
  some := List.cons_ne_nil part []
  valid := List.forall_mem_singleton.mpr valid
  split := by rw [List.map_singleton, List.intercalate_singleton]

theorem next {part : α} (valid : Valid part) {more behind : Text} {parts : List α}
    (others : AreClosed written Valid closer more behind parts) :
    AreClosed written Valid closer (written part ++ .scalar ',' :: more) behind (part :: parts) where
  some := List.cons_ne_nil part parts
  valid := List.forall_mem_cons.mpr ⟨valid, others.valid⟩
  split := by
    rw [others.split, List.map_cons,
      List.intercalate_cons_of_ne_nil (mt List.map_eq_nil_iff.mp others.some), List.append_assoc,
      List.append_assoc, List.singleton_append]

theorem enclosed {t behind : Text} {parts : List α}
    (closed : AreClosed written Valid closer t behind parts) (opener : Char) :
    .scalar opener :: t = Json.enclosed opener closer (parts.map written) ++ behind := by
  rw [closed.split, Json.enclosed, List.cons_append, List.append_assoc, List.singleton_append]

end AreClosed

theorem Item.written_append (item : Item) (t : Text) :
    item.written ++ t = item.before ++ (item.text ++ (item.after ++ t)) := by
  rw [written, List.append_assoc, List.append_assoc]

theorem Member.written_append (member : Member) (t : Text) :
    member.written ++ t = member.before ++ (member.text ++ (member.after ++
      .scalar ':' :: (member.item.written ++ t))) := by
  rw [written, List.append_assoc, List.append_assoc, List.append_assoc, List.cons_append]

def Item.IsValid (item : Item) : Prop :=
  item.IsSpaced ∧ Denotes item.text item.value

def Member.IsValid (member : Member) : Prop :=
  member.IsSpaced ∧ DenotesString member.text member.name ∧
    Denotes member.item.text member.item.value

/-- The name of a member and its value. -/
def Member.pair (member : Member) : Text × Value :=
  (member.name, member.item.value)

/-- Values that are read within a budget are denoted by what stood there. -/
def DenotesScanned (budget : Nat) : Prop :=
  ∀ {room : Nat} {t behind : Text} {v : Value}, scanValue room budget t = .ok (v, behind) →
    ∃ front, t = front ++ behind ∧ Denotes front v

/-- Items that are read within a budget are those that stood there, whatever spaces were skipped in
front of them. -/
def DenotesScannedItems (budget : Nat) : Prop :=
  ∀ {room : Nat} {t behind : Text} {values : List Value},
    scanItems room budget t = .ok (values, behind) → ∀ {blanks : Text}, AreSpaces blanks →
      ∃ items, items.map (·.value) = values ∧
        AreClosed Item.written Item.IsValid ']' (blanks ++ t) behind items

def DenotesScannedMembers (budget : Nat) : Prop :=
  ∀ {room : Nat} {t behind : Text} {pairs : List (Key × Value)},
    scanMembers room budget t = .ok (pairs, behind) → ∀ {blanks : Text}, AreSpaces blanks →
      ∃ members, namedPairs (members.map (·.pair)) = pairs ∧
        AreClosed Member.written Member.IsValid '\x7d' (blanks ++ t) behind members

theorem denotesScanned_succ {budget : Nat} (items : DenotesScannedItems budget)
    (members : DenotesScannedMembers budget) : DenotesScanned (budget + 1) := by
  intro room t behind v h
  rw [scanValue.eq_def] at h
  dsimp only at h
  split at h
  · next rest =>
      rcases exists_of_bind_eq_ok h with ⟨⟨content, afterString⟩, read, same⟩
      cases same
      rcases exists_denotesString_of_scanString read with ⟨front, split, denotes⟩
      exact ⟨front, split, .string denotes⟩
  · cases h
  · next rest _ =>
      rcases exists_skipSpace rest with ⟨blanks, blank, split⟩
      split at h
      · next afterList found =>
          cases h
          refine ⟨_, ?_, .emptyList blank⟩
          rw [split, found, enclosed, List.intercalate_singleton, List.cons_append,
            List.append_assoc, List.singleton_append]
      · rcases exists_of_bind_eq_ok h with ⟨⟨values, afterList⟩, read, same⟩
        cases same
        rcases items read blank with ⟨parts, rfl, closed⟩
        rw [← split] at closed
        exact ⟨_, closed.enclosed '[', .list closed.some
          (fun item member => (closed.valid item member).1)
          fun item member => (closed.valid item member).2⟩
  · cases h
  · next rest _ =>
      rcases exists_skipSpace rest with ⟨blanks, blank, split⟩
      split at h
      · next afterRecord found =>
          cases h
          refine ⟨_, ?_, .emptyRecord blank⟩
          rw [split, found, enclosed, List.intercalate_singleton, List.cons_append,
            List.append_assoc, List.singleton_append]
      · rcases exists_of_bind_eq_ok h with ⟨⟨pairs, afterRecord⟩, read, same⟩
        cases same
        rcases members read blank with ⟨parts, rfl, closed⟩
        rw [← split] at closed
        exact ⟨_, closed.enclosed '\x7b', .record closed.some
          (fun member among => (closed.valid member among).1)
          (fun member among => (closed.valid member among).2.1)
          (fun member among => (closed.valid member among).2.2) (collapses_ofPairs _)⟩
  · exact exists_denotes_of_scanPlain h

theorem denotesScannedItems_succ {budget : Nat} (value : DenotesScanned budget)
    (items : DenotesScannedItems budget) : DenotesScannedItems (budget + 1) := by
  intro room t behind values h blanks blank
  rw [scanItems] at h
  rcases exists_of_bind_eq_ok h with ⟨⟨first, afterItem⟩, read, h⟩
  rcases value read with ⟨front, split, denotes⟩
  rcases exists_skipSpace afterItem with ⟨gap, blankGap, splitGap⟩
  have valid : Item.IsValid ⟨blanks, front, gap, first⟩ := ⟨⟨blank, blankGap⟩, denotes⟩
  have whole : blanks ++ t = Item.written ⟨blanks, front, gap, first⟩ ++ skipSpace afterItem := by
    rw [Item.written_append, ← splitGap, ← split]
  dsimp only at h
  split at h
  · next afterList found =>
      cases h
      rw [whole, found]
      exact ⟨[⟨blanks, front, gap, first⟩], rfl, .last valid _⟩
  · next more found =>
      rcases exists_of_bind_eq_ok h with ⟨⟨others, afterOthers⟩, readOthers, same⟩
      cases same
      -- The spaces skipped behind the comma stand in front of the next item.
      rcases exists_skipSpace more with ⟨blanksMore, blankMore, splitMore⟩
      rcases items readOthers blankMore with ⟨parts, rfl, closed⟩
      rw [← splitMore] at closed
      rw [whole, found]
      exact ⟨⟨blanks, front, gap, first⟩ :: parts, rfl, .next valid closed⟩
  · cases h

theorem denotesScannedMembers_succ {budget : Nat} (value : DenotesScanned budget)
    (members : DenotesScannedMembers budget) : DenotesScannedMembers (budget + 1) := by
  intro room t behind pairs h blanks blank
  rw [scanMembers.eq_def] at h
  dsimp only at h
  split at h
  · next rest =>
      rcases exists_of_bind_eq_ok h with ⟨⟨name, afterName⟩, readName, h⟩
      rcases exists_denotesString_of_scanString readName with ⟨text, splitName, denotesName⟩
      rcases exists_skipSpace afterName with ⟨gapName, blankName, splitGapName⟩
      dsimp only at h
      split at h
      · next afterColon colon =>
          rcases exists_of_bind_eq_ok h with ⟨⟨first, afterValue⟩, read, h⟩
          rcases value read with ⟨front, split, denotes⟩
          rcases exists_skipSpace afterColon with ⟨gapColon, blankColon, splitColon⟩
          rcases exists_skipSpace afterValue with ⟨gap, blankGap, splitGap⟩
          generalize isMember :
            Member.mk blanks text gapName name ⟨gapColon, front, gap, first⟩ = member
          have valid : member.IsValid := isMember ▸
            ⟨⟨blank, blankName, blankColon, blankGap⟩, denotesName, denotes⟩
          have whole : blanks ++ .scalar '"' :: rest = member.written ++ skipSpace afterValue := by
            rw [← isMember, Member.written_append, Item.written_append, ← splitGap, ← split,
              ← splitColon, ← colon, ← splitGapName, ← splitName]
          have isPair : member.pair = (name, first) := isMember ▸ rfl
          dsimp only at h
          split at h
          · next afterRecord found =>
              cases h
              rw [whole, found]
              refine ⟨[member], ?_, .last valid _⟩
              rw [List.map_singleton, isPair]
              rfl
          · next more found =>
              rcases exists_of_bind_eq_ok h with ⟨⟨others, afterOthers⟩, readOthers, same⟩
              cases same
              rcases exists_skipSpace more with ⟨blanksMore, blankMore, splitMore⟩
              rcases members readOthers blankMore with ⟨parts, rfl, closed⟩
              rw [← splitMore] at closed
              rw [whole, found]
              refine ⟨member :: parts, ?_, .next valid closed⟩
              rw [List.map_cons, isPair]
              rfl
          · cases h
      · cases h
  · cases h

/-- Whatever is taken off the front of a text is denoted by what stood there. -/
theorem denotes_scan (budget : Nat) :
    DenotesScanned budget ∧ DenotesScannedItems budget ∧ DenotesScannedMembers budget := by
  induction budget with
  | zero =>
      refine ⟨?_, ?_, ?_⟩ <;> intro room t behind found h
      · rw [scanValue] at h
        cases h
      · rw [scanItems] at h
        cases h
      · rw [scanMembers] at h
        cases h
  | succ budget ih =>
      rcases ih with ⟨value, items, members⟩
      exact ⟨denotesScanned_succ items members, denotesScannedItems_succ value items,
        denotesScannedMembers_succ value members⟩

/-- A value that is read fills the text but for spaces. -/
theorem denotesDocument_of_read [Limits] {t : Text} {v : Value} (h : read t = .ok v) :
    DenotesDocument t v := by
  have scanned := eq_ok_of_mapError_eq_ok h
  unfold scanDocument at scanned
  split at scanned
  · cases scanned
  · rcases exists_of_bind_eq_ok scanned with ⟨⟨first, behind⟩, read, scanned⟩
    rcases (denotes_scan _).1 read with ⟨front, split, denotes⟩
    rcases exists_skipSpace t with ⟨before, blankBefore, splitBefore⟩
    rcases exists_skipSpace behind with ⟨after, blankAfter, splitAfter⟩
    dsimp only at scanned
    split at scanned
    · next filled =>
        cases scanned
        rw [filled, List.append_nil] at splitAfter
        exact ⟨before, front, after, by rw [splitBefore, split, splitAfter], blankBefore, blankAfter,
          denotes⟩
    · cases scanned

end Json
end DocumentGateway
