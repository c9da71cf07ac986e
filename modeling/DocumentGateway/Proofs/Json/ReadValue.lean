import DocumentGateway.Json.Conversion
import DocumentGateway.Proofs.Json.PlainValue
import DocumentGateway.Proofs.Number.DigitRow
import DocumentGateway.Proofs.Peeling

namespace DocumentGateway

/-!
# What reading gives

A value that is read is plain, and writing and reading it again would give nothing else: there are
no tuples and mappings in it, every record has each of its names once, and every integer has no
more digits than are allowed.
-/

/-! ## Records of names -/

namespace OrderedPairs

theorem mem_put [BEq κ] {pairs : OrderedPairs κ ν} {key : κ} {value : ν} {pair : κ × ν}
    (member : pair ∈ pairs.put key value) : pair.2 = value ∨ pair ∈ pairs := by
  induction pairs with
  | nil =>
      rw [put, List.mem_singleton] at member
      exact Or.inl (congrArg Prod.snd member)
  | cons first rest ih =>
      rcases first with ⟨k, v⟩
      rw [put] at member
      split at member
      · rcases List.mem_cons.mp member with same | later
        · exact Or.inl (congrArg Prod.snd same)
        · exact Or.inr (List.mem_cons_of_mem _ later)
      · rcases List.mem_cons.mp member with same | later
        · exact Or.inr (same ▸ List.mem_cons_self)
        · exact (ih later).imp_right (List.mem_cons_of_mem _)

theorem areNames_put {pairs : Record} (names : AreNames pairs.keys) (name : Text) (value : Value) :
    AreNames (pairs.put (.text name) value).keys := by
  rw [keys_put]
  split
  · exact names
  · next absent =>
      refine names.append fun member => absent ?_
      rcases List.mem_map.mp member with ⟨pair, among, same⟩
      refine List.any_eq_true.mpr ⟨pair, among, ?_⟩
      rw [same, Key.text_beq_text]
      exact decide_eq_true rfl

/-- Pairs written one after the other have different names, and values that were written. -/
theorem areNames_putAll {pairs : Record} (names : AreNames pairs.keys)
    {more : List (Key × Value)} (texts : ∀ pair ∈ more, ∃ name, pair.1 = .text name) :
    AreNames (putAll pairs more).keys ∧
      ∀ pair ∈ putAll pairs more, pair ∈ pairs ∨ ∃ other ∈ more, other.2 = pair.2 := by
  induction more generalizing pairs with
  | nil => exact ⟨names, fun pair member => Or.inl member⟩
  | cons first rest ih =>
      rcases texts first List.mem_cons_self with ⟨name, isName⟩
      have written : AreNames (pairs.put first.1 first.2).keys := isName ▸ areNames_put names name _
      rcases ih written fun pair member => texts pair (List.mem_cons_of_mem _ member) with
        ⟨all, values⟩
      refine ⟨all, fun pair member => ?_⟩
      rcases values pair member with before | ⟨other, later, same⟩
      · rcases mem_put before with fresh | old
        · exact Or.inr ⟨first, List.mem_cons_self, fresh.symm⟩
        · exact Or.inl old
      · exact Or.inr ⟨other, List.mem_cons_of_mem _ later, same⟩

end OrderedPairs

namespace Json

/-- A plain value that is read back as itself. -/
structure IsReading (v : Value) : Prop where
  plain : v.IsPlain
  same : v.readBack = v

namespace IsReading

theorem list {items : List Value} (h : ∀ item ∈ items, IsReading item) :
    IsReading (.list items) where
  plain := (Value.arePlain_iff items).mpr fun item member => (h item member).plain
  same := by
    rw [Value.readBack, Value.readBackAll_eq_map,
      List.map_congr_left fun item member => (h item member).same, List.map_id']

theorem record {fields : List (Key × Value)} (names : AreNames (fields.map (·.1)))
    (h : ∀ field ∈ fields, IsReading field.2) : IsReading (.record fields) where
  plain := ⟨names,
    (Value.havePlainValues_iff fields).mpr fun field member => (h field member).plain⟩
  same := by
    have kept : ∀ field ∈ fields, (field.1, field.2.readBack) = field := fun field member =>
      Prod.ext rfl (h field member).same
    rw [Value.readBack, Value.readBackFields_eq_map, List.map_congr_left kept, List.map_id']

/-- A reading that has fields is a record, and its values are readings. -/
theorem eq_record {v : Value} (h : IsReading v) {fields : Record} (has : v.fields? = some fields) :
    v = .record fields ∧ ∀ field ∈ fields, IsReading field.2 := by
  rcases h with ⟨plain, same⟩
  cases v with
  | record found =>
      obtain rfl : found = fields := Option.some.inj has
      refine ⟨rfl, fun field member => ⟨?_, ?_⟩⟩
      · exact (Value.havePlainValues_iff found).mp plain.2 field member
      · rw [Value.readBack, Value.record.injEq, Value.readBackFields_eq_map] at same
        have kept := List.map_inj_left.mp (same.trans (List.map_id found).symm) field member
        exact congrArg Prod.snd kept
  | mapping found =>
      rw [Value.readBack] at same
      exact absurd same (by simp)
  | _ => exact absurd has (by simp [Value.fields?])

/-- A value in a record that is a reading is a reading. -/
theorem of_get? {fields : Record} (h : IsReading (.record fields)) {key : Key} {v : Value}
    (under : fields.get? key = some v) : IsReading v := by
  rcases Option.map_eq_some_iff.mp under with ⟨field, found, rfl⟩
  exact (h.eq_record rfl).2 field (List.mem_of_find?_eq_some found)

/-- The members of a list that is a reading are readings. -/
theorem of_mem {items : List Value} (h : IsReading (.list items)) :
    ∀ item ∈ items, IsReading item := by
  rcases h with ⟨plain, same⟩
  rw [Value.readBack, Value.list.injEq, Value.readBackAll_eq_map] at same
  intro item member
  exact ⟨(Value.arePlain_iff items).mp plain item member,
    List.map_inj_left.mp (same.trans (List.map_id items).symm) item member⟩

end IsReading

/-! ## Numbers and words -/

theorem isAsciiDigit_of_takeDigits {t : Text} :
    ∀ c ∈ (Numeral.takeDigits t).1, isAsciiDigit c = true := by
  induction t with
  | nil => exact fun c member => absurd member List.not_mem_nil
  | cons p rest ih =>
      cases p with
      | surrogate offset => exact fun c member => absurd member List.not_mem_nil
      | scalar d =>
          intro c member
          rw [Numeral.takeDigits] at member
          split at member
          · next digit =>
              rcases List.mem_cons.mp member with same | later
              · exact same ▸ digit
              · exact ih c later
          · exact absurd member List.not_mem_nil

theorem isAsciiDigit_of_takeWhole {t : Text} : ∀ c ∈ (takeWhole t).1, isAsciiDigit c = true := by
  intro c member
  unfold takeWhole at member
  split at member
  · rw [List.mem_singleton.mp member]
    rfl
  · exact isAsciiDigit_of_takeDigits c member

theorem isReading_scanBehindWhole {negative : Bool} {whole : List Char} {afterWhole behind : Text}
    {v : Value} (nonempty : whole ≠ []) (ascii : ∀ c ∈ whole, isAsciiDigit c = true)
    (h : scanBehindWhole negative whole afterWhole = .ok (v, behind)) : IsReading v := by
  unfold scanBehindWhole at h
  rcases takeFraction afterWhole with ⟨fraction, afterFraction⟩
  dsimp only at h
  split at h
  · cases h
    exact ⟨trivial, rfl⟩
  · split at h
    · exact absurd h (by simp)
    · next inLimit =>
        cases h
        refine ⟨?_, rfl⟩
        have size : (if negative then -(digitsValue whole : Int) else digitsValue whole).natAbs =
            digitsValue whole := by
          split <;> omega
        rw [Value.IsPlain, size]
        exact (digitCount_digitsValue_le nonempty ascii).trans (Nat.le_of_not_lt inLimit)
  · cases h
    exact ⟨trivial, rfl⟩

theorem isReading_scanNumber {t behind : Text} {v : Value}
    (h : scanNumber t = .ok (v, behind)) : IsReading v := by
  unfold scanNumber at h
  dsimp only at h
  have ascii := isAsciiDigit_of_takeWhole (t := (takeMinus t).2)
  generalize takeWhole (takeMinus t).2 = found at h ascii
  rcases found with ⟨whole, afterWhole⟩
  cases whole with
  | nil => exact absurd h (by simp)
  | cons d digits => exact isReading_scanBehindWhole (List.cons_ne_nil d digits) ascii h

theorem isReading_scanPlain {t behind : Text} {v : Value}
    (h : scanPlain t = .ok (v, behind)) : IsReading v := by
  unfold scanPlain at h
  split at h
  · next found isWord =>
      cases h
      rcases List.exists_of_findSome?_eq_some isWord with ⟨word, member, same⟩
      rcases Option.map_eq_some_iff.mp same with ⟨rest, -, pair⟩
      have value : word.2 = v := congrArg Prod.fst pair
      simp only [words, List.mem_cons, List.not_mem_nil, or_false] at member
      rw [← value]
      rcases member with rfl | rfl | rfl | rfl | rfl | rfl <;> exact ⟨trivial, rfl⟩
  · exact isReading_scanNumber h

/-! ## Values -/

/-- Members of a record as they are read: their names are texts, and their values are readings. -/
def AreReadMembers (members : List (Key × Value)) : Prop :=
  ∀ member ∈ members, (∃ name, member.1 = .text name) ∧ IsReading member.2

theorem isReading_ofPairs {members : List (Key × Value)} (h : AreReadMembers members) :
    IsReading (.record (OrderedPairs.ofPairs members)) := by
  have none : AreNames (OrderedPairs.keys ([] : Record)) := AreNames.nil
  rcases OrderedPairs.areNames_putAll none fun member among => (h member among).1 with
    ⟨names, values⟩
  apply IsReading.record names
  intro field among
  rcases values field among with before | ⟨other, written, same⟩
  · exact absurd before List.not_mem_nil
  · exact same ▸ (h other written).2

/-- Values that a budget lets take off the front of a text are read back as themselves. -/
def ScansReading (budget : Nat) : Prop :=
  ∀ {room : Nat} {t behind : Text} {v : Value}, scanValue room budget t = .ok (v, behind) →
    IsReading v

/-- Items that a budget lets take off the front of a text are read back as themselves. -/
def ScansReadItems (budget : Nat) : Prop :=
  ∀ {room : Nat} {t behind : Text} {items : List Value},
    scanItems room budget t = .ok (items, behind) → ∀ item ∈ items, IsReading item

/-- Members that a budget lets take off the front of a text are as they are read. -/
def ScansReadMembers (budget : Nat) : Prop :=
  ∀ {room : Nat} {t behind : Text} {members : List (Key × Value)},
    scanMembers room budget t = .ok (members, behind) → AreReadMembers members

theorem scansReading_succ {budget : Nat} (items : ScansReadItems budget)
    (members : ScansReadMembers budget) : ScansReading (budget + 1) := by
  intro room t behind v h
  rw [scanValue.eq_def] at h
  dsimp only at h
  split at h
  · rcases exists_of_bind_eq_ok h with ⟨found, -, same⟩
    cases same
    exact ⟨trivial, rfl⟩
  · cases h
  · split at h
    · cases h
      exact .list fun item member => absurd member List.not_mem_nil
    · rcases exists_of_bind_eq_ok h with ⟨found, read, same⟩
      cases same
      exact .list (items read)
  · cases h
  · split at h
    · cases h
      exact isReading_ofPairs fun member among => absurd among List.not_mem_nil
    · rcases exists_of_bind_eq_ok h with ⟨found, read, same⟩
      cases same
      exact isReading_ofPairs (members read)
  · exact isReading_scanPlain h

theorem scansReadItems_succ {budget : Nat} (value : ScansReading budget)
    (items : ScansReadItems budget) : ScansReadItems (budget + 1) := by
  intro room t behind found h
  rw [scanItems] at h
  rcases exists_of_bind_eq_ok h with ⟨⟨first, afterItem⟩, read, h⟩
  have isFirst := value read
  dsimp only at h
  split at h
  · cases h
    exact List.forall_mem_singleton.mpr isFirst
  · rcases exists_of_bind_eq_ok h with ⟨⟨others, afterOthers⟩, readOthers, same⟩
    cases same
    exact List.forall_mem_cons.mpr ⟨isFirst, items readOthers⟩
  · cases h

theorem scansReadMembers_succ {budget : Nat} (value : ScansReading budget)
    (members : ScansReadMembers budget) : ScansReadMembers (budget + 1) := by
  intro room t behind found h
  rw [scanMembers.eq_def] at h
  dsimp only at h
  split at h
  · rcases exists_of_bind_eq_ok h with ⟨⟨name, afterName⟩, -, h⟩
    dsimp only at h
    split at h
    · rcases exists_of_bind_eq_ok h with ⟨⟨first, afterFirst⟩, read, h⟩
      have isFirst : (∃ text, Key.text name = .text text) ∧ IsReading first :=
        ⟨⟨name, rfl⟩, value read⟩
      dsimp only at h
      split at h
      · cases h
        exact List.forall_mem_singleton.mpr isFirst
      · rcases exists_of_bind_eq_ok h with ⟨⟨others, afterOthers⟩, readOthers, same⟩
        cases same
        exact List.forall_mem_cons.mpr ⟨isFirst, members readOthers⟩
      · cases h
    · cases h
  · cases h

/-- Whatever is taken off the front of a text is read back as itself. -/
theorem isReading_scan (budget : Nat) :
    ScansReading budget ∧ ScansReadItems budget ∧ ScansReadMembers budget := by
  induction budget with
  | zero =>
      refine ⟨?_, ?_, ?_⟩ <;> intro room t behind found h
      · rw [scanValue] at h
        cases h
      · rw [scanItems] at h
        cases h
      · rw [scanMembers] at h
        cases h
  | succ budget ih =>
      rcases ih with ⟨value, items, members⟩
      exact ⟨scansReading_succ items members, scansReadItems_succ value items,
        scansReadMembers_succ value members⟩

/-! ## Whole texts -/

variable [Limits]

/-- A value that is read is plain, and it is read back as itself when it is written. -/
theorem isReading_read {t : Text} {v : Value} (h : read t = .ok v) : IsReading v := by
  have scanned := eq_ok_of_mapError_eq_ok h
  unfold scanDocument at scanned
  split at scanned
  · exact absurd scanned (by simp)
  · rcases exists_of_bind_eq_ok scanned with ⟨⟨first, behind⟩, read, scanned⟩
    have isFirst := (isReading_scan _).1 read
    dsimp only at scanned
    split at scanned
    · cases scanned
      exact isFirst
    · exact absurd scanned (by simp)

/-- A value that fills a text is what the text is read as. -/
theorem read_of_scanValue {t : Text} {v : Value} {p : CodePoint} (begins : t.head? = some p)
    (noSpace : isSpace p = false) (noMark : p ≠ .scalar '\uFEFF')
    (scanned : scanValue (Limits.values t) (2 * t.length + 2) t = .ok (v, [])) : read t = .ok v := by
  have front : skipSpace t = t := by
    match t, begins with
    | q :: rest, begins =>
        rw [Option.some.inj begins]
        exact List.dropWhile_cons_of_neg (Bool.eq_false_iff.mp noSpace)
  have unmarked : t.head? ≠ some (.scalar '\uFEFF') := by
    rw [begins]
    exact fun mark => noMark (Option.some.inj mark)
  rw [read, scanDocument, if_neg unmarked, front, scanned]
  rfl

/-- The fault that a text is refused with. -/
def Refusal.fault : Refusal → Fault
  | malformed fault => .format (.json fault)
  | tooDeep container => .tooDeep container

theorem result_parse (t : Text) : (parse t).result = (read t).mapError Refusal.fault := by
  rw [parse]
  cases read t with
  | ok v => rfl
  | error refusal => cases refusal <;> rfl

theorem result_parse_eq_ok_iff {t : Text} {v : Value} :
    (parse t).result = .ok v ↔ read t = .ok v := by
  rw [result_parse]
  cases read t with
  | ok v => simp only [Except.mapError, Except.ok.injEq]
  | error refusal => simp only [Except.mapError, reduceCtorEq]

end Json
end DocumentGateway
