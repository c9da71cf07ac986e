import DocumentGateway.MediaType
import Mathlib.Data.List.DropRight
import Mathlib.Data.List.TakeWhile

namespace DocumentGateway
namespace MediaType

/-!
# The first pair in a content type

Where a text holds a slash with a letter or a dot on either side, there is a pair of a major and a
minor type around the slash.  The pair that counts is the one around the first such slash, and its
types are the longest runs of letters and dots on either side.  This is also the pair that a search
finds which tries every place from the front, and there takes as many characters as it can.

How a body is read follows from that pair alone, whether or not a known pair comes behind it.
-/

/-! ## The slash -/

/-- Whether a slash between two texts has a character of a type on either side. -/
def JoinsTypes (front back : Text) : Prop :=
  front.getLast?.any isWordChar = true ∧ back.head?.any isWordChar = true

instance (front back : Text) : Decidable (JoinsTypes front back) :=
  inferInstanceAs (Decidable (_ ∧ _))

/-- Whether no slash with types around it stands before a place. -/
def HasNoneBefore (t : Text) (place : Nat) : Prop :=
  ∀ front back, t = front ++ .scalar '/' :: back → JoinsTypes front back → place ≤ front.length

/-- The first slash in a text that has a character of a type on either side. -/
structure IsFirstSlash (t front back : Text) : Prop where
  parts : t = front ++ .scalar '/' :: back
  joins : JoinsTypes front back
  first : HasNoneBefore t front.length

/-- Only the slashes before the place need to be looked at. -/
theorem hasNoneBefore_iff (t : Text) (place : Nat) :
    HasNoneBefore t place ↔ ∀ i < place, t[i]? = some (.scalar '/') →
      ¬ JoinsTypes (t.take i) (t.drop (i + 1)) := by
  constructor
  · intro h i early slash joins
    obtain ⟨inside, here⟩ := List.getElem?_eq_some_iff.mp slash
    have parts : t = t.take i ++ .scalar '/' :: t.drop (i + 1) := by
      rw [← here, List.getElem_cons_drop, List.take_append_drop]
    have behind := h _ _ parts joins
    rw [List.length_take] at behind
    omega
  · intro h front back parts joins
    by_contra early
    have slash : t[front.length]? = some (.scalar '/') := by
      rw [parts, List.getElem?_append_right (Nat.le_refl _), Nat.sub_self, List.getElem?_cons_zero]
    refine h front.length (Nat.lt_of_not_le early) slash ?_
    rw [parts, List.take_left, List.drop_append, List.drop_eq_nil_of_le (Nat.le_succ _),
      Nat.add_sub_cancel_left]
    exact joins

instance (t : Text) (place : Nat) : Decidable (HasNoneBefore t place) :=
  decidable_of_iff' _ (hasNoneBefore_iff t place)

instance (t front back : Text) : Decidable (IsFirstSlash t front back) :=
  decidable_of_iff (t = front ++ .scalar '/' :: back ∧ JoinsTypes front back ∧
      HasNoneBefore t front.length)
    ⟨fun h => ⟨h.1, h.2.1, h.2.2⟩, fun h => ⟨h.parts, h.joins, h.first⟩⟩

/-- The longest runs of characters of types on either side of a slash. -/
def typesAround (front back : Text) : Text × Text :=
  (front.rtakeWhile isWordChar, back.takeWhile isWordChar)

theorem rtakeWhile_ne_nil_iff (front : Text) :
    front.rtakeWhile isWordChar ≠ [] ↔ front.getLast?.any isWordChar = true := by
  rw [Ne, List.rtakeWhile_eq_nil_iff]
  cases front using List.reverseRecOn with
  | nil => simp
  | append_singleton front p => simp

/-- Going over a code point that is no such slash. -/
theorem HasNoneBefore.next {seen rest : Text} {p : CodePoint}
    (h : HasNoneBefore (seen ++ p :: rest) seen.length)
    (other : p = .scalar '/' → ¬ JoinsTypes seen rest) :
    HasNoneBefore (seen ++ [p] ++ rest) (seen ++ [p]).length := by
  intro front back parts joins
  rw [List.append_assoc, List.singleton_append] at parts
  have behind := h front back parts joins
  rcases Nat.lt_or_eq_of_le behind with later | here
  · rw [List.length_append, List.length_singleton]
    exact later
  · obtain ⟨rfl, sides⟩ := List.append_inj parts here
    obtain ⟨rfl, rfl⟩ := List.cons.inj sides
    exact absurd joins (other rfl)

/-- What there is to be found in a text: the types around its first slash, or nothing. -/
def Finds (t : Text) : Option (Text × Text) → Prop
  | some pair => ∃ front back, IsFirstSlash t front back ∧ pair = typesAround front back
  | none => ∀ front back, t = front ++ .scalar '/' :: back → ¬ JoinsTypes front back

/-- The word is the run of characters of types that ends the text seen so far, in which there is
nothing to be found. -/
theorem finds_firstPairBehind? (seen t : Text) (none : HasNoneBefore (seen ++ t) seen.length) :
    Finds (seen ++ t) (firstPairBehind? (seen.rtakeWhile isWordChar) t) := by
  induction t generalizing seen with
  | nil =>
      intro front back parts joins
      have length := congrArg List.length parts
      rw [List.append_nil, List.length_append, List.length_cons] at length
      have behind := none front back parts joins
      omega
  | cons p rest ih =>
      have next := fun other => ih (seen ++ [p]) (none.next other)
      rw [List.append_assoc, List.singleton_append] at next
      rw [firstPairBehind?]
      split_ifs with word slash
      · have notSlash : p ≠ .scalar '/' := by
          rintro rfl
          exact absurd word (by decide)
        rw [← List.rtakeWhile_concat_pos isWordChar seen p word]
        exact next fun same => absurd same notSlash
      · simp only [Bool.and_eq_true, decide_eq_true_eq, Bool.not_eq_true', List.isEmpty_eq_false_iff]
          at slash
        obtain ⟨⟨rfl, before⟩, behind⟩ := slash
        exact ⟨seen, rest, ⟨rfl, ⟨(rtakeWhile_ne_nil_iff seen).mp before, behind⟩, none⟩, rfl⟩
      · rw [← List.rtakeWhile_concat_neg isWordChar seen p word]
        refine next fun same joins => slash ?_
        have before := (rtakeWhile_ne_nil_iff seen).mpr joins.1
        simp only [Bool.and_eq_true, decide_eq_true_eq, Bool.not_eq_true', List.isEmpty_eq_false_iff]
        exact ⟨⟨same, before⟩, joins.2⟩

theorem finds_firstPair? (t : Text) : Finds t (firstPair? t) :=
  finds_firstPairBehind? [] t fun _ _ _ _ => Nat.zero_le _

/-- There is one first slash only. -/
theorem IsFirstSlash.unique {t front back front' back' : Text} (h : IsFirstSlash t front back)
    (h' : IsFirstSlash t front' back') : front = front' ∧ back = back' := by
  have same : front.length = front'.length :=
    Nat.le_antisymm (h.first front' back' h'.parts h'.joins)
      (h'.first front back h.parts h.joins)
  obtain ⟨fronts, backs⟩ := List.append_inj (h.parts.symm.trans h'.parts) same
  exact ⟨fronts, (List.cons.inj backs).2⟩

/-- The pair that counts is the one around the first slash. -/
theorem firstPair?_of_isFirstSlash {t front back : Text} (h : IsFirstSlash t front back) :
    firstPair? t = some (typesAround front back) := by
  have found := finds_firstPair? t
  cases pair : firstPair? t with
  | none =>
      rw [pair] at found
      exact absurd h.joins (found front back h.parts)
  | some pair =>
      rw [pair] at found
      obtain ⟨front', back', h', rfl⟩ := found
      obtain ⟨rfl, rfl⟩ := h.unique h'
      rfl

/-- Without such a slash there is no pair. -/
theorem firstPair?_eq_none {t : Text}
    (h : ∀ front back, t = front ++ .scalar '/' :: back → ¬ JoinsTypes front back) :
    firstPair? t = none := by
  have found := finds_firstPair? t
  cases pair : firstPair? t with
  | none => rfl
  | some pair =>
      rw [pair] at found
      obtain ⟨front, back, first, -⟩ := found
      exact absurd first.joins (h front back first.parts)

/-! ## The search -/

/-- A major and a minor type parted by a slash, at a place in a text. -/
structure IsPairIn (t before major minor behind : Text) : Prop where
  parts : t = before ++ (major ++ .scalar '/' :: (minor ++ behind))
  major_ne_nil : major ≠ []
  minor_ne_nil : minor ≠ []
  major_word : ∀ p ∈ major, isWordChar p = true
  minor_word : ∀ p ∈ minor, isWordChar p = true

/-- The pair that a search from the front finds: no pair begins before it, and none that begins where
it does has longer types. -/
def IsFoundIn (t major minor : Text) : Prop :=
  ∃ before behind, IsPairIn t before major minor behind ∧
    ∀ before' major' minor' behind', IsPairIn t before' major' minor' behind' →
      before.length ≤ before'.length ∧
        (before = before' → major'.length ≤ major.length ∧ minor'.length ≤ minor.length)

theorem rtakeWhile_append_of_all {p : α → Bool} (xs : List α) {ys : List α}
    (all : ∀ y ∈ ys, p y = true) : (xs ++ ys).rtakeWhile p = xs.rtakeWhile p ++ ys := by
  have reversed : ∀ y ∈ ys.reverse, p y = true := fun y member => all y (List.mem_reverse.mp member)
  rw [List.rtakeWhile, List.reverse_append, List.takeWhile_append_of_pos reversed,
    List.reverse_append, List.reverse_reverse, List.rtakeWhile]

/-- The slash of a pair has a type on either side. -/
theorem IsPairIn.joins {t before major minor behind : Text}
    (h : IsPairIn t before major minor behind) :
    t = (before ++ major) ++ .scalar '/' :: (minor ++ behind) ∧
      JoinsTypes (before ++ major) (minor ++ behind) := by
  refine ⟨h.parts.trans (List.append_assoc ..).symm, ?_, ?_⟩
  · rw [← rtakeWhile_ne_nil_iff, rtakeWhile_append_of_all before h.major_word]
    exact List.append_ne_nil_of_right_ne_nil _ h.major_ne_nil
  · obtain ⟨p, rest, rfl⟩ := List.exists_cons_of_ne_nil h.minor_ne_nil
    exact h.minor_word p List.mem_cons_self

/-- Around a slash with a type on either side there is a pair. -/
theorem isPairIn_typesAround {t front back : Text} (h : IsFirstSlash t front back) :
    IsPairIn t (front.rdropWhile isWordChar) (typesAround front back).1 (typesAround front back).2
      (back.dropWhile isWordChar) where
  parts := by
    rw [typesAround, ← List.append_assoc, List.rdropWhile_append_rtakeWhile,
      List.takeWhile_append_dropWhile]
    exact h.parts
  major_ne_nil := (rtakeWhile_ne_nil_iff front).mpr h.joins.1
  minor_ne_nil := by
    have behind := h.joins.2
    cases back with
    | nil => cases behind
    | cons p rest => exact ne_of_eq_of_ne (List.takeWhile_cons_of_pos behind) (List.cons_ne_nil _ _)
  major_word := fun p member => List.mem_rtakeWhile_imp member
  minor_word := fun p member => List.mem_takeWhile_imp member

/-- A pair that begins before the first slash is around it. -/
theorem IsFirstSlash.around {t front back before major minor behind : Text}
    (h : IsFirstSlash t front back) (pair : IsPairIn t before major minor behind)
    (early : before.length ≤ front.length) :
    front = before ++ major ∧ back = minor ++ behind := by
  obtain ⟨parts, joins⟩ := pair.joins
  have whole := h.parts.symm.trans parts
  have notLess := h.first _ _ parts joins
  -- A slash behind the first one would leave the first one inside of the major type.
  have notMore : ¬ front.length < (before ++ major).length := by
    intro more
    have slash : (before ++ major)[front.length]? = some (.scalar '/') := by
      rw [← List.getElem?_append_left more, ← whole, List.getElem?_append_right (Nat.le_refl _),
        Nat.sub_self, List.getElem?_cons_zero]
    rw [List.getElem?_append_right early] at slash
    exact absurd (pair.major_word _ (List.mem_of_getElem? slash)) (by decide)
  have same : front.length = (before ++ major).length := by omega
  obtain ⟨fronts, backs⟩ := List.append_inj whole same
  exact ⟨fronts, (List.cons.inj backs).2⟩

/-- The types around the first slash are what a search finds. -/
theorem IsFirstSlash.isFoundIn {t front back : Text} (h : IsFirstSlash t front back) :
    IsFoundIn t (typesAround front back).1 (typesAround front back).2 := by
  refine ⟨_, _, isPairIn_typesAround h, fun before major minor behind pair => ?_⟩
  have whole : (front.rdropWhile isWordChar).length + (front.rtakeWhile isWordChar).length =
      front.length := by
    rw [← List.length_append, List.rdropWhile_append_rtakeWhile]
  have filled : 0 < (front.rtakeWhile isWordChar).length :=
    List.length_pos_iff.mpr ((rtakeWhile_ne_nil_iff front).mpr h.joins.1)
  rcases Nat.lt_or_ge front.length before.length with late | early
  · refine ⟨by omega, fun same => ?_⟩
    rw [same] at whole
    omega
  · obtain ⟨rfl, rfl⟩ := h.around pair early
    have majors := rtakeWhile_append_of_all before pair.major_word
    have minors : (minor ++ behind).takeWhile isWordChar = minor ++ behind.takeWhile isWordChar :=
      List.takeWhile_append_of_pos pair.minor_word
    rw [typesAround, majors, minors]
    rw [majors, List.length_append, List.length_append] at whole
    simp only [List.length_append]
    omega

theorem IsFoundIn.unique {t major minor major' minor' : Text} (h : IsFoundIn t major minor)
    (h' : IsFoundIn t major' minor') : major = major' ∧ minor = minor' := by
  obtain ⟨before, behind, pair, least⟩ := h
  obtain ⟨before', behind', pair', least'⟩ := h'
  have bounds := least _ _ _ _ pair'
  have bounds' := least' _ _ _ _ pair
  have whole := pair.parts.symm.trans pair'.parts
  obtain ⟨rfl, rest⟩ := List.append_inj whole (Nat.le_antisymm bounds.1 bounds'.1)
  have lengths := bounds.2 rfl
  have lengths' := bounds'.2 rfl
  obtain ⟨majors, rest⟩ := List.append_inj rest (Nat.le_antisymm lengths'.1 lengths.1)
  obtain ⟨minors, -⟩ := List.append_inj (List.cons.inj rest).2 (Nat.le_antisymm lengths'.2 lengths.2)
  exact ⟨majors, minors⟩

/-- The pair that counts is the one that a search finds. -/
theorem firstPair?_eq_some_iff {t major minor : Text} :
    firstPair? t = some (major, minor) ↔ IsFoundIn t major minor := by
  have found := finds_firstPair? t
  constructor
  · intro pair
    rw [pair] at found
    obtain ⟨front, back, first, around⟩ := found
    obtain ⟨rfl, rfl⟩ := Prod.mk.inj around
    exact first.isFoundIn
  · intro h
    obtain ⟨before, behind, inside, -⟩ := id h
    cases pair : firstPair? t with
    | none =>
        rw [pair] at found
        exact absurd inside.joins.2 (found _ _ inside.joins.1)
    | some types =>
        rw [pair] at found
        obtain ⟨front, back, first, rfl⟩ := found
        obtain ⟨rfl, rfl⟩ := h.unique first.isFoundIn
        rfl

/-- A pair is found wherever there is one. -/
theorem isSome_firstPair?_iff {t : Text} :
    (firstPair? t).isSome ↔ ∃ before major minor behind, IsPairIn t before major minor behind := by
  constructor
  · intro found
    obtain ⟨⟨major, minor⟩, pair⟩ := Option.isSome_iff_exists.mp found
    obtain ⟨before, behind, inside, -⟩ := firstPair?_eq_some_iff.mp pair
    exact ⟨before, major, minor, behind, inside⟩
  · rintro ⟨before, major, minor, behind, inside⟩
    obtain ⟨parts, joins⟩ := inside.joins
    have found := finds_firstPair? t
    cases pair : firstPair? t with
    | some types => rfl
    | none =>
        rw [pair] at found
        exact absurd joins (found _ _ parts)

/-! ## Reading bodies -/

/-- How bodies of a major and a minor type are read: four minor types of two major types are known. -/
structure IsTypeOf (major minor : Text) (type : BodyType) : Prop where
  json : type = .json ↔ (major = "application" ∨ major = "text") ∧ minor = "json"
  xml : type = .xml ↔ (major = "application" ∨ major = "text") ∧ (minor = "html" ∨ minor = "xml")
  text : type = .text ↔ (major = "application" ∨ major = "text") ∧ minor = "plain"
  binary : type = .binary ↔ ¬ ((major = "application" ∨ major = "text") ∧
    (minor = "json" ∨ minor = "html" ∨ minor = "xml" ∨ minor = "plain"))

theorem isTypeOf_pairType (major minor : Text) : IsTypeOf major minor (pairType (major, minor)) := by
  rw [pairType]
  split_ifs with isKnown isJson isXml isPlain
  · constructor <;> simp_all +decide
  · have spelled : minor = "html" ∨ minor = "xml" := by simpa using isXml
    rcases spelled with rfl | rfl <;> constructor <;> simp_all +decide
  · constructor <;> simp_all +decide
  · constructor <;> simp_all +decide
  · constructor <;> simp_all +decide

/-- A body is read by the types around the first slash that has types on either side, as long as they
can be taken, and as octets when there is no such slash.  Nothing behind these types counts. -/
theorem classify_firstSlash (t : Text) :
    ((∀ front back, t = front ++ .scalar '/' :: back → ¬ JoinsTypes front back) →
      classify t = .binary) ∧
    ∀ front back, IsFirstSlash t front back →
      IsTypeOf (front.rtakeWhile isWordChar) (back.takeWhile isWordChar) (classify t) := by
  constructor
  · intro none
    rw [classify, firstPair?_eq_none none]
    rfl
  · intro front back first
    rw [classify, firstPair?_of_isFirstSlash first]
    exact isTypeOf_pairType _ _

/-- Slashes with a digit beside them are passed over, and a known pair comes too late. -/
theorem classify_firstSlash_late :
    IsFirstSlash "1/2 a/3 text/xml+x application/json" "1/2 a/3 text" "xml+x application/json" ∧
    IsTypeOf "text" "xml" (classify "1/2 a/3 text/xml+x application/json") := by
  have first :
      IsFirstSlash "1/2 a/3 text/xml+x application/json" "1/2 a/3 text" "xml+x application/json" := by
    decide
  exact ⟨first, (classify_firstSlash "1/2 a/3 text/xml+x application/json").2 _ _ first⟩

end MediaType
end DocumentGateway
