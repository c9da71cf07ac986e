import DocumentGateway.Proofs.Xml.ContentPieces

namespace DocumentGateway
namespace Xml

/-!
# Readings that follow another

A text that some characters were cut off from is read as the whole text was.  Where they are cut off
the end, as many octets are read directly at every place, and reading goes on wherever it went on in
the whole text.  Where they are cut off the front, fewer are, so that reading may stop because the
entities stand for too much.
-/

/-! ## Tallies -/

namespace Tally

variable {cut : Nat} {tally other : Tally}

/-- The tally of a text that some octets are cut off from the end of. -/
structure IsLike (cut : Nat) (tally other : Tally) : Prop where
  whole : tally.whole = other.whole + cut
  again : other.again = tally.again
  direct : other.direct.get = tally.direct.get
  indirect : other.indirect = tally.indirect

theorem IsLike.isTolerable (h : tally.IsLike cut other) (tolerable : tally.isTolerable = true) :
    other.isTolerable = true := by
  simp only [Tally.isTolerable, h.again, h.direct, h.indirect, h.whole, Bool.or_eq_true,
    decide_eq_true_eq] at tolerable ⊢
  rcases tolerable with (small | few) | inProportion
  · exact Or.inl (Or.inl (by omega))
  · exact Or.inl (Or.inr few)
  · exact Or.inr inProportion

theorem IsLike.withAgain (h : tally.IsLike cut other) (octets : Nat) :
    (tally.withAgain octets).IsLike cut (other.withAgain octets) where
  whole := h.whole
  again := congrArg (· + octets) h.again
  direct := congrArg (· + octets) h.direct
  indirect := h.indirect

theorem IsLike.withIndirect (h : tally.IsLike cut other) (octets : Nat) :
    (tally.withIndirect octets).IsLike cut (other.withIndirect octets) where
  whole := h.whole
  again := h.again
  direct := h.direct
  indirect := congrArg (· + octets) h.indirect

theorem IsLike.upTo (h : tally.IsLike cut other) {f : TextForm} {behind behindOther : List Char}
    (same : f.octets behind = f.octets behindOther + cut) :
    (tally.upTo f behind).IsLike cut (other.upTo f behindOther) where
  whole := h.whole
  again := h.again
  direct := by
    change other.whole - f.octets behindOther + other.again =
      tally.whole - f.octets behind + tally.again
    rw [h.again, h.whole, same, Nat.add_sub_add_right]
  indirect := h.indirect

/-- Tallies are alike where it is known how many octets are cut off. -/
def AreLike (cut? : Option Nat) (tally other : Tally) : Prop :=
  ∀ cut ∈ cut?, tally.IsLike cut other

end Tally

/-! ## Readings -/

namespace Reading

open Tally

variable {cut? : Option Nat}

/-- A reading ends as another has that gave something: with the same and a tally that is like the
other one, or because too much was read indirectly, where less was read directly. -/
inductive EndsLike (cut? : Option Nat) (a : α) (tally : Tally) : Except Stop (α × Tally) → Prop
  | alike {after : Tally} (h : AreLike cut? tally after) : EndsLike cut? a tally (.ok (a, after))
  | refused (unknown : cut? = none) (place : List Char) :
      EndsLike cut? a tally (.error ⟨.excessiveExpansion, place⟩)

theorem EndsLike.bind {a : α} {b : β} {between after other : Tally} {reading : Reading α}
    {next : α → Reading β} (h : EndsLike cut? a between (reading other))
    (hNext : ∀ later, AreLike cut? between later → EndsLike cut? b after (next a later)) :
    EndsLike cut? b after ((reading >>= next) other) := by
  change EndsLike cut? b after (Except.bind (reading other) fun result => next result.1 result.2)
  generalize reading other = ended at h
  cases h with
  | alike h => exact hNext _ h
  | refused unknown place => exact .refused unknown place

/-- A reading in two steps that gives something has given something in each. -/
theorem exists_between_of_bind_eq_ok {reading : Reading α} {next : α → Reading β} {tally after : Tally} {b : β}
    (h : (reading >>= next) tally = .ok (b, after)) :
    ∃ a between, reading tally = .ok (a, between) ∧ next a between = .ok (b, after) := by
  have parts : ∃ result, reading tally = .ok result ∧ next result.1 result.2 = .ok (b, after) :=
    exists_of_bind_eq_ok h
  rcases parts with ⟨⟨a, between⟩, first, later⟩
  exact ⟨a, between, first, later⟩

theorem eq_of_liftM_eq_ok {x : Except Stop α} {tally after : Tally} {a : α}
    (h : (liftM x : Reading α) tally = .ok (a, after)) : x = .ok a ∧ after = tally := by
  cases x with
  | error s => cases h
  | ok b =>
      cases h
      exact ⟨rfl, rfl⟩

/-- What keeps no tally and gives something leaves the reading to the steps behind it. -/
theorem bind_liftM_of_eq_ok {x : Except Stop α} {a : α} (h : x = .ok a) (next : α → Reading β) :
    (liftM x >>= next : Reading β) = next a :=
  funext fun tally => bind_of_eq_ok (liftM_of_eq_ok h tally) next

/-- Whatever the one reading gives, the other one ends like it. -/
def Follows (cut? : Option Nat) (reading other : Reading α) : Prop :=
  ∀ tally otherTally a after, AreLike cut? tally otherTally → reading tally = .ok (a, after) →
    EndsLike cut? a after (other otherTally)

theorem follows_pure (a : α) : Follows cut? (pure a) (pure a) := by
  intro tally otherTally found after alike same
  cases same
  exact .alike alike

/-- What keeps no tally has to give the same. -/
theorem follows_liftM {x y : Except Stop α} (h : ∀ a, x = .ok a → y = .ok a) :
    Follows cut? (liftM x) (liftM y) := by
  intro tally otherTally a after alike same
  rcases eq_of_liftM_eq_ok same with ⟨isOk, rfl⟩
  rw [liftM_of_eq_ok (h a isOk)]
  exact .alike alike

theorem follows_stop {cause : Cause} {place : List Char} {other : Reading α} :
    Follows cut? (liftM (stop (α := α) cause place)) other := by
  intro tally otherTally a after alike same
  cases same

namespace Follows

variable {reading other : Reading α} {next nextOther : α → Reading β}

theorem bind (h : Follows cut? reading other) (hNext : ∀ a, Follows cut? (next a) (nextOther a)) :
    Follows cut? (reading >>= next) (other >>= nextOther) := by
  intro tally otherTally b after alike same
  rcases exists_between_of_bind_eq_ok same with ⟨a, between, first, later⟩
  exact (h _ _ _ _ alike first).bind fun _ alikeBetween => hNext a _ _ _ _ alikeBetween later

theorem ite {c : Prop} [Decidable c] {ifTrue ifFalse otherTrue otherFalse : Reading α}
    (hTrue : c → Follows cut? ifTrue otherTrue) (hFalse : ¬ c → Follows cut? ifFalse otherFalse) :
    Follows cut? (if c then ifTrue else ifFalse) (if c then otherTrue else otherFalse) := by
  by_cases holds : c
  · rw [if_pos holds, if_pos holds]
    exact hTrue holds
  · rw [if_neg holds, if_neg holds]
    exact hFalse holds

end Follows

theorem EndsLike.movedTo {a : α} {tally : Tally} {reading : Reading α} {other : Tally}
    (h : EndsLike cut? a tally (reading other)) (place : List Char) :
    EndsLike cut? a tally (reading.movedTo place other) := by
  unfold Reading.movedTo
  generalize reading other = ended at h
  cases h with
  | alike h => exact .alike h
  | refused unknown => exact .refused unknown place

end Reading

/-! ## Counting -/

open Reading Tally

variable {cut? : Option Nat}

theorem of_tolerate_eq_ok {place : List Char} {change : Tally → Tally} {tally after : Tally}
    {result : Unit} (h : tolerate place change tally = .ok (result, after)) :
    after = change tally ∧ (change tally).isTolerable = true := by
  have tested : tolerate place change tally =
      (if !(change tally).isTolerable then liftM (stop .excessiveExpansion place) else pure () :
        Reading Unit) (change tally) := rfl
  rw [tested] at h
  cases tolerable : (change tally).isTolerable with
  | false =>
      rw [tolerable] at h
      cases h
  | true =>
      rw [tolerable] at h
      cases h
      exact ⟨rfl, rfl⟩

/-- Where the one reading goes on with a changed tally, the other one does, or it is refused. -/
theorem follows_tolerate (place otherPlace : List Char) {change changeOther : Tally → Tally}
    (h : ∀ {cut tally other}, cut ∈ cut? → IsLike cut tally other →
      IsLike cut (change tally) (changeOther other)) :
    Follows cut? (tolerate place change) (tolerate otherPlace changeOther) := by
  intro tally otherTally result after alike same
  rcases of_tolerate_eq_ok same with ⟨rfl, tolerable⟩
  have changed : AreLike cut? (change tally) (changeOther otherTally) :=
    fun cut known => h known (alike cut known)
  cases tolerableOther : (changeOther otherTally).isTolerable with
  | true =>
      rw [tolerate_of_isTolerable tolerableOther]
      exact .alike changed
  | false =>
      have refusedOther : tolerate otherPlace changeOther otherTally =
          .error ⟨.excessiveExpansion, otherPlace⟩ := by
        change (if !(changeOther otherTally).isTolerable then liftM (stop .excessiveExpansion otherPlace)
          else pure () : Reading Unit) (changeOther otherTally) = _
        rw [tolerableOther]
        rfl
      rw [refusedOther]
      cases cut? with
      | none => exact .refused rfl otherPlace
      | some cut =>
          rw [(changed cut rfl).isTolerable tolerable] at tolerableOther
          cases tolerableOther

theorem follows_count (account : Account) (place otherPlace : List Char) (octets : Nat) :
    Follows cut? (account.count place octets) (account.count otherPlace octets) := by
  cases account with
  | direct => exact follows_tolerate place otherPlace fun _ h => h.withAgain octets
  | indirect => exact follows_tolerate place otherPlace fun _ h => h.withIndirect octets
  | free => exact follows_pure ()

theorem follows_countPredefined : Follows cut? countPredefined countPredefined := by
  intro tally otherTally result after alike same
  cases same
  exact .alike fun cut known => (alike cut known).withIndirect 1

/-! ## Attribute values -/

theorem nextValuePiece_of_eq_ok {f : TextForm} {place : List Char → List Char} {t : List Char}
    {result : ValuePiece × Nat × List Char} (h : nextValuePiece f place t = .ok result)
    (otherPlace : List Char → List Char) : nextValuePiece f otherPlace t = .ok result :=
  nextValuePiece_of_scanValuePiece otherPlace (scanValuePiece_of_nextValuePiece h)

/-- A value is read alike wherever it stands. -/
theorem follows_attributeText (d : Declarations) (home otherHome : List Char) (budget : Nat)
    (f : TextForm) (account : Account) (opened : List (List Char))
    (place otherPlace : List Char → List Char) (t : List Char) :
    Follows cut? (attributeText d home budget f account opened place t)
      (attributeText d otherHome budget f account opened otherPlace t) := by
  induction budget generalizing f account opened place otherPlace t with
  | zero => exact follows_pure []
  | succ budget ih =>
      cases t with
      | nil => exact follows_pure []
      | cons c rest =>
          rw [attributeText.eq_3 _ _ _ _ _ _ _ _ (List.cons_ne_nil c rest),
            attributeText.eq_3 _ _ _ _ _ _ _ _ (List.cons_ne_nil c rest)]
          refine (follows_liftM fun result found => nextValuePiece_of_eq_ok found otherPlace).bind ?_
          rintro ⟨piece, octets, behind⟩
          refine (follows_count account home otherHome octets).bind fun _ => ?_
          have joined : ∀ inner : List Char, Follows cut?
              (do return inner ++ (← attributeText d home budget f account opened place behind))
              (do return inner ++
                (← attributeText d otherHome budget f account opened otherPlace behind)) :=
            fun inner => (ih f account opened place otherPlace behind).bind fun more =>
              follows_pure (inner ++ more)
          cases piece with
          | text run => exact (follows_pure run).bind joined
          | space => exact (follows_pure [' ']).bind joined
          | reference r =>
              cases r with
              | character number =>
                  dsimp only
                  split
                  · exact (follows_pure _).bind joined
                  · exact follows_stop.bind joined
              | entity name =>
                  dsimp only
                  split
                  · exact follows_countPredefined.bind fun _ => (follows_pure _).bind joined
                  · split
                    · exact .ite (fun _ => follows_stop.bind joined) fun _ =>
                        (follows_pure []).bind joined
                    · refine .ite (fun _ => follows_stop.bind joined) fun _ => ?_
                      split
                      · exact follows_stop.bind joined
                      · exact follows_stop.bind joined
                      · exact (ih _ _ _ _ _ _).bind joined

theorem follows_attributeValue (d : Declarations) (f : TextForm) (account : Account)
    (home otherHome : List Char) (opened : List (List Char)) (isTokenized : Bool)
    (following otherFollowing t : List Char) :
    Follows cut? (attributeValue d f account home opened isTokenized following t)
      (attributeValue d f account otherHome opened isTokenized otherFollowing t) := by
  rw [attributeValue, attributeValue]
  exact (follows_attributeText d home otherHome _ f account opened _ _ t).bind fun text =>
    follows_pure _

/-! ## Start tags -/

theorem follows_checkBinding (home otherHome name value : List Char) :
    Follows cut? (liftM (readAttributes.checkBinding home name value))
      (liftM (readAttributes.checkBinding otherHome name value)) := by
  refine follows_liftM fun _ checked => ?_
  unfold readAttributes.checkBinding at checked ⊢
  cases fault : (boundPrefix? name).bind (bindingFault? · value) with
  | none => rfl
  | some cause =>
      rw [fault] at checked
      cases checked

theorem follows_readAttributes (d : Declarations) (f : TextForm) (account : Account)
    (opened : List (List Char)) (home otherHome elementName : List Char) (seen : List (List Char))
    {attributes others : List WrittenAttribute}
    (same : others.map WrittenAttribute.pair = attributes.map WrittenAttribute.pair) :
    Follows cut? (readAttributes d f account opened home elementName seen attributes)
      (readAttributes d f account opened otherHome elementName seen others) := by
  induction attributes generalizing seen others with
  | nil =>
      rw [List.map_eq_nil_iff.mp same]
      exact follows_pure []
  | cons a rest ih =>
      cases others with
      | nil => cases same
      | cons b more =>
          rcases a with ⟨name, value, place, following⟩
          rcases b with ⟨name', value', otherPlace, otherFollowing⟩
          rw [List.map_cons, List.map_cons, List.cons.injEq] at same
          rcases same with ⟨pair, later⟩
          cases pair
          have joined : ∀ read : List Char, Follows cut?
              (do
                readAttributes.checkBinding home name read
                let more ← readAttributes d f account opened home elementName (name :: seen) rest
                return (name, read) :: more)
              (do
                readAttributes.checkBinding otherHome name read
                let more ← readAttributes d f account opened otherHome elementName (name :: seen) more
                return (name, read) :: more) :=
            fun read => (follows_checkBinding home otherHome name read).bind fun _ =>
              (ih (name :: seen) later).bind fun _ => follows_pure _
          have valued : Follows cut?
              (do
                let read ←
                  if isPlainValue value then pure value
                  else
                    attributeValue d f account home opened (d.isTokenized elementName name) following
                      value
                readAttributes.checkBinding home name read
                let more ← readAttributes d f account opened home elementName (name :: seen) rest
                return (name, read) :: more)
              (do
                let read ←
                  if isPlainValue value then pure value
                  else
                    attributeValue d f account otherHome opened (d.isTokenized elementName name)
                      otherFollowing value
                readAttributes.checkBinding otherHome name read
                let more ← readAttributes d f account opened otherHome elementName (name :: seen) more
                return (name, read) :: more) := by
            refine .ite (fun _ => (follows_pure value).bind joined) fun _ => ?_
            exact (follows_attributeValue d f account home otherHome opened _ _ _ value).bind joined
          rw [readAttributes, readAttributes]
          exact .ite (fun _ => follows_stop.bind fun _ => valued) fun _ => valued

theorem follows_forM {items : List α} {check checkOther : α → Reading PUnit}
    (h : ∀ item, Follows cut? (check item) (checkOther item)) :
    Follows cut? (items.forM check) (items.forM checkOther) := by
  induction items with
  | nil => exact follows_pure _
  | cons first rest ih => exact (h first).bind fun _ => ih

theorem follows_openElement (d : Declarations) (f : TextForm) (opened : List (List Char))
    (scope : Scope) (home otherHome : List Char) {tag other : StartTag} (alike : tag.IsLike other) :
    Follows cut? (openElement d f opened scope home tag)
      (openElement d f opened scope otherHome other) := by
  rcases tag with ⟨name, attributes, isEmpty⟩
  rcases other with ⟨name', others, isEmpty'⟩
  rcases alike with ⟨rfl, rfl, same⟩
  rw [openElement, openElement]
  refine (follows_readAttributes d f _ opened home otherHome name' [] same).bind fun written => ?_
  refine (follows_forM fun pair : List Char × List Char =>
    follows_checkBinding home otherHome pair.1 pair.2).bind fun _ => ?_
  dsimp only
  split
  · exact follows_pure _
  · exact follows_stop

end Xml
end DocumentGateway
