import DocumentGateway.Proofs.Xml.ReadDeclarations
import DocumentGateway.Xml.Prolog.Grammar

namespace DocumentGateway
namespace Xml
namespace Prolog

/-!
# What the prolog gives

The tokens before the root element are in order, every step of the grammar keeps the declarations in
order, and so does the whole of what precedes the root element.
-/

/-! ## Tokens -/

/-- A name of some kind is in order. -/
def Token.IsSound : Token → Prop
  | .name spelling => IsNamePart spelling
  | .qualifiedName spelling => IsQualified spelling
  | .literal content _ => AreXmlChars content
  | _ => True

/-- What the rest of a name is made of, given the kind of what came before it. -/
inductive ContinuesName (more : List Char) : NameKind → NameKind → Prop
  | plain (h : ∀ c ∈ more, (TextForm.wide false).isNameChar c = true) : ContinuesName more .plain .plain
  | qualified (h : ∀ c ∈ more, (TextForm.wide false).isNameChar c = true) :
      ContinuesName more .qualified .qualified
  | colon (front base : List Char) (same : more = front ++ ':' :: base)
      (hFront : ∀ c ∈ front, (TextForm.wide false).isNameChar c = true) (h : IsNamePart base) :
      ContinuesName more .plain .qualified
  | loose {kind : NameKind} : ContinuesName more kind .loose

theorem continuesName_nil (kind : NameKind) : ContinuesName [] kind kind := by
  cases kind with
  | plain => exact .plain fun c member => absurd member List.not_mem_nil
  | qualified => exact .qualified fun c member => absurd member List.not_mem_nil
  | loose => exact .loose

theorem ContinuesName.cons {more : List Char} {kind whole : NameKind} {c : Char}
    (h : ContinuesName more kind whole) (fits : (TextForm.wide false).isNameChar c = true) :
    ContinuesName (c :: more) kind whole := by
  cases h with
  | plain h => exact .plain (List.forall_mem_cons.mpr ⟨fits, h⟩)
  | qualified h => exact .qualified (List.forall_mem_cons.mpr ⟨fits, h⟩)
  | colon front base same hFront h =>
      exact .colon (c :: front) base (congrArg (c :: ·) same)
        (List.forall_mem_cons.mpr ⟨fits, hFront⟩) h
  | loose => exact .loose

/-- What a character of names begins is not empty. -/
theorem ne_nil_of_scanNameRest {f : TextForm} {start : List Char} {kind : NameKind} {c : Char}
    {rest : List Char} {result : List Char × Option NameKind × List Char}
    (fits : f.isNameChar c = true) (h : scanNameRest f start kind (c :: rest) = .ok result) :
    result.1 ≠ [] := by
  rw [scanNameRest, if_pos fits] at h
  rcases exists_of_bind_eq_ok h with ⟨more, -, h⟩
  cases h
  exact List.cons_ne_nil _ _

theorem continuesName_scanNameRest {f : TextForm} {start : List Char} {kind whole : NameKind}
    {t more behind : List Char} (h : scanNameRest f start kind t = .ok (more, some whole, behind)) :
    ContinuesName more kind whole := by
  induction t generalizing kind more with
  | nil =>
      cases h
      exact continuesName_nil whole
  | cons c rest ih =>
      rw [scanNameRest] at h
      split at h
      · next fits =>
          rcases exists_of_bind_eq_ok h with ⟨⟨found, found?, following⟩, scanned, h⟩
          cases h
          exact (ih scanned).cons (isNameChar_wide_of_isNameChar fits)
      · split at h
        · next isColon =>
            -- Behind the colon a name is read of the kind that the colon makes.
            have joined : ∀ next, (do
                  let found ← scanNameRest f start next rest
                  return (c :: found.1, found.2.1, found.2.2)) = .ok (more, some whole, behind) →
                ∃ found, scanNameRest f start next rest = .ok (found, some whole, behind) ∧
                  more = ':' :: found := by
              intro next h
              rcases exists_of_bind_eq_ok h with ⟨⟨found, found?, following⟩, scanned, h⟩
              cases h
              exact ⟨found, scanned, congrArg (· :: found) isColon⟩
            have loosely : ∀ found, ContinuesName found .loose whole →
                ContinuesName more kind whole := by
              rintro found ⟨⟩
              exact .loose
            cases kind with
            | qualified | loose =>
                rcases joined _ h with ⟨found, scanned, -⟩
                exact loosely found (ih scanned)
            | plain =>
                cases rest with
                | nil => cases h
                | cons d tail =>
                    rcases joined _ h with ⟨found, scanned, rfl⟩
                    by_cases fits : f.isNameChar d = true
                    · rw [if_pos fits] at scanned
                      have filled : found ≠ [] := ne_nil_of_scanNameRest fits scanned
                      cases ih scanned with
                      | qualified chars =>
                          exact .colon [] found rfl
                            (fun c member => absurd member List.not_mem_nil) ⟨filled, chars⟩
                      | loose => exact .loose
                    · rw [if_neg fits] at scanned
                      exact loosely found (ih scanned)
        · split at h
          · cases h
            exact continuesName_nil whole
          · split at h
            · cases h
            · exact absurd h refused_ne_ok

theorem isSound_scanWord {f : TextForm} {t : List Char} {result : Token × List Char}
    (h : scanWord f t = .ok result) : result.1.IsSound := by
  cases t with
  | nil => exact absurd h stop_ne_ok
  | cons c rest =>
      rw [scanWord] at h
      split at h
      · rcases exists_of_bind_eq_ok h with ⟨⟨more, whole?, behind⟩, scanned, h⟩
        cases h
        cases whole? with
        | none => trivial
        | some whole =>
            have continued := continuesName_scanNameRest scanned
            by_cases begins : f.isNameStart c = true
            · rw [if_pos begins] at continued
              have fits : (TextForm.wide false).isNameChar c = true :=
                isNameChar_wide_of_isNameChar (TextForm.isNameChar_of_isNameStart begins)
              cases continued with
              | plain chars =>
                  exact ⟨List.cons_ne_nil c more, List.forall_mem_cons.mpr ⟨fits, chars⟩⟩
              | colon front base same hFront hBase =>
                  subst same
                  have part : IsNamePart (c :: front) :=
                    ⟨List.cons_ne_nil c front, List.forall_mem_cons.mpr ⟨fits, hFront⟩⟩
                  exact .prefixed part hBase
              | loose => trivial
            · rw [if_neg begins] at continued
              cases continued
              trivial
      · exact absurd h refused_ne_ok

theorem areXmlChars_scanLiteral {start : List Char} {quote : Char} {t : List Char}
    {result : List Char × List Char} (h : scanLiteral start quote t = .ok result) :
    AreXmlChars result.1 := by
  induction t generalizing result with
  | nil => exact absurd h stop_ne_ok
  | cons c rest ih =>
      rw [scanLiteral] at h
      split at h
      · split at h
        · cases h
          exact .nil
        · exact absurd h stop_ne_ok
      · split at h
        · next fits =>
            rcases exists_of_bind_eq_ok h with ⟨more, scanned, h⟩
            cases h
            exact .cons fits (ih scanned)
        · exact absurd h refused_ne_ok

theorem isSound_scanDeclarationOpen {f : TextForm} {start t : List Char}
    {result : Token × List Char} (h : scanDeclarationOpen f start t = .ok result) :
    result.1.IsSound := by
  unfold scanDeclarationOpen at h
  split at h
  · exact absurd h stop_ne_ok
  · rcases exists_of_bind_eq_ok h with ⟨behind, -, h⟩
    cases h
    trivial
  · cases h
    trivial
  · split at h
    · dsimp only at h
      split at h
      · exact absurd h stop_ne_ok
      · split at h
        · exact absurd h stop_ne_ok
        · cases h
          trivial
      · split at h
        · cases h
          trivial
        · exact absurd h stop_ne_ok
      · exact absurd h stop_ne_ok
    · exact absurd h stop_ne_ok

theorem isSound_scanBracket {f : TextForm} {start t : List Char} {result : Token × List Char}
    (h : scanBracket f start t = .ok result) : result.1.IsSound := by
  unfold scanBracket at h
  split at h
  · exact absurd h stop_ne_ok
  · exact isSound_scanDeclarationOpen h
  · rcases exists_of_bind_eq_ok h with ⟨⟨instruction, behind⟩, -, h⟩
    cases instruction with
    | declaration body closing =>
        cases h
        trivial
    | processing =>
        cases h
        trivial
  · split at h
    · cases h
      trivial
    · exact absurd h stop_ne_ok

theorem isSound_scanPercent {f : TextForm} {start t : List Char} {result : Token × List Char}
    (h : scanPercent f start t = .ok result) : result.1.IsSound := by
  unfold scanPercent at h
  split at h
  · exact absurd h stop_ne_ok
  · split at h
    · cases h
      trivial
    · rcases exists_of_bind_eq_ok h with ⟨⟨name, behind⟩, -, h⟩
      dsimp only at h
      split at h
      · cases h
        trivial
      · exact absurd h unexpected_ne_ok

theorem isSound_scanHashName {f : TextForm} {start t : List Char} {result : Token × List Char}
    (h : scanHashName f start t = .ok result) : result.1.IsSound := by
  rcases exists_of_bind_eq_ok h with ⟨⟨spelling, behind⟩, -, h⟩
  dsimp only at h
  split at h
  · cases h
    trivial
  · exact absurd h stop_ne_ok

theorem isSound_scanCloseParen {t : List Char} {result : Token × List Char}
    (h : scanCloseParen t = .ok result) : result.1.IsSound := by
  unfold scanCloseParen at h
  split at h
  · cases h
    trivial
  · cases h
    trivial
  · cases h
    trivial
  · split at h
    · cases h
      trivial
    · exact absurd h stop_ne_ok

theorem isSound_scanToken {f : TextForm} {t : List Char} {result : Token × List Char}
    (h : scanToken f t = .ok result) : result.1.IsSound := by
  unfold scanToken at h
  split at h
  · rcases exists_of_bind_eq_ok h with ⟨⟨content, behind⟩, scanned, h⟩
    cases h
    exact areXmlChars_scanLiteral scanned
  · rcases exists_of_bind_eq_ok h with ⟨⟨content, behind⟩, scanned, h⟩
    cases h
    exact areXmlChars_scanLiteral scanned
  · exact isSound_scanBracket h
  · exact isSound_scanPercent h
  · exact isSound_scanHashName h
  · cases h
    trivial
  · cases h
    trivial
  · cases h
    trivial
  · exact absurd h stop_ne_ok
  · cases h
    trivial
  · cases h
    trivial
  · exact isSound_scanCloseParen h
  · cases h
    trivial
  · cases h
    trivial
  · split at h
    · cases h
      trivial
    · exact isSound_scanWord h
  · exact isSound_scanWord h

/-! ## Steps of the grammar -/

/-- What is expected next in the declaration of an attribute carries its name or its rule. -/
def Expecting.IsSound : Expecting → Prop
  | .attributeType _ name => IsQualified name
  | .attributeNotations rule => rule.IsSound
  | .attributeChoice rule _ => rule.IsSound
  | .attributeChoiceEnd rule _ => rule.IsSound
  | .attributeDefault rule _ => rule.IsSound
  | .attributeFixed rule => rule.IsSound
  | _ => True

/-- Where a step leads to is in order. -/
def IsSoundStep (result : Expecting × Declarations) : Prop :=
  result.1.IsSound ∧ result.2.IsSound

/-- A step leads to nothing but what is in order. -/
def LeadsOn (step : Except Stop (Expecting × Declarations)) : Prop :=
  ∀ result, step = .ok result → IsSoundStep result

theorem leadsOn_ok {next : Expecting} {d : Declarations} (hNext : next.IsSound) (sound : d.IsSound) :
    LeadsOn (.ok (next, d)) := by
  rintro result ⟨⟩
  exact ⟨hNext, sound⟩

theorem leadsOn_stop {cause : Cause} {place : List Char} : LeadsOn (stop cause place) :=
  fun _ same => absurd same stop_ne_ok

theorem leadsOn_misplaced {place : List Char} {token : Token} : LeadsOn (misplaced place token) := by
  unfold misplaced
  split
  · exact leadsOn_stop
  · exact leadsOn_stop
  · exact leadsOn_stop

theorem leadsOn_ite {c : Prop} [Decidable c] {ifTrue ifFalse : Except Stop (Expecting × Declarations)}
    (hTrue : LeadsOn ifTrue) (hFalse : LeadsOn ifFalse) :
    LeadsOn (if c then ifTrue else ifFalse) := by
  split
  · exact hTrue
  · exact hFalse

theorem leadsOn_bind {x : Except Stop α} {next : α → Except Stop (Expecting × Declarations)}
    (h : ∀ a, x = .ok a → LeadsOn (next a)) : LeadsOn (x >>= next) := by
  intro result same
  rcases exists_of_bind_eq_ok same with ⟨a, first, same⟩
  exact h a first result same

theorem isSound_declarationKind? {keyword : List Char} {next : Expecting}
    (h : declarationKind? keyword = some next) : next.IsSound := by
  rcases List.exists_of_findSome?_eq_some h with ⟨known, among, found⟩
  split at found
  · cases found
    simp only [List.mem_cons, List.not_mem_nil, or_false] at among
    rcases among with rfl | rfl | rfl | rfl
    · trivial
    · trivial
    · trivial
    · trivial
  · exact absurd found (by simp)

variable {d : Declarations}

/-- Declarations are in order whatever they say about what is declared elsewhere. -/
theorem isSound_elsewhere {other : Declarations} (sound : d.IsSound)
    (entities : other.entities = d.entities) (rules : other.rules = d.rules) : other.IsSound where
  entities := entities ▸ sound.entities
  rules := rules ▸ sound.rules

theorem leadsOn_stepDoctype (sound : d.IsSound) {place : List Char} {expecting : Expecting}
    {token : Token} : LeadsOn (stepDoctype d place expecting token) := by
  have elsewhere : ∀ isHeeded,
      ({ d with refersElsewhere := true, isHeeded := isHeeded } : Declarations).IsSound :=
    fun _ => isSound_elsewhere sound rfl rfl
  unfold stepDoctype
  split
  case h_5 =>
    exact leadsOn_ite (leadsOn_ok trivial sound) (leadsOn_ite (leadsOn_ok trivial sound) leadsOn_stop)
  case h_6 => exact leadsOn_bind fun _ _ => leadsOn_ok trivial (elsewhere _)
  case h_7 => exact leadsOn_ok trivial (elsewhere _)
  case h_11 =>
    split
    · next found => exact leadsOn_ok (isSound_declarationKind? found) sound
    · exact leadsOn_stop
  case h_15 => exact leadsOn_ok trivial (elsewhere _)
  case h_17 => exact leadsOn_misplaced
  all_goals exact leadsOn_ok trivial sound

theorem isSound_declareEntity (sound : d.IsSound) (name? : Option (List Char)) {e : Entity}
    (h : ∀ replacement, e = .internal replacement → AreXmlChars replacement) :
    (declareEntity d name? e).IsSound := by
  cases name? with
  | none => exact sound
  | some name => exact sound.withEntity name h

theorem isSound_readEntityValue (sound : d.IsSound) {f : TextForm} {name? : Option (List Char)}
    {content following : List Char} (chars : AreXmlChars content) {declared : Declarations}
    (h : readEntityValue d f name? content following = .ok declared) : declared.IsSound := by
  unfold readEntityValue at h
  split at h
  · rcases exists_of_bind_eq_ok h with ⟨replacement, resolved, h⟩
    cases h
    apply isSound_declareEntity sound name?
    rintro other ⟨⟩
    exact areXmlChars_entityValue chars resolved
  · cases h
    exact sound

theorem leadsOn_stepEntity (sound : d.IsSound) {f : TextForm} {place : List Char}
    {expecting : Expecting} {token : Token} (hToken : token.IsSound) :
    LeadsOn (stepEntity d f place expecting token) := by
  have declared : ∀ name? e, (∀ replacement, e ≠ .internal replacement) →
      (declareEntity d name? e).IsSound :=
    fun name? e noText => isSound_declareEntity sound name? fun replacement same =>
      absurd same (noText replacement)
  unfold stepEntity
  split
  case h_4 | h_12 =>
    exact leadsOn_ite (leadsOn_ok trivial sound) (leadsOn_ite (leadsOn_ok trivial sound) leadsOn_stop)
  case h_5 =>
    exact leadsOn_bind fun _ read => leadsOn_ok trivial (isSound_readEntityValue sound hToken read)
  case h_6 | h_13 => exact leadsOn_bind fun _ _ => leadsOn_ok trivial sound
  case h_8 => exact leadsOn_ok trivial (declared _ _ (by simp))
  case h_9 => exact leadsOn_ite (leadsOn_ok trivial sound) leadsOn_stop
  case h_10 => exact leadsOn_ok trivial (declared _ _ (by simp))
  case h_17 => exact leadsOn_misplaced
  all_goals exact leadsOn_ok trivial sound

theorem isSound_leaveGroup (connectors : List (Option Token)) : (leaveGroup connectors).IsSound := by
  match connectors with
  | [] => trivial
  | [_] => trivial
  | _ :: _ :: _ => trivial

theorem isSound_joinGroup {connector : Token} {place : List Char}
    {connectors : List (Option Token)} {next : Expecting}
    (h : joinGroup connector place connectors = .ok next) : next.IsSound := by
  cases connectors with
  | nil => exact absurd h stop_ne_ok
  | cons inner outer =>
      rw [joinGroup] at h
      split at h
      · cases h
        trivial
      · exact absurd h stop_ne_ok

theorem leadsOn_stepContent (sound : d.IsSound) {place : List Char} {expecting : Expecting}
    {token : Token} : LeadsOn (stepContent d place expecting token) := by
  unfold stepContent
  split
  case h_3 | h_5 => exact leadsOn_ite (leadsOn_ok trivial sound) leadsOn_stop
  case h_21 | h_22 | h_23 => exact leadsOn_ok (isSound_leaveGroup _) sound
  case h_24 | h_25 => exact leadsOn_bind fun _ joined => leadsOn_ok (isSound_joinGroup joined) sound
  case h_26 => exact leadsOn_misplaced
  all_goals exact leadsOn_ok trivial sound

theorem leadsOn_stepOutside (sound : d.IsSound) {place : List Char} {expecting : Expecting}
    {token : Token} : LeadsOn (stepOutside d place expecting token) := by
  have next : (if expecting = .rootOnly then Expecting.rootOnly else .doctypeOrRoot).IsSound := by
    split
    · trivial
    · trivial
  unfold stepOutside
  dsimp only
  split
  case h_4 =>
    refine leadsOn_ite ?_ ?_
    · exact leadsOn_bind fun _ stopped => absurd stopped stop_ne_ok
    · exact leadsOn_bind fun _ _ => leadsOn_ok next (Declarations.isSound_empty _)
  case h_5 => exact leadsOn_ite (leadsOn_ok trivial sound) leadsOn_stop
  case h_6 => exact leadsOn_misplaced
  all_goals exact leadsOn_ok next sound

open Reading

theorem ensures_readDefault (sound : d.IsSound) {f : TextForm} {place : List Char}
    {rule : AttributeRule} (hRule : rule.IsSound) {content following : List Char}
    (chars : AreXmlChars content) :
    (readDefault d f place rule content following).Ensures Declarations.IsSound := by
  unfold readDefault
  refine .ite (fun _ => ?_) fun _ => ensures_pure sound
  refine (ensures_attributeValue sound chars).bind fun value hValue => ensures_pure ?_
  have withDefault : AttributeRule.IsSound { rule with default? := some value } := by
    refine ⟨hRule.name, ?_⟩
    rintro other ⟨⟩
    exact hValue
  exact sound.withRule withDefault false

theorem isSound_afterType? {rule : AttributeRule} (hRule : rule.IsSound) {type : List Char}
    {next : Expecting} (h : afterType? rule type = some next) : next.IsSound := by
  unfold afterType? at h
  split at h
  · cases h
    exact ⟨hRule.name, hRule.default⟩
  · split at h
    · cases h
      exact hRule
    · split at h
      · cases h
        exact hRule
      · cases h

theorem ensures_stepAttribute (sound : d.IsSound) {f : TextForm} {place : List Char}
    {expecting : Expecting} {token : Token} (hExpecting : expecting.IsSound)
    (hToken : token.IsSound) : (stepAttribute d f place expecting token).Ensures IsSoundStep := by
  have plainRule : ∀ elementName attributeName, IsQualified attributeName →
      (AttributeRule.mk elementName attributeName true none).IsSound := by
    intro elementName attributeName named
    refine ⟨named, ?_⟩
    rintro value ⟨⟩
  have defaulted : ∀ {rule content following}, rule.IsSound → AreXmlChars content →
      Ensures (do
        return (Expecting.attributeName rule.elementName,
          ← readDefault d f place rule content following)) IsSoundStep :=
    fun hRule chars => (ensures_readDefault sound hRule chars).bind fun _ declared =>
      ensures_pure ⟨trivial, declared⟩
  unfold stepAttribute
  split
  case h_4 => exact ensures_pure ⟨.plain hToken, sound⟩
  case h_5 => exact ensures_pure ⟨hToken, sound⟩
  case h_6 =>
    split
    · next found => exact ensures_pure ⟨isSound_afterType? (plainRule _ _ hExpecting) found, sound⟩
    · exact ensures_stop
  case h_7 => exact ensures_pure ⟨plainRule _ _ hExpecting, sound⟩
  case h_14 =>
    refine .ite (fun _ => ensures_pure ⟨trivial, sound.withRule hExpecting _⟩) fun _ => ?_
    exact .ite (fun _ => ensures_pure ⟨hExpecting, sound⟩) fun _ => ensures_stop
  case h_15 => exact defaulted hExpecting hToken
  case h_16 => exact defaulted hExpecting hToken
  case h_17 => exact ensures_liftM leadsOn_misplaced
  all_goals exact ensures_pure ⟨hExpecting, sound⟩

/-- Every step keeps the declarations in order. -/
theorem ensures_step (sound : d.IsSound) {f : TextForm} {place : List Char} {expecting : Expecting}
    {token : Token} (hExpecting : expecting.IsSound) (hToken : token.IsSound) :
    (step d f place expecting token).Ensures IsSoundStep := by
  unfold step
  split
  · exact ensures_liftM (leadsOn_stepOutside sound)
  · exact ensures_pure ⟨hExpecting, sound⟩
  · exact ensures_liftM (leadsOn_stepDoctype sound)
  · exact ensures_liftM (leadsOn_stepEntity sound hToken)
  · exact ensures_stepAttribute sound hExpecting hToken
  · exact ensures_liftM (leadsOn_stepContent sound)

/-! ## The whole prolog -/

theorem ensures_readFrom (sound : d.IsSound) {f : TextForm} {budget : Nat} {taken? : Option Stop}
    {expecting : Expecting} (hExpecting : expecting.IsSound) {t : List Char} :
    (readFrom f budget taken? expecting d t).Ensures fun result => result.1.IsSound := by
  induction budget generalizing taken? expecting d t with
  | zero => exact ensures_stop
  | succ budget ih =>
      cases t with
      | nil => exact ensures_stop
      | cons c rest =>
          rw [readFrom.eq_3 _ _ _ _ _ _ (List.cons_ne_nil c rest)]
          refine (ensures_liftM fun _ scanned => scanned).bind ?_
          rintro ⟨token, behind⟩ scanned
          refine .ite (fun _ => ensures_pure sound) fun _ => ?_
          apply ensures_bind
          intro _
          refine (ensures_step sound hExpecting (isSound_scanToken scanned)).bind ?_
          rintro ⟨next, declared⟩ ⟨hNext, hDeclared⟩
          exact ih hDeclared hNext

/-- What is declared before the root element is in order. -/
theorem ensures_read {f : TextForm} {t : List Char} :
    (read f t).Ensures fun result => result.1.IsSound := by
  have empty := Declarations.isSound_empty false
  have anything : Expecting.anything.IsSound := trivial
  unfold read
  split
  · exact ensures_readFrom empty anything
  · exact ensures_readFrom empty anything

end Prolog
end Xml
end DocumentGateway
