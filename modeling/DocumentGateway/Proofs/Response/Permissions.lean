import DocumentGateway.Permission
import DocumentGateway.Proofs.Json.Acceptance
import DocumentGateway.Proofs.Response.Formed
import Mathlib.Algebra.BigOperators.Group.List.Lemmas
import Mathlib.Data.List.Dedup
import Mathlib.Data.List.Induction

namespace DocumentGateway

/-!
# What metadata grants

Metadata is understood as a whole or not at all.  It is understood when each of its entries is an
object that names a role and lists capabilities, and then it stands for the permissions of the first
entry, those of the second one, and so on.  The roles of such a list are those that are granted
something, each where this first happens, and they divide the list among them.
-/

/-- What an entry of metadata says: a role, and what it may do. -/
structure Grant where
  role : Text
  capabilities : List Capability

/-- A grant is said by an object that has the role and the list of capabilities among its fields. -/
def Grant.IsSaidBy (grant : Grant) (entry : Value) : Prop :=
  ∃ fields : Record, entry = .record fields ∧
    fields.get? "role-name" = some (.text grant.role) ∧
    fields.get? "capabilities" =
      some (.list (grant.capabilities.map fun capability => .text capability.value))

/-- The permissions that a grant stands for, one for each of its capabilities. -/
def Grant.permissions (grant : Grant) : List Permission :=
  grant.capabilities.map fun capability => ⟨grant.role, capability⟩

/-- The entries of metadata: all of it, or what an object has under `permissions`. -/
inductive HasEntries : Value → List Value → Prop where
  | whole (entries : List Value) : HasEntries (.list entries) entries
  | field {fields : Record} {entries : List Value}
      (under : fields.get? "permissions" = some (.list entries)) :
      HasEntries (.record fields) entries

/-- Grants that metadata says, each of them by one entry. -/
def AreSaidBy (grants : List Grant) (metadata : Value) : Prop :=
  ∃ entries, HasEntries metadata entries ∧ List.Forall₂ Grant.IsSaidBy grants entries

/-- A response is of the type of JSON, and its body is metadata that says some grants. -/
def Response.Grants [Limits] (r : Response) (grants : List Grant) : Prop :=
  r.type = .json ∧ ∃ metadata, Holds Json.read r.text metadata ∧ AreSaidBy grants metadata

/-! ## Entries -/

theorem Capability.ofValue?_eq_some_iff {v : Value} {capability : Capability} :
    ofValue? v = some capability ↔ v = .text capability.value := by
  constructor
  · intro found
    unfold ofValue? at found
    split at found
    · have same := List.find?_some found
      exact congrArg Value.text (of_decide_eq_true same)
    · cases found
  · rintro rfl
    cases capability <;> rfl

namespace Permission

/-- The values of capabilities are understood, and nothing else is. -/
theorem ofCapabilities_eq_ok_iff {role : Text} {values : List Value}
    {permissions : List Permission} :
    ofCapabilities role values = .ok permissions ↔
      ∃ capabilities : List Capability,
        values = capabilities.map (fun capability => .text capability.value) ∧
          permissions = capabilities.map fun capability => ⟨role, capability⟩ := by
  rw [ofCapabilities, mapM_eq_ok_iff]
  constructor
  · intro each
    induction each with
    | nil => exact ⟨[], rfl, rfl⟩
    | @cons v permission _ _ first _ ih =>
        rcases ih with ⟨capabilities, rfl, rfl⟩
        cases understood : Capability.ofValue? v with
        | none =>
            rw [understood] at first
            cases first
        | some capability =>
            rw [understood] at first
            cases first
            refine ⟨capability :: capabilities, ?_, rfl⟩
            rw [Capability.ofValue?_eq_some_iff.mp understood]
            rfl
  · rintro ⟨capabilities, rfl, rfl⟩
    rw [List.forall₂_map_left_iff, List.forall₂_map_right_iff, List.forall₂_same]
    intro capability _
    rw [Capability.ofValue?_eq_some_iff.mpr rfl]

theorem ofEntry_of_isSaidBy {grant : Grant} {entry : Value} (said : grant.IsSaidBy entry) :
    ofEntry entry = .ok grant.permissions := by
  rcases said with ⟨fields, rfl, isRole, isList⟩
  rw [ofEntry, Value.fields?]
  simp only [isRole, isList]
  exact ofCapabilities_eq_ok_iff.mpr ⟨grant.capabilities, rfl, rfl⟩

/-- An entry of a body is understood only when it says a grant. -/
theorem exists_isSaidBy_of_ofEntry {entry : Value} (reading : Json.IsReading entry)
    {permissions : List Permission} (understood : ofEntry entry = .ok permissions) :
    ∃ grant : Grant, grant.IsSaidBy entry ∧ permissions = grant.permissions := by
  unfold ofEntry at understood
  split at understood
  · cases understood
  · next fields has =>
      split at understood
      · next role values isRole isList =>
          rcases ofCapabilities_eq_ok_iff.mp understood with ⟨capabilities, rfl, rfl⟩
          exact ⟨⟨role, capabilities⟩, ⟨fields, (reading.eq_record has).1, isRole, isList⟩, rfl⟩
      · cases understood

/-! ## Metadata -/

theorem entriesOf_eq_ok_iff {metadata : Value} (reading : Json.IsReading metadata)
    {entries : List Value} : entriesOf metadata = .ok entries ↔ HasEntries metadata entries := by
  constructor
  · intro found
    cases metadata with
    | list _ =>
        cases found
        exact .whole _
    | record fields =>
        rw [entriesOf, Value.fields?] at found
        dsimp only at found
        cases under : OrderedPairs.get? fields "permissions" with
        | none =>
            rw [under] at found
            cases found
        | some listed =>
            rw [under] at found
            cases listed with
            | list items =>
                cases found
                exact .field under
            | _ => cases found
    | mapping fields => cases (reading.eq_record rfl).1
    | _ => cases found
  · intro has
    cases has with
    | whole => rfl
    | field under =>
        rw [entriesOf, Value.fields?]
        simp only [under]
        rfl

/-- The entries that are understood say grants, each of them its own. -/
theorem exists_forall₂_of_mapM_ofEntry {entries : List Value} {parts : List (List Permission)}
    (readings : ∀ entry ∈ entries, Json.IsReading entry) (each : entries.mapM ofEntry = .ok parts) :
    ∃ grants, List.Forall₂ Grant.IsSaidBy grants entries ∧ parts = grants.map Grant.permissions := by
  have all := mapM_eq_ok_iff.mp each
  clear each
  induction all with
  | nil => exact ⟨[], .nil, rfl⟩
  | cons first _ ih =>
      rcases List.forall_mem_cons.mp readings with ⟨isFirst, others⟩
      rcases exists_isSaidBy_of_ofEntry isFirst first with ⟨grant, said, rfl⟩
      rcases ih others with ⟨grants, saidOthers, rfl⟩
      exact ⟨grant :: grants, .cons said saidOthers, rfl⟩

/-- Metadata that is understood says grants, and its permissions are those of the grants in order. -/
theorem ofMetadata_eq_ok_iff {metadata : Value} (reading : Json.IsReading metadata)
    {permissions : List Permission} :
    ofMetadata metadata = .ok permissions ↔
      ∃ grants, AreSaidBy grants metadata ∧ permissions = grants.flatMap Grant.permissions := by
  constructor
  · intro understood
    rcases exists_of_bind_eq_ok understood with ⟨entries, found, understood⟩
    rcases exists_of_bind_eq_ok understood with ⟨parts, each, understood⟩
    have has := (entriesOf_eq_ok_iff reading).mp found
    have readings : ∀ entry ∈ entries, Json.IsReading entry := by
      cases has with
      | whole => exact reading.of_mem
      | field under => exact (reading.of_get? under).of_mem
    rcases exists_forall₂_of_mapM_ofEntry readings each with ⟨grants, said, rfl⟩
    cases understood
    exact ⟨grants, ⟨entries, has, said⟩, List.flatMap_def.symm⟩
  · rintro ⟨grants, ⟨entries, has, said⟩, rfl⟩
    have each : entries.mapM ofEntry = .ok (grants.map Grant.permissions) := by
      rw [mapM_eq_ok_iff, List.forall₂_map_right_iff]
      exact said.flip.imp fun _ _ => ofEntry_of_isSaidBy
    rw [ofMetadata, bind_of_eq_ok ((entriesOf_eq_ok_iff reading).mpr has), bind_of_eq_ok each,
      List.flatMap_def]
    rfl

/-! ## Responses -/

section

variable [Limits]

theorem result_ofResponse_eq_ok_iff {r : Response} {permissions : List Permission} :
    (ofResponse r).result = .ok permissions ↔
      ∃ grants, r.Grants grants ∧ permissions = grants.flatMap Grant.permissions := by
  rw [ofResponse, Run.result_timed, Run.result_bind]
  constructor
  · intro returned
    rcases exists_of_bind_eq_ok returned with ⟨metadata, found, understood⟩
    rcases Json.result_ofResponse_eq_ok_iff.mp found with ⟨isJson, holds⟩
    have reading := Json.isReading_of_holds holds
    rcases (ofMetadata_eq_ok_iff reading).mp (eq_ok_of_mapError_eq_ok understood) with
      ⟨grants, said, same⟩
    exact ⟨grants, ⟨isJson, metadata, holds, said⟩, same⟩
  · rintro ⟨grants, ⟨isJson, metadata, holds, said⟩, same⟩
    have reading := Json.isReading_of_holds holds
    rw [Json.result_ofResponse_eq_ok_iff.mpr ⟨isJson, holds⟩]
    change ((ofMetadata metadata).mapError Fault.format) = _
    rw [(ofMetadata_eq_ok_iff reading).mpr ⟨grants, said, same⟩]
    rfl

theorem returnsIff_ofResponse {r : Response} (shallow : Json.IsShallow (r.textIn .json)) :
    (ofResponse r).ReturnsIff (∃ grants, r.Grants grants) := by
  have run := ((Json.returnsIff_ofResponse shallow).bind fun metadata _ =>
    Run.returnsIff_ofExcept_mapError (ofMetadata metadata)).timed .permissions
  refine ⟨?_, run.refuses⟩
  simp only [result_ofResponse_eq_ok_iff]
  exact ⟨fun ⟨_, grants, grant, _⟩ => ⟨grants, grant⟩, fun ⟨grants, grant⟩ => ⟨_, grants, grant, rfl⟩⟩

/-- Of a body that is a document of the grammar but nested too deeply, nothing is understood. -/
theorem exists_result_ofResponse_eq_tooDeep {r : Response} {t : Text} (isText : r.textIn .json = .ok t)
    {v : Value} (denotes : Json.DenotesDocument t v) (deep : Limits.values t < Json.nesting t) :
    ∃ container, (ofResponse r).result = .error (.tooDeep container) := by
  rcases Json.exists_read_eq_tooDeep denotes deep with ⟨container, tired⟩
  refine ⟨container, ?_⟩
  have failed : (Json.ofResponse r).result = .error (.tooDeep container) := by
    rw [Json.ofResponse, Run.result_timed, isText]
    change (Json.parse t).result = _
    rw [Json.result_parse, tired]
    rfl
  rw [ofResponse, Run.result_timed, Run.result_bind, failed]
  rfl

end

end Permission

/-! ## Roles -/

/-- The different members of a list of names, in the order of their first occurrences. -/
structure AreFirstOccurrences (firsts names : List Text) : Prop where
  distinct : firsts.Nodup
  mem_iff : ∀ name, name ∈ firsts ↔ name ∈ names
  inOrder : firsts.Pairwise fun name other => names.idxOf name < names.idxOf other

/-- The roles of those grants that have a capability. -/
def grantedRoles (grants : List Grant) : List Text :=
  (grants.filter fun grant => !grant.capabilities.isEmpty).map Grant.role

/-- Permissions that come from grants are grouped by role: their roles are those that are granted
something, each of them has the capabilities of its grants one after the other, and together they
have all. -/
structure AreGrouped (grants : List Grant) (permissions : List Permission) : Prop where
  roles : AreFirstOccurrences (Permission.roles permissions) (grantedRoles grants)
  capabilities : ∀ role, Permission.capabilitiesFor permissions role =
    (grants.filter fun grant => grant.role = role).flatMap Grant.capabilities
  lengths : ((Permission.roles permissions).map fun role =>
    (Permission.capabilitiesFor permissions role).length).sum = permissions.length

namespace Permission

/-- A list of roles after one more role. -/
def note (seen : List Text) (role : Text) : List Text :=
  if seen.contains role then seen else seen ++ [role]

theorem note_of_mem {seen : List Text} {role : Text} (member : role ∈ seen) : note seen role = seen :=
  if_pos (List.contains_iff_mem.mpr member)

theorem mem_note (seen : List Text) (role : Text) : role ∈ note seen role := by
  unfold note
  split
  · next member => exact List.contains_iff_mem.mp member
  · exact List.mem_append_right seen (List.mem_singleton_self role)

/-- Noting names one after the other leaves each where it first occurs. -/
theorem areFirstOccurrences_foldl_note (names : List Text) :
    AreFirstOccurrences (names.foldl note []) names := by
  induction names using List.reverseRecOn with
  | nil => exact ⟨.nil, fun _ => Iff.rfl, .nil⟩
  | append_singleton names last ih =>
      rw [List.foldl_append, List.foldl_cons, List.foldl_nil]
      generalize names.foldl note [] = firsts at ih ⊢
      have early : ∀ name ∈ firsts, (names ++ [last]).idxOf name = names.idxOf name :=
        fun name member => List.idxOf_append_of_mem ((ih.mem_iff name).mp member)
      have inOrder : firsts.Pairwise fun name other =>
          (names ++ [last]).idxOf name < (names ++ [last]).idxOf other := by
        refine ih.inOrder.imp_of_mem fun {name other} isName isOther before => ?_
        rwa [early name isName, early other isOther]
      -- The last name occurred before, or it stands behind all first occurrences.
      by_cases member : last ∈ firsts
      · rw [note_of_mem member]
        refine ⟨ih.distinct, fun name => ?_, inOrder⟩
        rw [ih.mem_iff, List.mem_append, List.mem_singleton]
        exact ⟨Or.inl, fun either => either.elim id fun same => same ▸ (ih.mem_iff last).mp member⟩
      · have noted : note firsts last = firsts ++ [last] :=
          if_neg fun holds => member (List.contains_iff_mem.mp holds)
        have new : last ∉ names := fun among => member ((ih.mem_iff last).mpr among)
        rw [noted]
        refine ⟨ih.distinct.append (List.nodup_singleton last) ?_, fun name => ?_, ?_⟩
        · exact List.disjoint_singleton.mpr member
        · rw [List.mem_append, List.mem_append, ih.mem_iff]
        · refine List.pairwise_append.mpr ⟨inOrder, List.pairwise_singleton _ _, ?_⟩
          intro name isName other isLast
          rw [List.mem_singleton.mp isLast, early name isName, List.idxOf_append_of_notMem new]
          exact Nat.lt_add_right _ (List.idxOf_lt_length_of_mem ((ih.mem_iff name).mp isName))

theorem roles_eq_foldl_note (permissions : List Permission) :
    roles permissions = (permissions.map (·.role)).foldl note [] := by
  rw [List.foldl_map]
  rfl

/-- The permissions of a grant have its role noted, if there is any of them. -/
theorem foldl_note_grant (seen : List Text) (grant : Grant) :
    (grant.permissions.map (·.role)).foldl note seen =
      if grant.capabilities.isEmpty then seen else note seen grant.role := by
  rcases grant with ⟨role, capabilities⟩
  cases capabilities with
  | nil => rfl
  | cons first rest =>
      have again : ∀ capabilities : List Capability,
          ((Grant.mk role capabilities).permissions.map (·.role)).foldl note (note seen role) =
            note seen role := by
        intro capabilities
        induction capabilities with
        | nil => rfl
        | cons capability others ih =>
            change List.foldl note (note (note seen role) role) _ = _
            rw [note_of_mem (mem_note seen role)]
            exact ih
      exact again rest

theorem foldl_note_flatMap (seen : List Text) (grants : List Grant) :
    ((grants.flatMap Grant.permissions).map (·.role)).foldl note seen =
      (grantedRoles grants).foldl note seen := by
  induction grants generalizing seen with
  | nil => rfl
  | cons grant rest ih =>
      rw [List.flatMap_cons, List.map_append, List.foldl_append, foldl_note_grant, ih, grantedRoles,
        grantedRoles, List.filter_cons]
      cases grant.capabilities.isEmpty <;> rfl

/-! ## Groups -/

theorem capabilitiesFor_append (front back : List Permission) (role : Text) :
    capabilitiesFor (front ++ back) role = capabilitiesFor front role ++ capabilitiesFor back role := by
  rw [capabilitiesFor, List.filter_append, List.map_append]
  rfl

theorem capabilitiesFor_grant (grant : Grant) (role : Text) :
    capabilitiesFor grant.permissions role = if grant.role = role then grant.capabilities else [] := by
  rcases grant with ⟨own, capabilities⟩
  rw [capabilitiesFor, Grant.permissions, List.filter_map, List.map_map]
  split
  · next same =>
      have all : ∀ capability ∈ capabilities, decide (own = role) = true :=
        fun _ _ => decide_eq_true same
      exact (congrArg _ (List.filter_eq_self.mpr all)).trans (List.map_id capabilities)
  · next other =>
      have none : ∀ capability ∈ capabilities, ¬ decide (own = role) = true :=
        fun _ _ holds => other (of_decide_eq_true holds)
      exact congrArg _ (List.filter_eq_nil_iff.mpr none)

/-- Of grants, those of a role make up its capabilities. -/
theorem capabilitiesFor_flatMap (grants : List Grant) (role : Text) :
    capabilitiesFor (grants.flatMap Grant.permissions) role =
      (grants.filter fun grant => grant.role = role).flatMap Grant.capabilities := by
  induction grants with
  | nil => rfl
  | cons grant rest ih =>
      rw [List.flatMap_cons, capabilitiesFor_append, capabilitiesFor_grant, ih, List.filter_cons]
      by_cases same : grant.role = role
      · simp only [same, decide_true, if_true, List.flatMap_cons]
      · simp only [same, decide_false, if_false, List.nil_append, Bool.false_eq_true]

/-- A list falls into groups, one for each value that something takes on it. -/
theorem sum_length_filter_dedup [DecidableEq β] (f : α → β) (l : List α) :
    ((l.map f).dedup.map fun b => (l.filter fun a => f a = b).length).sum = l.length := by
  have count : ∀ b, (l.filter fun a => f a = b).length = (l.map f).count b := by
    intro b
    rw [List.count, List.countP_map, List.countP_eq_length_filter]
    rfl
  simp only [count]
  rw [List.sum_map_count_dedup_eq_length, List.length_map]

/-- Every permission is one of its role and of no other role. -/
theorem sum_length_capabilitiesFor (permissions : List Permission) :
    ((roles permissions).map fun role => (capabilitiesFor permissions role).length).sum =
      permissions.length := by
  have firsts := areFirstOccurrences_foldl_note (permissions.map (·.role))
  rw [← roles_eq_foldl_note] at firsts
  have same : (roles permissions).Perm (permissions.map (·.role)).dedup := by
    refine (List.perm_ext_iff_of_nodup firsts.distinct (List.nodup_dedup _)).mpr fun role => ?_
    rw [firsts.mem_iff, List.mem_dedup]
  rw [(same.map _).sum_nat]
  simp only [capabilitiesFor, List.length_map]
  exact sum_length_filter_dedup (·.role) permissions

theorem areGrouped_flatMap (grants : List Grant) :
    AreGrouped grants (grants.flatMap Grant.permissions) where
  roles := by
    rw [roles_eq_foldl_note, foldl_note_flatMap]
    exact areFirstOccurrences_foldl_note (grantedRoles grants)
  capabilities := capabilitiesFor_flatMap grants
  lengths := sum_length_capabilitiesFor _

/-- Permissions are extracted exactly, and all of them or none.  A response gives permissions exactly if
it is of the type of JSON and its body is metadata of which every entry says a grant, and then they are
those of the grants in order; every other response is refused for want of a form, if only its body is
not nested too deeply.  A body that is nested too deeply is not read, even if it is a document of the
grammar.  What is extracted is grouped by role. -/
theorem areGrouped_ofResponse [Limits] :
    (∀ (r : Response) (permissions : List Permission),
      (ofResponse r).result = .ok permissions ↔
        ∃ grants, r.Grants grants ∧ permissions = grants.flatMap Grant.permissions) ∧
    (∀ r : Response, Json.IsShallow (r.textIn .json) →
      ((∃ fault, (ofResponse r).result = .error (.format fault)) ↔ ¬ ∃ grants, r.Grants grants)) ∧
    (∀ (r : Response) (t : Text), r.textIn .json = .ok t → (∃ v, Json.DenotesDocument t v) →
      Limits.values t < Json.nesting t →
        ∃ container, (ofResponse r).result = .error (.tooDeep container)) ∧
    ∀ grants, AreGrouped grants (grants.flatMap Grant.permissions) := by
  refine ⟨fun r permissions => result_ofResponse_eq_ok_iff, fun r shallow => ⟨?_, ?_⟩, ?_,
    areGrouped_flatMap⟩
  · rintro ⟨fault, failed⟩ granted
    rcases (returnsIff_ofResponse shallow).returns.mpr granted with ⟨permissions, returned⟩
    rw [failed] at returned
    cases returned
  · exact (returnsIff_ofResponse shallow).exists_of_not
  · rintro r t isText ⟨v, denotes⟩ deep
    exact exists_result_ofResponse_eq_tooDeep isText denotes deep

section

open scoped Limits

/-- Metadata with an entry that is no object is refused. -/
theorem areGrouped_ofResponse_number :
    Json.IsShallow ((Response.ofJson "[1]").textIn .json) ∧
      ∃ fault, (ofResponse (.ofJson "[1]")).result = .error (.format fault) := by
  have shallow : Json.IsShallow ((Response.ofJson "[1]").textIn .json) := by
    rintro t ⟨⟩
    decide
  have found : Json.read (Text.ofString "[1]") = .ok (.list [.int 1]) := by
    have scanned : Json.scanValue (Limits.values (Text.ofString "[1]")) 8 (Text.ofString "[1]") =
        .ok (.list [.int 1], []) := rfl
    exact Json.read_of_scanValue rfl rfl (by decide) scanned
  refine ⟨shallow, (areGrouped_ofResponse.2.1 _ shallow).mpr ?_⟩
  rintro ⟨grants, -, metadata, ⟨t, isText, read⟩, entries, has, said⟩
  obtain rfl : Text.ofString "[1]" = t := Except.ok.inj isText
  obtain rfl : Value.list [.int 1] = metadata := Except.ok.inj (found.symm.trans read)
  cases has
  cases said with
  | cons first =>
      rcases first with ⟨fields, ⟨⟩, -⟩

/-- Lists one in another are no metadata, but they are not refused for want of a form when they are
nested too deeply. -/
theorem not_returnsIff_listsInLists :
    ¬ ((∃ permissions, (ofResponse (.ofJson (Json.listsInLists Limits.commonValues))).result =
        .ok permissions) ∨
      ∃ fault, (ofResponse (.ofJson (Json.listsInLists Limits.commonValues))).result =
        .error (.format fault)) := by
  rcases Json.exists_denotesDocument Limits.commonValues with ⟨items, denotes, isNesting⟩
  have isText : (Response.ofJson (Json.listsInLists Limits.commonValues)).textIn .json =
      .ok (Json.listsInLists Limits.commonValues) := rfl
  rcases exists_result_ofResponse_eq_tooDeep isText denotes (isNesting ▸ Nat.lt_succ_self _) with
    ⟨container, tired⟩
  rw [tired]
  rintro (⟨permissions, ⟨⟩⟩ | ⟨fault, ⟨⟩⟩)

end

end Permission
end DocumentGateway
