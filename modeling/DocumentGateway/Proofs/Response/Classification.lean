import DocumentGateway.Response
import Mathlib.Data.List.Induction

namespace DocumentGateway

/-!
# Types of responses over whole runs

The type of a response follows from what was done to it since it was blank, and only from the last
step that had to do with the type.  When that step gave headers, the type follows from the pairs as
they were given, before repeated names were merged: of pairs with one name the last one counts, and
of the spellings of the content type that are not usual ones the first counts.
-/

/-! ## Maps written from pairs -/

namespace OrderedPairs

/-- The value of the last pair with a name. -/
def lastNamed [BEq κ] (pairs : List (κ × ν)) (key : κ) : Option ν :=
  (pairs.reverse.find? fun pair => pair.1 == key).map (·.2)

theorem lastNamed_append_singleton [BEq κ] (pairs : List (κ × ν)) (pair : κ × ν) (key : κ) :
    lastNamed (pairs ++ [pair]) key =
      if pair.1 == key then some pair.2 else lastNamed pairs key := by
  rw [lastNamed, List.reverse_append, List.reverse_singleton, List.singleton_append]
  cases same : pair.1 == key with
  | true =>
      rw [List.find?_cons, same]
      rfl
  | false =>
      rw [List.find?_cons, same]
      rfl

theorem ofPairs_append_singleton [BEq κ] (pairs : List (κ × ν)) (pair : κ × ν) :
    ofPairs (pairs ++ [pair]) = (ofPairs pairs).put pair.1 pair.2 :=
  List.foldl_append ..

/-- Under a key there is the value that was written last. -/
theorem get?_ofPairs [BEq κ] [PartialEquivBEq κ] (pairs : List (κ × ν)) (key : κ) :
    (ofPairs pairs).get? key = lastNamed pairs key := by
  induction pairs using List.reverseRecOn with
  | nil => rfl
  | append_singleton pairs pair ih =>
      rw [ofPairs_append_singleton, get?_put, lastNamed_append_singleton, ih]

/-- The first key with a property is the first one that was written. -/
theorem find?_keys_ofPairs [BEq κ] [LawfulBEq κ] (pairs : List (κ × ν)) (p : κ → Bool) :
    (ofPairs pairs).keys.find? p = (pairs.map (·.1)).find? p := by
  induction pairs using List.reverseRecOn with
  | nil => rfl
  | append_singleton pairs pair ih =>
      rw [ofPairs_append_singleton, keys_put, List.map_append, List.map_singleton,
        List.find?_append, ← ih]
      split
      · next present =>
          -- A key that is there already adds nothing, even when it has the property.
          have among : pair.1 ∈ (ofPairs pairs).keys := by
            rcases List.any_eq_true.mp present with ⟨other, member, same⟩
            exact List.mem_map.mpr ⟨other, member, eq_of_beq same⟩
          cases found : (ofPairs pairs).keys.find? p with
          | some key => rfl
          | none =>
              have lacks := List.find?_eq_none.mp found pair.1 among
              rw [Option.none_or, List.find?_cons_of_neg lacks, List.find?_nil]
      · rw [List.find?_append]

/-- The first pair whose key has a property holds the value under that key. -/
theorem find?_key_eq_bind_get? [BEq κ] [LawfulBEq κ] (pairs : OrderedPairs κ ν) (p : κ → Bool) :
    (pairs.find? fun pair => p pair.1).map (·.2) = (pairs.keys.find? p).bind pairs.get? := by
  induction pairs with
  | nil => rfl
  | cons pair rest ih =>
      rcases pair with ⟨k, v⟩
      rw [keys, List.map_cons]
      cases holds : p k with
      | true =>
          rw [List.find?_cons, List.find?_cons, holds, Option.bind_some, get?_cons,
            if_pos (beq_self_eq_true k)]
          rfl
      | false =>
          rw [List.find?_cons, List.find?_cons, holds]
          refine ih.trans ?_
          change ((keys rest).find? p).bind _ = ((keys rest).find? p).bind _
          cases found : (keys rest).find? p with
          | none => rfl
          | some key =>
              have differs : ¬ (k == key) := by
                intro same
                rw [eq_of_beq same, List.find?_some found] at holds
                exact Bool.noConfusion holds
              rw [Option.bind_some, Option.bind_some, get?_cons, if_neg differs]

end OrderedPairs

namespace Headers

/-- The content type that pairs give, as they were written. -/
def writtenContentType? (pairs : List (Text × Text)) : Option Text :=
  OrderedPairs.lastNamed pairs "Content-Type" <|> OrderedPairs.lastNamed pairs "Content-type" <|>
    (pairs.find? fun pair => lowerCase pair.1 = "content-type").bind fun first =>
      OrderedPairs.lastNamed pairs first.1

/-- Merging repeated names does not change the content type. -/
theorem contentType?_ofPairs (pairs : List (Text × Text)) :
    contentType? (OrderedPairs.ofPairs pairs) = writtenContentType? pairs := by
  have spelled := OrderedPairs.find?_key_eq_bind_get? (OrderedPairs.ofPairs pairs) fun name =>
    decide (lowerCase name = "content-type")
  have first : (pairs.map (·.1)).find? (fun name => decide (lowerCase name = "content-type")) =
      (pairs.find? fun pair => lowerCase pair.1 = "content-type").map (·.1) :=
    List.find?_map ..
  rw [OrderedPairs.find?_keys_ofPairs, first, Option.bind_map] at spelled
  have values : (OrderedPairs.ofPairs pairs).get? = OrderedPairs.lastNamed pairs :=
    funext (OrderedPairs.get?_ofPairs pairs)
  rw [contentType?, writtenContentType?, spelled, values]
  rfl

end Headers

/-! ## Runs -/

namespace Response

/-- What can be done to a response, and to the copies of its headers that it handed out.  Headers that
are given as a mapping are given as the pairs of the mapping. -/
inductive Step where
  | setStatus (status : Int)
  | setCode (code : StatusCode)
  | setType (type : BodyType)
  | setHeaders (pairs : List (Text × Text))
  | setContent (content : Value)
  | getText
  | getOctets
  | read (buffer : Bytes) (maxSize offset : Int)
  | copyHeaders
  | changeCopy (index : Nat) (change : Headers → Headers)
  | replaceBy (reply : Reply)

/-- A response together with the copies of its headers. -/
structure Session where
  response : Response
  copies : List Headers

/-- What a step gives back. -/
inductive Answer where
  | done
  | refused
  | text (found : Except Fault Text)
  | octets (found : Except Fault Bytes)
  | chunk (found : Except Fault (Nat × Bytes))
  | headers (copy : Headers)

namespace Session

/-- Before the first step. -/
def start : Session :=
  ⟨blank, []⟩

/-- Go on with the response that a run ends with, or with the old one when it fails. -/
def afterRun (s : Session) (run : Run Response) : Answer × Session :=
  match run.result with
  | .ok r => (.done, { s with response := r })
  | .error _ => (.refused, s)

/-- Take a step. -/
def take (s : Session) : Step → Answer × Session
  | .setStatus status => (.done, { s with response := s.response.setStatus status })
  | .setCode code => (.done, { s with response := { s.response with status := code } })
  | .setType type => (.done, { s with response := { s.response with type := type } })
  | .setHeaders pairs => s.afterRun (s.response.setHeaders pairs)
  | .setContent content =>
    match Body.ofValue? content with
    | some body => (.done, { s with response := s.response.setBody body })
    | none => (.refused, s)
  | .getText => (.text s.response.text, s)
  | .getOctets => (.octets s.response.octets, s)
  | .read buffer maxSize offset => (.chunk (s.response.read buffer maxSize offset), s)
  | .copyHeaders =>
    (.headers s.response.headers, { s with copies := s.copies ++ [s.response.headers] })
  | .changeCopy index change => (.done, { s with copies := s.copies.modify index change })
  | .replaceBy reply => s.afterRun (ofReply reply)

/-- Take steps one after the other. -/
def takeAll (s : Session) (steps : List Step) : Session :=
  steps.foldl (fun s step => (s.take step).2) s

end Session

/-- What a step says about the type: one outright, or pairs for it to follow from. -/
inductive Typing where
  | given (type : BodyType)
  | written (pairs : List (Text × Text))

namespace Typing

/-- The type that is said. -/
def type : Typing → BodyType
  | given type => type
  | written pairs => (Headers.writtenContentType? pairs).elim .binary MediaType.classify

end Typing

/-- What a step says about the type, if anything.  The names in a reply come in lower case. -/
def Step.typing? : Step → Option Typing
  | setType type => some (.given type)
  | setHeaders pairs => some (.written pairs)
  | replaceBy reply =>
    some (.written (reply.headers.map fun header => (Headers.lowerCase header.1, header.2)))
  | _ => none

/-- The type after steps that began with a blank response. -/
def typeAfter (steps : List Step) : BodyType :=
  ((steps.filterMap Step.typing?).getLast?).elim .unknown Typing.type

theorem type_withHeaders (r : Response) (pairs : List (Text × Text)) :
    (r.withHeaders pairs).type = (Typing.written pairs).type := by
  rw [withHeaders, Typing.type, ← Headers.contentType?_ofPairs]
  rfl

/-- A step changes the type to the one it says, and leaves it when it says none. -/
theorem type_take (s : Session) (step : Step) :
    (s.take step).2.response.type = step.typing?.elim s.response.type Typing.type := by
  cases step with
  | setHeaders pairs => exact type_withHeaders s.response pairs
  | replaceBy reply => exact type_withHeaders (blank.setStatus reply.status) _
  | setContent content =>
      rw [Session.take]
      split <;> rfl
  | setStatus _ | setCode _ | setType _ | getText | getOctets | read _ _ _ | copyHeaders
  | changeCopy _ _ => rfl

/-- The type of a response is, at every point of a run, the one that was said last.  A run that said
none leaves it unknown. -/
theorem type_takeAll_start (steps : List Step) :
    (Session.start.takeAll steps).response.type = typeAfter steps := by
  induction steps using List.reverseRecOn with
  | nil => rfl
  | append_singleton steps step ih =>
      rw [Session.takeAll, List.foldl_append]
      have one := type_take (Session.start.takeAll steps) step
      rw [ih] at one
      refine one.trans ?_
      rw [typeAfter, typeAfter, List.filterMap_append]
      cases said : step.typing? with
      | none => simp [said]
      | some typing => simp [said]

end Response
end DocumentGateway
