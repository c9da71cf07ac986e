import Mathlib
import DocumentGateway.Connection
import DocumentGateway.Proofs.Json.Acceptance
import DocumentGateway.Proofs.Json.RoundTrip
import DocumentGateway.Proofs.Response.BodyForms
import DocumentGateway.Proofs.Response.Classification
import DocumentGateway.Proofs.Response.Formed

namespace DocumentGateway

/-!
# Documents that come back

A server that answers with the octets that were sent to it, under the content type that was sent with
them, makes a response of a saved document.  Responses and documents have gates of their own for
their types and ways of their own to their texts; here they have to let the same through.  Only where
the text of a document is nested too deeply does neither of them come to an end.
-/

/-! ## Agreement -/

/-- Two results agree: they are one value, or there is none for want of a form, whichever form it
is. -/
inductive Agree : Except Fault α → Except Fault α → Prop where
  | value (a : α) : Agree (.ok a) (.ok a)
  | malformed (left right : FormatFault) : Agree (.error (.format left)) (.error (.format right))

namespace Agree

theorem bind {left right : Except Fault α} {next : α → Except Fault β} (h : Agree left right)
    (following : ∀ a, left = .ok a → Agree (next a) (next a)) :
    Agree (left.bind next) (right.bind next) := by
  cases h with
  | value a => exact following a rfl
  | malformed f g => exact malformed f g

end Agree

/-- Reading a text as JSON ends with a value or for want of a form, unless the text is nested too
deeply and reading runs out of room. -/
theorem Json.agree_parse [Limits] (t : Text) :
    Agree (parse t).result (parse t).result ∨
      ∃ container, (parse t).result = .error (.tooDeep container) ∧ Limits.values t < nesting t := by
  rw [result_parse]
  cases found : read t with
  | ok v => exact Or.inl (.value v)
  | error refusal =>
      cases refusal with
      | malformed fault => exact Or.inl (.malformed _ _)
      | tooDeep container => exact Or.inr ⟨container, rfl, lt_nesting_of_read found⟩

/-- So does reading a text without surrogates as XML. -/
theorem Xml.agree_parse_ofChars (chars : List Char) :
    Agree (parse (Text.ofChars chars)).result (parse (Text.ofChars chars)).result := by
  rcases result_parse_ofChars chars with ⟨root, -, parsed⟩ | ⟨_, cause, line, column, -, parsed⟩
  · rw [parsed]
    exact .value root
  · rw [parsed]
    exact .malformed _ _

/-! ## The content type of a reply -/

namespace Headers

/-- The values of the content type among headers, however its name is spelled. -/
def contentTypes (pairs : List (Text × Text)) : List Text :=
  (pairs.filter fun pair => lowerCase pair.1 = "content-type").map (·.2)

theorem lowerCase_lowerCase (t : Text) : lowerCase (lowerCase t) = lowerCase t := by
  rw [lowerCase, lowerCase, List.map_map]
  refine List.map_congr_left fun p _ => ?_
  cases p with
  | scalar c => exact congrArg CodePoint.scalar c.toLower_toLower_eq_toLower
  | surrogate _ => rfl

end Headers

namespace OrderedPairs

/-- The value of the last pair with a name is the last of the values with that name. -/
theorem lastNamed_eq_getLast? [BEq κ] (pairs : List (κ × ν)) (key : κ) :
    lastNamed pairs key = ((pairs.filter fun pair => pair.1 == key).map (·.2)).getLast? := by
  rw [List.getLast?_map, List.getLast?_filter]
  rfl

theorem lastNamed_eq_none [BEq κ] [LawfulBEq κ] {pairs : List (κ × ν)} {key : κ}
    (absent : ∀ pair ∈ pairs, pair.1 ≠ key) : lastNamed pairs key = none := by
  rw [lastNamed, Option.map_eq_none_iff, List.find?_eq_none]
  intro pair member same
  exact absent pair (List.mem_reverse.mp member) (eq_of_beq same)

end OrderedPairs

namespace Headers

/-- Of names in lower case no spelling but one counts, and of the values under it the last. -/
theorem writtenContentType?_lowerCase (pairs : List (Text × Text)) :
    writtenContentType? (pairs.map fun pair => (lowerCase pair.1, pair.2)) =
      (contentTypes pairs).getLast? := by
  generalize isLowered : (pairs.map fun pair => (lowerCase pair.1, pair.2)) = lowered
  have names : ∀ pair ∈ lowered, lowerCase pair.1 = pair.1 := by
    intro pair member
    rw [← isLowered] at member
    rcases List.mem_map.mp member with ⟨given, -, rfl⟩
    exact lowerCase_lowerCase given.1
  have capitals {key : Text} (capital : lowerCase key ≠ key) :
      OrderedPairs.lastNamed lowered key = none :=
    OrderedPairs.lastNamed_eq_none fun pair member same => capital (same ▸ names pair member)
  have spelled : ((lowered.find? fun pair => lowerCase pair.1 = "content-type").bind fun first =>
      OrderedPairs.lastNamed lowered first.1) = OrderedPairs.lastNamed lowered "content-type" := by
    cases found : lowered.find? fun pair => lowerCase pair.1 = "content-type" with
    | none =>
        refine (OrderedPairs.lastNamed_eq_none fun pair member same => ?_).symm
        have other := List.find?_eq_none.mp found pair member
        rw [names pair member, same] at other
        exact other (decide_eq_true rfl)
    | some first =>
        have isType : lowerCase first.1 = "content-type" := by
          simpa using List.find?_some found
        rw [names first (List.mem_of_find?_eq_some found)] at isType
        rw [Option.bind_some, isType]
  rw [writtenContentType?, capitals (by decide), capitals (by decide), spelled,
    OrderedPairs.lastNamed_eq_getLast?, ← isLowered, List.filter_map, List.map_map, contentTypes]
  simp only [Function.comp_def, beq_eq_decide]
  rfl

end Headers

/-- A reply returns a request when it has the body that was sent and, of the content type, the one
value that was sent. -/
structure Reply.Returns (reply : Reply) (request : Request) : Prop where
  body : request.body = some reply.body
  contentType : ∃ headers : Headers, request.headers = some headers ∧
    ∃ value, headers.get? "content-type" = some value ∧
      Headers.contentTypes reply.headers = [value]

/-! ## Responses in the place of documents -/

/-- Content without surrogates can be sent. -/
theorem DocumentContent.exists_octets {content : DocumentContent} (scalar : content.IsScalar) :
    ∃ bytes, content.octets = .ok bytes := by
  cases content with
  | binary bytes => exact ⟨bytes, rfl⟩
  | text t =>
      rcases scalar with ⟨chars, rfl⟩
      refine ⟨utf8Octets chars, ?_⟩
      rw [octets, Encoding.encode_utf8_ofChars]
      rfl

namespace Response

/-- A response stands for a document that was sent as some octets when its body is those octets and
its text, its type and what is converted from it agree with those of the document.  The values in them
need not agree where the text of the document is nested too deeply; reading runs out of room in both
of them then. -/
structure StandsFor [Limits] (r : Response) (bytes : Bytes) (d : Document) : Prop where
  octets : r.octets = .ok bytes
  text : Agree r.text d.text
  type : r.type = MediaType.classify d.mimeType
  value : Agree (Json.ofResponse r).result (Json.ofDocument d true).result ∨
    ∃ t container, d.text = .ok t ∧ Limits.values t < Json.nesting t ∧
      (Json.ofResponse r).result = .error (.tooDeep container) ∧
      (Json.ofDocument d true).result = .error (.tooDeep container)
  element : Agree (Xml.ofResponse r).result (Xml.ofDocument d true).result

variable {r : Response} {bytes : Bytes} {d : Document}

/-- The octets of a document are read as its text. -/
theorem agree_text_setBody (r : Response) (scalar : d.content.IsScalar)
    (sent : d.content.octets = .ok bytes) : Agree (r.setBody (.octets bytes)).text d.text := by
  rcases d with ⟨content, mimeType⟩
  cases content with
  | text t =>
      rcases scalar with ⟨chars, rfl⟩
      rw [DocumentContent.octets, Encoding.encode_utf8_ofChars] at sent
      rw [(text_octets_eq_ok_iff r bytes _).mpr ⟨chars, rfl, Except.ok.inj sent⟩]
      exact .value _
  | binary content =>
      rw [← Except.ok.inj sent]
      simp only [setBody, text, Document.text]
      cases Utf8.decode content with
      | ok chars => exact .value _
      | error fault => exact .malformed _ _

/-- Both gates let the same formats through. -/
theorem agree_textIn (text : Agree r.text d.text) (type : r.type = MediaType.classify d.mimeType)
    (format : Format) : Agree (r.textIn format) (d.textIn format true) := by
  rw [textIn, Document.textIn, type]
  by_cases same : MediaType.classify d.mimeType = format.bodyType
  · rw [if_pos same, if_neg (by simp [same])]
    exact text
  · rw [if_neg same, if_pos (by simp [same])]
    exact .malformed _ _

/-- A response and a document whose gates agree hold the same value, or reading both runs out of
room. -/
theorem agree_value [Limits] (texts : Agree (r.textIn .json) (d.textIn .json true)) :
    Agree (Json.ofResponse r).result (Json.ofDocument d true).result ∨
      ∃ t container, d.text = .ok t ∧ Limits.values t < Json.nesting t ∧
        (Json.ofResponse r).result = .error (.tooDeep container) ∧
        (Json.ofDocument d true).result = .error (.tooDeep container) := by
  unfold Json.ofResponse Json.ofDocument
  simp only [Run.result_timed, Run.result_bind, Run.result_ofExcept]
  generalize r.textIn .json = given at texts ⊢
  generalize found : d.textIn .json true = held at texts ⊢
  cases texts with
  | malformed left right => exact Or.inl (.malformed left right)
  | value t =>
      rcases Json.agree_parse t with agrees | ⟨container, tired, deep⟩
      · exact Or.inl agrees
      · exact Or.inr ⟨t, container, (Document.textIn_eq_ok_iff.mp found).2, deep, tired, tired⟩

/-- A body that is the octets of a document, with the type of the document, stands for it. -/
theorem standsFor_setBody [Limits] (scalar : d.content.IsScalar) (sent : d.content.octets = .ok bytes)
    (type : r.type = MediaType.classify d.mimeType) :
    (r.setBody (.octets bytes)).StandsFor bytes d where
  octets := rfl
  text := agree_text_setBody r scalar sent
  type := type
  value := agree_value (agree_textIn (agree_text_setBody r scalar sent) type .json)
  element := by
    have texts := agree_textIn (agree_text_setBody r scalar sent) type .xml
    unfold Xml.ofResponse Xml.ofDocument
    simp only [Run.result_timed, Run.result_bind, Run.result_ofExcept]
    refine texts.bind fun t found => ?_
    -- What is read from octets has no surrogates, so nothing but its form can be refused.
    rw [textIn] at found
    split at found
    · rcases (text_octets_eq_ok_iff r bytes t).mp found with ⟨chars, rfl, -⟩
      exact Xml.agree_parse_ofChars chars
    · exact absurd found (by simp)

/-- The type of a response follows from the one content type of the reply. -/
theorem exists_result_ofReply {reply : Reply} {value : Text}
    (only : Headers.contentTypes reply.headers = [value]) :
    ∃ r : Response, r.type = MediaType.classify value ∧
      (ofReply reply).result = .ok (r.setBody (.octets reply.body)) := by
  refine ⟨(blank.setStatus reply.status).withHeaders
    (reply.headers.map fun header => (Headers.lowerCase header.1, header.2)), ?_, rfl⟩
  rw [type_withHeaders, Typing.type, Headers.writtenContentType?_lowerCase, only]
  rfl

end Response

/-! ## Saving -/

namespace Connection

/-- The request that saves a document as some octets. -/
def savingRequest (c : Connection) (scheme : Scheme) (uri : Value) (bytes : Bytes)
    (mimeType : Text) : Request :=
  ⟨"PUT", c.url "documents", c.sentParameters [("uri", uri)], some bytes,
    some [("content-type", mimeType)], scheme, c.username, c.password⟩

theorem saveDocument_eq {c : Connection} {scheme : Scheme} (proves : c.credentials = .ok scheme)
    (server : Server) (uri : Value) {d : Document} {bytes : Bytes}
    (sent : d.content.octets = .ok bytes) :
    c.saveDocument server uri d =
      let request := c.savingRequest scheme uri bytes d.mimeType
      ⟨some request, do
        Run.debug (requestLine request)
        receive (server request)⟩ := by
  simp only [saveDocument, sent, send, proves]
  rfl

theorem result_receive_reply (reply : Reply) :
    (receive (.reply reply)).result = (Response.ofReply reply).result := by
  rw [receive, Run.result_bind]
  cases (Response.ofReply reply).result <;> rfl

/-- A server that returns what it is sent answers a saved document with a response that has the octets
of the document as its body, and its type. -/
theorem exists_result_saveDocument {c : Connection} {scheme : Scheme}
    (proves : c.credentials = .ok scheme) (server : Server) (uri : Value) {d : Document}
    {bytes : Bytes} (sent : d.content.octets = .ok bytes)
    (returns : ∀ request, (c.saveDocument server uri d).sent = some request →
      ∃ reply, server request = .reply reply ∧ reply.Returns request) :
    ∃ (request : Request) (r : Response), (c.saveDocument server uri d).sent = some request ∧
      request.body = some bytes ∧ r.type = MediaType.classify d.mimeType ∧
      (c.saveDocument server uri d).run.result = .ok (r.setBody (.octets bytes)) := by
  have saved := saveDocument_eq proves server uri sent
  rw [saved] at returns ⊢
  rcases returns _ rfl with ⟨reply, answers, ⟨body, headers, isSent, value, has, only⟩⟩
  have isType : value = d.mimeType := by
    cases isSent
    exact (Option.some.inj has).symm
  rcases Response.exists_result_ofReply only with ⟨r, type, received⟩
  refine ⟨_, r, rfl, rfl, isType ▸ type, ?_⟩
  rw [Run.result_bind, Run.result_debug, answers]
  refine (result_receive_reply reply).trans ?_
  rw [received, ← Option.some.inj body]

/-- What is saved can be read back.  When the server returns the request that saves a document
without surrogates, whatever else it answers, the response stands for the document. -/
theorem standsFor_saveDocument [Limits] {c : Connection} {scheme : Scheme}
    (proves : c.credentials = .ok scheme) (server : Server) (uri : Value) {d : Document}
    (scalar : d.content.IsScalar)
    (returns : ∀ request, (c.saveDocument server uri d).sent = some request →
      ∃ reply, server request = .reply reply ∧ reply.Returns request) :
    ∃ request bytes r, (c.saveDocument server uri d).sent = some request ∧
      request.body = some bytes ∧ d.content.octets = .ok bytes ∧
      (c.saveDocument server uri d).run.result = .ok r ∧ r.StandsFor bytes d := by
  rcases DocumentContent.exists_octets scalar with ⟨bytes, sent⟩
  rcases exists_result_saveDocument proves server uri sent returns with
    ⟨request, r, isSent, body, type, received⟩
  exact ⟨request, bytes, _, isSent, body, sent, received, Response.standsFor_setBody scalar sent type⟩

/-- A connection of someone with a name and a password. -/
def sampleConnection : Connection :=
  ⟨.text "localhost", .int 8000, .text "admin", .text "admin", .text "digest", .null⟩

/-- A server that sends back what it was sent. -/
def echo : Server :=
  fun request => .reply ⟨201, ("Server", "echo") :: request.headers.getD [], request.body.getD []⟩

/-- A JSON document with a text. -/
def jsonDocument (t : Text) : Document :=
  .make (.text t) MediaType.json

theorem returns_echo {c : Connection} {scheme : Scheme} (proves : c.credentials = .ok scheme)
    (uri : Value) {t : Text} {bytes : Bytes} (sent : (jsonDocument t).content.octets = .ok bytes)
    (request : Request) (isSent : (c.saveDocument echo uri (jsonDocument t)).sent = some request) :
    ∃ reply, echo request = .reply reply ∧ reply.Returns request := by
  have named : Headers.contentTypes [("Server", "echo"), ("content-type", (jsonDocument t).mimeType)] =
      [(jsonDocument t).mimeType] := by
    change Headers.contentTypes [("Server", "echo"), ("content-type", MediaType.json)] =
      [MediaType.json]
    decide
  rw [saveDocument_eq proves echo uri sent] at isSent
  rw [← Option.some.inj isSent]
  exact ⟨_, rfl, rfl, _, rfl, _, rfl, named⟩

section

open scoped Limits

/-- Saving at a server that echoes. -/
theorem standsFor_sampleDocument :
    ∃ request bytes r,
      (sampleConnection.saveDocument echo (.text "/a.json") (jsonDocument "[1]")).sent =
        some request ∧
      request.body = some bytes ∧ (jsonDocument "[1]").content.octets = .ok bytes ∧
      (sampleConnection.saveDocument echo (.text "/a.json") (jsonDocument "[1]")).run.result = .ok r ∧
      r.StandsFor bytes (jsonDocument "[1]") := by
  have proves : sampleConnection.credentials = .ok .digest := rfl
  have encoded : (jsonDocument "[1]").content.octets = .ok (utf8Octets "[1]".toList) := rfl
  exact standsFor_saveDocument proves echo (.text "/a.json") ⟨"[1]".toList, rfl⟩
    (returns_echo proves (.text "/a.json") encoded)

/-- Lists one in another, more of them than can be read. -/
def deepDocument : Document :=
  jsonDocument (Json.listsInLists Limits.commonValues)

/-- Of a document that is nested too deeply, the value cannot be read back. -/
theorem not_agree_deepDocument :
    deepDocument.content.IsScalar ∧
    (∀ request,
      (sampleConnection.saveDocument echo (.text "/a.json") deepDocument).sent = some request →
        ∃ reply, echo request = .reply reply ∧ reply.Returns request) ∧
    ∃ r, (sampleConnection.saveDocument echo (.text "/a.json") deepDocument).run.result = .ok r ∧
      ¬ Agree (Json.ofResponse r).result (Json.ofDocument deepDocument true).result := by
  have proves : sampleConnection.credentials = .ok .digest := rfl
  have scalar : deepDocument.content.IsScalar := Json.exists_ofChars_listsInLists _
  rcases DocumentContent.exists_octets scalar with ⟨bytes, sent⟩
  have returns := returns_echo proves (.text "/a.json") sent
  rcases exists_result_saveDocument proves echo (.text "/a.json") sent returns with
    ⟨-, r, -, -, -, received⟩
  refine ⟨scalar, returns, _, received, fun agrees => ?_⟩
  rcases Json.exists_denotesDocument Limits.commonValues with ⟨items, denotes, isNesting⟩
  rcases Json.exists_read_eq_tooDeep denotes (isNesting ▸ Nat.lt_succ_self _) with ⟨container, tired⟩
  have failed : (Json.ofDocument deepDocument true).result = .error (.tooDeep container) := by
    rw [deepDocument, jsonDocument, Json.result_ofDocument_make, Json.result_parse, tired]
    rfl
  rw [failed] at agrees
  generalize (Json.ofResponse (r.setBody (.octets bytes))).result = left at agrees
  cases agrees

end

end Connection

end DocumentGateway
