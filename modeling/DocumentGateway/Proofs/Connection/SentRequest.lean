import DocumentGateway.Proofs.Connection.SavedDocument
import DocumentGateway.Proofs.Text.Trimming

namespace DocumentGateway

/-!
# What connections send

A connection is made from settings, each of which falls back on the environment when it is left out.
Whoever lacks a name or a password sends nothing.  For everyone else each call sends one request, which
follows from the call and the settings alone, and ends with a response for every reply.
-/

/-! ## Settings -/

/-- A text, or null where there is none. -/
def Value.ofText? (t : Option Text) : Value :=
  t.elim .null .text

/-- The name of a scheme. -/
def Scheme.name : Scheme → Text
  | digest => "digest"
  | basic => "basic"

/-- A port as it is given: as a text or as a number. -/
inductive Port where
  | text (t : Text)
  | number (n : Int)

def Port.toValue : Port → Value
  | text t => .text t
  | number n => .int n

/-- What the environment holds for connections. -/
structure Variables where
  host : Option Text
  port : Option Text
  username : Option Text
  password : Option Text
  scheme : Option Text

def Variables.environment (v : Variables) : Environment :=
  Environment.withDefaults ⟨.ofText? v.host, .ofText? v.port, .ofText? v.username,
    .ofText? v.password, .ofText? v.scheme⟩

/-- What is asked for when a connection is made. -/
structure Settings where
  host : Option Text
  port : Option Port
  username : Option Text
  password : Option Text
  scheme : Option Text
  database : Option Text

namespace Settings

variable (s : Settings) (v : Variables)

/-- The settings as a connection takes them. -/
def asked : Connection :=
  ⟨.ofText? s.host, s.port.elim .null Port.toValue, .ofText? s.username, .ofText? s.password,
    .ofText? s.scheme, .ofText? s.database⟩

/-- The host that is given, possibly with a port in it. -/
def givenHost : Text :=
  (s.host <|> v.host).getD "localhost"

/-- The port that is given beside the host. -/
def givenPort : Text :=
  ((s.port.map Port.toValue <|> v.port.map Value.text).getD (.int 8000)).asText

/-- Where the server is: the host unchanged if a colon is in it, else the host and the port. -/
def authority : Text :=
  if .scalar ':' ∈ s.givenHost v then s.givenHost v
  else s.givenHost v ++ (Text.ofString ":" ++ s.givenPort v)

/-- The scheme that is given, if it is one of the two, in capitals or not. -/
def scheme? : Option Scheme :=
  let named := Headers.lowerCase ((s.scheme <|> v.scheme).getD "digest")
  if named = "digest" then some .digest else if named = "basic" then some .basic else none

/-- A name and a password are given, and neither of them is empty. -/
structure HasCredentials (name password : Text) : Prop where
  isName : (s.username <|> v.username) = some name
  isPassword : (s.password <|> v.password) = some password
  name_ne_nil : name ≠ []
  password_ne_nil : password ≠ []

end Settings

namespace Connection

/-! ## Addresses -/

/-- The two parts of a host, with the colon between them, are the host. -/
theorem splitHost?_of_mem {host : Text} (colon : .scalar ':' ∈ host) :
    ∃ name port, splitHost? host = some (name, port) ∧ name ++ (Text.ofString ":" ++ port) = host := by
  have whole : host.takeWhile (· ≠ .scalar ':') ++ host.dropWhile (· ≠ .scalar ':') = host :=
    List.takeWhile_append_dropWhile
  rw [splitHost?]
  cases behind : host.dropWhile (· ≠ .scalar ':') with
  | nil => exact absurd (List.dropWhile_eq_nil_iff.mp behind _ colon) (by simp)
  | cons p port =>
      have first := List.head?_dropWhile_not (· ≠ CodePoint.scalar ':') host
      rw [behind] at first
      obtain rfl : p = .scalar ':' := by simpa using first
      rw [behind] at whole
      exact ⟨_, port, rfl, whole⟩

theorem splitHost?_of_not_mem {host : Text} (noColon : .scalar ':' ∉ host) :
    splitHost? host = none := by
  have nothing : host.dropWhile (· ≠ .scalar ':') = [] := by
    refine List.dropWhile_eq_nil_iff.mpr fun p member => ?_
    have other : p ≠ .scalar ':' := fun same => noColon (same ▸ member)
    simpa using other
  rw [splitHost?, nothing]

/-- An endpoint is stripped to a text when there are only slashes before and behind the text, which
itself neither begins nor ends with one. -/
structure IsStripped (endpoint stripped : Text) : Prop where
  parts : ∃ before behind, endpoint = before ++ (stripped ++ behind) ∧
    (∀ p ∈ before, p = .scalar '/') ∧ ∀ p ∈ behind, p = .scalar '/'
  head : stripped.head? ≠ some (.scalar '/')
  last : stripped.getLast? ≠ some (.scalar '/')

theorem isStripped_bareEndpoint (endpoint : Text) : IsStripped endpoint (bareEndpoint endpoint) where
  parts := ⟨_, _, (takeWhile_append_trimBy _ endpoint).symm,
    fun _ member => by simpa using List.mem_takeWhile_imp member,
    fun _ member => by simpa using List.mem_rtakeWhile_imp member⟩
  head := fun first =>
    of_decide_eq_false (eq_false_of_mem_head?_trimBy (· = .scalar '/') endpoint _ first) rfl
  last := fun last =>
    of_decide_eq_false (eq_false_of_mem_getLast?_trimBy (· = .scalar '/') endpoint _ last) rfl

/-! ## Making a connection -/

theorem orElse_ofText? (first second : Option Text) :
    (Value.ofText? first).orElse (.ofText? second) = .ofText? (first <|> second) := by
  cases first <;> rfl

theorem orElse_orElse_text (first second : Option Text) (fallback : Text) :
    (Value.ofText? first).orElse ((Value.ofText? second).orElse (.text fallback)) =
      .text ((first <|> second).getD fallback) := by
  cases first <;> cases second <;> rfl

theorem asText_givenPort (s : Settings) (v : Variables) :
    (s.asked.port.orElse v.environment.port).asText = s.givenPort v := by
  rw [Settings.givenPort, Settings.asked, Variables.environment, Environment.withDefaults]
  cases s.port with
  | none => cases v.port <;> rfl
  | some port => cases port <;> rfl

/-- Settings with a scheme that is one of the two make a connection. -/
theorem exists_make {s : Settings} {v : Variables} {scheme : Scheme}
    (supported : s.scheme? v = some scheme) :
    ∃ c, make v.environment s.asked = .ok c ∧
      c.host.asText ++ (Text.ofString ":" ++ c.port.asText) = s.authority v ∧
      c.username = .ofText? (s.username <|> v.username) ∧
      c.password = .ofText? (s.password <|> v.password) ∧
      c.scheme = .text scheme.name ∧
      c.database = .ofText? s.database := by
  have host : s.asked.host.orElse v.environment.host = .text (s.givenHost v) :=
    orElse_orElse_text ..
  have named : (s.asked.scheme.orElse v.environment.scheme).textOrEmpty =
      (s.scheme <|> v.scheme).getD "digest" :=
    congrArg Value.textOrEmpty (orElse_orElse_text ..)
  have isNamed : Headers.lowerCase ((s.scheme <|> v.scheme).getD "digest") = scheme.name := by
    rw [Settings.scheme?] at supported
    split at supported
    · next digest => rw [digest, ← Option.some.inj supported, Scheme.name]
    · split at supported
      · next basic => rw [basic, ← Option.some.inj supported, Scheme.name]
      · cases supported
  have isScheme : scheme.name = "digest" ∨ scheme.name = "basic" := by
    cases scheme with
    | digest => exact Or.inl rfl
    | basic => exact Or.inr rfl
  simp only [make, host, named, isNamed, if_pos isScheme]
  refine ⟨_, rfl, ?_, orElse_ofText? .., orElse_ofText? .., rfl, rfl⟩
  rw [Settings.authority]
  split
  · next colon =>
      rcases splitHost?_of_mem colon with ⟨name, port, parted, whole⟩
      rw [parted]
      exact whole
  · next noColon =>
      rw [splitHost?_of_not_mem noColon]
      exact congrArg (fun port => s.givenHost v ++ (Text.ofString ":" ++ port)) (asText_givenPort s v)

/-! ## Calls -/

/-- The calls that a connection answers with one request.  A document that is saved has no surrogates
in it. -/
inductive Call where
  | getDocument (uri accept : Value)
  | saveDocument (uri : Value) (d : Document) (scalar : d.content.IsScalar)
  | deleteDocument (uri : Value)
  | getMetadata (uri category : Value)
  | suggest (partialQuery query options limit : Value)
  | values (name : Text) (aggregate options aggregatePath : Value)

namespace Call

/-- Make a call. -/
def perform (c : Connection) (server : Server) : Call → Exchange
  | getDocument uri accept => c.getDocument server uri accept
  | saveDocument uri d _ => c.saveDocument server uri d
  | deleteDocument uri => c.deleteDocument server uri
  | getMetadata uri category => c.getMetadata server uri category
  | suggest partialQuery query options limit => c.suggest server partialQuery query options limit
  | values name aggregate options aggregatePath =>
    c.values server name aggregate options aggregatePath

def method : Call → Text
  | saveDocument _ _ _ => "PUT"
  | deleteDocument _ => "DELETE"
  | _ => "GET"

def endpoint : Call → Text
  | suggest _ _ _ _ => "suggest"
  | values name _ _ _ => "values/" ++ name
  | _ => "documents"

/-- The parameters of a call in the order in which they are written, null where they are left out. -/
def parameters : Call → OrderedPairs Text Value
  | getDocument uri _ => [("uri", uri)]
  | saveDocument uri _ _ => [("uri", uri)]
  | deleteDocument uri => [("uri", uri)]
  | getMetadata uri category => [("uri", uri), ("category", category), ("format", .text "json")]
  | suggest partialQuery query options limit =>
    [("partial-q", partialQuery), ("q", query), ("options", options), ("limit", limit)]
  | values _ aggregate options aggregatePath =>
    [("aggregate", aggregate), ("aggregatePath", aggregatePath), ("options", options),
      ("format", .text "json")]

def body : Call → Option Bytes
  | saveDocument _ d _ => d.content.octets.toOption
  | _ => none

def headers : Call → Option Headers
  | getDocument _ accept => if accept.isNull then none else some [("accept", accept.asText)]
  | saveDocument _ d _ => some [("content-type", d.mimeType)]
  | suggest _ _ _ _ => some [("accept", MediaType.json)]
  | _ => none

/-- The request that a connection sends for a call. -/
def request (c : Connection) (scheme : Scheme) (call : Call) : Request :=
  ⟨call.method, c.url call.endpoint, c.sentParameters call.parameters, call.body, call.headers,
    scheme, c.username, c.password⟩

variable (call : Call) {c : Connection} (server : Server)

/-- Every call goes through the one sender. -/
theorem perform_eq_send :
    call.perform c server =
      c.send server call.method call.endpoint call.parameters call.body call.headers := by
  cases call with
  | saveDocument uri d scalar =>
      -- The content is put into octets before anything else, which fails for surrogates only.
      rcases DocumentContent.exists_octets scalar with ⟨bytes, sent⟩
      rw [perform, Connection.saveDocument, body, sent]
      rfl
  | getDocument | deleteDocument | getMetadata | suggest | values => rfl

theorem perform_of_error {fault : Fault} (lacks : c.credentials = .error fault) :
    call.perform c server = ⟨none, Run.fail fault⟩ := by
  rw [perform_eq_send, send, lacks]

theorem perform_of_ok {scheme : Scheme} (proves : c.credentials = .ok scheme) :
    call.perform c server =
      ⟨some (call.request c scheme), do
        Run.debug (requestLine (call.request c scheme))
        receive (server (call.request c scheme))⟩ := by
  rw [perform_eq_send, send, proves]
  rfl

/-- No call has a parameter that names the database. -/
theorem sentParameters_parameters (database : Option Text) (isDatabase : c.database = .ofText? database) :
    c.sentParameters call.parameters =
      (call.parameters.filter fun parameter => !parameter.2.isNull) ++
        database.toList.map fun named => (Text.ofString "database", .text named) := by
  have unnamed : OrderedPairs.holds (call.parameters.filter fun parameter => !parameter.2.isNull)
      (Text.ofString "database") = false := by
    have absent : OrderedPairs.holds call.parameters (Text.ofString "database") = false := by
      cases call <;> rfl
    rw [OrderedPairs.holds, List.any_eq_false] at absent ⊢
    exact fun parameter member => absent parameter (List.mem_of_mem_filter member)
  rw [sentParameters, isDatabase, unnamed, Bool.or_false]
  cases database with
  | none => exact (List.append_nil _).symm
  | some named => rfl

end Call

/-! ## Credentials -/

theorem isFilled_ofText? (t : Option Text) :
    (Value.ofText? t).isFilled = true ↔ ∃ filled, t = some filled ∧ filled ≠ [] := by
  cases t with
  | none => exact iff_of_false Bool.false_ne_true fun ⟨_, absent, _⟩ => nomatch absent
  | some t =>
      refine bne_iff_ne.trans ⟨fun filled => ⟨t, rfl, filled⟩, ?_⟩
      rintro ⟨_, same, filled⟩
      rwa [Option.some.inj same]

variable {s : Settings} {v : Variables} {scheme : Scheme} {c : Connection}

theorem credentials_of_isText (isScheme : c.scheme = .text scheme.name)
    (filled : c.username.isFilled = true ∧ c.password.isFilled = true) :
    c.credentials = .ok scheme := by
  rw [credentials, filled.1, filled.2, Bool.and_self, if_pos rfl, isScheme]
  cases scheme <;> rfl

theorem credentials_of_not_isFilled
    (lacks : ¬ (c.username.isFilled = true ∧ c.password.isFilled = true)) :
    c.credentials = .error .noCredentials := by
  rw [credentials, if_neg (by rwa [Bool.and_eq_true])]

/-- Someone has a name and a password when the values for both are filled. -/
theorem isFilled_iff_hasCredentials (isName : c.username = .ofText? (s.username <|> v.username))
    (isPassword : c.password = .ofText? (s.password <|> v.password)) :
    (c.username.isFilled = true ∧ c.password.isFilled = true) ↔
      ∃ name password, s.HasCredentials v name password := by
  rw [isName, isPassword, isFilled_ofText?, isFilled_ofText?]
  constructor
  · rintro ⟨⟨name, isName, name_ne_nil⟩, password, isPassword, password_ne_nil⟩
    exact ⟨name, password, isName, isPassword, name_ne_nil, password_ne_nil⟩
  · rintro ⟨name, password, has⟩
    exact ⟨⟨name, has.isName, has.name_ne_nil⟩, password, has.isPassword, has.password_ne_nil⟩

/-! ## Requests and responses -/

/-- A request is what a call asks for, at the server of the settings, for someone with a name and a
password. -/
structure IsRequestFor (s : Settings) (v : Variables) (scheme : Scheme) (name password : Text)
    (call : Call) (request : Request) : Prop where
  method : request.method = call.method
  url : ∃ stripped, IsStripped call.endpoint stripped ∧
    request.url = Text.ofString "http://" ++ s.authority v ++ Text.ofString "/v1/" ++ stripped
  parameters : request.parameters =
    (call.parameters.filter fun parameter => !parameter.2.isNull) ++
      s.database.toList.map fun named => (Text.ofString "database", .text named)
  present : ∀ parameter ∈ request.parameters, parameter.2.isNull = false
  body : request.body = call.body
  headers : request.headers = call.headers
  isScheme : request.scheme = scheme
  isName : request.username = .text name
  isPassword : request.password = .text password

end Connection

/-- A response carries a reply when it has its status, its headers and its body, and the type that
follows from the headers. -/
structure Response.Carries (r : Response) (reply : Reply) : Prop where
  status : r.status = .ofStatus reply.status
  headers : r.headers =
    OrderedPairs.ofPairs (reply.headers.map fun header => (Headers.lowerCase header.1, header.2))
  type : r.type = r.headers.bodyType
  body : r.body = .octets reply.body

namespace Connection

variable {s : Settings} {v : Variables} {scheme : Scheme} {c : Connection}

/-- Every reply becomes a response. -/
theorem exists_result_receive (reply : Reply) :
    ∃ r : Response, (receive (.reply reply)).result = .ok r ∧ r.Carries reply := by
  rw [result_receive_reply]
  exact ⟨_, rfl, rfl, rfl, rfl, rfl⟩

theorem isRequestFor_request {name password : Text} (call : Call)
    (has : s.HasCredentials v name password)
    (isAuthority : c.host.asText ++ (Text.ofString ":" ++ c.port.asText) = s.authority v)
    (isName : c.username = .ofText? (s.username <|> v.username))
    (isPassword : c.password = .ofText? (s.password <|> v.password))
    (isDatabase : c.database = .ofText? s.database) :
    IsRequestFor s v scheme name password call (call.request c scheme) where
  method := rfl
  url := by
    refine ⟨_, isStripped_bareEndpoint call.endpoint, ?_⟩
    change c.url call.endpoint = _
    rw [url, ← isAuthority]
    simp only [List.append_assoc]
  parameters := call.sentParameters_parameters s.database isDatabase
  present := by
    intro parameter member
    have sent : parameter ∈ c.sentParameters call.parameters := member
    rw [call.sentParameters_parameters s.database isDatabase, List.mem_append] at sent
    rcases sent with given | added
    · simpa using (List.mem_filter.mp given).2
    · rcases List.mem_map.mp added with ⟨named, -, rfl⟩
      rfl
  body := rfl
  headers := rfl
  isScheme := rfl
  isName := by
    change c.username = _
    rw [isName, has.isName]
    rfl
  isPassword := by
    change c.password = _
    rw [isPassword, has.isPassword]
    rfl

/-- An environment that says nothing. -/
def noVariables : Variables :=
  ⟨none, none, none, none, none⟩

/-- Someone with a name and a password, a database, and more than one colon in the host. -/
def sampleSettings : Settings :=
  ⟨some "a:b:c", some (.number 1), some "admin", some "secret", some "BASIC", some "Documents"⟩

example : (make noVariables.environment sampleSettings.asked).map (·.url "values//p//") =
    .ok "http://a:b:c/v1/values//p" := rfl

end Connection

end DocumentGateway
