import DocumentGateway.Document
import DocumentGateway.ErrorEnvelope

namespace DocumentGateway

/-!
# Connections

A connection knows where a server is and who asks.  Each of its operations sends one request and
makes a response of the reply; without credentials nothing is sent.  The server is a function from
requests to answers, so that everything but the network is decided here.  It is assumed that any name
and any password can be made into a proof of who asks.  Those with a surrogate in them cannot, and such
a request fails before it is sent.
-/

/-- The ways of proving who asks. -/
inductive Scheme where
  | digest
  | basic
deriving DecidableEq

/-- What the environment says about connections. -/
structure Environment where
  host : Value
  port : Value
  username : Value
  password : Value
  scheme : Value

/-- What holds where an environment says nothing. -/
def Environment.withDefaults (e : Environment) : Environment where
  host := e.host.orElse (.text "localhost")
  port := e.port.orElse (.int 8000)
  username := e.username
  password := e.password
  scheme := e.scheme.orElse (.text "digest")

/-- A connection.  Its settings may be any values, and one that is null is absent. -/
structure Connection where
  host : Value
  port : Value
  username : Value
  password : Value
  scheme : Value
  database : Value

/-- What is sent to a server.  It says who asks and how that is to be proved; the proof itself is made
on the way. -/
structure Request where
  method : Text
  url : Text
  parameters : OrderedPairs Text Value
  body : Option Bytes
  headers : Option Headers
  scheme : Scheme
  username : Value
  password : Value

/-- What comes of sending a request: a reply, or a failure on the way. -/
inductive Answer where
  | reply (r : Reply)
  | failure (kind : String) (message : Text)
deriving DecidableEq

abbrev Server := Request → Answer

/-- What an operation sent and how it went on. -/
structure Exchange where
  sent : Option Request
  run : Run Response

namespace Connection

/-- The host and the port in a host, if a colon parts them. -/
def splitHost? (host : Text) : Option (Text × Text) :=
  match host.dropWhile (· ≠ .scalar ':') with
  | [] => none
  | _ :: port => some (host.takeWhile (· ≠ .scalar ':'), port)

/-- A connection by what is asked for, with the environment to fall back on.  A port in the host
comes before any other. -/
def make (e : Environment) (asked : Connection) : Except Fault Connection :=
  let host := asked.host.orElse e.host
  let port := asked.port.orElse e.port
  let (host, port) := match host with
    | .text t => (splitHost? t).elim (host, port) fun parts => (.text parts.1, .text parts.2)
    | _ => (host, port)
  let scheme := Headers.lowerCase (asked.scheme.orElse e.scheme).textOrEmpty
  if scheme = "digest" ∨ scheme = "basic" then
    .ok ⟨host, port, asked.username.orElse e.username, asked.password.orElse e.password,
      .text scheme, asked.database⟩
  else .error (.unsupportedScheme asked.scheme)

/-- An endpoint without slashes at its ends. -/
def bareEndpoint (endpoint : Text) : Text :=
  trimBy (· = .scalar '/') endpoint

/-- The address of an endpoint. -/
def url (c : Connection) (endpoint : Text) : Text :=
  "http://" ++ c.host.asText ++ Text.ofString ":" ++ c.port.asText ++
    Text.ofString "/v1/" ++ bareEndpoint endpoint

/-- The way in which a connection proves who asks.  It needs a name and a password. -/
def credentials (c : Connection) : Except Fault Scheme :=
  if c.username.isFilled && c.password.isFilled then
    .ok (if c.scheme.isText "basic" then .basic else .digest)
  else .error .noCredentials

/-- The parameters that are sent: those that are not absent, and the database unless they name
one. -/
def sentParameters (c : Connection) (parameters : OrderedPairs Text Value) :
    OrderedPairs Text Value :=
  let given : OrderedPairs Text Value :=
    parameters.filter fun parameter => !parameter.2.isNull
  if c.database.isNull || OrderedPairs.holds given "database" then given
  else given ++ [(Text.ofString "database", c.database)]

/-- Pairs as messages show them. -/
def shownPairs (pairs : List (Text × Value)) : Text :=
  shownText (.mapping (pairs.map fun pair => (.text pair.1, pair.2)))

/-- What is reported about a request. -/
def requestLine (r : Request) : Text :=
  let headers := match r.headers with
    | some headers => shownPairs (headers.map fun header => (header.1, .text header.2))
    | none => "None"
  "@@@>> " ++ r.method ++ Text.ofString " URL: " ++ r.url ++ Text.ofString "  ::  PARAMS: " ++
    shownPairs r.parameters ++
    Text.ofString "  ::  HEADERS: " ++ headers

/-- The response to an answer. -/
def receive : Answer → Run Response
  | .reply reply => do
    let r ← Response.ofReply reply
    Run.debug ("@@@RES>> " ++ Text.ofString r.shown)
    return r
  | .failure kind message => Run.fail (.transport kind message)

/-- Send a request to an endpoint. -/
def send (c : Connection) (server : Server) (method endpoint : Text)
    (parameters : OrderedPairs Text Value) (body : Option Bytes) (headers : Option Headers) :
    Exchange :=
  match c.credentials with
  | .error fault => ⟨none, Run.fail fault⟩
  | .ok scheme =>
    let request : Request :=
      ⟨method, c.url endpoint, c.sentParameters parameters, body, headers, scheme, c.username,
        c.password⟩
    ⟨some request, do
      Run.debug (requestLine request)
      receive (server request)⟩

/-! ## Operations -/

/-- Fetch a document, possibly asking for a media type. -/
def getDocument (c : Connection) (server : Server) (uri accept : Value) : Exchange :=
  let headers : Option Headers :=
    if accept.isNull then none else some [("accept", accept.asText)]
  c.send server "GET" "documents" [("uri", uri)] none headers

/-- Create or replace a document.  Its content is sent with its media type. -/
def saveDocument (c : Connection) (server : Server) (uri : Value) (d : Document) : Exchange :=
  match d.content.octets with
  | .error fault => ⟨none, Run.fail fault⟩
  | .ok body =>
    c.send server "PUT" "documents" [("uri", uri)] (some body)
      (some [("content-type", d.mimeType)])

def deleteDocument (c : Connection) (server : Server) (uri : Value) : Exchange :=
  c.send server "DELETE" "documents" [("uri", uri)] none none

/-- Fetch the metadata of a document. -/
def getMetadata (c : Connection) (server : Server) (uri category : Value) : Exchange :=
  c.send server "GET" "documents" [("uri", uri), ("category", category), ("format", .text "json")]
    none none

/-- Ask for suggestions that complete a partial query. -/
def suggest (c : Connection) (server : Server) (partialQuery query options limit : Value) :
    Exchange :=
  c.send server "GET" "suggest"
    [("partial-q", partialQuery), ("q", query), ("options", options), ("limit", limit)] none
    (some [("accept", MediaType.json)])

/-- Compute aggregates of named values. -/
def values (c : Connection) (server : Server) (name : Text)
    (aggregate options aggregatePath : Value) : Exchange :=
  c.send server "GET" ("values/" ++ name)
    [("aggregate", aggregate), ("aggregatePath", aggregatePath), ("options", options),
      ("format", .text "json")] none none

end Connection

end DocumentGateway
