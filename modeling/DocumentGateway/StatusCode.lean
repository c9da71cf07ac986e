namespace DocumentGateway

/-!
# Status codes

The status codes that responses are told apart by.  A status that is not among them counts as
unknown, and an unknown status counts as an error.
-/

/-- A status code with its name and its description. -/
structure StatusCode where
  value : Nat
  name : String
  description : String
deriving DecidableEq

namespace StatusCode

def unknown : StatusCode :=
  ⟨0, "UNKNOWN_CODE", "Unknown"⟩

/-- All status codes, the unknown one first. -/
def all : List StatusCode := [
  unknown,
  ⟨100, "CONTINUE", "Continue"⟩,
  ⟨200, "OK", "OK"⟩,
  ⟨201, "CREATED", "Created"⟩,
  ⟨202, "ACCEPTED", "Accepted"⟩,
  ⟨204, "NO_CONTENT", "No Content or Updated (MarkLogic REST API)"⟩,
  ⟨205, "RESET_CONTENT", "Reset Content"⟩,
  ⟨206, "PARTIAL_CONTENT", "Partial Content"⟩,
  ⟨300, "MULTIPLE_CHOICES", "Multiple Choices"⟩,
  ⟨301, "MOVED_PERMANENTLY", "Moved Permanently"⟩,
  ⟨302, "FOUND", "Found"⟩,
  ⟨303, "SEE_OTHER", "See Other"⟩,
  ⟨304, "NOT_MODIFIED", "Not Modified"⟩,
  ⟨305, "USE_PROXY", "Use Proxy"⟩,
  ⟨307, "TEMPORARY_REDIRECT", "Temporary Redirect"⟩,
  ⟨400, "BAD_REQUEST", "Bad Request"⟩,
  ⟨401, "UNAUTHORIZED", "Unauthorized"⟩,
  ⟨402, "PAYMENT_REQUIRED", "Payment Required"⟩,
  ⟨403, "FORBIDDEN", "Forbidden"⟩,
  ⟨404, "NOT_FOUND", "Not Found"⟩,
  ⟨405, "METHOD_NOT_ALLOWED", "Method Not Allowed"⟩,
  ⟨406, "NOT_ACCEPTABLE", "Not Acceptable"⟩,
  ⟨407, "PROXY_AUTHENTICATION_REQUIRED", "Proxy Authentication Required"⟩,
  ⟨408, "REQUEST_TIMEOUT", "Request Timeout"⟩,
  ⟨409, "CONFLICT", "Conflict"⟩,
  ⟨410, "GONE", "Gone"⟩,
  ⟨411, "LENGTH_REQUIRED", "Length Required"⟩,
  ⟨412, "PRECONDITION_FAILED", "Precondition Failed"⟩,
  ⟨413, "REQUEST_ENTITY_TOO_LARGE", "Request Entity Too Large"⟩,
  ⟨414, "REQUEST_URI_TOO_LONG", "Request URI Too Long"⟩,
  ⟨415, "UNSUPPORTED_MEDIA_TYPE", "Unsupported Media Type"⟩,
  ⟨416, "REQUEST_RANGE_BAD", "Request Range Not Satisfiable"⟩,
  ⟨417, "EXPECTATION_FAILED", "Expectation Failed"⟩,
  ⟨500, "INTERNAL_SERVER_ERROR", "Internal Server Error"⟩,
  ⟨501, "NOT_IMPLEMENTED", "Not Implemented"⟩,
  ⟨502, "BAD_GATEWAY", "Bad Gateway"⟩,
  ⟨503, "SERVICE_UNAVAILABLE", "Service Unavailable"⟩,
  ⟨504, "GATEWAY_TIMEOUT", "Gateway Timeout"⟩,
  ⟨505, "HTTP_VERSION_NOT_SUPPORTED", "HTTP Version Not Supported"⟩]

/-- The code of a status. -/
def ofStatus (status : Int) : StatusCode :=
  (all.find? fun code => (code.value : Int) = status).getD unknown

def isSuccess (code : StatusCode) : Bool :=
  200 ≤ code.value && code.value < 300

def isError (code : StatusCode) : Bool :=
  400 ≤ code.value || code.value == 0

end StatusCode

end DocumentGateway
