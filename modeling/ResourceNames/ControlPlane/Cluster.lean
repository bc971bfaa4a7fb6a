import ResourceNames.ControlPlane.Basic
import ResourceNames.ControlPlane.Typed
import ResourceNames.Json.Parser
import ResourceNames.Json.Printer

/-!
# A cluster as control plane

Definitions are listed, and objects created, by requests to the API server of a cluster. The answers
that the server is going to give stand in a queue.
-/

namespace ResourceNames

/-- An answer of the server. -/
structure ServerAnswer where
  status : Nat
  body : String
  deriving DecidableEq, Repr

/-- A request to the server. -/
structure ServerRequest where
  method : String
  uri : String
  /-- The entries of the object that is sent, in their order and with repeats. -/
  body : Option (List (String × Json))
  deriving DecidableEq, Repr

/-- The object that a request sends. Of entries with one key the last counts. -/
def ServerRequest.json (r : ServerRequest) : Json :=
  match r.body with
  | some entries => .object entries
  | none => .null

/-- The API server of a cluster. -/
structure ClusterPlane where
  /-- Whether objects are only checked and not kept. -/
  dryRun : Bool := false
  /-- The answers to come; after them the server knows nothing. -/
  answers : List ServerAnswer := []
  /-- The requests so far. -/
  requests : List ServerRequest := []

namespace ClusterPlane

/-- The wording of a status. -/
def statusText (status : Nat) : String :=
  let names : List (Nat × String) :=
    [(400, "Bad Request"), (401, "Unauthorized"), (402, "Payment Required"), (403, "Forbidden"),
      (404, "Not Found"), (405, "Method Not Allowed"), (406, "Not Acceptable"),
      (407, "Proxy Authentication Required"), (408, "Request Timeout"), (409, "Conflict"),
      (410, "Gone"), (411, "Length Required"), (412, "Precondition Failed"),
      (413, "Payload Too Large"), (414, "URI Too Long"), (415, "Unsupported Media Type"),
      (416, "Range Not Satisfiable"), (417, "Expectation Failed"), (418, "I'm a teapot"),
      (421, "Misdirected Request"), (422, "Unprocessable Entity"), (423, "Locked"),
      (424, "Failed Dependency"), (425, "Too Early"), (426, "Upgrade Required"),
      (428, "Precondition Required"), (429, "Too Many Requests"),
      (431, "Request Header Fields Too Large"), (451, "Unavailable For Legal Reasons"),
      (500, "Internal Server Error"), (501, "Not Implemented"), (502, "Bad Gateway"),
      (503, "Service Unavailable"), (504, "Gateway Timeout"), (505, "HTTP Version Not Supported"),
      (506, "Variant Also Negotiates"), (507, "Insufficient Storage"), (508, "Loop Detected"),
      (510, "Not Extended"), (511, "Network Authentication Required")]
  let name := ((names.find? (·.1 = status)).map (·.2)).getD "<unknown status code>"
  s!"{status} {name}"

/-- A text entry that may be missing. -/
def optionalText? (v : Json) (key : String) : Option String := Resource.optionalText? v key

/-- The error that the body of an answer describes. -/
def describedError? (body : String) : Option ApiError := do
  let v ← Json.parse? body
  let status ← v.getText? "status"
  let message ← optionalText? v "message"
  let reason ← optionalText? v "reason"
  let code ← (← v.get? "code").nat?
  if twoTo 16 ≤ code then none else some (.refused status message reason code)

/-- The error of an answer that reports one. -/
def errorOf (a : ServerAnswer) : ApiError :=
  (describedError? a.body).getD
    (.refused (statusText a.status) (ApiError.quoted a.body) "Failed to parse error data" a.status)

/-- The answer that comes next. -/
def nextAnswer : List ServerAnswer → ServerAnswer
  | [] => ⟨404, "\x7b\x7d"⟩
  | a :: _ => a

/-- Sends a request; the text of the answer, unless it reports an error. -/
def send (r : ServerRequest) : Lookup ClusterPlane String := do
  let plane ← get
  set { plane with answers := plane.answers.tail, requests := plane.requests ++ [r] }
  let a := nextAnswer plane.answers
  if 400 ≤ a.status ∧ a.status < 600 then throw (.api (errorOf a))
  return a.body

/-- What is wrong with a text that lacks an entry. -/
def missingEntry (body key : String) : DirectoryError :=
  .api (.unreadable s!"missing field \x60{key}\x60 at line 1 column {body.utf8ByteSize}")

/-- The definitions in the answer to a listing. -/
def readListing (body : String) : Except DirectoryError (List Json) :=
  match Json.parse? body with
  | none => .error (.api (.unreadable "*"))
  | some v =>
    match v.get? "items" with
    | none => .error (missingEntry body "items")
    | some items =>
      match items.items?.bind fun vs => vs.mapM Typed.definition? with
      | some documents => .ok documents
      | none => .error (.api (.unreadable "*"))

def listing : Lookup ClusterPlane (List Json) := do
  let body ← send
    { method := "GET", uri := "/apis/apiextensions.k8s.io/v1/customresourcedefinitions?"
      body := none }
  liftExcept (readListing body)

/-- The statuses of objects that are not admitted. -/
def rejectionCodes : List Nat := [400, 403, 422]

/-- The entries of an object to be created: its type, its name, and after these the values, of which
one named like an entry before it replaces it. -/
def objectEntries (d : TypeDescriptor) (namespaceName name : String) (object : Json) :
    List (String × Json) :=
  [("apiVersion", .str s!"{d.group}/{d.version}"), ("kind", .str d.kind),
    ("metadata", .object [("name", .str name), ("namespace", .str namespaceName)])] ++
    object.entries?.getD []

def create (d : TypeDescriptor) (namespaceName name : String) (object : Json) :
    Lookup ClusterPlane Unit := do
  let path := s!"/apis/{d.group}/{d.version}/namespaces/{namespaceName}/{d.plural}?"
  let request : ServerRequest :=
    { method := "POST", uri := path ++ if (← get).dryRun then "&dryRun=All" else ""
      body := some (objectEntries d namespaceName name object) }
  let body ← tryCatch (send request) fun e =>
    match e with
    | .api (.refused status message reason code) =>
      if code ∈ rejectionCodes then throw (.schemaViolation d.typeKey message)
      else throw (.api (.refused status message reason code))
    | e => throw e
  match Json.parse? body with
  | none => throw (.api (.unreadable "*"))
  | some v => if (v.get? "metadata").isNone then throw (missingEntry body "metadata")

instance : ControlPlane ClusterPlane where
  listingTime _ := 0
  beginListing p := p
  listing := listing
  create := create

end ClusterPlane

end ResourceNames
