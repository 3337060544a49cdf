import PolicySync.Json.Parser
import PolicySync.Store.Basic
import PolicySync.Store.Target
import PolicySync.Text.Blank

/-!
# A store behind a web service

Each operation is one request below `/v1/policies`. A client builds the request and reads
the reply; what lies between them is any exchange of a request for a reply.
-/

namespace PolicySync

inductive Method where
  | get
  | put
  deriving DecidableEq, Repr

def Method.text : Method → String
  | .get => "GET"
  | .put => "PUT"

structure Request where
  method : Method
  target : String
  authorization : Option String
  /-- Sent as JSON. -/
  body : Option Json

structure Reply where
  status : Nat
  body : String
  deriving DecidableEq, Repr

namespace Reply

/-- A reply as it arrives: two statuses come without a body. -/
def arriving (status : Nat) (body : String) : Reply :=
  ⟨status, if status = 204 ∨ status = 304 then "" else body⟩

def isSuccess (r : Reply) : Bool := 200 ≤ r.status && r.status < 300

def statusError (r : Reply) (path : String) : StoreError := .status path r.status r.body

/-- The modules in a list of members, up to the first that is no text. -/
def textMembers (path : String) : List (String × Json) → Except StoreError (List (String × String))
  | [] => .ok []
  | (file, .string source) :: rest => (textMembers path rest).map ((file, source) :: ·)
  | (file, _) :: _ => .error (.nonTextModule path file)

/-- The modules in a policy document. -/
def modules (path : String) (document : Json) : Except StoreError PolicyModules :=
  match (document.member? "result").bind fun result => result.member? "modules" with
  | some (.object members) => (textMembers path members).map SortedMap.ofList
  | _ => .error (.missingModules path)

/-- What a reply to a read says: a missing policy is no error. -/
def readGet (path : String) (r : Reply) : Except StoreError (Option PolicyModules) :=
  if r.status = 404 then .ok none
  else if !r.isSuccess then .error (r.statusError path)
  else
    match Json.parse? r.body with
    | none => .error .request
    | some document => (modules path document).map some

/-- What a reply to a replacement says; its body does not matter. -/
def readPut (path : String) (r : Reply) : Except StoreError Unit :=
  if r.isSuccess then .ok () else .error (r.statusError path)

end Reply

/-- Where the service is, and the token it is given. -/
structure HttpClient where
  /-- What follows the authority in the service's base URL. -/
  base : String
  token : Option String
  deriving DecidableEq, Repr

namespace HttpClient

/-- The base without the slashes at its end. -/
def root (c : HttpClient) : List Char :=
  (c.base.toList.reverse.dropWhile (· = '/')).reverse

/-- What follows the authority in the URL of a policy. -/
def tail (c : HttpClient) (path : String) : String :=
  String.ofList c.root ++ "/v1/policies/" ++ path

def target? (c : HttpClient) (path : String) : Option String := Target.ofTail? (c.tail path)

/-- Whether a header may hold a text: no controls but the tab. -/
def isHeaderText (s : String) : Bool :=
  s.toList.all fun c => c = '\t' || (0x20 ≤ c.toNat && c.toNat ≠ 0x7F)

/-- The authorization header; none without a token. Outside, a token that no header can hold. -/
def authorization? (c : HttpClient) : Option (Option String) :=
  match c.token with
  | none => some none
  | some token =>
    if isHeaderText token then some (some (Text.trim ("Bearer " ++ token))) else none

/-- The request for a policy; none when its URL or its header cannot be built. -/
def request? (c : HttpClient) (method : Method) (path : String) (body : Option Json) :
    Option Request := do
  let target ← c.target? path
  let authorization ← c.authorization?
  return ⟨method, target, authorization, body⟩

def getRequest? (c : HttpClient) (path : String) : Option Request := c.request? .get path none

/-- The document that replaces the modules of a policy. -/
def putBody (modules : PolicyModules) : Json := .object [("modules", Json.ofTexts modules)]

def putRequest? (c : HttpClient) (path : String) (modules : PolicyModules) : Option Request :=
  c.request? .put path (some (putBody modules))

end HttpClient

/-- What becomes of a request: a reply, or none when the connection fails. -/
abbrev Exchange (σ : Type) := Request → σ → Option Reply × σ

namespace Exchange

/-- The reply to a request, if it could be built and answered. -/
def send {σ : Type} (x : Exchange σ) (request : Option Request) (s : σ) : Option Reply × σ :=
  match request with
  | none => (none, s)
  | some request => x request s

/-- No connection is ever accepted. -/
def refused {σ : Type} : Exchange σ := fun _ s => (none, s)

end Exchange

/-- The store that a client sees through an exchange. -/
def httpStore {σ : Type} (c : HttpClient) (x : Exchange σ) : PolicyStore σ where
  get path s :=
    match x.send (c.getRequest? path) s with
    | (none, s) => (.error .request, s)
    | (some reply, s) => (reply.readGet path, s)
  put path modules s :=
    match x.send (c.putRequest? path modules) s with
    | (none, s) => (.error .request, s)
    | (some reply, s) => (reply.readPut path, s)

end PolicySync
