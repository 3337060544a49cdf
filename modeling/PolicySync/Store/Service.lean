import PolicySync.Json.Printer
import PolicySync.Store.Http
import PolicySync.Store.Memory

/-!
# The policy service

The service that the client talks to: it keeps module maps by path, and can be told to
answer some requests with a failure.
-/

namespace PolicySync

structure PolicyService where
  policies : Policies
  /-- The statuses of the requests that fail. -/
  failures : List ((Method × String) × Nat)
  /-- The methods that were tried at each path, in order. -/
  calls : SortedMap (List Method)
  /-- The header of the last request. -/
  authorization : Option String

namespace PolicyService

/-- A service without past. -/
def start (policies : Policies) (failures : List ((Method × String) × Nat)) : PolicyService :=
  ⟨policies, failures, .empty, none⟩

def failureBody : String := "policy API failure"

/-- The path that a target names below the root of the service. -/
def path? (root : List Char) (target : String) : Option String :=
  let front := root ++ "/v1/policies/".toList
  if front.isPrefixOf target.toList then
    some (String.ofList (target.toList.drop front.length))
  else none

/-- Notes that a request came in. -/
def note (s : PolicyService) (path : String) (r : Request) : PolicyService :=
  { s with
    calls := s.calls.insert path ((s.calls.get? path).getD [] ++ [r.method])
    authorization := r.authorization }

/-- The document that shows the modules of a policy. -/
def document (modules : PolicyModules) : Json :=
  .object [("result", .object [("modules", Json.ofTexts modules)])]

def replyText : Option PolicyModules → Reply
  | none => ⟨404, "\x7b\x7d"⟩
  | some modules => ⟨200, (document modules).text⟩

/-- The modules that a request wants to store. -/
def sentModules (r : Request) : PolicyModules :=
  match r.body.bind fun body => body.member? "modules" with
  | some (.object members) =>
    SortedMap.ofList (members.filterMap fun e => e.2.string?.map fun source => (e.1, source))
  | _ => .empty

/-- Answers a request for a path. -/
def answer (path : String) (r : Request) (s : PolicyService) : Reply × PolicyService :=
  match s.failures.lookup (r.method, path) with
  | some status => (.arriving status failureBody, s)
  | none =>
    match r.method with
    | .get => (replyText (s.policies.get? path), s)
    | .put => (⟨200, "\x7b\x7d"⟩, { s with policies := s.policies.insert path (sentModules r) })

/-- The service at a root. A target outside of it is not found. -/
def serve (root : List Char) : Exchange PolicyService := fun r s =>
  match path? root r.target with
  | none => (some ⟨404, ""⟩, s)
  | some path =>
    let (reply, s) := answer path r (s.note path r)
    (some reply, s)

end PolicyService

end PolicySync
