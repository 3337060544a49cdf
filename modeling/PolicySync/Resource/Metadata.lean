import PolicySync.Json.Field
import PolicySync.Time.Reading

/-!
# Metadata of a resource

The metadata that every resource carries, as far as it matters here, and the name that the
resource has on the remote side.
-/

namespace PolicySync

structure Metadata where
  name : Option String
  generateName : Option String
  namespaceName : Option String
  uid : Option String
  annotations : Option (SortedMap String)
  generation : Option Int
  deriving DecidableEq

namespace Metadata

/-- The annotation that overrides the name on the remote side. -/
def externalNameKey : String := "policyward.dev/external-name"

/-- The name, else the stem that names are generated from, else nothing. -/
def displayName (m : Metadata) : String := (m.name.orElse fun _ => m.generateName).getD ""

/-- The name on the remote side: the annotation unless it is empty. -/
def externalName (m : Metadata) : String :=
  match m.annotations.bind fun a => a.get? externalNameKey with
  | some name => if name.isEmpty then m.displayName else name
  | none => m.displayName

/-- Whether a value is missing, null or readable. -/
def allows {α : Type} (fields : List (String × Json)) (name : String) (read : Json → Option α) :
    Bool :=
  (Json.optional? fields name read).isSome

def time? (j : Json) : Option Time.Timestamp := j.string?.bind Time.Timestamp.ofText?

def texts : List String := ["apiVersion", "fieldsType", "manager", "operation", "subresource"]

/-- An entry of the list of managers. -/
def managedFields? : Json → Option Unit
  | .object fields =>
    if texts.all (fun name => allows fields name Json.string?) && allows fields "time" time? then
      some ()
    else none
  | _ => none

/-- A reference to an owner. -/
def owner? : Json → Option Unit
  | .object fields =>
    if ["apiVersion", "kind", "name", "uid"].all (fun name => allows fields name Json.string?) &&
        ["blockOwnerDeletion", "controller"].all (fun name => allows fields name Json.bool?) then
      some ()
    else none
  | _ => none

/-- Whether the fields that are not kept have their types. -/
def restIsReadable (fields : List (String × Json)) : Bool :=
  ["resourceVersion", "selfLink"].all (fun name => allows fields name Json.string?) &&
    ["creationTimestamp", "deletionTimestamp"].all (fun name => allows fields name time?) &&
    allows fields "deletionGracePeriodSeconds" Json.int64? &&
    allows fields "finalizers" (Json.list? Json.string?) &&
    allows fields "labels" Json.texts? &&
    allows fields "managedFields" (Json.list? managedFields?) &&
    allows fields "ownerReferences" (Json.list? owner?)

/-- Reads metadata. Every field may be missing or null. -/
def ofJson? : Json → Option Metadata
  | .object fields => do
    let name ← Json.optional? fields "name" Json.string?
    let generateName ← Json.optional? fields "generateName" Json.string?
    let namespaceName ← Json.optional? fields "namespace" Json.string?
    let uid ← Json.optional? fields "uid" Json.string?
    let annotations ← Json.optional? fields "annotations" Json.texts?
    let generation ← Json.optional? fields "generation" Json.int64?
    if restIsReadable fields then
      return ⟨name, generateName, namespaceName, uid, annotations, generation⟩
    else none
  | _ => none

end Metadata

end PolicySync
