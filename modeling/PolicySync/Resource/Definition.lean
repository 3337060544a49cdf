import PolicySync.Json.Yaml
import PolicySync.Reconcile

/-!
# Definitions of the resources

What a cluster has to be told about the two kinds of resource: their names, and the schema
of their fields.
-/

namespace PolicySync.Definition

/-- The type of a field, as far as a cluster checks it. -/
inductive Shape where
  | flag
  | integer
  | text
  /-- A text with a least and a greatest length. -/
  | sizedText (least greatest : Nat)
  | texts
  /-- A map that is empty when it is missing. -/
  | map (values : Shape)

/-- The members of a schema for a shape. -/
def Shape.members : Shape → List (String × Json)
  | .flag => [("type", .string "boolean")]
  | .integer => [("type", .string "integer"), ("format", .string "int64")]
  | .text => [("type", .string "string")]
  | .sizedText least greatest =>
    [("type", .string "string"), ("minLength", .ofInt least), ("maxLength", .ofInt greatest)]
  | .texts =>
    [("type", .string "array"), ("items", .object [("type", .string "string")])]
  | .map values =>
    [("type", .string "object"), ("additionalProperties", .ofMembers values.members),
      ("default", .object [])]

/-- How a field may be left out. -/
inductive Presence where
  | required
  | nullable
  | defaulted
  deriving DecidableEq

structure Field where
  name : String
  description : String
  shape : Shape
  presence : Presence

def nullableMark : List (String × Json) := [("nullable", .bool true)]

def Field.schema (f : Field) : Json :=
  .ofMembers <| ("description", .string f.description) :: f.shape.members ++
    (if f.presence = .nullable then nullableMark else [])

/-- The members of the schema of an object. -/
def objectMembers (description : String) (properties : List (String × Json))
    (required : List String) : List (String × Json) :=
  [("description", .string description), ("properties", .ofMembers properties),
    ("required", .array (required.map .string)), ("type", .string "object")]

/-- The members of the schema of a record of fields. -/
def recordMembers (description : String) (fields : List Field) : List (String × Json) :=
  objectMembers description (fields.map fun f => (f.name, f.schema))
    ((fields.filter fun f => f.presence = .required).map (·.name))

def statusFields : List Field :=
  [⟨"policyPath", "Path of the policy holding the generated module", .text, .required⟩,
    ⟨"upToDate", "Whether the stored policy matched the spec after the last reconciliation", .flag,
      .required⟩,
    ⟨"lastSynced", "RFC 3339 timestamp of the last successful reconciliation", .text, .nullable⟩,
    ⟨"observedGeneration", "Generation of the resource observed by the last reconciliation",
      .integer, .nullable⟩,
    ⟨"message", "Outcome of the last reconciliation", .text, .nullable⟩]

def statusSchema : Json :=
  .ofMembers <| nullableMark ++
    recordMembers "Status shared by every resource whose state is kept as policy source"
      statusFields

def descriptionField : Field := ⟨"description", "Human readable description", .text, .nullable⟩

/-- Both kinds have a type of this length, because it can become the value of a label. -/
def typeShape : Shape := .sizedText 1 63

def systemFields : List Field :=
  [⟨"type", "Category of the system (e.g., \"kubernetes\", \"envoy\", \"custom\"),\n" ++
      "recorded under the reserved \x60system-type\x60 label", typeShape, .required⟩,
    descriptionField,
    ⟨"labels", "Labels stored as policy next to the system", .map .text, .defaulted⟩]

def stackFields : List Field :=
  [⟨"type", "Category of the systems this stack applies to", typeShape, .required⟩,
    descriptionField,
    ⟨"selectorInclude", "Label selectors a system must match to be part of the stack",
      .map .texts, .defaulted⟩,
    ⟨"selectorExclude", "Label selectors that remove a system from the stack", .map .texts,
      .defaulted⟩]

/-- The definition of a kind of resource. -/
structure Kind where
  kind : ResourceKind
  singular : String
  plural : String
  shortName : String
  fields : List Field

def group : String := "policyward.dev"

def version : String := "v1alpha1"

def Kind.specSchema (k : Kind) : Json :=
  .ofMembers (recordMembers ("Spec object for the \x60" ++ k.kind.text ++ "\x60 CRD") k.fields)

def Kind.schema (k : Kind) : Json :=
  .ofMembers <| ("title", .string k.kind.text) ::
    objectMembers
      ("Auto-generated derived type for " ++ k.kind.text ++ "Spec via \x60CustomResource\x60")
      [("spec", k.specSchema), ("status", statusSchema)] ["spec"]

/-- The document that defines a kind. -/
def Kind.document (k : Kind) : Json :=
  .ofMembers
    [("apiVersion", .string "apiextensions.k8s.io/v1"),
      ("kind", .string "CustomResourceDefinition"),
      ("metadata", .object [("name", .string (k.plural ++ "." ++ group))]),
      ("spec", .ofMembers
        [("group", .string group),
          ("names", .ofMembers
            [("categories", .array []), ("kind", .string k.kind.text), ("plural", .string k.plural),
              ("shortNames", .array [.string k.shortName]), ("singular", .string k.singular)]),
          ("scope", .string "Namespaced"),
          ("versions", .array [.ofMembers
            [("additionalPrinterColumns", .array []), ("name", .string version),
              ("schema", .object [("openAPIV3Schema", k.schema)]), ("served", .bool true),
              ("storage", .bool true), ("subresources", .object [("status", .object [])])]])])]

def system : Kind := ⟨.system, "system", "systems", "sys", systemFields⟩

def stack : Kind := ⟨.stack, "stack", "stacks", "stk", stackFields⟩

/-- The file that a kind is defined in. -/
def Kind.file (k : Kind) : String := k.singular ++ "-crd.yaml"

/-- The definition files with their texts. -/
def files : List (String × String) := [system, stack].map fun k => (k.file, k.document.yaml)

end PolicySync.Definition
