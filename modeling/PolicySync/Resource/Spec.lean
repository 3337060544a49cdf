import PolicySync.Json.Field
import PolicySync.Labels
import PolicySync.Selectors

/-!
# What resources ask for

A system asks for labels, a stack for selectors. Both have a type and may have a description.
-/

namespace PolicySync

structure SystemSpec where
  type : String
  description : Option String
  labels : Labels
  deriving DecidableEq

structure StackSpec where
  type : String
  description : Option String
  selectors : Selectors
  deriving DecidableEq

namespace Selector

def ofJson? : Json → Option Selector := Json.map? (Json.list? Json.string?)

def toJson (s : Selector) : Json :=
  .object (s.entries.map fun e => (e.1, .array (e.2.map .string)))

end Selector

namespace SystemSpec

def fieldNames : List String := ["type", "description", "labels"]

/-- Reads a spec; labels that are missing are empty. -/
def ofJson? (j : Json) : Option SystemSpec := do
  let fields ← Json.record? fieldNames 2 j
  let type ← Json.required? fields "type" Json.string?
  let description ← Json.optional? fields "description" Json.string?
  let labels ← Json.defaulted? fields "labels" .empty Json.texts?
  return ⟨type, description, labels⟩

def toJson (s : SystemSpec) : Json :=
  .ofMembers
    [("type", .string s.type), ("description", .ofOption (s.description.map .string)),
      ("labels", .ofTexts s.labels)]

/-- The labels that are to be stored. -/
def desiredLabels (s : SystemSpec) : Labels := Labels.desired s.type s.labels

end SystemSpec

namespace StackSpec

def fieldNames : List String := ["type", "description", "selectorInclude", "selectorExclude"]

/-- Reads a spec; selectors that are missing are empty. -/
def ofJson? (j : Json) : Option StackSpec := do
  let fields ← Json.record? fieldNames 2 j
  let type ← Json.required? fields "type" Json.string?
  let description ← Json.optional? fields "description" Json.string?
  let incl ← Json.defaulted? fields "selectorInclude" .empty Selector.ofJson?
  let excl ← Json.defaulted? fields "selectorExclude" .empty Selector.ofJson?
  return ⟨type, description, ⟨incl, excl⟩⟩

def toJson (s : StackSpec) : Json :=
  .ofMembers
    [("type", .string s.type), ("description", .ofOption (s.description.map .string)),
      ("selectorInclude", s.selectors.incl.toJson), ("selectorExclude", s.selectors.excl.toJson)]

end StackSpec

end PolicySync
