import PolicySync.PackagePath
import PolicySync.Policy.Compile

/-!
# Labels of a system

Labels are stored as a policy module with one rule, and read back by evaluating it.
-/

namespace PolicySync

open PolicySync.Policy PolicySync.Text

abbrev Labels := SortedMap String

namespace Labels

/-- The file that holds the labels. -/
def fragment : String := "labels.rego"

/-- The reserved label for the type of a system. -/
def typeKey : String := "system-type"

/-- The labels with the reserved one set to the type of the system. -/
def desired (systemType : String) (labels : Labels) : Labels :=
  labels.insert typeKey systemType

def renderEntry (entry : String × String) : String :=
  "    " ++ Quoted.quote entry.1 ++ ": " ++ Quoted.quote entry.2 ++ ",\n"

/-- The module that holds the labels of a system. -/
def render (id : String) (labels : Labels) : String :=
  "package " ++ packagePath "metadata" id "labels" ++ "\n\nimport rego.v1\n\nlabels := \x7b\n" ++
    String.join (labels.entries.map renderEntry) ++ "\x7d\n"

/-- The query for the labels rule of a system. -/
def query (id : String) : String :=
  "data." ++ packagePath "metadata" id "labels" ++ ".labels"

/-- The fields of an object whose key and value are strings. -/
def ofFields (fields : List (Value × Value)) : List (String × String) :=
  fields.filterMap fun
    | (.string key, .string value) => some (key, value)
    | _ => none

/-- The entries that a row of the query gives. -/
def ofRow : List Value → List (String × String)
  | .object fields :: _ => ofFields fields
  | _ => []

/-- The labels that compiled fragments define for a system; none when its rule is missing. -/
def extract (c : Compiled) (id : String) : Except PolicyError Labels :=
  if c.defines ["metadata", id, "labels"] "labels" then
    (c.query (query id)).map fun rows => SortedMap.ofList (rows.flatMap ofRow)
  else .ok .empty

/-- The labels of a system in a stored module. -/
def decode (id source : String) : Except PolicyError Labels := do
  let c ← compile [(fragment, source)]
  extract c id

/-- Whether two label maps have the same keys with the same values. -/
def same (a b : Labels) : Bool :=
  a.size = b.size && a.entries.all fun e => b.get? e.1 = some e.2

end Labels

end PolicySync
