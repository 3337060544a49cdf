import PolicySync.PackagePath
import PolicySync.Policy.Compile

/-!
# Selectors of a stack

Selectors are stored as two literals in the body of a policy rule, and read back from
the rule's terms. What does not have the shape of a selector is skipped.
-/

namespace PolicySync

open PolicySync.Policy PolicySync.Text

/-- Accepted values for each key. -/
abbrev Selector := SortedMap (List String)

structure Selectors where
  incl : Selector
  excl : Selector
  deriving DecidableEq

namespace Selector

def renderMember (value : String) : String :=
  "            " ++ Quoted.quote value ++ ",\n"

/-- The empty set is written as a call, because empty braces are an object. -/
def renderEntry (entry : String × List String) : String :=
  if entry.2.isEmpty then "        " ++ Quoted.quote entry.1 ++ ": set(),\n"
  else
    "        " ++ Quoted.quote entry.1 ++ ": \x7b\n" ++
      String.join (entry.2.map renderMember) ++ "        \x7d,\n"

/-- The statement that binds a selector to a name. -/
def renderBinding (name : String) (s : Selector) : String :=
  "    " ++ name ++ " := \x7b\n" ++ String.join (s.entries.map renderEntry) ++ "    \x7d\n"

/-- The strings among the members of a set. -/
def stringMembers (items : List Term) : List String :=
  items.filterMap fun
    | .string s => some s
    | _ => none

/-- The fields with a string key and a set. -/
def ofFields (fields : List (Term × Term)) : Selector :=
  SortedMap.ofList <| fields.filterMap fun
    | (.string key, .set items) => some (key, stringMembers items)
    | _ => none

/-- The selector of a call that relates a variable, written as `name`, to an object. -/
def ofClause? (locals : Locals) (name : String) (c : Clause) : Option Selector :=
  match c.payload with
  | .call [_, .var v, .object fields] =>
    if locals.resolve v = name then some (ofFields fields) else none
  | _ => none

/-- The selector bound to a variable in the bodies of a rule; empty when there is none. -/
def ofRule (r : Rule) (locals : Locals) (name : String) : Selector :=
  (r.bodies.flatten.findSome? (ofClause? locals name)).getD .empty

/-- Whether two lists have the same members. -/
def sameMembers (a b : List String) : Bool :=
  a.all b.contains && b.all a.contains

/-- Whether two selectors have the same keys and for each key the same set of values. -/
def same (a b : Selector) : Bool :=
  a.size = b.size && a.entries.all fun e =>
    match b.get? e.1 with
    | some values => sameMembers e.2 values
    | none => false

end Selector

namespace Selectors

def empty : Selectors := ⟨.empty, .empty⟩

/-- The file that holds the selectors. -/
def fragment : String := "selector.rego"

/-- The rule in whose body the selectors stand. -/
def rule : String := "systems"

/-- The package of the matching helper. -/
def matchHelper : String := "data.library.v1.utils.labels.match.v1"

/-- The module that holds the selectors of a stack. -/
def render (id : String) (s : Selectors) : String :=
  "package " ++ packagePath "stacks" id "selectors" ++ "\n\nimport " ++ matchHelper ++
    " as match\nimport rego.v1\n\n" ++ rule ++ " contains system_id if \x7b\n" ++
    s.incl.renderBinding "include" ++ "\n" ++ s.excl.renderBinding "exclude" ++ "\n" ++
    "    metadata := data.metadata[system_id]\n" ++
    "    match.all(metadata.labels.labels, include, exclude)\n\x7d\n"

/-- The selectors in compiled fragments; empty when the rule is missing. -/
def extract (c : Compiled) : Selectors :=
  match c.rule? fragment rule with
  | none => empty
  | some r => ⟨.ofRule r c.locals "include", .ofRule r c.locals "exclude"⟩

/-- The selectors in a stored module. -/
def decode (source : String) : Except PolicyError Selectors := do
  let c ← compile [(fragment, source), matchHelperFragment]
  return extract c

/-- Whether both groups are the same. -/
def same (a b : Selectors) : Bool :=
  a.incl.same b.incl && a.excl.same b.excl

end Selectors

end PolicySync
