import PolicySync.Policy.Call
import PolicySync.Policy.Local
import PolicySync.Policy.Query
import PolicySync.Policy.Term.OfTree

/-!
# Compiling fragments

Named source texts are read, their calls into `data` are checked against each other's
rules, and their local variables get unique names.
-/

namespace PolicySync.Policy

inductive PolicyError where
  /-- A fragment is no policy text. -/
  | malformed (fragment : String)
  /-- A call into `data` names no rule of the fragments. -/
  | undefinedFunction (fragment : String) (function : String)
  | evaluation (query : String)
  deriving DecidableEq, Repr

namespace PolicyError

/-- What went wrong, up to the point where the front end describes it in its own words. -/
def message : PolicyError → String
  | .malformed fragment => "cannot compile " ++ fragment ++ ": "
  | .undefinedFunction fragment function =>
    "cannot compile " ++ fragment ++ ": undefined function " ++ function
  | .evaluation query => "cannot evaluate " ++ query ++ ": "

def isCompileError : PolicyError → Bool
  | .evaluation _ => false
  | _ => true

end PolicyError

/-- Fragments compiled together: the view of each after renaming, and the trees that are
evaluated. -/
structure Compiled where
  modules : SortedMap Module
  locals : Locals
  trees : List ModuleTree

namespace Compiled

def module? (c : Compiled) (fragment : String) : Option Module := c.modules.get? fragment

/-- The first rule with a name in a fragment. -/
def rule? (c : Compiled) (fragment rule : String) : Option Rule :=
  (c.module? fragment).bind fun m => m.rule? rule

/-- Whether some fragment has a package and in it a rule with a name. -/
def defines (c : Compiled) (package : List String) (rule : String) : Bool :=
  c.modules.entries.any fun e => e.2.packagePath? = some package && (e.2.rule? rule).isSome

/-- The rows of a query over the fragments. -/
def query (c : Compiled) (text : String) : Except PolicyError (List (List Value)) :=
  match Query.parse? text with
  | none => .error (.evaluation text)
  | some query =>
    match evalQuery c.trees query with
    | .ok rows => .ok rows
    | .error _ => .error (.evaluation text)

end Compiled

/-- Reads the fragments in order, up to the first that cannot be read. -/
def readFragments : List (String × String) → Except PolicyError (List (String × ModuleTree))
  | [] => .ok []
  | (name, source) :: rest =>
    match ModuleTree.parse? source with
    | none => .error (.malformed name)
    | some tree => (readFragments rest).map ((name, tree) :: ·)

/-- The view of each fragment before renaming; of several with one name the last is kept. -/
def lowerFragments (trees : List (String × ModuleTree)) : SortedMap Module :=
  SortedMap.ofList (trees.map fun t => (t.1, Module.ofTree t.2))

/-- Compiles named source texts together. -/
def compile (fragments : List (String × String)) : Except PolicyError Compiled := do
  let trees ← readFragments fragments
  let modules := lowerFragments trees
  match undefinedCall? modules with
  | some (fragment, function) => .error (.undefinedFunction fragment function)
  | none =>
    let (entries, locals) := renameModules modules.entries []
    return ⟨SortedMap.ofList entries, locals, trees.map (·.2)⟩

/-- The fragment that stands in for the selector matching helper. -/
def matchHelperFragment : String × String :=
  ("mock.rego",
    "package library.v1.utils.labels.match.v1\n\nimport rego.v1\n\n" ++
      "all(labels, incl, excl) if \x7b\n\ttrue\n\x7d\n")

end PolicySync.Policy
